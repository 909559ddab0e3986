import AirDap.Mode.Verified

/-! USB preemption and manual routes: a network claim that USB takes away was acquired under
another route than NETWORK, unless a route command crossed the preemption. -/
namespace AirDap
open Concurrency

variable {T H : Type} [DecidableEq T] [DecidableEq H] {user : H → T} {w : Device (H → Operation)}
  {σ : ModeConfig T H} {t : T} {c : ModeCall H}

omit [DecidableEq T] [DecidableEq H] in
/-- Thread `t` is about to take the pins from the network in the call `c`. -/
def TakesNetwork (σ : ModeConfig T H) (t : T) (c : ModeCall H) : Prop :=
  ∃ e d k, σ.thread t = .busy c (.casOwnership e d) k ∧ controlState e = ownerNetwork ∧
    σ.world.ownershipControl = e

/-- In a run in which no route command crossed a USB preemption, USB takes a claim of the
network only if it was acquired under another route than NETWORK. -/
theorem preemption_respects_route (hw : Fresh w) (hσ : (modeMachine user).Steps (.start w) σ)
    (hcross : ¬ Crossed σ.history) (htake : TakesNetwork σ t c) (hc : c.Preempts) :
    ∃ w', networkGrant σ.history = some w' ∧ routeOf w'.modeControl ≠ routeNetwork := by
  obtain ⟨γ, hsafe, htracks, hsane⟩ := mode_reachable hw hσ
  obtain ⟨e, d, k, hbusy, hstate, hword⟩ := htake
  have hlabel := Machine.Steps.labelled hσ (fun _ => trivial) t
  rw [hbusy] at hlabel
  obtain ⟨w₀, hcall⟩ := hlabel
  have hroute : routeOf σ.world.modeControl ≠ routeNetwork :=
    ((hsafe.pre hbusy).2.2 e d rfl hstate c w₀ hcall hc).resolve_left hcross
  have hold : γ.Holds .network := by
    rw [Arbiter.holds_iff_state, ← show σ.world.ownershipControl = γ.control from htracks, hword]
    exact hstate
  obtain ⟨w', hgrant, hsame⟩ := hsane.grant hold
  exact ⟨w', hgrant, fun h => hroute (hsame.symm.trans h)⟩

/-- The schedule in which the network acquires under AUTO and USB is attached. -/
def attachRun : ModeConfig (Fin 2) Empty :=
  (modeMachine Empty.elim).replay (fun _ => Device.answer ProbeIo.idleReply)
    ([(1, some (.dapAcquire ownerNetwork true (some .zero)))] ++ List.replicate 7 (1, none) ++
      [(0, some (.transition 1 .usbAttached))] ++ List.replicate 4 (0, none))
    (.start ⟨ownerNone, 0x86, 0, 0, Empty.elim⟩)

theorem attachRun_respects_route : TakesNetwork attachRun 0 (.transition 1 .usbAttached) ∧
    ∃ w', networkGrant attachRun.history = some w' ∧ routeOf w'.modeControl ≠ routeNetwork := by
  have hw : Fresh (⟨ownerNone, 0x86, 0, 0, Empty.elim⟩ : Device (Empty → Operation)) :=
    ⟨rfl, fun h => h.elim, by decide⟩
  have hrun : (modeMachine Empty.elim).Steps (.start ⟨ownerNone, 0x86, 0, 0, Empty.elim⟩)
      attachRun :=
    Machine.replay_steps (fun _ => Device.exec_answer _) _ _ fun _ _ _ _ _ h => h.elim
  have htake : TakesNetwork attachRun 0 (.transition 1 .usbAttached) :=
    ⟨_, _, _, rfl, by decide, by decide⟩
  exact ⟨htake, preemption_respects_route hw hrun (by decide) htake rfl⟩

/-- The schedule in which a command for the NETWORK route reads the counter before USB is
attached and installs the route after it. -/
def crossedRun : ModeConfig (Fin 3) Empty :=
  (modeMachine Empty.elim).replay (fun _ => Device.answer ProbeIo.idleReply)
    ([(1, some (.setDapRoute 2 routeNetwork))] ++ List.replicate 5 (1, none) ++
      [(0, some (.transition 1 .usbAttached))] ++ List.replicate 3 (0, none) ++
      List.replicate 3 (1, none) ++
      [(2, some (.dapAcquire ownerNetwork true (some .zero)))] ++ List.replicate 7 (2, none) ++
      [(0, none)])
    (.start ⟨ownerNone, 0x86, 0, 0, Empty.elim⟩)

/-- USB takes a claim that the network acquired under the NETWORK route. -/
theorem crossedRun_crosses_route :
    (modeMachine Empty.elim).Steps (.start ⟨ownerNone, 0x86, 0, 0, Empty.elim⟩) crossedRun ∧
    TakesNetwork crossedRun 0 (.transition 1 .usbAttached) ∧
    ∃ w', networkGrant crossedRun.history = some w' ∧ routeOf w'.modeControl = routeNetwork := by
  refine ⟨?_, ⟨_, _, _, rfl, by decide, by decide⟩, _, rfl, by decide⟩
  exact Machine.replay_steps (fun _ => Device.exec_answer _) _ _ fun _ _ _ _ _ h => h.elim

end AirDap
