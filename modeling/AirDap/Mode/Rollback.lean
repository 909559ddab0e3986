import AirDap.Mode.Verified

/-! What an acquire that fails and a probe that ends leave of the claims they created:
nothing, unless another operation had reserved the claim when it was to be released. -/
namespace AirDap
open Concurrency

/-- The word is held under the claim of generation `g`. -/
def HeldUnder (control : Word) (g : ℕ) : Prop :=
  isOwner (controlState control) = true ∧ (controlGeneration control).toNat = g

instance (control : Word) (g : ℕ) : Decidable (HeldUnder control g) :=
  inferInstanceAs (Decidable (_ ∧ _))

variable {T H : Type} [DecidableEq T] [DecidableEq H] {user : H → T} {w : Device (H → Operation)}
  {σ σ' : ModeConfig T H} {t : T} {c : ModeCall H} {v : c.Value} {γ : Arbiter T (H ⊕ T)}

omit [DecidableEq T] [DecidableEq H] in
theorem Arbiter.Dead.not_heldUnder {g : ℕ} (h : γ.Dead g) : ¬ HeldUnder γ.control g := by
  rintro ⟨howner, hgen⟩
  obtain ⟨o, ho⟩ := isOwner_iff.mp howner
  rw [Arbiter.controlGeneration_control, Arbiter.toNat_word] at hgen
  rcases h with hlt | ⟨-, hno⟩
  · omega
  · exact hno o (Arbiter.holds_iff_state.mpr ho)

theorem ModeVerified.dead (hσ : ModeVerified user σ γ) (hlater : (modeMachine user).Steps σ σ')
    {g : ℕ} (hdead : γ.Dead g) : ¬ HeldUnder σ'.world.ownershipControl g := by
  have hkeep (u : T) (s s' : ModeState T H) (hs : Tracks s ∧ s.ghost.Dead g)
      (hg : (modeDiscipline user).guar u s s') : Tracks s' ∧ s'.ghost.Dead g := by
    obtain ⟨m, hstep⟩ := hg.1.step
    exact ⟨hg.1.tracks, hstep.dead hs.2⟩
  obtain ⟨γ', -, htracks, hdead'⟩ :=
    Machine.Steps.safe (mode_verifies user) hkeep hlater hσ.1 ⟨hσ.2.1, hdead⟩
  rw [show σ'.world.ownershipControl = γ'.control from htracks]
  exact hdead'.not_heldUnder

/-- A call that has rolled back leaves the word held under none of its generations, when it
returns and ever after. -/
theorem Rolled.not_heldUnder {w' : Device (H → Operation)}
    {h : List (Event T (Act ProbeIo) (Resp ProbeIo.Answer) (Device (H → Operation)) (ModeCall H)
      ModeCall.Value)} (hrolled : Rolled t (trace t h).created ⟨w', h, γ⟩)
    (hσ : ModeVerified user σ γ) (hhist : σ.history = .returned t c v :: h)
    (hfree : ¬ Contended t σ.history) (hlater : (modeMachine user).Steps σ σ') :
    ∀ g ∈ (trace t σ.history).created, ¬ HeldUnder σ'.world.ownershipControl g := by
  rw [hhist] at hfree ⊢
  intro g hg
  exact hσ.dead hlater (hrolled.resolve_left hfree g hg)

/-- A failed acquire whose release never met a reservation of its claim leaves nothing
behind. -/
theorem failed_acquire_leaves_nothing (hw : Fresh w)
    (hσ : (modeMachine user).Steps (.start w) σ) {owner : Word} {authenticated : Bool}
    {claim : Option Claim} {r : ModeDapResult × Option Claim}
    (hret : σ.Returned t (.dapAcquire owner authenticated claim) r) (hr : r.1 ≠ .allowed)
    (hfree : ¬ Contended t σ.history) (hlater : (modeMachine user).Steps σ σ') :
    ∀ g ∈ (trace t σ.history).created, ¬ HeldUnder σ'.world.ownershipControl g := by
  obtain ⟨γ, w', h, hσ, hhist, hpost, -⟩ := mode_returned hw hσ hret
  exact (hpost hr).not_heldUnder hσ hhist hfree hlater

/-- A probe whose release never met a reservation of its claim has given the pins back. -/
theorem probe_gives_back (hw : Fresh w) (hσ : (modeMachine user).Steps (.start w) σ)
    {arguments : Option (List Char)} {backend : Option ProbeBackend} {result : Option ProbeResult}
    {r : ProbeStatus × Option ProbeResult}
    (hret : σ.Returned t (.swdProbe arguments backend result) r)
    (hfree : ¬ Contended t σ.history) (hlater : (modeMachine user).Steps σ σ') :
    ∀ g ∈ (trace t σ.history).created, ¬ HeldUnder σ'.world.ownershipControl g := by
  obtain ⟨γ, w', h, hσ, hhist, hpost, -⟩ := mode_returned hw hσ hret
  have hrolled : Rolled t (trace t h).created ⟨w', h, γ⟩ := hpost
  exact hrolled.not_heldUnder hσ hhist hfree hlater

section Runs

/-- A device with free pins, on which thread `t` uses the handle `t`. -/
def freeDevice (mode : Word) : Device (Fin 3 → Operation) := ⟨ownerNone, mode, 0, 0, fun _ => .zero⟩

-- for the numbers of the threads
local instance neZeroThree : NeZero 3 := ⟨by decide⟩

/-- The run of a schedule from a device with free pins. -/
def scheduledRun (mode : Word) (schedule : List (Fin 3 × Option (ModeCall (Fin 3)))) :
    ModeConfig (Fin 3) (Fin 3) :=
  (modeMachine id).replay (fun _ => Device.answer ProbeIo.idleReply) schedule
    (.start (freeDevice mode))

theorem scheduledRun_steps (mode : Word) (schedule : List (Fin 3 × Option (ModeCall (Fin 3))))
    (hmay : ∀ turn ∈ schedule, ∀ c ∈ turn.2, ∀ h, c.handle = some h → h = turn.1) :
    (modeMachine id).Steps (.start (freeDevice mode)) (scheduledRun mode schedule) :=
  Machine.replay_steps (fun _ => Device.exec_answer _) _ _
    fun turn hturn c hc _ => hmay turn hturn c hc

/-- The network acquires, and Wi-Fi stops before the policy is read again. -/
def rolledBackRun : ModeConfig (Fin 3) (Fin 3) :=
  scheduledRun 0x86
    ([(0, some (.dapAcquire ownerNetwork true (some .zero)))] ++ List.replicate 6 (0, none) ++
      [(1, some (.transition 1 .wifiStopped))] ++ List.replicate 2 (1, none) ++
      List.replicate 4 (0, none))

theorem rolledBackRun_leaves_nothing :
    rolledBackRun.Returned 0 (.dapAcquire ownerNetwork true (some .zero))
      (.offline, some ⟨ownerNetwork, 1⟩) ∧
    (trace 0 rolledBackRun.history).created = [1] ∧
    ¬ HeldUnder rolledBackRun.world.ownershipControl 1 := by
  have hw : Fresh (freeDevice 0x86) := ⟨rfl, fun _ => rfl, by decide⟩
  have hrun : (modeMachine id).Steps (.start (freeDevice 0x86)) rolledBackRun :=
    scheduledRun_steps _ _ (by decide)
  have hret : rolledBackRun.Returned 0 (.dapAcquire ownerNetwork true (some .zero))
      (.offline, some ⟨ownerNetwork, 1⟩) := ⟨_, rfl⟩
  have hcreated : (trace 0 rolledBackRun.history).created = [1] := by decide
  refine ⟨hret, hcreated, ?_⟩
  exact failed_acquire_leaves_nothing hw hrun hret (by decide) (by decide) .refl 1
    (by simp [hcreated])

/-- The network acquires, a board-control operation reserves its claim, and Wi-Fi stops before
the policy is read again. -/
def reservedRun : ModeConfig (Fin 3) (Fin 3) :=
  scheduledRun 0x86
    ([(0, some (.dapAcquire ownerNetwork true (some .zero)))] ++ List.replicate 6 (0, none) ++
      [(2, some (.controlOperationBegin true (some 2)))] ++ List.replicate 5 (2, none) ++
      [(1, some (.transition 1 .wifiStopped))] ++ List.replicate 2 (1, none) ++
      List.replicate 2 (0, none))

/-- The acquire fails and the word stays held under the claim that it created. -/
theorem reservedRun_leaves_claim :
    (modeMachine id).Steps (.start (freeDevice 0x86)) reservedRun ∧
    reservedRun.Returned 0 (.dapAcquire ownerNetwork true (some .zero))
      (.busy, some ⟨ownerNetwork, 1⟩) ∧
    1 ∈ (trace 0 reservedRun.history).created ∧
    HeldUnder reservedRun.world.ownershipControl 1 :=
  ⟨scheduledRun_steps _ _ (by decide), ⟨_, rfl⟩, by decide, by decide⟩

/-- A backend without a cancellation callback. -/
def plainBackend : ProbeBackend := ⟨true, true, true, false⟩

/-- The probe runs alone while USB is present. -/
def probeRun : ModeConfig (Fin 3) (Fin 3) :=
  scheduledRun 0x81 ((0, some (.swdProbe (some []) (some plainBackend) (some .zero))) ::
    List.replicate 18 (0, none))

theorem probeRun_gives_back :
    (∃ r, probeRun.Returned 0 (.swdProbe (some []) (some plainBackend) (some .zero)) r) ∧
    (trace 0 probeRun.history).created = [1] ∧ ¬ HeldUnder probeRun.world.ownershipControl 1 := by
  have hw : Fresh (freeDevice 0x81) := ⟨rfl, fun _ => rfl, by decide⟩
  have hrun : (modeMachine id).Steps (.start (freeDevice 0x81)) probeRun :=
    scheduledRun_steps _ _ (by decide)
  have hret : ∃ r, probeRun.Returned 0
      (.swdProbe (some []) (some plainBackend) (some .zero)) r := ⟨_, _, rfl⟩
  have hcreated : (trace 0 probeRun.history).created = [1] := by decide
  refine ⟨hret, hcreated, ?_⟩
  obtain ⟨r, hret⟩ := hret
  exact probe_gives_back hw hrun hret (by decide) .refl 1 (by simp [hcreated])

/-- A route command reserves the claim of the probe between the end of the operation and the
release. -/
def reservedProbeRun : ModeConfig (Fin 3) (Fin 3) :=
  scheduledRun 0x81
    ([(0, some (.swdProbe (some []) (some plainBackend) (some .zero)))] ++
      List.replicate 15 (0, none) ++ [(1, some (.setDapRoute 1 routeUsb))] ++
      List.replicate 2 (1, none) ++ [(0, none)])

/-- The probe has returned and the word stays held under the claim that it acquired. -/
theorem reservedProbeRun_leaves_claim :
    (modeMachine id).Steps (.start (freeDevice 0x81)) reservedProbeRun ∧
    (∃ r, reservedProbeRun.Returned 0
      (.swdProbe (some []) (some plainBackend) (some .zero)) r) ∧
    1 ∈ (trace 0 reservedProbeRun.history).created ∧
    controlState reservedProbeRun.world.ownershipControl = ownerDiagnostic ∧
    HeldUnder reservedProbeRun.world.ownershipControl 1 :=
  ⟨scheduledRun_steps _ _ (by decide), ⟨_, _, rfl⟩, by decide, by decide, by decide⟩

end Runs
end AirDap
