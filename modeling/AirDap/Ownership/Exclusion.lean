import AirDap.Ownership.Machine

/-! Mutual exclusion on the SWD pins and the death of stale claims, in every run of any
number of threads. -/
namespace AirDap
open Concurrency

section Start

variable {I : Type} {J : I → Type} {M : Type} {w₀ w : Device M}

theorem ownershipInitialize_runs {backend : Bool}
    (h : Prog.Runs (Device.exec (J := J)) OwnershipResult.ok w₀ (ownershipInitialize backend) w) :
    w₀.ownershipControl = stateUninitialized ∧ w = { w₀ with ownershipControl := ownerNone } := by
  cases backend with
  | false => cases h
  | true =>
    rcases h with _ | ⟨⟨he, rfl, rfl⟩ | ⟨hne, rfl, rfl⟩, hk⟩
    · rcases hk with _ | ⟨hstore, hk⟩
      cases hstore
      cases hk
      exact ⟨he, rfl⟩
    · cases hk

end Start

variable {T H : Type} [DecidableEq H] {user : H → T} {w : Device (H → Operation)}
  {σ : OwnershipConfig T H}

/-- Every thread is verified in `σ`, whose word encodes `γ`. -/
def Verified (user : H → T) (σ : OwnershipConfig T H) (γ : Arbiter T H) : Prop :=
  σ.Safe (arbiterDiscipline user) (arbiterMachine user) (Ordered user) (fun _ _ _ _ => True) γ ∧
    Tracks (σ.state γ)

theorem Verified.ordered {γ : Arbiter T H} (hσ : Verified user σ γ) (t : T) :
    Ordered user t (σ.state γ) := by
  cases ht : σ.thread t with
  | idle => exact hσ.1.of_idle ht
  | busy c a k => exact (hσ.1.pre ht).1
  | halted c => exact (hσ.1.pre_halted ht).1

theorem Verified.state_eq {γ : Arbiter T H} (hσ : Verified user σ γ) :
    controlState σ.world.ownershipControl = γ.phase.state := by
  rw [show σ.world.ownershipControl = γ.control from hσ.2, Arbiter.controlState_control]

/-- Thread `t` is inside the line reset or the release of the pins. -/
def InCallback {T I : Type} {J : I → Type} {M C : Type} {V : C → Type}
    (σ : Config T (Act I) (Resp J) (Device M) C V) (t : T) : Prop :=
  (∃ c k, σ.thread t = .busy c .lineReset k) ∨ ∃ c k, σ.thread t = .busy c .releasePins k

theorem Verified.callback {γ : Arbiter T H} (hσ : Verified user σ γ) {t : T}
    (ht : InCallback σ t) : γ.phase = .transition t := by
  rcases ht with ⟨c, k, ht⟩ | ⟨c, k, ht⟩
  · exact (hσ.1.pre ht).2 _ rfl trivial
  · exact (hσ.1.pre ht).2 _ rfl trivial

variable [DecidableEq T]

theorem arbiter_reachable (hw : w.ownershipControl = ownerNone)
    (hmem : ∀ h, (w.memory h).active = false) (hσ : (arbiterMachine user).Steps (.start w) σ) :
    ∃ γ, Verified user σ γ ∧ Increasing (σ.state γ) := by
  let s₀ : OwnershipState T H := Config.state (.start w) .fresh
  have htr : Tracks s₀ := hw.trans Arbiter.fresh_control.symm
  have hinc : Increasing s₀ := ⟨fun g hg => absurd hg List.not_mem_nil, .nil⟩
  have hstart : (Config.start w : OwnershipConfig T H).Safe (arbiterDiscipline user)
      (arbiterMachine user) (Ordered user) (fun _ _ _ _ => True) .fresh :=
    Config.start_safe fun t => ⟨⟨htr, fun h _ _ => .inl ⟨hmem h, fun o ho => by cases ho⟩⟩, hinc⟩
  obtain ⟨γ, hsafe, htr, hinc⟩ := Machine.Steps.safe (arbiter_verifies user)
    (J := fun s => Tracks s ∧ Increasing s) (fun u s s' _ hg => ⟨hg.1.tracks, hg.2⟩) hσ hstart
    ⟨htr, hinc⟩
  exact ⟨γ, ⟨hsafe, htr⟩, hinc⟩

/-- The ACTIVE bit means one live handle, which names the owner and the generation of the
word, and the pins are driven by one thread while no handle is live. -/
theorem ownership_mutual_exclusion {w₀ : Device (H → Operation)} {backend : Bool}
    (hinit : Prog.Runs (Device.exec (J := Empty.elim)) OwnershipResult.ok w₀
      (ownershipInitialize backend) w) (hmem : ∀ h, (w.memory h).active = false)
    (hσ : (arbiterMachine user).Steps (.start w) σ) :
    (isActive σ.world.ownershipControl ↔ ∃! h, (σ.world.memory h).active = true) ∧
    (∀ h, (σ.world.memory h).active = true → isActive σ.world.ownershipControl ∧
      (σ.world.memory h).owner = controlState σ.world.ownershipControl ∧
      (σ.world.memory h).generation = controlGeneration σ.world.ownershipControl) ∧
    ∀ t, InCallback σ t → (∀ u, InCallback σ u → u = t) ∧
      controlState σ.world.ownershipControl = stateTransition ∧
      ∀ h, (σ.world.memory h).active = false := by
  have hw : w.ownershipControl = ownerNone := by rw [(ownershipInitialize_runs hinit).2]
  obtain ⟨γ, hsafe, -⟩ := arbiter_reachable hw hmem hσ
  have hctl : σ.world.ownershipControl = γ.control := hsafe.2
  have hhandle (h : H) : HandleOk id h (σ.state γ) := (hsafe.ordered (user h)).1.handle h rfl
    (by simp)
  have hlive {h : H} (ha : (σ.world.memory h).active = true) :
      ∃ o, γ.phase = .lent o h ∧ σ.world.memory h = ⟨heldCode o, γ.word, true⟩ :=
    (hhandle h).of_active ha
  rw [hctl]
  refine ⟨⟨fun ha => ?_, fun ⟨h, ha, _⟩ => ?_⟩, fun h ha => ?_, fun t ht => ?_⟩
  · obtain ⟨o, h, hp⟩ := γ.isActive_control.mp ha
    have hact : (σ.world.memory h).active = true := by
      by_contra hne
      exact (hhandle h).of_inactive (Bool.eq_false_iff.mpr hne) o hp
    refine ⟨h, hact, fun h' ha' => ?_⟩
    obtain ⟨o', hp', -⟩ := hlive ha'
    exact (Phase.lent.inj (hp'.symm.trans hp)).2
  · obtain ⟨o, hp, -⟩ := hlive ha
    exact γ.isActive_control.mpr ⟨o, h, hp⟩
  · obtain ⟨o, hp, hop⟩ := hlive ha
    refine ⟨γ.isActive_control.mpr ⟨o, h, hp⟩, ?_, ?_⟩
    · rw [hop, Arbiter.controlState_control, hp]
      rfl
    · rw [hop, Arbiter.controlGeneration_control]
  · have hp := hsafe.callback ht
    refine ⟨fun u hu => ?_, ?_, fun h => ?_⟩
    · have hpu := hsafe.callback hu
      exact Phase.transition.inj (hpu.symm.trans hp)
    · rw [Arbiter.controlState_control, hp]
      rfl
    · refine Bool.eq_false_iff.mpr fun ha => ?_
      obtain ⟨o, hl, -⟩ := hlive ha
      rw [hp] at hl
      cases hl

/-- The run in which one thread reserves the free word. -/
def reservingRun : OwnershipConfig Unit Unit :=
  (arbiterMachine fun _ => ()).replay (fun _ => Device.answer Empty.rec)
    [((), some (.controlBegin ownerUsb (some ()))), ((), none), ((), none)]
    (.start ⟨ownerNone, 0, 0, 0, fun _ => .zero⟩)

theorem reservingRun_mutual_exclusion : isActive reservingRun.world.ownershipControl ∧
    ∃! h, (reservingRun.world.memory h).active = true := by
  have hinit : Prog.Runs (Device.exec (J := Empty.elim)) OwnershipResult.ok
      (⟨stateUninitialized, 0, 0, 0, fun _ => .zero⟩ : Device (Unit → Operation))
      (ownershipInitialize true) ⟨ownerNone, 0, 0, 0, fun _ => .zero⟩ :=
    .act (.inl ⟨rfl, rfl, rfl⟩) (.act (r := ()) rfl .ret)
  have hrun : (arbiterMachine fun _ => ()).Steps (.start ⟨ownerNone, 0, 0, 0, fun _ => .zero⟩)
      reservingRun :=
    Machine.replay_steps (fun _ => Device.exec_answer Empty.rec) _ _ fun _ _ _ _ _ _ _ => rfl
  have hactive : isActive reservingRun.world.ownershipControl := by decide
  exact ⟨hactive, (ownership_mutual_exclusion hinit (fun _ => rfl) hrun).1.mp hactive⟩

/-- What the steps of the threads make of the fresh arbiter. -/
def Arbiter.Reached (user : H → T) : Arbiter T H → Prop :=
  Relation.ReflTransGen (fun a b => ∃ t m, a.Step user t m b) .fresh

/-- The ownership calls refine the arbiter: in every run the word is the code of an arbiter that
its own steps reach, which has lent the target to the live handle, if there is one, and is in
the transition of the thread that drives the pins. -/
theorem ownership_refines_arbiter (hw : w.ownershipControl = ownerNone)
    (hmem : ∀ h, (w.memory h).active = false) (hσ : (arbiterMachine user).Steps (.start w) σ) :
    ∃ γ : Arbiter T H, γ.Reached user ∧ σ.world.ownershipControl = γ.control ∧
      (∀ h, (σ.world.memory h).active = true ↔ ∃ o, γ.phase = .lent o h) ∧
      ∀ t, InCallback σ t → γ.phase = .transition t := by
  let s₀ : OwnershipState T H := Config.state (.start w) .fresh
  have htr : Tracks s₀ := hw.trans Arbiter.fresh_control.symm
  have hord (t : T) : Ordered user t s₀ :=
    ⟨⟨htr, fun h _ _ => .inl ⟨hmem h, fun o ho => by cases ho⟩⟩,
      fun g hg => absurd hg List.not_mem_nil, .nil⟩
  -- a step of a thread is one of the arbiter, or leaves it as it is
  obtain ⟨γ, hsafe, htr, hreached⟩ := Machine.Steps.safe (arbiter_verifies user)
    (J := fun s => Tracks s ∧ s.ghost.Reached user)
    (fun u s s' hs hg => ⟨hg.1.tracks, hs.2.tail ⟨u, hg.1.step⟩⟩) hσ (Config.start_safe hord)
    ⟨htr, .refl⟩
  have hver : Verified user σ γ := ⟨hsafe, htr⟩
  refine ⟨γ, hreached, htr, fun h => ?_, fun t => hver.callback⟩
  have hhandle : HandleOk id h (σ.state γ) := (hver.ordered (user h)).1.handle h rfl (by simp)
  refine ⟨fun ha => (hhandle.of_active ha).imp fun o ho => ho.1, fun ⟨o, ho⟩ => ?_⟩
  by_contra hne
  exact hhandle.of_inactive (Bool.eq_false_iff.mpr hne) o ho

theorem reservingRun_refines :
    ∃ γ : Arbiter Unit Unit, γ.Reached (fun _ => ()) ∧ ∃ o, γ.phase = .lent o () := by
  have hrun : (arbiterMachine fun _ => ()).Steps (.start ⟨ownerNone, 0, 0, 0, fun _ => .zero⟩)
      reservingRun :=
    Machine.replay_steps (fun _ => Device.exec_answer Empty.rec) _ _ fun _ _ _ _ _ _ _ => rfl
  obtain ⟨γ, hreached, -, hlive, -⟩ := ownership_refines_arbiter rfl (fun _ => rfl) hrun
  exact ⟨γ, hreached, (hlive ()).mp (by decide)⟩

end AirDap
