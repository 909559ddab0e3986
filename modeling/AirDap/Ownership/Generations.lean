import AirDap.Ownership.Exclusion

/-! Generations separate the owners of the pins: a claim whose owner is gone is dead for
good, and the counter never wraps. -/
namespace AirDap
open Concurrency Prog

variable {T H : Type}

/-- The word belongs to the owner and the generation of the claim. -/
def Claim.Holds (c : Claim) (control : Word) : Prop :=
  controlState control = c.owner ∧ controlGeneration control = c.generation

namespace OwnershipCall

/-- The call presents the claim `c` to the arbiter. -/
def Presents (c : Claim) : OwnershipCall H → Prop
  | .release claim | .operationBegin claim _ => claim = some c
  | _ => False

def result : (call : OwnershipCall H) → call.Value → Option OwnershipResult
  | .current, _ | .operationEnd _, _ => none
  | .acquire _ _, v | .operationBegin _ _, v | .controlBegin _ _, v => some v.1
  | .release _, v | .revoke, v | .revokeOwner _, v | .suspend _, v | .resume _, v => some v

/-- What the code says at the compare-exchanges of acquire, release and begin. -/
def Exchanges : (call : OwnershipCall H) → (a : Act Empty) →
    (Resp Empty.elim a → Code Empty.elim call.Value) → Prop
  | .acquire _ _, .casOwnership e _, k => controlGeneration e = controlGenerationMax →
      k none = .act (.storeOwnership (makeControl controlGenerationMax stateOffline))
        fun _ => .ret (.offline, some .zero)
  | .release claim, .casOwnership e _, k => ∃ c, claim = some c ∧ validClaim claim = true ∧
      e = makeControl c.generation c.owner ∧
      ∀ w, ∃ v, k (some w) = .ret v ∧ v ≠ .ok
  | .operationBegin claim _, .casOwnership e _, k => ∃ c, claim = some c ∧
      validClaim claim = true ∧ e = makeControl c.generation c.owner ∧
      ∀ w, ∃ v, k (some w) = .ret v ∧ v.1 ≠ .ok
  | _, _, _ => True

theorem acquire_exchanges (owner : Word) (claim : Option Claim) :
    (ownershipAcquire owner claim).Everywhere (Exchanges (H := H) (.acquire owner claim)) := by
  unfold ownershipAcquire
  refine everywhere_guard fun _ => ⟨trivial, fun e => ?_⟩
  refine everywhere_guard fun _ => ?_
  refine everywhere_guard fun _ => ?_
  refine everywhere_guard fun _ => ?_
  refine everywhere_guard fun _ => ?_
  refine everywhere_guard fun _ => ⟨fun hmax => ?_, fun r => ?_⟩
  · simp only [hmax, if_true]
    rfl
  · cases r with
    | some observed =>
      refine everywhere_guard fun _ => ?_
      refine everywhere_guard fun _ => ?_
      refine everywhere_guard fun _ => ?_
      exact everywhere_guard fun _ => trivial
    | none =>
      refine everywhere_ite (fun _ => ⟨trivial, fun _ => trivial⟩) fun _ =>
        ⟨trivial, fun reset => ?_⟩
      refine everywhere_ite (fun _ => ⟨trivial, fun _ => ⟨trivial, fun _ => trivial⟩⟩)
        fun _ => ⟨trivial, fun _ => trivial⟩

theorem release_exchanges (claim : Option Claim) :
    (ownershipRelease claim).Everywhere (Exchanges (H := H) (.release claim)) := by
  unfold ownershipRelease
  cases claim with
  | none => trivial
  | some c =>
    refine everywhere_guard fun hvalid => ⟨?_, fun r => ?_⟩
    · exact ⟨c, rfl, by simpa using hvalid, rfl, fun w => ⟨_, rfl, (claimFailureResult_ne w c).1⟩⟩
    · cases r with
      | some observed => trivial
      | none => exact ⟨trivial, fun _ => ⟨trivial, fun _ => trivial⟩⟩

theorem operationBegin_exchanges (claim : Option Claim) (h : Option H) (op : Option Operation) :
    (ownershipOperationBegin claim op).Everywhere (Exchanges (.operationBegin claim h)) := by
  unfold ownershipOperationBegin
  cases claim with
  | none => trivial
  | some c =>
    cases op with
    | none => trivial
    | some op =>
      refine everywhere_guard fun hvalid => ?_
      refine everywhere_guard fun _ => ⟨?_, fun r => ?_⟩
      · exact ⟨c, rfl, by simpa using hvalid, rfl,
          fun w => ⟨_, rfl, (claimFailureResult_ne w c).1⟩⟩
      · cases r <;> trivial

theorem code_exchanges (handles : H → Operation) (call : OwnershipCall H) :
    (call.code handles).Everywhere (Exchanges call) := by
  cases call with
  | acquire owner claim => exact acquire_exchanges owner claim
  | release claim => exact release_exchanges claim
  | operationBegin claim h => exact operationBegin_exchanges claim h _
  | _ => exact everywhere_of_forall (fun _ _ => trivial) _

end OwnershipCall

variable [DecidableEq T] [DecidableEq H] {user : H → T} {w : Device (H → Operation)}
  {σ σ' : OwnershipConfig T H} {γ : Arbiter T H}

theorem Verified.run (hσ : Verified user σ γ) (Inv : Arbiter T H → Prop) (h : Inv γ)
    (hInv : ∀ {t m a b}, Arbiter.Step user t m a b → Inv a → Inv b)
    (hsteps : (arbiterMachine user).Steps σ σ') : ∃ γ', Verified user σ' γ' ∧ Inv γ' := by
  have hJ : ∀ u s s', Tracks s ∧ Inv s.ghost → (arbiterDiscipline user).guar u s s' →
      Tracks s' ∧ Inv s'.ghost := by
    rintro u s s' ⟨-, hi⟩ hg
    obtain ⟨m, hstep⟩ := hg.1.step
    exact ⟨hg.1.tracks, hInv hstep hi⟩
  obtain ⟨γ', hsafe, htr, hi⟩ := Machine.Steps.safe (arbiter_verifies user) hJ hsteps hσ.1 ⟨hσ.2, h⟩
  exact ⟨γ', ⟨hsafe, htr⟩, hi⟩

theorem Verified.offline (hσ : Verified user σ γ)
    (hoff : controlState σ.world.ownershipControl = stateOffline)
    (hsteps : (arbiterMachine user).Steps σ σ') :
    σ'.world.ownershipControl = σ.world.ownershipControl := by
  have hphase : γ.phase = .offline := Phase.eq_offline (hσ.state_eq.symm.trans hoff)
  obtain ⟨γ', hσ', rfl⟩ := hσ.run (· = γ) rfl
    (fun hstep ha => (hstep.offline (ha ▸ hphase)).trans ha) hsteps
  exact hσ'.2.trans hσ.2.symm

theorem Verified.dead (hσ : Verified user σ γ) {c : Claim}
    (hvalid : validClaim (some c) = true) (hold : c.Holds σ.world.ownershipControl)
    {σ₂ σ₃ : OwnershipConfig T H} (hleave : (arbiterMachine user).Steps σ σ₂)
    (hleft : ¬ c.Holds σ₂.world.ownershipControl) (hlater : (arbiterMachine user).Steps σ₂ σ₃) :
    σ₃.world.ownershipControl ≠ makeControl c.generation c.owner := by
  obtain ⟨o, ho, hg⟩ := validClaim_spec hvalid
  have hholds {σ : OwnershipConfig T H} {γ : Arbiter T H} (hσ : Verified user σ γ) :
      c.Holds σ.world.ownershipControl ↔ γ.Holds o ∧ γ.generation = c.generation.toNat := by
    rw [Claim.Holds, show σ.world.ownershipControl = γ.control from hσ.2, ho,
      Arbiter.holds_iff_state, Arbiter.controlGeneration_control]
    refine and_congr_right fun _ => ?_
    rw [← BitVec.toNat_inj, Arbiter.toNat_word]
  have hgiven : γ.Given o c.generation.toNat := .inl ((hholds hσ).mp hold).symm
  obtain ⟨γ₂, hσ₂, hgiven₂⟩ := hσ.run (·.Given o c.generation.toNat) hgiven
    (fun hstep => hstep.given) hleave
  have hdead₂ : γ₂.Dead c.generation.toNat := by
    rcases hgiven₂ with h | h
    · exact absurd ((hholds hσ₂).mpr h.symm) hleft
    · exact h
  obtain ⟨γ₃, hσ₃, hdead⟩ := hσ₂.run (·.Dead c.generation.toNat) hdead₂ (fun hstep => hstep.dead)
    hlater
  intro he
  rw [show σ₃.world.ownershipControl = γ₃.control from hσ₃.2, ho] at he
  obtain ⟨hphase, hgen⟩ := Arbiter.control_eq_held (o := some o) hg he
  rcases hdead with hlt | ⟨-, hno⟩
  · omega
  · exact hno o (.inl hphase)

/-- The compare-exchange of a dead claim fails, and the call reports it. -/
theorem stale_step {call : OwnershipCall H} {t : T} {c : Claim} {e d : Word}
    {k : Option Word → Code Empty.elim call.Value} (hcall : call.Presents c)
    (hbusy : σ.thread t = .busy call (.casOwnership e d) k)
    (hcode : call.Exchanges (.casOwnership e d) k)
    (hdead : σ.world.ownershipControl ≠ makeControl c.generation c.owner)
    (hstep : (arbiterMachine user).Step σ t σ') :
    σ'.world.ownershipControl = σ.world.ownershipControl ∧
      ∃ v h, σ'.history = .returned t call v :: h ∧ call.result v ≠ some .ok := by
  have hfail : ∃ v, k (some σ.world.ownershipControl) = .ret v ∧ call.result v ≠ some .ok := by
    cases call with
    | release claim =>
      obtain ⟨-, -, -, -, hk⟩ := hcode
      obtain ⟨v, hv, hne⟩ := hk σ.world.ownershipControl
      exact ⟨v, hv, fun he => hne (Option.some.inj he)⟩
    | operationBegin claim h =>
      obtain ⟨-, -, -, -, hk⟩ := hcode
      obtain ⟨v, hv, hne⟩ := hk σ.world.ownershipControl
      exact ⟨v, hv, fun he => hne (Option.some.inj he)⟩
    | _ => exact hcall.elim
  have hexpected : e = makeControl c.generation c.owner := by
    cases call with
    | release claim =>
      obtain ⟨c', hc', -, he, -⟩ := hcode
      rw [he, Option.some.inj (hc'.symm.trans hcall)]
    | operationBegin claim h =>
      obtain ⟨c', hc', -, he, -⟩ := hcode
      rw [he, Option.some.inj (hc'.symm.trans hcall)]
    | _ => exact hcall.elim
  cases hstep with
  | call hidle => rw [hbusy] at hidle; cases hidle
  | act hbusy' hexec =>
    rw [hbusy] at hbusy'
    cases hbusy'
    rcases hexec with ⟨heq, -, -⟩ | ⟨-, rfl, rfl⟩
    · exact absurd (heq.trans hexpected) hdead
    · obtain ⟨v, hv, hne⟩ := hfail
      rw [hv]
      exact ⟨rfl, v, _, rfl, hne⟩

/-- Thread `t` has won the transition at the last generation. -/
def Exhausting (σ : OwnershipConfig T H) (t : T) (owner : Word) (claim : Option Claim) : Prop :=
  σ.thread t = .busy (.acquire owner claim)
    (.storeOwnership (makeControl controlGenerationMax stateOffline))
    fun _ => .ret (.offline, some .zero)

theorem exhausting_run (hσ : Verified user σ γ) {t : T} {owner : Word} {claim : Option Claim}
    (ht : Exhausting σ t owner claim) (hsteps : (arbiterMachine user).Steps σ σ') :
    (Exhausting σ' t owner claim ∧ controlState σ'.world.ownershipControl = stateTransition) ∨
      controlState σ'.world.ownershipControl = stateOffline := by
  have hpark {σ : OwnershipConfig T H} {γ : Arbiter T H} (hσ : Verified user σ γ)
      (ht : Exhausting σ t owner claim) :
      controlState σ.world.ownershipControl = stateTransition := by
    have hphase : γ.phase = .transition t := (hσ.1.pre ht).2 _ rfl trivial
    rw [hσ.state_eq, hphase]
    rfl
  induction hsteps with
  | refl => exact .inl ⟨ht, hpark hσ ht⟩
  | @tail σ₁ σ₂ hrun hlast ih =>
    obtain ⟨γ₁, hσ₁, -⟩ := hσ.run (fun _ => True) trivial (fun _ _ => trivial) hrun
    obtain ⟨γ₂, hσ₂, -⟩ := hσ.run (fun _ => True) trivial (fun _ _ => trivial) (hrun.tail hlast)
    rcases ih with ⟨ht₁, -⟩ | hoff
    · obtain ⟨u, hstep⟩ := hlast
      by_cases hu : t = u
      · subst hu
        right
        cases hstep with
        | call hidle => rw [ht₁] at hidle; cases hidle
        | act hbusy hexec =>
          rw [ht₁] at hbusy
          cases hbusy
          cases hexec
          exact (by decide : controlState (makeControl controlGenerationMax stateOffline) =
            stateOffline)
      · have ht₂ : Exhausting σ₂ t owner claim := (hstep.thread_of_ne hu).trans ht₁
        exact .inl ⟨ht₂, hpark hσ₂ ht₂⟩
    · right
      rw [hσ₁.offline hoff (.single hlast), hoff]

/-- Acquires return increasing generations. A claim that the word has left is refused ever
after and changes nothing. At the last generation an acquire goes offline, and the arbiter
stays offline. -/
theorem stale_claims_dead {w₀ : Device (H → Operation)} {backend : Bool}
    (hinit : Prog.Runs (Device.exec (J := Empty.elim)) OwnershipResult.ok w₀
      (ownershipInitialize backend) w) (hmem : ∀ h, (w.memory h).active = false)
    (hσ : (arbiterMachine user).Steps (.start w) σ) :
    (grantedGenerations σ.history).Pairwise (· > ·) ∧
    (∀ c, c.Holds σ.world.ownershipControl → ∀ σ₂ σ₃ σ₄ t call e d k,
      (arbiterMachine user).Steps σ σ₂ → ¬ c.Holds σ₂.world.ownershipControl →
      (arbiterMachine user).Steps σ₂ σ₃ → call.Presents c →
      σ₃.thread t = .busy call (.casOwnership e d) k → (arbiterMachine user).Step σ₃ t σ₄ →
      σ₄.world.ownershipControl = σ₃.world.ownershipControl ∧
        ∃ v h, σ₄.history = .returned t call v :: h ∧ call.result v ≠ some .ok) ∧
    (∀ t owner claim e d k σ₂ σ₃, σ.thread t = .busy (.acquire owner claim) (.casOwnership e d) k →
      controlGeneration e = controlGenerationMax → σ.world.ownershipControl = e →
      (arbiterMachine user).Step σ t σ₂ → (arbiterMachine user).Steps σ₂ σ₃ →
      (Exhausting σ₃ t owner claim ∧ controlState σ₃.world.ownershipControl = stateTransition) ∨
        controlState σ₃.world.ownershipControl = stateOffline) ∧
    (controlState σ.world.ownershipControl = stateOffline → ∀ σ₂,
      (arbiterMachine user).Steps σ σ₂ → σ₂.world.ownershipControl = σ.world.ownershipControl) := by
  have hw : w.ownershipControl = ownerNone := by rw [(ownershipInitialize_runs hinit).2]
  have hcode {σ' : OwnershipConfig T H} (hσ' : (arbiterMachine user).Steps (.start w) σ') :
      Machine.Along (fun _ => OwnershipCall.Exchanges) σ' :=
    Machine.Steps.along (fun t c w => c.code_exchanges w.memory) hσ' fun t c a k h => by cases h
  obtain ⟨γ, hver, hinc⟩ := arbiter_reachable hw hmem hσ
  refine ⟨hinc.pairwise, ?_, ?_, fun hoff σ₂ hsteps => hver.offline hoff hsteps⟩
  · intro c hold σ₂ σ₃ σ₄ t call e d k hleave hleft hlater hcall hbusy hstep
    have hex : call.Exchanges (.casOwnership e d) k :=
      (hcode ((hσ.trans hleave).trans hlater) hbusy).1
    have hvalid : validClaim (some c) = true := by
      cases call with
      | release claim =>
        obtain ⟨-, -, hv, -⟩ := hex
        rwa [show claim = some c from hcall] at hv
      | operationBegin claim h =>
        obtain ⟨-, -, hv, -⟩ := hex
        rwa [show claim = some c from hcall] at hv
      | _ => exact hcall.elim
    exact stale_step hcall hbusy hex (hver.dead hvalid hold hleave hleft hlater) hstep
  · intro t owner claim e d k σ₂ σ₃ hbusy hmax hword hstep hsteps
    have hex := (hcode hσ hbusy).1 hmax
    obtain ⟨γ₂, hver₂, -⟩ :=
      hver.run (fun _ => True) trivial (fun _ _ => trivial) (.single ⟨t, hstep⟩)
    refine exhausting_run hver₂ ?_ hsteps
    cases hstep with
    | call hidle => rw [hbusy] at hidle; cases hidle
    | act hbusy' hexec =>
      rw [hbusy] at hbusy'
      cases hbusy'
      rcases hexec with ⟨-, rfl, rfl⟩ | ⟨hne, -, -⟩
      · rw [hex]
        exact Function.update_self ..
      · exact absurd hword hne

/-- The run in which one thread acquires for USB, releases, and acquires again. -/
def reacquiringRun : OwnershipConfig Unit Empty :=
  (arbiterMachine fun _ => ()).replay (fun _ => Device.answer Empty.rec)
    ([((), some (.acquire ownerUsb (some .zero)))] ++ List.replicate 4 ((), none) ++
      [((), some (.release (some ⟨ownerUsb, 1⟩)))] ++ List.replicate 3 ((), none) ++
      [((), some (.acquire ownerUsb (some .zero)))] ++ List.replicate 4 ((), none))
    (.start ⟨ownerNone, 0, 0, 0, Empty.elim⟩)

theorem reacquiringRun_generations : grantedGenerations reacquiringRun.history = [2, 1] ∧
    (grantedGenerations reacquiringRun.history).Pairwise (· > ·) := by
  have hinit : Prog.Runs (Device.exec (J := Empty.elim)) OwnershipResult.ok
      (⟨stateUninitialized, 0, 0, 0, Empty.elim⟩ : Device (Empty → Operation))
      (ownershipInitialize true) ⟨ownerNone, 0, 0, 0, Empty.elim⟩ :=
    .act (.inl ⟨rfl, rfl, rfl⟩) (.act (r := ()) rfl .ret)
  have hrun : (arbiterMachine fun _ => ()).Steps (.start ⟨ownerNone, 0, 0, 0, Empty.elim⟩)
      reacquiringRun :=
    Machine.replay_steps (fun _ => Device.exec_answer Empty.rec) _ _ fun _ _ _ _ _ _ _ => rfl
  exact ⟨by decide, (stale_claims_dead hinit (fun h => h.elim) hrun).1⟩

end AirDap
