import AirDap.Ownership.Dispatch

/-! What holds of the operations of the arbiter and is kept by sequencing holds of its calls. A
call changes the word from a state it may take over, or inside a transition of its own. -/
namespace AirDap
open Concurrency

section Words

variable {e g : Word}

theorem controlGeneration_lt (w : Word) : (controlGeneration w).toNat < 2 ^ 28 := by
  have h := w.isLt
  rw [toNat_controlGeneration]
  omega

/-- The pins are free or held, with or without a running operation. -/
def Unclaimed (control : Word) : Prop :=
  controlState control = ownerNone ∨ isOwner (controlState control) = true

theorem unclaimed_owner (hg : g.toNat < 2 ^ 28) (o : Owner) : Unclaimed (makeControl g o.code) := by
  have hstate : controlState (makeControl g o.code) = o.code :=
    controlState_makeControl hg (heldCode_lt (some o))
  rw [Unclaimed, hstate]
  exact .inr (isOwner_code o)

/-- The states that only an update, a transition or the boot leaves. -/
def Barred (state : Word) : Prop :=
  state = stateTransition ∨ state = stateSuspended ∨ state = stateUninitialized

theorem Unclaimed.not_barred (h : Unclaimed e) : ¬ Barred (controlState e) := by
  rintro (hb | hb | hb)
  all_goals
    rw [Unclaimed, hb] at h
    revert h
    decide

end Words

variable {I : Type} {J : I → Type}

/-- A property of programs, outside and inside a transition of their own, that sequencing keeps
and that the operations of the arbiter have. -/
structure OwnershipParts (P : Bool → {α : Type} → Code J α → Prop) : Prop where
  ret {α : Type} (v : α) : P false (.ret v : Code J α)
  bind {α β : Type} {b : Bool} {p : Code J α} {f : α → Code J β} :
    P b p → (∀ v, P false (f v)) → P b (p >>= f)
  load {α : Type} {k : Word → Code J α} : (∀ w, P false (k w)) → P false (loadOwnership >>= k)
  seize {α : Type} {e g : Word} {k : Option Word → Code J α} : Unclaimed e → g.toNat < 2 ^ 28 →
    P true (k none) → (∀ observed, P false (k (some observed))) →
    P false (casOwnership e (makeControl g stateTransition) >>= k)
  reserve {α : Type} {e : Word} {k : Option Word → Code J α} : Unclaimed e →
    (∀ r, P false (k r)) → P false (casOwnership e (e ||| controlActive) >>= k)
  yield {α : Type} {e : Word} {k : Option Word → Code J α} : isActive e →
    (∀ r, P false (k r)) → P false (casOwnership e (e &&& ~~~controlActive) >>= k)
  lineReset {α : Type} {k : Bool → Code J α} :
    (∀ r, P true (k r)) → P true (backendLineReset >>= k)
  releasePins {α : Type} {k : Bool → Code J α} :
    (∀ r, P true (k r)) → P true (backendReleasePins >>= k)
  store {α : Type} {g state : Word} {k : Unit → Code J α} : g.toNat < 2 ^ 28 →
    state.toNat < 8 → ¬ Barred state → P false (k ()) →
    P true (storeOwnership (makeControl g state) >>= k)

namespace OwnershipParts

variable {P : Bool → {α : Type} → Code J α → Prop} (h : OwnershipParts P) {α : Type}
include h

theorem guard {c : Prop} [Decidable c] {v : α} {q : Code J α} (hq : ¬ c → P false q) :
    P false (if c then pure v else q) := by
  split
  · exact h.ret v
  · exact hq ‹_›

theorem release_pins {g : Word} (hg : g.toNat < 2 ^ 28) :
    P true (AirDap.releasePins g ownerNone : Code J _) := by
  refine h.releasePins fun released => ?_
  cases released with
  | true => exact h.store hg (by decide) (by unfold Barred; decide) (h.ret _)
  | false => exact h.store hg (by decide) (by unfold Barred; decide) (h.ret _)

theorem current : P false (ownershipCurrent : Code J _) := h.load fun _ => h.ret _

theorem acquire (owner : Word) (claim : Option Claim) :
    P false (ownershipAcquire owner claim : Code J _) := by
  refine h.guard fun hvalid => ?_
  simp only [Bool.or_eq_true, Bool.not_eq_eq_eq_not, Bool.not_true, not_or,
    Bool.not_eq_false] at hvalid
  obtain ⟨o, rfl⟩ := isOwner_iff.mp hvalid.2
  refine h.load fun expected => h.guard fun _ => h.guard fun _ => h.guard fun _ => ?_
  refine h.guard fun _ => h.guard fun hfree => ?_
  rw [not_or, not_not] at hfree
  have hg := controlGeneration_lt expected
  refine h.seize (.inl hfree.1) hg ?_ fun observed => ?_
  · change P true (if _ then _ else _)
    split
    · exact h.store hg (by decide) (by unfold Barred; decide) (h.ret _)
    · rename_i hmax
      refine h.lineReset fun reset => ?_
      cases reset with
      | false => exact h.bind (h.release_pins hg) fun _ => h.ret _
      | true =>
        have hnext : (controlGeneration expected + 1).toNat < 2 ^ 28 := by
          have hne : (controlGeneration expected).toNat ≠ 2 ^ 28 - 1 := fun he =>
            hmax (BitVec.eq_of_toNat_eq (he.trans toNat_controlGenerationMax.symm))
          rw [BitVec.toNat_add]
          change ((controlGeneration expected).toNat + 1) % 2 ^ 32 < 2 ^ 28
          omega
        refine h.store hnext (heldCode_lt (some o)) ?_ (h.ret _)
        cases o <;> (unfold Barred; decide)
  · exact h.guard fun _ => h.guard fun _ => h.guard fun _ => h.guard fun _ => h.ret _

theorem release (claim : Option Claim) : P false (ownershipRelease claim : Code J _) := by
  cases claim with
  | none => exact h.ret _
  | some c =>
    refine h.guard fun hvalid => ?_
    obtain ⟨o, ho, hg⟩ := validClaim_spec (by simpa using hvalid : validClaim (some c) = true)
    rw [ho]
    exact h.seize (unclaimed_owner hg o) hg (h.release_pins hg) fun observed => h.ret _

theorem operationBegin (claim : Option Claim) (operation : Option Operation) :
    P false (ownershipOperationBegin claim operation : Code J _) := by
  cases claim with
  | none => exact h.ret _
  | some c =>
    cases operation with
    | none => exact h.ret _
    | some op =>
      refine h.guard fun hvalid => h.guard fun _ => ?_
      obtain ⟨o, ho, hg⟩ := validClaim_spec (by simpa using hvalid : validClaim (some c) = true)
      rw [ho]
      refine h.reserve (unclaimed_owner hg o) fun r => ?_
      cases r <;> exact h.ret _

theorem controlBegin (owner : Word) (operation : Option Operation) :
    P false (ownershipControlBegin owner operation : Code J _) := by
  cases operation with
  | none => exact h.ret _
  | some op =>
    refine h.guard fun howner => h.guard fun _ => h.load fun current => ?_
    refine h.guard fun _ => h.guard fun _ => h.guard fun hfree => ?_
    rw [not_or, not_and_or, not_not, not_not] at hfree
    have hunclaimed : Unclaimed current := by
      refine hfree.1.imp_right fun hstate => ?_
      rw [hstate]
      simpa using howner
    refine h.reserve hunclaimed fun r => ?_
    cases r <;> exact h.ret _

theorem operationEnd (operation : Option Operation) :
    P false (ownershipOperationEnd operation : Code J _) := by
  cases operation with
  | none => exact h.ret _
  | some op => exact h.guard fun _ => h.yield (isActive_or_active _) fun _ => h.ret _

theorem revoke : P false (ownershipRevoke : Code J _) := by
  refine h.load fun current => h.guard fun _ => h.guard fun _ => h.guard fun _ => ?_
  refine h.guard fun hheld => ?_
  simp only [Bool.or_eq_true, Bool.not_eq_eq_eq_not, Bool.not_true, decide_eq_true_eq, not_or,
    Bool.not_eq_false] at hheld
  have hg := controlGeneration_lt current
  refine h.seize (.inr hheld.1) hg (h.release_pins hg) fun observed => ?_
  exact h.guard fun _ => h.guard fun _ => h.guard fun _ => h.ret _

theorem revokeOwner (owner : Word) : P false (ownershipRevokeOwner owner : Code J _) := by
  refine h.guard fun howner => h.load fun current => h.guard fun _ => h.guard fun _ => ?_
  refine h.guard fun _ => h.guard fun hstate => h.guard fun _ => ?_
  have hg := controlGeneration_lt current
  have hheld : isOwner (controlState current) = true := by
    rw [not_not.mp hstate]
    simpa using howner
  refine h.seize (.inr hheld) hg (h.release_pins hg) fun observed => ?_
  exact h.guard fun _ => h.guard fun _ => h.guard fun _ => h.ret _

theorem code {H : Type} (handles : H → Operation) {c : OwnershipCall H}
    (hsuspend : ∀ rounds, c ≠ .suspend rounds) (hresume : ∀ rounds, c ≠ .resume rounds) :
    P false (c.code handles : Code J _) := by
  cases c with
  | current => exact h.current
  | acquire owner claim => exact h.acquire owner claim
  | release claim => exact h.release claim
  | operationBegin claim operation => exact h.operationBegin claim _
  | controlBegin owner operation => exact h.controlBegin owner _
  | operationEnd operation => exact h.operationEnd _
  | revoke => exact h.revoke
  | revokeOwner owner => exact h.revokeOwner owner
  | suspend rounds => exact absurd rfl (hsuspend rounds)
  | resume rounds => exact absurd rfl (hresume rounds)

end OwnershipParts
end AirDap
