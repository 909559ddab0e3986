import Mathlib.Data.Nat.Bitwise
import Mathlib.Tactic.IntervalCases

/-! The packed ownership word of the SWD arbiter: three state bits, the ACTIVE bit of a
running operation and a generation of 28 bits. -/
namespace AirDap

/-- `airdap_dap_ownership_result_t`. -/
inductive OwnershipResult where
  | ok | alreadyOwner | busy | notOwner | offline | invalidArgument | invalidState
  deriving DecidableEq, Repr

abbrev Word := BitVec 32

/-! The values of `airdap_dap_owner_t`. A parameter of this type may hold any other
number as well, which the code rejects with `is_owner`. -/

def ownerNone : Word := 0
def ownerUsb : Word := 1
def ownerNetwork : Word := 2
def ownerDiagnostic : Word := 3

def stateTransition : Word := 4
def stateOffline : Word := 5
def stateSuspended : Word := 6
def stateUninitialized : Word := 7
def controlStateMask : Word := 0x7
def controlActive : Word := 1 <<< 3
def controlGenerationShift : ℕ := 4

/-- `OWNERSHIP_CONTROL_GENERATION_MAX`. -/
def controlGenerationMax : Word := BitVec.allOnes 32 >>> controlGenerationShift

def isOwner (state : Word) : Bool := ownerUsb ≤ state && state ≤ ownerDiagnostic

def controlState (control : Word) : Word := control &&& controlStateMask

def controlGeneration (control : Word) : Word := control >>> controlGenerationShift

def makeControl (generation state : Word) : Word :=
  (generation <<< controlGenerationShift) ||| state

/-- `airdap_dap_ownership_claim_t`. -/
structure Claim where
  owner : Word
  generation : Word
  deriving DecidableEq, Repr

/-- `airdap_dap_ownership_operation_t`, the handle of a reserved operation. -/
structure Operation where
  owner : Word
  generation : Word
  active : Bool
  deriving DecidableEq, Repr

/-- The value `{0}` that callers initialize their variables with. -/
def Claim.zero : Claim := ⟨0, 0⟩

@[inherit_doc Claim.zero]
def Operation.zero : Operation := ⟨0, 0, false⟩

/-- `(control & OWNERSHIP_CONTROL_ACTIVE) != 0U`. -/
def isActive (control : Word) : Prop := control &&& controlActive ≠ 0

instance : DecidablePred isActive := fun _ => inferInstanceAs (Decidable (_ ≠ _))

/-- `none` is a null pointer. -/
def validClaim : Option Claim → Bool
  | none => false
  | some claim => isOwner claim.owner && 0 < claim.generation &&
      claim.generation ≤ controlGenerationMax

def claimFailureResult (control : Word) (claim : Claim) : OwnershipResult :=
  let state := controlState control
  if state = stateOffline then .offline
  else if state = stateUninitialized then .invalidState
  else if state = stateSuspended then .busy
  else if state = stateTransition ∨ (state = claim.owner ∧
      controlGeneration control = claim.generation ∧ isActive control) then .busy
  else .notOwner

section Packing

variable {g s w : Word}

theorem toNat_controlGenerationMax : controlGenerationMax.toNat = 2 ^ 28 - 1 := by decide

theorem toNat_makeControl (hg : g.toNat < 2 ^ 28) (hs : s.toNat < 16) :
    (makeControl g s).toNat = 16 * g.toNat + s.toNat := by
  have hshift : g.toNat <<< 4 % 2 ^ 32 = g.toNat <<< 4 := by
    apply Nat.mod_eq_of_lt
    rw [Nat.shiftLeft_eq]
    omega
  have hor := Nat.shiftLeft_add_eq_or_of_lt (b := s.toNat) (i := 4) hs g.toNat
  rw [makeControl, controlGenerationShift, BitVec.toNat_or, BitVec.toNat_shiftLeft, hshift,
    ← hor, Nat.shiftLeft_eq]
  omega

theorem toNat_controlState (w : Word) : (controlState w).toNat = w.toNat % 8 := by
  rw [controlState, BitVec.toNat_and]
  exact Nat.and_two_pow_sub_one_eq_mod w.toNat 3

theorem toNat_controlGeneration (w : Word) : (controlGeneration w).toNat = w.toNat / 16 := by
  rw [controlGeneration, BitVec.toNat_ushiftRight, Nat.shiftRight_eq_div_pow]
  rfl

theorem isActive_iff (w : Word) : isActive w ↔ w.toNat / 8 % 2 = 1 := by
  have h : (w &&& controlActive).toNat = (w.toNat.testBit 3).toNat * 8 := by
    rw [BitVec.toNat_and]
    exact Nat.and_two_pow w.toNat 3
  rw [isActive, BitVec.toNat_ne, h, Nat.testBit_eq_decide_div_mod_eq]
  by_cases hb : w.toNat / 8 % 2 = 1 <;> simp [hb]

theorem toNat_or_active (hs : s.toNat < 8) : (s ||| controlActive).toNat = s.toNat + 8 := by
  have h := Nat.shiftLeft_add_eq_or_of_lt (b := s.toNat) (i := 3) hs 1
  rw [Nat.or_comm] at h
  rw [BitVec.toNat_or]
  exact h.symm.trans (Nat.add_comm _ _)

section

variable (hg : g.toNat < 2 ^ 28)
include hg

section

variable (hs : s.toNat < 8)
include hs

theorem toNat_makeControl_active :
    (makeControl g s ||| controlActive).toNat = 16 * g.toNat + s.toNat + 8 := by
  have h := toNat_or_active hs
  rw [makeControl, BitVec.or_assoc, ← makeControl, toNat_makeControl hg (by omega), h]
  omega

theorem controlState_makeControl : controlState (makeControl g s) = s := by
  apply BitVec.eq_of_toNat_eq
  rw [toNat_controlState, toNat_makeControl hg (by omega)]
  omega

theorem controlState_makeControl_active :
    controlState (makeControl g s ||| controlActive) = s := by
  apply BitVec.eq_of_toNat_eq
  rw [toNat_controlState, toNat_makeControl_active hg hs]
  omega

theorem controlGeneration_makeControl :
    controlGeneration (makeControl g s) = g := by
  apply BitVec.eq_of_toNat_eq
  rw [toNat_controlGeneration, toNat_makeControl hg (by omega)]
  omega

theorem controlGeneration_makeControl_active :
    controlGeneration (makeControl g s ||| controlActive) = g := by
  apply BitVec.eq_of_toNat_eq
  rw [toNat_controlGeneration, toNat_makeControl_active hg hs]
  omega

theorem not_isActive_makeControl : ¬ isActive (makeControl g s) := by
  rw [isActive_iff, toNat_makeControl hg (by omega)]
  omega

end

end

theorem isActive_or_active (w : Word) : isActive (w ||| controlActive) := by
  have h : (w ||| controlActive) &&& controlActive = controlActive := by
    apply BitVec.eq_of_getLsbD_eq
    intro i hi
    simp only [BitVec.getLsbD_and, BitVec.getLsbD_or]
    cases w.getLsbD i <;> cases controlActive.getLsbD i <;> rfl
  rw [isActive, h]
  decide

theorem isActive_makeControl_active (hg : g.toNat < 2 ^ 28) (hs : s.toNat < 8) :
    isActive (makeControl g s ||| controlActive) := by
  rw [isActive_iff, toNat_makeControl_active hg hs]
  omega

theorem makeControl_active_and_not (hg : g.toNat < 2 ^ 28) (hs : s.toNat < 8) :
    (makeControl g s ||| controlActive) &&& ~~~controlActive = makeControl g s := by
  have h := not_isActive_makeControl hg hs
  rw [isActive, ne_eq, not_not] at h
  have hsplit : makeControl g s &&& (controlActive ||| ~~~controlActive) = makeControl g s := by
    rw [show controlActive ||| ~~~controlActive = BitVec.allOnes 32 by decide, BitVec.and_allOnes]
  rw [BitVec.and_or_distrib_left, h] at hsplit
  rw [BitVec.and_or_distrib_right, BitVec.and_not_self]
  simpa using hsplit

end Packing
end AirDap
