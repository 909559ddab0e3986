import Mathlib.Data.List.Range
import Mathlib.Data.BitVec

/-! The bits of a number in the order of a serial line that sends the lowest one first. -/
namespace Wire

variable {v w n i : ℕ}

/-- The lowest `n` bits. -/
def bits (n : ℕ) (x : BitVec w) : List Bool := (List.range n).map x.getLsbD

/-- The number whose lowest bits are these. -/
def ofBits (w : ℕ) : List Bool → BitVec w
  | [] => 0
  | b :: bs => ofBits w bs <<< 1 ||| BitVec.ofNat w b.toNat

/-- Whether the number of ones is odd. -/
def parity (bs : List Bool) : Bool := bs.foldr xor false

@[simp] theorem length_bits (n : ℕ) (x : BitVec w) : (bits n x).length = n := by simp [bits]

@[simp] theorem bits_zero (n : ℕ) : bits n (0 : BitVec w) = List.replicate n false := by
  apply List.ext_getElem
  · simp
  · intro i _ _
    simp [bits]

theorem getLsbD_ofBits (bs : List Bool) :
    (ofBits w bs).getLsbD i = (decide (i < w) && bs.getD i false) := by
  induction bs generalizing i with
  | nil => simp [ofBits]
  | cons b bs ih =>
    rw [ofBits, BitVec.getLsbD_or, BitVec.getLsbD_shiftLeft, ih, BitVec.getLsbD_ofNat]
    cases i with
    | zero => cases b <;> simp
    | succ i =>
      have hb : b.toNat.testBit (i + 1) = false := by cases b <;> simp [Nat.testBit_succ]
      simp only [hb, Bool.and_false, Bool.or_false, Nat.add_sub_cancel, List.getD_cons_succ]
      by_cases hi : i + 1 < w
      · simp [hi, show i < w by omega]
      · simp [hi]

theorem bits_succ (n : ℕ) (x : BitVec w) : bits (n + 1) x = bits n x ++ [x.getLsbD n] := by
  simp [bits, List.range_succ]

theorem bits_add (m n : ℕ) (x : BitVec w) : bits (m + n) x = bits m x ++ bits n (x >>> m) := by
  induction n with
  | zero => simp [bits]
  | succ n ih => rw [← Nat.add_assoc, bits_succ, bits_succ, ih, List.append_assoc,
      BitVec.getLsbD_ushiftRight]

@[simp] theorem parity_cons (a : Bool) (as : List Bool) : parity (a :: as) = (a ^^ parity as) := rfl

theorem parity_append (as bs : List Bool) : parity (as ++ bs) = (parity as ^^ parity bs) := by
  induction as with
  | nil => simp [parity]
  | cons a as ih => rw [List.cons_append, parity_cons, parity_cons, ih, Bool.xor_assoc]

@[simp] theorem parity_replicate_false (n : ℕ) : parity (List.replicate n false) = false := by
  induction n with
  | zero => rfl
  | succ n ih => rw [List.replicate_succ, parity_cons, ih, Bool.xor_false]

theorem bits_ofBits (bs : List Bool) (h : n ≤ w) :
    bits n (ofBits w bs) = (bs ++ List.replicate n false).take n := by
  apply List.ext_getElem
  · simp
  · intro i hi _
    rw [length_bits] at hi
    simp only [bits, List.getElem_map, List.getElem_range, getLsbD_ofBits, List.getElem_take,
      decide_eq_true (show i < w by omega), Bool.true_and, List.getElem_append]
    split_ifs with hbs
    · simp [hbs]
    · simp [Nat.le_of_not_lt hbs]

end Wire
