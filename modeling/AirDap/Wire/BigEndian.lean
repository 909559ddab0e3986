import Mathlib.Data.Nat.Bitwise

/-! Numbers of sixteen and thirty-two bits in network byte order: the byte with the highest
weight comes first. -/
namespace Wire

def halfOf (hi lo : BitVec 8) : BitVec 16 := (hi.setWidth 16 <<< 8) ||| lo.setWidth 16

def wordOf (a b c d : BitVec 8) : BitVec 32 :=
  (a.setWidth 32 <<< 24) ||| (b.setWidth 32 <<< 16) ||| (c.setWidth 32 <<< 8) ||| d.setWidth 32

def halfBytes (v : BitVec 16) : List (BitVec 8) := [(v >>> 8).setWidth 8, v.setWidth 8]

def wordBytes (v : BitVec 32) : List (BitVec 8) :=
  [(v >>> 24).setWidth 8, (v >>> 16).setWidth 8, (v >>> 8).setWidth 8, v.setWidth 8]

@[simp] theorem length_halfBytes (v : BitVec 16) : (halfBytes v).length = 2 := rfl

@[simp] theorem length_wordBytes (v : BitVec 32) : (wordBytes v).length = 4 := rfl

theorem mul_or_of_lt {b : ℕ} (a i : ℕ) (hb : b < 2 ^ i) : a * 2 ^ i ||| b = a * 2 ^ i + b := by
  rw [← Nat.shiftLeft_eq, Nat.shiftLeft_add_eq_or_of_lt hb]

theorem toNat_shifted {w : ℕ} (b : BitVec 8) (i : ℕ) (hw : i + 8 ≤ w) :
    (b.setWidth w <<< i).toNat = b.toNat * 2 ^ i := by
  have hb := b.isLt
  have hbw : 2 ^ 8 ≤ 2 ^ w := Nat.pow_le_pow_right (by decide) (by omega)
  have hle : 2 ^ (8 + i) ≤ 2 ^ w := Nat.pow_le_pow_right (by decide) (by omega)
  have hlt : b.toNat * 2 ^ i < 2 ^ (8 + i) := by
    rw [Nat.pow_add]
    exact Nat.mul_lt_mul_of_pos_right hb (Nat.two_pow_pos i)
  have hmod : b.toNat % 2 ^ w = b.toNat := Nat.mod_eq_of_lt (by omega)
  rw [BitVec.toNat_shiftLeft, BitVec.toNat_setWidth, hmod, Nat.shiftLeft_eq,
    Nat.mod_eq_of_lt (by omega)]

theorem toNat_halfOf (hi lo : BitVec 8) : (halfOf hi lo).toNat = hi.toNat * 2 ^ 8 + lo.toNat := by
  have hlo := lo.isLt
  unfold halfOf
  rw [BitVec.toNat_or, toNat_shifted hi 8 (by decide), BitVec.toNat_setWidth,
    Nat.mod_eq_of_lt (by omega), mul_or_of_lt _ 8 hlo]

theorem toNat_wordOf (a b c d : BitVec 8) : (wordOf a b c d).toNat =
    a.toNat * 2 ^ 24 + b.toNat * 2 ^ 16 + c.toNat * 2 ^ 8 + d.toNat := by
  have hb := b.isLt
  have hc := c.isLt
  have hd := d.isLt
  have hab : a.toNat * 2 ^ 24 ||| b.toNat * 2 ^ 16 = (a.toNat * 2 ^ 8 + b.toNat) * 2 ^ 16 := by
    rw [mul_or_of_lt _ 24 (by omega)]
    omega
  have habc : (a.toNat * 2 ^ 8 + b.toNat) * 2 ^ 16 ||| c.toNat * 2 ^ 8 =
      ((a.toNat * 2 ^ 8 + b.toNat) * 2 ^ 8 + c.toNat) * 2 ^ 8 := by
    rw [mul_or_of_lt _ 16 (by omega)]
    omega
  unfold wordOf
  rw [BitVec.toNat_or, BitVec.toNat_or, BitVec.toNat_or, toNat_shifted a 24 (by decide),
    toNat_shifted b 16 (by decide), toNat_shifted c 8 (by decide), BitVec.toNat_setWidth,
    Nat.mod_eq_of_lt (by omega), hab, habc, mul_or_of_lt _ 8 hd]
  omega

theorem toNat_byte {w : ℕ} (v : BitVec w) (i : ℕ) :
    ((v >>> i).setWidth 8).toNat = v.toNat / 2 ^ i % 2 ^ 8 := by
  rw [BitVec.toNat_setWidth, BitVec.toNat_ushiftRight, Nat.shiftRight_eq_div_pow]

@[simp] theorem halfOf_bytes (v : BitVec 16) :
    halfOf ((v >>> 8).setWidth 8) (v.setWidth 8) = v := by
  have hv := v.isLt
  apply BitVec.eq_of_toNat_eq
  rw [toNat_halfOf, toNat_byte, BitVec.toNat_setWidth]
  omega

@[simp] theorem wordOf_bytes (v : BitVec 32) :
    wordOf ((v >>> 24).setWidth 8) ((v >>> 16).setWidth 8) ((v >>> 8).setWidth 8)
      (v.setWidth 8) = v := by
  have hv := v.isLt
  apply BitVec.eq_of_toNat_eq
  rw [toNat_wordOf, toNat_byte, toNat_byte, toNat_byte, BitVec.toNat_setWidth]
  omega

theorem halfBytes_injective : Function.Injective halfBytes := by
  intro v w h
  simp only [halfBytes, List.cons.injEq, and_true] at h
  rw [← halfOf_bytes v, h.1, h.2, halfOf_bytes]

theorem wordBytes_injective : Function.Injective wordBytes := by
  intro v w h
  simp only [wordBytes, List.cons.injEq, and_true] at h
  rw [← wordOf_bytes v, h.1, h.2.1, h.2.2.1, h.2.2.2, wordOf_bytes]

@[simp] theorem halfBytes_of (hi lo : BitVec 8) : halfBytes (halfOf hi lo) = [hi, lo] := by
  have hhi := hi.isLt
  have hlo := lo.isLt
  have h := toNat_halfOf hi lo
  have hfirst : ((halfOf hi lo) >>> 8).setWidth 8 = hi := by
    apply BitVec.eq_of_toNat_eq
    rw [toNat_byte, h]
    omega
  have hsecond : (halfOf hi lo).setWidth 8 = lo := by
    apply BitVec.eq_of_toNat_eq
    rw [BitVec.toNat_setWidth, h]
    omega
  rw [halfBytes, hfirst, hsecond]

@[simp] theorem wordBytes_of (a b c d : BitVec 8) : wordBytes (wordOf a b c d) = [a, b, c, d] := by
  have ha := a.isLt
  have hb := b.isLt
  have hc := c.isLt
  have hd := d.isLt
  have h := toNat_wordOf a b c d
  have hfirst : ((wordOf a b c d) >>> 24).setWidth 8 = a := by
    apply BitVec.eq_of_toNat_eq
    rw [toNat_byte, h]
    omega
  have hsecond : ((wordOf a b c d) >>> 16).setWidth 8 = b := by
    apply BitVec.eq_of_toNat_eq
    rw [toNat_byte, h]
    omega
  have hthird : ((wordOf a b c d) >>> 8).setWidth 8 = c := by
    apply BitVec.eq_of_toNat_eq
    rw [toNat_byte, h]
    omega
  have hfourth : (wordOf a b c d).setWidth 8 = d := by
    apply BitVec.eq_of_toNat_eq
    rw [BitVec.toNat_setWidth, h]
    omega
  rw [wordBytes, hfirst, hsecond, hthird, hfourth]

end Wire
