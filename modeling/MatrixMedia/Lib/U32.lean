import Mathlib.Algebra.BigOperators.Group.List.Basic
import Mathlib.Algebra.Order.Ring.Int

/-!
# Arithmetic on `u32`

The operations Rust code uses on `u32` beyond `+`, `-` and `/`, each with its value as a
natural number. Addition wraps, as in a release build; `sum_eq_of_lt` is the sum of a
list when it does not.
-/

namespace Lib.U32

/-- `u32::saturating_sub`. -/
def saturatingSub (a b : UInt32) : UInt32 := if a ≤ b then 0 else a - b

/-- `u32::saturating_add`. -/
def saturatingAdd (a b : UInt32) : UInt32 := if a.toNat + b.toNat < 2 ^ 32 then a + b else UInt32.ofNat (2 ^ 32 - 1)

/-- `u32::div_ceil`. -/
def divCeil (a b : UInt32) : UInt32 := if a % b = 0 then a / b else a / b + 1

instance lawfulOrderMax : Std.LawfulOrderMax UInt32 where
  max_eq_or a b := by
    show (if a ≤ b then b else a) = a ∨ (if a ≤ b then b else a) = b
    split
    · exact .inr rfl
    · exact .inl rfl
  max_le_iff a b c := by
    show (if a ≤ b then b else a) ≤ c ↔ _
    simp only [UInt32.le_iff_toNat_le]
    split <;> omega

theorem toNat_max (a b : UInt32) : (max a b).toNat = max a.toNat b.toNat := by
  show (if a ≤ b then b else a).toNat = _
  split
  · rename_i h
    rw [Nat.max_eq_right (UInt32.le_iff_toNat_le.mp h)]
  · rename_i h
    rw [UInt32.le_iff_toNat_le] at h
    rw [Nat.max_eq_left (by omega)]

theorem toNat_min (a b : UInt32) : (min a b).toNat = min a.toNat b.toNat := by
  show (if a ≤ b then a else b).toNat = _
  split
  · rename_i h
    rw [Nat.min_eq_left (UInt32.le_iff_toNat_le.mp h)]
  · rename_i h
    rw [UInt32.le_iff_toNat_le] at h
    rw [Nat.min_eq_right (by omega)]

theorem toNat_saturatingSub (a b : UInt32) : (saturatingSub a b).toNat = a.toNat - b.toNat := by
  unfold saturatingSub
  split
  · rename_i h
    have := UInt32.le_iff_toNat_le.mp h
    simp only [UInt32.toNat_zero]
    omega
  · rename_i h
    have hle : b ≤ a := by
      rw [UInt32.le_iff_toNat_le] at h ⊢
      omega
    exact UInt32.toNat_sub_of_le a b hle

theorem mod_pos {a b : UInt32} (h : a % b ≠ 0) : 0 < a.toNat % b.toNat := by
  rcases Nat.eq_zero_or_pos (a.toNat % b.toNat) with hz | hp
  · exact absurd (UInt32.toNat_inj.mp (by rw [UInt32.toNat_mod, hz]; rfl)) h
  · exact hp

/-- A quotient with a remainder can be rounded up. -/
theorem div_add_one_lt {a b : UInt32} (h : a % b ≠ 0) (hb : 0 < b.toNat) : a.toNat / b.toNat + 1 < 2 ^ 32 := by
  have ha := a.toNat_lt
  have hpos := mod_pos h
  have hb2 : 2 ≤ b.toNat := by
    rcases Nat.lt_or_ge b.toNat 2 with hsmall | hge
    · have hone : b.toNat = 1 := by omega
      rw [hone, Nat.mod_one] at hpos
      omega
    · exact hge
  have := Nat.div_le_div_left hb2 (by decide : 0 < 2) (a := a.toNat)
  omega

theorem toNat_divCeil (a b : UInt32) (hb : 0 < b.toNat) :
    (divCeil a b).toNat = (a.toNat + b.toNat - 1) / b.toNat := by
  have hdiv := Nat.div_add_mod a.toNat b.toNat
  have hmod := Nat.mod_lt a.toNat hb
  unfold divCeil
  split
  · rename_i h
    have hzero : a.toNat % b.toNat = 0 := by
      have := congrArg UInt32.toNat h
      rwa [UInt32.toNat_mod] at this
    rw [UInt32.toNat_div]
    symm
    rw [Nat.div_eq_iff hb]
    constructor
    · rw [Nat.mul_comm]
      omega
    · rw [Nat.mul_comm]
      omega
  · rename_i h
    have hpos := mod_pos h
    have hlt := div_add_one_lt h hb
    rw [UInt32.toNat_add, UInt32.toNat_div, UInt32.toNat_one, Nat.mod_eq_of_lt hlt]
    symm
    rw [Nat.div_eq_iff hb, Nat.add_mul, Nat.mul_comm]
    omega

section
variable (l : List UInt32)

/-- `Iterator::sum`. -/
def sum : UInt32 := l.foldl (· + ·) 0

theorem toNat_foldl_add (a : UInt32) :
    (l.foldl (· + ·) a).toNat = (a.toNat + (l.map UInt32.toNat).sum) % 2 ^ 32 := by
  induction l generalizing a with
  | nil =>
    simp only [List.foldl_nil, List.map_nil, List.sum_nil, Nat.add_zero]
    exact (Nat.mod_eq_of_lt a.toNat_lt).symm
  | cons b l ih =>
    rw [List.foldl_cons, ih, UInt32.toNat_add, List.map_cons, List.sum_cons, Nat.mod_add_mod, Nat.add_assoc]

/-- A sum is the sum of the values, modulo `2 ^ 32`. -/
theorem toNat_sum : (sum l).toNat = (l.map UInt32.toNat).sum % 2 ^ 32 := by
  rw [sum, toNat_foldl_add, UInt32.toNat_zero, Nat.zero_add]

/-- `u32::checked_add`, and `+` in a debug build. -/
def checkedAdd (a b : UInt32) : Option UInt32 := if a.toNat + b.toNat < 2 ^ 32 then some (a + b) else none

theorem checkedAdd_eq {a b : UInt32} (h : a.toNat + b.toNat < 2 ^ 32) : checkedAdd a b = some (a + b) := if_pos h

/-- `Iterator::sum` in a debug build. -/
def checkedSum : Option UInt32 := l.foldlM checkedAdd 0

theorem foldlM_checkedAdd (a : UInt32) : l.foldlM checkedAdd a =
    if a.toNat + (l.map UInt32.toNat).sum < 2 ^ 32 then some (l.foldl (· + ·) a) else none := by
  induction l generalizing a with
  | nil =>
    rw [if_pos (by simpa using a.toNat_lt)]
    rfl
  | cons b l ih =>
    rw [List.foldlM_cons, List.map_cons, List.sum_cons, List.foldl_cons]
    by_cases hfits : a.toNat + b.toNat < 2 ^ 32
    · rw [checkedAdd_eq hfits]
      show l.foldlM checkedAdd (a + b) = _
      rw [ih, UInt32.toNat_add, Nat.mod_eq_of_lt hfits, Nat.add_assoc]
    · rw [if_neg (by omega), checkedAdd, if_neg hfits]
      rfl

/-- A checked sum has the value of the sum, or there is none. -/
theorem checkedSum_eq : checkedSum l = if (l.map UInt32.toNat).sum < 2 ^ 32 then some (sum l) else none := by
  rw [checkedSum, foldlM_checkedAdd, UInt32.toNat_zero, Nat.zero_add]
  rfl

end

end Lib.U32
