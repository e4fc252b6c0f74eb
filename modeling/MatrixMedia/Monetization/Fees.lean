import MatrixMedia.Api.Guards
import Mathlib.Data.Int.Log
import Mathlib.Data.Rat.Floor
import Mathlib.Tactic.Linarith

/-!
# Fees of a donation (`mm-payment/src/donations.rs`)

Amounts are `i64` and wrap around, the product with the platform's fraction is an `f64`. Below `2 ^ 53`
cents a net amount is a double, and so are the integers and halves next to its share: rounding does not
cross them, and the parts are parts. Beyond, the shares jump by more than a cent, and from
`2 ^ 63 / 29` cents on the percentage leaves the `i64` (`huge_amounts`).
-/

namespace MatrixMedia.Monetization
open Api

structure FeeBreakdown where
  grossCents : Int
  stripeFeeCents : Int
  platformFeeCents : Int
  creatorNetCents : Int

/-- An `i64` after an operation. -/
def wrap (x : Int) : Int := x.bmod (2 ^ 64)

/-- The nearest integer, the even one of two. -/
def roundEven (x : ℚ) : Int :=
  if x - ⌊x⌋ < 1 / 2 ∨ x - ⌊x⌋ = 1 / 2 ∧ ⌊x⌋ % 2 = 0 then ⌊x⌋ else ⌊x⌋ + 1

/-- The distance of the doubles next to a number. -/
def ulp (x : ℚ) : ℚ := 2 ^ (max (Int.log 2 |x|) (-1022) - 52)

/-- The nearest double. -/
def toF64 (x : ℚ) : ℚ := roundEven (x / ulp x) * ulp x

/-- `f64::round`, halves away from zero. -/
def roundAway (x : ℚ) : Int := if 0 ≤ x then ⌊x + 1 / 2⌋ else ⌈x - 1 / 2⌉

/-- A cast to `i64` saturates. -/
def saturate (x : Int) : Int := max (-2 ^ 63) (min x (2 ^ 63 - 1))

def calculateFees (amountCents : Int) (platformFeePct : ℚ) : FeeBreakdown :=
  let stripeFeeCents := wrap (30 + (wrap (amountCents * 29)).tdiv 1000)
  let netAfterStripe := wrap (amountCents - stripeFeeCents)
  let platformFeeCents := saturate (roundAway (toF64 (toF64 netAfterStripe * platformFeePct)))
  ⟨amountCents, stripeFeeCents, platformFeeCents, wrap (netAfterStripe - platformFeeCents)⟩

/-! ## Doubles -/

section
variable {x y pct : ℚ} {n m : Int}

theorem roundEven_le (h : x ≤ n) : roundEven x ≤ n := by
  unfold roundEven
  split
  · exact_mod_cast (Int.floor_le x).trans h
  · rename_i hup
    refine Int.add_one_le_iff.mpr (Int.floor_lt.mpr (h.lt_of_ne ?_))
    rintro rfl
    exact hup (.inl (by simp))

theorem le_roundEven (h : n ≤ x) : n ≤ roundEven x := by
  have hfloor : n ≤ ⌊x⌋ := Int.le_floor.mpr h
  unfold roundEven
  split <;> omega

theorem ulp_pos : 0 < ulp x := zpow_pos (by norm_num) _

/-- Rounding does not cross a double. -/
theorem toF64_le {g : ℚ} (hg : ∃ z : Int, g = z * ulp x) (h : x ≤ g) : toF64 x ≤ g := by
  obtain ⟨z, rfl⟩ := hg
  have hz : roundEven (x / ulp x) ≤ z := roundEven_le ((div_le_iff₀ ulp_pos).mpr h)
  exact mul_le_mul_of_nonneg_right (by exact_mod_cast hz) ulp_pos.le

theorem le_toF64 {g : ℚ} (hg : ∃ z : Int, g = z * ulp x) (h : g ≤ x) : g ≤ toF64 x := by
  obtain ⟨z, rfl⟩ := hg
  have hz : z ≤ roundEven (x / ulp x) := le_roundEven ((le_div_iff₀ ulp_pos).mpr h)
  exact mul_le_mul_of_nonneg_right (by exact_mod_cast hz) ulp_pos.le

/-- Below `2 ^ (53 - k)` the multiples of `2 ^ -k` are doubles. -/
theorem isDouble {k : Nat} (hk : k ≤ 1) (nonneg : 0 ≤ x) (small : x < 2 ^ (53 - k)) (z : Int) : ∃ z' : Int, (z : ℚ) / 2 ^ k = z' * ulp x := by
  have hlog : Int.log 2 |x| ≤ 52 - k := by
    rw [abs_of_nonneg nonneg]
    rcases nonneg.eq_or_lt with rfl | pos
    · rw [Int.log_zero_right]
      omega
    · refine Int.lt_add_one_iff.mp ((Int.lt_zpow_iff_log_lt (by norm_num) pos).mp ?_)
      rw [show (52 - k + 1 : Int) = ((53 - k : Nat) : Int) by omega, zpow_natCast]
      exact_mod_cast small
  obtain ⟨t, ht⟩ := Int.eq_ofNat_of_zero_le (show 0 ≤ -(max (Int.log 2 |x|) (-1022) - 52) - k by omega)
  refine ⟨z * 2 ^ t, ?_⟩
  rw [ulp, show max (Int.log 2 |x|) (-1022) - 52 = -((t + k : Nat) : Int) by omega, zpow_neg, zpow_natCast, pow_add]
  push_cast
  field_simp

/-- An integer below `2 ^ 53` is a double. -/
theorem toF64_int (nonneg : 0 ≤ n) (small : n < 2 ^ 53) : toF64 n = n := by
  have hdouble := isDouble (x := n) (k := 0) (by omega) (by exact_mod_cast nonneg) (by exact_mod_cast small) n
  rw [pow_zero, div_one] at hdouble
  exact le_antisymm (toF64_le hdouble le_rfl) (le_toF64 hdouble le_rfl)

/-! ## Shares -/

/-- The platform's part of a net amount. -/
def share (n : Int) (pct : ℚ) : Int := roundAway (toF64 (n * pct))

theorem share_eq (nonneg : 0 ≤ n * pct) (small : n * pct < 2 ^ 53) :
    0 ≤ toF64 (n * pct) ∧ share n pct = ⌊toF64 (n * pct) + 1 / 2⌋ := by
  have hzero : 0 ≤ toF64 (n * pct) := by
    have hdouble := isDouble (k := 0) (by omega) nonneg (by exact_mod_cast small) 0
    exact le_toF64 (by simpa only [Int.cast_zero, zero_div] using hdouble) nonneg
  exact ⟨hzero, if_pos hzero⟩

/-- The platform's part is a part. -/
theorem share_between (nonneg : 0 ≤ pct) (le_one : pct ≤ 1) (hn : 0 ≤ n) (small : n < 2 ^ 53) : 0 ≤ share n pct ∧ share n pct ≤ n := by
  have hnet : (0 : ℚ) ≤ n := by exact_mod_cast hn
  have hpart : n * pct ≤ n := mul_le_of_le_one_right hnet le_one
  have hsmall : (n : ℚ) * pct < 2 ^ 53 := hpart.trans_lt (by exact_mod_cast small)
  obtain ⟨hzero, heq⟩ := share_eq (mul_nonneg hnet nonneg) hsmall
  have hdouble := isDouble (k := 0) (by omega) (mul_nonneg hnet nonneg) (by exact_mod_cast hsmall) n
  have hle : toF64 (n * pct) ≤ n := toF64_le (by simpa using hdouble) hpart
  rw [heq]
  refine ⟨Int.floor_nonneg.mpr (by linarith), Int.lt_add_one_iff.mp (Int.floor_lt.mpr ?_)⟩
  push_cast
  linarith

/-- One cent more is at most one cent more for the platform: below the next half its share is at most
the next integer. -/
theorem share_succ (nonneg : 0 ≤ pct) (half : pct ≤ 1 / 2) (hn : 0 ≤ n) (small : n + 1 < 2 ^ 53) : share (n + 1) pct ≤ share n pct + 1 := by
  have hnet : (0 : ℚ) ≤ n := by exact_mod_cast hn
  have hbound : (n : ℚ) + 1 < 2 ^ 53 := by exact_mod_cast small
  have hx : 0 ≤ n * pct := mul_nonneg hnet nonneg
  have hy : ((n + 1 : Int) : ℚ) * pct = n * pct + pct := by push_cast; ring
  have hxs : (n : ℚ) * pct < 2 ^ 52 := by nlinarith
  have hys : ((n + 1 : Int) : ℚ) * pct < 2 ^ 53 := by push_cast; nlinarith
  obtain ⟨-, heq⟩ := share_eq hx (hxs.trans (by norm_num))
  obtain ⟨-, heq'⟩ := share_eq (n := n + 1) (hy ▸ add_nonneg hx nonneg) hys
  have hbelow : (n : ℚ) * pct < share n pct + 1 / 2 := by
    by_contra hreached
    have hdouble := isDouble (k := 1) (by omega) hx (by exact_mod_cast hxs) (2 * share n pct + 1)
    have hle : (share n pct : ℚ) + 1 / 2 ≤ toF64 (n * pct) := by
      refine le_toF64 ?_ (not_lt.mp hreached)
      obtain ⟨z, hz⟩ := hdouble
      exact ⟨z, by rw [← hz]; push_cast; ring⟩
    have hnext : share n pct + 1 ≤ ⌊toF64 (n * pct) + 1 / 2⌋ := Int.le_floor.mpr (by push_cast; linarith)
    omega
  have hle : toF64 ((n + 1 : Int) * pct) ≤ share n pct + 1 := by
    have hdouble := isDouble (k := 0) (by omega) (hy ▸ add_nonneg hx nonneg) (by exact_mod_cast hys) (share n pct + 1)
    exact toF64_le (by simpa using hdouble) (by rw [hy]; linarith)
  have hnext : ((share n pct + 1 + 1 : Int) : ℚ) = share n pct + 1 + 1 := by push_cast; rfl
  rw [heq']
  refine Int.lt_add_one_iff.mp (Int.floor_lt.mpr ?_)
  rw [hnext]
  linarith

/-- What is left of a net amount after the platform's part. -/
theorem kept_mono (nonneg : 0 ≤ pct) (half : pct ≤ 1 / 2) (hn : 0 ≤ n) (le : n ≤ m) (small : m < 2 ^ 53) : n - share n pct ≤ m - share m pct := by
  induction m, le using Int.leInduction with
  | base => exact le_rfl
  | succ m le ih =>
    have := share_succ nonneg half (hn.trans le) small
    have := ih (by omega)
    omega

/-! ## Fees -/

/-- What is left of an amount after Stripe's part. -/
def netAfterStripe (a : Int) : Int := a - (30 + a * 29 / 1000)

theorem wrap_of_fits {x : Int} (low : -2 ^ 63 ≤ x) (high : x < 2 ^ 63) : wrap x = x := by
  unfold wrap Int.bmod
  norm_num at *
  split <;> omega

/-- The fees without machine arithmetic. -/
theorem calculateFees_eq (nonneg : 0 ≤ pct) (le_one : pct ≤ 1) {a : Int} (least : 100 ≤ a) (small : a < 2 ^ 53) :
    0 ≤ netAfterStripe a ∧ netAfterStripe a < 2 ^ 53 ∧ calculateFees a pct =
      ⟨a, 30 + a * 29 / 1000, share (netAfterStripe a) pct, netAfterStripe a - share (netAfterStripe a) pct⟩ := by
  have bounds : 0 ≤ netAfterStripe a ∧ netAfterStripe a < 2 ^ 53 := by
    unfold netAfterStripe
    omega
  obtain ⟨low, high⟩ := share_between nonneg le_one bounds.1 bounds.2
  have product : wrap (a * 29) = a * 29 := wrap_of_fits (by omega) (by omega)
  have stripe : wrap (30 + (a * 29).tdiv 1000) = 30 + a * 29 / 1000 := by
    rw [Int.tdiv_eq_ediv_of_nonneg (by omega)]
    exact wrap_of_fits (by omega) (by omega)
  have net : wrap (a - (30 + a * 29 / 1000)) = netAfterStripe a := wrap_of_fits (by omega) (by omega)
  have cast : saturate (share (netAfterStripe a) pct) = share (netAfterStripe a) pct := by
    unfold saturate
    omega
  have creator : wrap (netAfterStripe a - share (netAfterStripe a) pct) = netAfterStripe a - share (netAfterStripe a) pct :=
    wrap_of_fits (by omega) (by omega)
  refine ⟨bounds.1, bounds.2, ?_⟩
  simp only [calculateFees, product, stripe, net, toF64_int bounds.1 bounds.2]
  rw [← share, cast, creator]

end

end MatrixMedia.Monetization
