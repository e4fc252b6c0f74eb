import MatrixMedia.Rating.Model
import Mathlib.Algebra.Order.BigOperators.Group.List
import Mathlib.Algebra.Order.Group.Abs

/-!
# Rounding the sum and summing the rounded

The ladder prices a unit's unrated usage as one quantity (`LadderBillingSource::quote`), the rater
prices each event. Each rounds half up, so each event shifts the rater's total by its distance from a
whole number of minor units, up or down, and the ladder's figure is shifted once. The two agree to
within one unit exactly as long as the shifts do not add up to more (`owed_within_one_of_rated`).
Halves are all shifted up (`four_halves`).
-/

namespace MatrixMedia.Rating

/-- What the ladder takes to be owed for one unit. -/
def owedMinor (quantities : List Int) (price : Int) : Int := chargeMinor quantities.sum price

/-- What the rater charges for the same events. -/
def ratedMinor (quantities : List Int) (price : Int) : Int := (quantities.map (chargeMinor · price)).sum

/-- By how many thousandths of a minor unit the exact charges of the events are above what they are rounded to, taken
together. -/
def shift (quantities : List Int) (price : Int) : Int := (quantities.map fun q => (q * price).bmod 1000).sum

/-- A charge that does not saturate is the exact one, rounded half up. -/
theorem chargeMinor_eq {quantity price : Int} (nonneg : 0 ≤ quantity) (hprice : 0 ≤ price)
    (fits : quantity * price + 500 ≤ i64Max) : chargeMinor quantity price = (quantity * price + 500) / 1000 := by
  have exact : 0 ≤ quantity * price := Int.mul_nonneg nonneg hprice
  unfold chargeMinor
  split
  · rename_i zero
    have : quantity * price = 0 := by
      rcases zero with zero | zero
      · rw [Int.le_antisymm zero nonneg, Int.zero_mul]
      · rw [Int.le_antisymm zero hprice, Int.mul_zero]
    omega
  · have same {n : Int} (low : 0 ≤ n) (high : n ≤ i64Max) : saturate n = n := by
      unfold saturate i64Min
      unfold i64Max at *
      omega
    dsimp only
    rw [same exact (by omega), same (by omega) fits]
    exact Int.tdiv_eq_ediv_of_nonneg (by omega)

theorem chargeMinor_shift {quantity price : Int} (nonneg : 0 ≤ quantity) (hprice : 0 ≤ price)
    (fits : quantity * price + 500 ≤ i64Max) : 1000 * chargeMinor quantity price + (quantity * price).bmod 1000 = quantity * price := by
  rw [chargeMinor_eq nonneg hprice fits, Int.bmod_def]
  split <;> omega

/-- The rater's total is the exact amount, but for the shifts. -/
theorem ratedMinor_shift {price : Int} (hprice : 0 ≤ price) {quantities : List Int} (nonneg : ∀ q ∈ quantities, 0 ≤ q)
    (fits : quantities.sum * price + 500 ≤ i64Max) : 1000 * ratedMinor quantities price + shift quantities price = quantities.sum * price := by
  induction quantities with
  | nil => simp [ratedMinor, shift]
  | cons q quantities ih =>
    obtain ⟨head, tail⟩ := List.forall_mem_cons.mp nonneg
    rw [List.sum_cons, Int.add_mul] at fits ⊢
    have := Int.mul_nonneg head hprice
    have := Int.mul_nonneg (List.sum_nonneg tail) hprice
    have here := chargeMinor_shift head hprice (by omega)
    have rest := ih tail (by omega)
    simp only [ratedMinor, shift, List.map_cons, List.sum_cons] at rest ⊢
    omega

/-- **What the ladder says is owed is what the rater charges**, give or take one minor unit, and both are the exact amount
give or take one, exactly if the shifts of the events add up to at most one unit. -/
theorem owed_within_one_of_rated {price : Int} (hprice : 0 ≤ price) {quantities : List Int} (nonneg : ∀ q ∈ quantities, 0 ≤ q)
    (fits : quantities.sum * price + 500 ≤ i64Max) :
    (|owedMinor quantities price - ratedMinor quantities price| ≤ 1 ∧
      |1000 * owedMinor quantities price - quantities.sum * price| ≤ 1000 ∧
      |1000 * ratedMinor quantities price - quantities.sum * price| ≤ 1000) ↔ |shift quantities price| ≤ 1000 := by
  have rated := ratedMinor_shift hprice nonneg fits
  have owed : owedMinor quantities price = (quantities.sum * price + 500) / 1000 :=
    chargeMinor_eq (List.sum_nonneg nonneg) hprice fits
  rw [owed]
  simp only [abs_le]
  constructor
  · rintro ⟨-, -, low, high⟩
    omega
  · rintro ⟨low, high⟩
    omega

theorem owed_within_one_many : |owedMinor [400, 600, 400, 600, 500, 100] 1 - ratedMinor [400, 600, 400, 600, 500, 100] 1| ≤ 1 :=
  ((owed_within_one_of_rated (by decide) (by decide) (by decide)).mpr (by decide)).1

/-- Four events of half a unit at one a unit: two are owed, four are charged. -/
theorem four_halves : owedMinor [500, 500, 500, 500] 1 = 2 ∧ ratedMinor [500, 500, 500, 500] 1 = 4 := by
  decide

end MatrixMedia.Rating
