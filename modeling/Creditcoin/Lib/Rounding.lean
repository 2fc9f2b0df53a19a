import Mathlib.Algebra.Field.GeomSum
import Mathlib.Algebra.Order.BigOperators.Group.Finset
import Mathlib.Tactic.Linarith
import Mathlib.Tactic.Ring

/-!
# Growth with rounding

A quantity that should grow by a factor at every step, but is rounded down by less than one
each time, stays below the exact power and falls behind it by less than a geometric sum. A sum
of a function that is constant on blocks of indices is a sum over the blocks.
-/

namespace Lib

open Finset

section Growth

variable {R : Type*} [CommRing R] [LinearOrder R] [IsStrictOrderedRing R]

/-- A quantity that loses less than one at every step of growth by a factor. -/
structure RoundedGrowth (factor : R) (total : ℕ → R) : Prop where
  /-- No step gains more than the factor. -/
  below (step : ℕ) : total (step + 1) ≤ factor * total step
  /-- Every step loses less than one. -/
  close (step : ℕ) : factor * total step < total (step + 1) + 1

variable {factor : R} {total : ℕ → R}

/-- Rounded growth stays below the exact one. -/
theorem RoundedGrowth.le_power (growth : RoundedGrowth factor total) (nonneg : 0 ≤ factor)
    (steps : ℕ) : total steps ≤ total 0 * factor ^ steps := by
  induction steps with
  | zero => rw [pow_zero, mul_one]
  | succ steps ih =>
    calc total (steps + 1) ≤ factor * total steps := growth.below steps
      _ ≤ factor * (total 0 * factor ^ steps) := mul_le_mul_of_nonneg_left ih nonneg
      _ = total 0 * factor ^ (steps + 1) := by ring

/-- What one more step adds to the gap: the gap before, grown, and less than one. -/
theorem RoundedGrowth.gap_succ (growth : RoundedGrowth factor total) (nonneg : 0 ≤ factor)
    {steps : ℕ} {bound : R} (gap : total 0 * factor ^ steps - total steps ≤ bound) :
    total 0 * factor ^ (steps + 1) - total (steps + 1) < factor * bound + 1 := by
  have scaled := mul_le_mul_of_nonneg_left gap nonneg
  have lost := growth.close steps
  have exact : total 0 * factor ^ (steps + 1) = factor * (total 0 * factor ^ steps) := by ring
  rw [exact]
  linarith

/-- Rounded growth falls behind the exact one by no more than a geometric sum. -/
theorem RoundedGrowth.gap_le (growth : RoundedGrowth factor total) (nonneg : 0 ≤ factor)
    (steps : ℕ) : total 0 * factor ^ steps - total steps ≤ ∑ k ∈ range steps, factor ^ k := by
  induction steps with
  | zero => rw [pow_zero, mul_one, sub_self, range_zero, sum_empty]
  | succ steps ih =>
    rw [geom_sum_succ]
    exact (growth.gap_succ nonneg ih).le

/-- After at least one step the gap is strictly smaller than the sum. -/
theorem RoundedGrowth.gap_lt (growth : RoundedGrowth factor total) (nonneg : 0 ≤ factor)
    {steps : ℕ} (positive : 0 < steps) :
    total 0 * factor ^ steps - total steps < ∑ k ∈ range steps, factor ^ k := by
  obtain ⟨before, rfl⟩ := Nat.exists_eq_succ_of_ne_zero positive.ne'
  rw [Nat.succ_eq_add_one, geom_sum_succ]
  exact growth.gap_succ nonneg (growth.gap_le nonneg before)

end Growth

section Blocks

variable {R : Type*} [NonAssocSemiring R]

/-- A sum over whole blocks of indices of a function of the block. -/
theorem sum_range_blocks (value : ℕ → R) {size : ℕ} (positive : 0 < size) (count : ℕ) :
    ∑ index ∈ range (size * count), value (index / size) =
      size * ∑ block ∈ range count, value block := by
  induction count with
  | zero => rw [Nat.mul_zero, range_zero, sum_empty, sum_empty, mul_zero]
  | succ count ih =>
    have last : ∑ offset ∈ range size, value ((size * count + offset) / size) =
        size * value count := by
      have constant : ∀ offset ∈ range size,
          value ((size * count + offset) / size) = value count := by
        intro offset listed
        rw [Nat.mul_add_div positive, Nat.div_eq_of_lt (mem_range.mp listed), Nat.add_zero]
      rw [sum_congr rfl constant, sum_const, card_range, nsmul_eq_mul]
    rw [Nat.mul_succ, sum_range_add, ih, last, sum_range_succ, mul_add]

end Blocks

end Lib
