import Creditcoin.Ledger
import Creditcoin.Lib.Rounding

/-!
# Compound interest

`calcInterest` adds a truncated share of the running total once a tick. The total composes over
ticks, is monotone in every argument, and falls behind exact compound growth by less than a
geometric sum. Every statement is over amounts and rates that are not negative.
-/

namespace Creditcoin

open Lib

/-- The total after one tick. -/
def addInterest (amount interest : Int) : Int := amount + (amount * interest).tdiv 1000000

/-- The exact factor by which a total grows in one tick. -/
def growthFactor (interest : Int) : ℚ := 1 + interest / 1000000

section OneTick

variable {amount larger interest rate : Int}

/-- One tick of `calcInterest`. -/
theorem calcInterest_succ (amount : Int) (ticks : Nat) (interest : Int) :
    calcInterest amount (ticks + 1) interest =
      calcInterest (addInterest amount interest) ticks interest := rfl

/-- Where nothing is negative, truncation is the quotient rounded down. -/
theorem addInterest_floor (amountNonneg : 0 ≤ amount) (interestNonneg : 0 ≤ interest) :
    addInterest amount interest = amount + amount * interest / 1000000 := by
  have product : 0 ≤ amount * interest := Int.mul_nonneg amountNonneg interestNonneg
  rw [addInterest, Int.tdiv_eq_ediv_of_nonneg product]

/-- A tick does not lower the total. -/
theorem le_addInterest (amountNonneg : 0 ≤ amount) (interestNonneg : 0 ≤ interest) :
    amount ≤ addInterest amount interest := by
  have product : 0 ≤ amount * interest := Int.mul_nonneg amountNonneg interestNonneg
  rw [addInterest_floor amountNonneg interestNonneg]
  omega

/-- A tick keeps the order of two totals and of two rates. -/
theorem addInterest_mono (amountNonneg : 0 ≤ amount) (interestNonneg : 0 ≤ interest)
    (more : amount ≤ larger) (higher : interest ≤ rate) :
    addInterest amount interest ≤ addInterest larger rate := by
  have product : amount * interest ≤ larger * rate :=
    Int.mul_le_mul more higher interestNonneg (by omega)
  rw [addInterest_floor amountNonneg interestNonneg, addInterest_floor (by omega) (by omega)]
  omega

/-- A tick grows the total by the factor, rounded down by less than one. -/
theorem addInterest_rounded (amountNonneg : 0 ≤ amount) (interestNonneg : 0 ≤ interest) :
    (addInterest amount interest : ℚ) ≤ growthFactor interest * amount ∧
      growthFactor interest * amount < addInterest amount interest + 1 := by
  have product : 0 ≤ amount * interest := Int.mul_nonneg amountNonneg interestNonneg
  rw [addInterest_floor amountNonneg interestNonneg]
  -- both bounds are the division with remainder, multiplied out
  have division : 1000000 * (amount * interest / 1000000) ≤ amount * interest ∧
      amount * interest < 1000000 * (amount * interest / 1000000) + 1000000 := by omega
  have low : (1000000 : ℚ) * ((amount * interest / 1000000 : Int) : ℚ) ≤ amount * interest := by
    exact_mod_cast division.1
  have high : (amount : ℚ) * interest <
      1000000 * ((amount * interest / 1000000 : Int) : ℚ) + 1000000 := by
    exact_mod_cast division.2
  have expanded : growthFactor interest * amount = amount + amount * interest / 1000000 := by
    rw [growthFactor]
    ring
  rw [expanded, Int.cast_add]
  constructor
  · linarith
  · linarith

end OneTick

section Ticks

variable {amount larger interest rate : Int}

/-- Ticks compose. -/
theorem calcInterest_add (amount : Int) (before after : Nat) (interest : Int) :
    calcInterest amount (before + after) interest =
      calcInterest (calcInterest amount before interest) after interest := by
  induction before generalizing amount with
  | zero => rw [Nat.zero_add]; rfl
  | succ before ih =>
    rw [Nat.succ_add, calcInterest_succ, ih, calcInterest_succ]

/-- The last tick, taken off at the end. -/
theorem calcInterest_last (amount : Int) (ticks : Nat) (interest : Int) :
    calcInterest amount (ticks + 1) interest =
      addInterest (calcInterest amount ticks interest) interest :=
  calcInterest_add amount ticks 1 interest

/-- The total is at least the amount. -/
theorem le_calcInterest (amountNonneg : 0 ≤ amount) (interestNonneg : 0 ≤ interest)
    (ticks : Nat) : amount ≤ calcInterest amount ticks interest := by
  induction ticks with
  | zero => exact Int.le_refl amount
  | succ ticks ih =>
    rw [calcInterest_last]
    exact Int.le_trans ih (le_addInterest (by omega) interestNonneg)

/-- The total is monotone in the amount and in the rate. -/
theorem calcInterest_mono (amountNonneg : 0 ≤ amount) (interestNonneg : 0 ≤ interest)
    (more : amount ≤ larger) (higher : interest ≤ rate) (ticks : Nat) :
    calcInterest amount ticks interest ≤ calcInterest larger ticks rate := by
  induction ticks with
  | zero => exact more
  | succ ticks ih =>
    have nonneg := le_calcInterest amountNonneg interestNonneg ticks
    rw [calcInterest_last, calcInterest_last]
    exact addInterest_mono (by omega) interestNonneg ih higher

/-- The total is monotone in the ticks. -/
theorem calcInterest_mono_ticks (amountNonneg : 0 ≤ amount) (interestNonneg : 0 ≤ interest)
    {fewer ticks : Nat} (longer : fewer ≤ ticks) :
    calcInterest amount fewer interest ≤ calcInterest amount ticks interest := by
  obtain ⟨further, rfl⟩ := Nat.exists_eq_add_of_le longer
  have nonneg := le_calcInterest amountNonneg interestNonneg fewer
  rw [calcInterest_add]
  exact le_calcInterest (by omega) interestNonneg further

/-- `calcInterest` is rounded growth. -/
theorem calcInterest_growth (amountNonneg : 0 ≤ amount) (interestNonneg : 0 ≤ interest) :
    RoundedGrowth (growthFactor interest)
      fun ticks => (calcInterest amount ticks interest : ℚ) where
  below ticks := by
    have nonneg := le_calcInterest amountNonneg interestNonneg ticks
    rw [calcInterest_last]
    exact (addInterest_rounded (by omega) interestNonneg).1
  close ticks := by
    have nonneg := le_calcInterest amountNonneg interestNonneg ticks
    rw [calcInterest_last]
    exact (addInterest_rounded (by omega) interestNonneg).2

/-- The growth factor is not negative. -/
theorem growthFactor_nonneg (interestNonneg : 0 ≤ interest) : 0 ≤ growthFactor interest := by
  have cast : (0 : ℚ) ≤ interest := by exact_mod_cast interestNonneg
  have share : (0 : ℚ) ≤ interest / 1000000 := div_nonneg cast (by norm_num)
  rw [growthFactor]
  linarith

/-- The compound interest laws: composition over ticks, monotonicity in every argument, and the
distance to exact growth. -/
theorem calcInterest_laws (amountNonneg : 0 ≤ amount) (interestNonneg : 0 ≤ interest) :
    (∀ before after, calcInterest amount (before + after) interest =
      calcInterest (calcInterest amount before interest) after interest) ∧
    (∀ larger rate fewer ticks, amount ≤ larger → interest ≤ rate → fewer ≤ ticks →
      calcInterest amount fewer interest ≤ calcInterest larger ticks rate) ∧
    ∀ ticks : Nat,
      (calcInterest amount ticks interest : ℚ) ≤ amount * (1 + (interest : ℚ) / 1000000) ^ ticks ∧
      (0 < ticks →
        amount * (1 + (interest : ℚ) / 1000000) ^ ticks - calcInterest amount ticks interest <
          ∑ k ∈ Finset.range ticks, (1 + (interest : ℚ) / 1000000) ^ k) := by
  have growth := calcInterest_growth amountNonneg interestNonneg
  have nonneg := growthFactor_nonneg interestNonneg
  refine ⟨fun before after => calcInterest_add amount before after interest, ?_, ?_⟩
  · intro larger rate fewer ticks more higher longer
    calc calcInterest amount fewer interest
        ≤ calcInterest amount ticks interest :=
          calcInterest_mono_ticks amountNonneg interestNonneg longer
      _ ≤ calcInterest larger ticks rate :=
          calcInterest_mono amountNonneg interestNonneg more higher ticks
  · intro ticks
    exact ⟨growth.le_power nonneg ticks, growth.gap_lt nonneg⟩

/-- Three ticks at ten percent on a small amount: each tick is truncated. -/
theorem calcInterest_laws_sample : calcInterest 19 (1 + 2) 100000 = 24 ∧
    calcInterest 19 (1 + 2) 100000 = calcInterest (calcInterest 19 1 100000) 2 100000 :=
  ⟨by decide, (calcInterest_laws (by decide) (by decide)).1 1 2⟩

end Ticks

end Creditcoin
