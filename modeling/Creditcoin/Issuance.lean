import Creditcoin.Rewards
import Creditcoin.Script
import Creditcoin.Lib.Rounding
import Mathlib.Tactic.NormNum

/-!
# Issuance under the new formula

The reward of a block goes through text: the fraction of its period is printed with six
decimals, its leading zeros are cut off, zeros are appended and the rest is read as a number.
When the printed fraction is the nearest one, the number is exactly the fraction in wei, the
reward does not increase with the height, and all rewards together stay below a cap.
-/

namespace Creditcoin

open Lib

/-- A text filled up with zeros on the left. -/
def padLeft (width : Nat) (text : Text) : Text :=
  List.replicate (width - text.length) '0' ++ text

/-- A number of millionths in the decimal notation of `std::fixed`. -/
def fixedText (millionths : Nat) : Text :=
  Nat.toDigits 10 (millionths / 1000000) ++
    '.' :: padLeft 6 (Nat.toDigits 10 (millionths % 1000000))

/-- The fraction of a period, in millionths. -/
def exactMillionths (period : Nat) : ℚ := 1000000 * (19 / 20) ^ period

/-- The printed fraction of each period is the nearest one with six decimals. -/
structure Env.PrintsNearest (env : Env) (millionths : Nat → Nat) : Prop where
  /-- The number is the nearest to the exact fraction. -/
  nearest (period : Nat) : |(millionths period : ℚ) - exactMillionths period| ≤ 1 / 2
  /-- Its decimal notation is printed. -/
  printed (period : Nat) : env.fixedPower period = fixedText (millionths period)

/-- The reward of a height under the new formula, zero where there is none. -/
def Env.newReward (env : Env) (height : Nat) : Int :=
  match env.blockReward true height with
  | .ok (reward, _) => reward
  | .error _ => 0

/-! ## The assembly of the text -/

section Assembly

/-- Zeros appended to a written number multiply it. -/
theorem toDigits_append_zeros {value : Nat} (positive : 0 < value) (count : Nat) :
    Nat.toDigits 10 value ++ List.replicate count '0' = Nat.toDigits 10 (value * 10 ^ count) := by
  induction count with
  | zero => rw [List.replicate_zero, List.append_nil, pow_zero, Nat.mul_one]
  | succ count ih =>
    have grown : 0 < value * 10 ^ count := Nat.mul_pos positive (Nat.pow_pos (by decide))
    have zero : Nat.toDigits 10 0 = ['0'] := Nat.toDigits_zero 10
    calc Nat.toDigits 10 value ++ List.replicate (count + 1) '0'
        = Nat.toDigits 10 (value * 10 ^ count) ++ Nat.toDigits 10 0 := by
          rw [List.replicate_succ', ← List.append_assoc, ih, zero]
      _ = Nat.toDigits 10 (10 * (value * 10 ^ count) + 0) :=
          Nat.toDigits_append_toDigits (by decide) grown (by decide)
      _ = Nat.toDigits 10 (value * 10 ^ (count + 1)) := by
          rw [Nat.add_zero, pow_succ]
          congr 1
          ring

/-- The leading zeros of a padded number are those of the padding. -/
theorem takeWhile_padLeft {value : Nat} (positive : 0 < value) (width : Nat) :
    (padLeft width (Nat.toDigits 10 value)).takeWhile (· == '0') =
      List.replicate (width - (Nat.toDigits 10 value).length) '0' := by
  have zeros : ∀ c ∈ List.replicate (width - (Nat.toDigits 10 value).length) '0',
      (c == '0') = true := by
    intro c listed
    rw [List.eq_of_mem_replicate listed]
    rfl
  have stops : (Nat.toDigits 10 value).takeWhile (· == '0') = [] := by
    cases digits : Nat.toDigits 10 value with
    | nil => rfl
    | cons first rest =>
      have nonzero : first ≠ '0' := by
        rintro rfl
        exact toDigits_head_ne_zero value positive rest digits
      rw [List.takeWhile_cons_of_neg (by simpa using nonzero)]
  rw [padLeft, List.takeWhile_append_of_pos zeros, stops, List.append_nil]

/-- A fraction below one is shifted by twelve decimals. -/
theorem fractionInWei_below {millionths : Nat} (positive : 0 < millionths)
    (below : millionths < 1000000) :
    fractionInWei (fixedText millionths) = Nat.toDigits 10 (millionths * 10 ^ 12) := by
  have whole : millionths / 1000000 = 0 := Nat.div_eq_of_lt below
  have part : millionths % 1000000 = millionths := Nat.mod_eq_of_lt below
  have short : (Nat.toDigits 10 millionths).length ≤ 6 :=
    (Nat.length_toDigits_le_iff (by decide) (by decide)).mpr below
  have fraction : fixedText millionths =
      '0' :: '.' :: padLeft 6 (Nat.toDigits 10 millionths) := by
    rw [fixedText, whole, part, Nat.toDigits_zero]
    rfl
  have head : ¬ (fixedText millionths).head? ≠ some '0' := by
    rw [fraction]
    exact fun differs => differs rfl
  have rest : (fixedText millionths).drop 2 = padLeft 6 (Nat.toDigits 10 millionths) := by
    rw [fraction]
    rfl
  have stripped : (padLeft 6 (Nat.toDigits 10 millionths)).drop
      (6 - (Nat.toDigits 10 millionths).length) = Nat.toDigits 10 millionths := by
    rw [padLeft]
    exact List.drop_left' List.length_replicate
  have width : 20 - (2 + (6 - (Nat.toDigits 10 millionths).length)) -
      (Nat.toDigits 10 millionths).length = 12 := by omega
  unfold fractionInWei
  rw [if_neg head, rest, takeWhile_padLeft positive, List.length_replicate]
  dsimp only
  rw [← List.drop_drop, rest, stripped, padRight, width, toDigits_append_zeros positive]

/-- A whole number of wei is read from the printed fraction. -/
theorem fractionInWei_read {millionths : Nat} (bounded : millionths ≤ 1000000) :
    cppInt (fractionInWei (fixedText millionths)) = some ((millionths : Int) * 10 ^ 12) := by
  by_cases zero : millionths = 0
  · subst zero
    decide
  · by_cases below : millionths < 1000000
    · have written : Nat.toDigits 10 (millionths * 10 ^ 12) =
          toText ((millionths * 10 ^ 12 : Nat) : Int) := by
        rw [toText, if_neg (by omega), Int.natAbs_natCast]
      rw [fractionInWei_below (by omega) below, written, cppInt_toText]
      push_cast
      rfl
    · have one : millionths = 1000000 := by omega
      subst one
      decide

end Assembly

/-! ## The nearest millionths -/

section Nearest

variable {env : Env} {millionths : Nat → Nat}

/-- The exact fraction of the next period. -/
theorem exactMillionths_succ (period : Nat) :
    exactMillionths (period + 1) = 19 / 20 * exactMillionths period := by
  rw [exactMillionths, exactMillionths, pow_succ]
  ring

/-- The exact fractions are positive. -/
theorem exactMillionths_pos (period : Nat) : 0 < exactMillionths period := by
  unfold exactMillionths
  positivity

/-- The nearest number lies within one half on either side. -/
theorem Env.PrintsNearest.between (prints : env.PrintsNearest millionths) (period : Nat) :
    exactMillionths period - 1 / 2 ≤ millionths period ∧
      (millionths period : ℚ) ≤ exactMillionths period + 1 / 2 := by
  have sides := abs_le.mp (prints.nearest period)
  constructor
  · linarith [sides.1]
  · linarith [sides.2]

/-- The nearest numbers do not increase from one period to the next. -/
theorem Env.PrintsNearest.le_of_succ (prints : env.PrintsNearest millionths) (period : Nat) :
    millionths (period + 1) ≤ millionths period := by
  have positive := exactMillionths_pos period
  have next := (prints.between (period + 1)).2
  have here := (prints.between period).1
  rw [exactMillionths_succ] at next
  -- the exact fraction falls, so the nearest number cannot gain a whole one
  have less : (millionths (period + 1) : ℚ) < (millionths period + 1 : Nat) := by
    push_cast
    linarith
  exact Nat.lt_succ_iff.mp (Nat.cast_lt.mp less)

/-- The nearest numbers do not increase with the period. -/
theorem Env.PrintsNearest.antitone (prints : env.PrintsNearest millionths) :
    Antitone millionths :=
  antitone_nat_of_succ_le prints.le_of_succ

/-- No period has more than the whole. -/
theorem Env.PrintsNearest.bounded (prints : env.PrintsNearest millionths) (period : Nat) :
    millionths period ≤ 1000000 := by
  have first := (prints.between 0).2
  rw [exactMillionths, pow_zero, mul_one] at first
  have small : (millionths 0 : ℚ) < (1000001 : Nat) := by
    push_cast
    linarith
  have start : millionths 0 ≤ 1000000 := Nat.lt_succ_iff.mp (Nat.cast_lt.mp small)
  exact Nat.le_trans (prints.antitone (Nat.zero_le period)) start

/-- From period 283 on the printed fraction is zero. -/
theorem Env.PrintsNearest.vanishes (prints : env.PrintsNearest millionths) {period : Nat}
    (late : 283 ≤ period) : millionths period = 0 := by
  have last := (prints.between 283).2
  have tiny : exactMillionths 283 < 1 / 2 := by
    rw [exactMillionths, show 283 = 200 + 83 from rfl, pow_add]
    norm_num
  have small : (millionths 283 : ℚ) < (1 : Nat) := by
    push_cast
    linarith
  have none : millionths 283 = 0 := Nat.lt_one_iff.mp (Nat.cast_lt.mp small)
  have later : millionths period ≤ millionths 283 := prints.antitone late
  omega

/-- The exact fractions of any number of periods add up to at most twenty. -/
theorem exactMillionths_sum (count : Nat) :
    ∑ period ∈ Finset.range count, exactMillionths period ≤ 20000000 := by
  have power : (0 : ℚ) < (19 / 20) ^ count := by positivity
  have share : ∑ period ∈ Finset.range count, ((19 : ℚ) / 20) ^ period ≤ 20 := by
    rw [geom_sum_eq (by norm_num) count, show (19 : ℚ) / 20 - 1 = -(1 / 20) by norm_num]
    rw [div_neg, div_div_eq_mul_div]
    linarith
  calc ∑ period ∈ Finset.range count, exactMillionths period
      = 1000000 * ∑ period ∈ Finset.range count, ((19 : ℚ) / 20) ^ period := by
        rw [Finset.mul_sum]
        rfl
    _ ≤ 1000000 * 20 := by linarith
    _ = 20000000 := by norm_num

/-- The printed fractions of the periods that have one exceed the exact sum by halves. -/
theorem Env.PrintsNearest.sum_early (prints : env.PrintsNearest millionths) :
    ∑ period ∈ Finset.range 283, millionths period ≤ 20000141 := by
  have each : ∀ period ∈ Finset.range 283,
      (millionths period : ℚ) ≤ exactMillionths period + 1 / 2 :=
    fun period _ => (prints.between period).2
  have total : ((∑ period ∈ Finset.range 283, millionths period : Nat) : ℚ) <
      (20000142 : Nat) := by
    calc ((∑ period ∈ Finset.range 283, millionths period : Nat) : ℚ)
        = ∑ period ∈ Finset.range 283, (millionths period : ℚ) := Nat.cast_sum _ _
      _ ≤ ∑ period ∈ Finset.range 283, (exactMillionths period + 1 / 2) := Finset.sum_le_sum each
      _ = (∑ period ∈ Finset.range 283, exactMillionths period) + 283 * (1 / 2) := by
          rw [Finset.sum_add_distrib, Finset.sum_const, Finset.card_range, nsmul_eq_mul]
          norm_num
      _ ≤ 20000000 + 283 * (1 / 2) := by linarith [exactMillionths_sum 283]
      _ < (20000142 : Nat) := by norm_num
  exact Nat.lt_succ_iff.mp (Nat.cast_lt.mp total)

/-- The printed fractions of any number of periods stay below one bound. -/
theorem Env.PrintsNearest.sum_le (prints : env.PrintsNearest millionths) (count : Nat) :
    ∑ period ∈ Finset.range count, millionths period ≤ 20000141 := by
  by_cases short : count ≤ 283
  · have fewer : Finset.range count ⊆ Finset.range 283 := Finset.range_mono short
    exact Nat.le_trans (Finset.sum_le_sum_of_subset fewer) prints.sum_early
  · have early : Finset.range 283 ⊆ Finset.range count := Finset.range_mono (by omega)
    have late : ∀ period ∈ Finset.range count, period ∉ Finset.range 283 →
        millionths period = 0 := by
      intro period _ outside
      exact prints.vanishes (Nat.not_lt.mp fun small => outside (Finset.mem_range.mpr small))
    rw [← Finset.sum_subset early late]
    exact prints.sum_early

end Nearest

/-! ## The rewards -/

section Rewards

variable {env : Env} {millionths : Nat → Nat}

/-- The reward of a height is 28 coins times the printed fraction of its period. -/
theorem Env.PrintsNearest.blockReward (prints : env.PrintsNearest millionths) (height : Nat) :
    env.blockReward true height =
      .ok (28 * 10 ^ 12 * (millionths (height / 2500000) : Int),
        toText (28 * 10 ^ 12 * (millionths (height / 2500000) : Int))) := by
  have period : (height : Int).tdiv blocksInPeriodUpdate1 = ((height / 2500000 : Nat) : Int) := rfl
  have read := fractionInWei_read (prints.bounded (height / 2500000))
  have value : 28 * ((millionths (height / 2500000) : Int) * 10 ^ 12) =
      28 * 10 ^ 12 * (millionths (height / 2500000) : Int) := by ring
  unfold Env.blockReward
  rw [if_pos rfl]
  dsimp only
  rw [period, prints.printed, read]
  dsimp only
  rw [value]

/-- The reward as a number. -/
theorem Env.PrintsNearest.newReward (prints : env.PrintsNearest millionths) (height : Nat) :
    env.newReward height = 28 * 10 ^ 12 * (millionths (height / 2500000) : Int) := by
  rw [Env.newReward, prints.blockReward]

/-- The rewards of whole periods are bounded through the printed fractions. -/
theorem Env.PrintsNearest.sum_periods (prints : env.PrintsNearest millionths) (count : Nat) :
    ∑ height ∈ Finset.range (2500000 * count), env.newReward height ≤
      28 * 10 ^ 12 * (2500000 * 20000141) := by
  have fractions : ((∑ period ∈ Finset.range count, millionths period : Nat) : Int) ≤ 20000141 :=
    Int.ofNat_le.mpr (prints.sum_le count)
  have printed : ∀ height ∈ Finset.range (2500000 * count), env.newReward height =
      28 * 10 ^ 12 * (millionths (height / 2500000) : Int) := fun height _ => prints.newReward height
  have blocks := sum_range_blocks (fun period => (millionths period : Int))
    (show 0 < 2500000 by decide) count
  rw [Finset.sum_congr rfl printed, ← Finset.mul_sum, blocks, ← Nat.cast_sum]
  push_cast at fractions ⊢
  linarith

/-- The new formula issues exactly 28 coins times the nearest printed fraction, never more at a
greater height, and in all at most the cap. -/
theorem Env.PrintsNearest.issuance (prints : env.PrintsNearest millionths) :
    (∀ height : Nat, env.blockReward true height =
      .ok (28 * 10 ^ 12 * (millionths (height / 2500000) : Int),
        toText (28 * 10 ^ 12 * (millionths (height / 2500000) : Int)))) ∧
    (∀ lower height : Nat, lower ≤ height → env.newReward height ≤ env.newReward lower) ∧
    ∀ count : Nat,
      ∑ height ∈ Finset.Icc 1 count, env.newReward height ≤ 1400010000 * 10 ^ 18 := by
  refine ⟨prints.blockReward, ?_, ?_⟩
  · intro lower height ordered
    have periods : lower / 2500000 ≤ height / 2500000 := Nat.div_le_div_right ordered
    have fractions : (millionths (height / 2500000) : Int) ≤ millionths (lower / 2500000) :=
      Int.ofNat_le.mpr (prints.antitone periods)
    rw [prints.newReward, prints.newReward]
    linarith
  · intro count
    have inside : Finset.Icc 1 count ⊆ Finset.range (2500000 * (count + 1)) := by
      intro height listed
      have bounds := Finset.mem_Icc.mp listed
      exact Finset.mem_range.mpr (by omega)
    have nonneg : ∀ height ∈ Finset.range (2500000 * (count + 1)), height ∉ Finset.Icc 1 count →
        0 ≤ env.newReward height := by
      intro height _ _
      rw [prints.newReward]
      positivity
    calc ∑ height ∈ Finset.Icc 1 count, env.newReward height
        ≤ ∑ height ∈ Finset.range (2500000 * (count + 1)), env.newReward height :=
          Finset.sum_le_sum_of_subset_of_nonneg inside nonneg
      _ ≤ 28 * 10 ^ 12 * (2500000 * 20000141) := prints.sum_periods (count + 1)
      _ ≤ 1400010000 * 10 ^ 18 := by norm_num

/-- The nearest number of millionths, computed. -/
def nearestMillionths (period : Nat) : Nat :=
  (2 * (1000000 * 19 ^ period) + 20 ^ period) / (2 * 20 ^ period)

/-- The computed number is the nearest one. -/
theorem nearestMillionths_nearest (period : Nat) :
    |(nearestMillionths period : ℚ) - exactMillionths period| ≤ 1 / 2 := by
  have positive : 0 < 2 * 20 ^ period := Nat.mul_pos (by decide) (Nat.pow_pos (by decide))
  have divided := Nat.div_add_mod (2 * (1000000 * 19 ^ period) + 20 ^ period) (2 * 20 ^ period)
  have remainder := Nat.mod_lt (2 * (1000000 * 19 ^ period) + 20 ^ period) positive
  have low : 2 * 20 ^ period * nearestMillionths period ≤
      2 * (1000000 * 19 ^ period) + 20 ^ period := by
    rw [nearestMillionths]
    omega
  have high : 2 * (1000000 * 19 ^ period) + 20 ^ period <
      2 * 20 ^ period * nearestMillionths period + 2 * 20 ^ period := by
    rw [nearestMillionths]
    omega
  have low : (2 : ℚ) * 20 ^ period * nearestMillionths period ≤
      2 * (1000000 * 19 ^ period) + 20 ^ period := by exact_mod_cast low
  have high : (2 : ℚ) * (1000000 * 19 ^ period) + 20 ^ period <
      2 * 20 ^ period * nearestMillionths period + 2 * 20 ^ period := by exact_mod_cast high
  have power : (0 : ℚ) < 20 ^ period := by positivity
  have exact : (20 : ℚ) ^ period * exactMillionths period = 1000000 * 19 ^ period := by
    calc (20 : ℚ) ^ period * exactMillionths period
        = 1000000 * (19 ^ period / 20 ^ period * 20 ^ period) := by
          rw [exactMillionths, div_pow]
          ring
      _ = 1000000 * 19 ^ period := by rw [div_mul_cancel₀ _ power.ne']
  rw [abs_le]
  constructor
  · by_contra far
    have scaled := mul_lt_mul_of_pos_left (not_le.mp far) power
    linarith
  · by_contra far
    have scaled := mul_lt_mul_of_pos_left (not_le.mp far) power
    linarith

/-- The sample node with the fractions of the new formula. -/
def issuingNode : Env :=
  { sampleNode with fixedPower := fun period => fixedText (nearestMillionths period.toNat) }

/-- The issuing node prints nearest fractions. -/
theorem issuingNode_prints : issuingNode.PrintsNearest nearestMillionths where
  nearest := nearestMillionths_nearest
  printed _ := rfl

/-- In the second period of the issuing node a block earns 26.6 coins. -/
theorem issuance_sample : nearestMillionths 1 = 950000 ∧
    issuingNode.blockReward true 2500000 =
      .ok (28 * 10 ^ 12 * 950000, toText (28 * 10 ^ 12 * 950000)) :=
  ⟨by decide, issuingNode_prints.issuance.1 2500000⟩

end Rewards

end Creditcoin
