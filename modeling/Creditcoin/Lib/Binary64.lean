import Mathlib

/-!
# The order of the machine numbers

The comparisons of `Float` are read off its logical model. Every value but `NaN` has a rank in a
linear order, and a comparison holds exactly when both sides have a rank and the ranks compare.
So the strict and the weak order are transitive, each is the negation of the other among numbers,
and every comparison with `NaN` is false. A difference is a number unless an operand is not one
or both are infinities of one sign.

Comparisons with integers are exact: the machine number is not rounded and neither is the integer.
-/

open Float.Model (UnpackedFloat Format)
open Float.Model.UnpackedFloat

namespace Lib.Binary64

/-- Rank of an unpacked value: its class from negative to positive infinity, then its exponent and
its mantissa. -/
def rankOf : UnpackedFloat → Option (Int ×ₗ Int ×ₗ Int)
  | .notANumber => none
  | .infinity .negative => some (toLex (-2, toLex (0, 0)))
  | .finite .negative mantissa exponent _ => some (toLex (-1, toLex (-exponent, -mantissa)))
  | .zero _ => some (toLex (0, toLex (0, 0)))
  | .finite .positive mantissa exponent _ => some (toLex (1, toLex (exponent, mantissa)))
  | .infinity .positive => some (toLex (2, toLex (0, 0)))

/-- Rank of a machine number. -/
def rank (x : Float) : Option (Int ×ₗ Int ×ₗ Int) := rankOf x.toModel.unpack

/-- The ordering of two exponents, and of two mantissas when they are equal. -/
theorem then_eq_lt {e f : Int} {m n : Nat} :
    (compare e f).then (compare m n) = .lt ↔ e < f ∨ e = f ∧ m < n := by
  rw [Ordering.then_eq_lt, Int.compare_eq_lt, Int.compare_eq_eq, Nat.compare_eq_lt]

/-- The ordering the other way. -/
theorem then_eq_gt {e f : Int} {m n : Nat} :
    (compare e f).then (compare m n) = .gt ↔ f < e ∨ e = f ∧ n < m := by
  rw [Ordering.then_eq_gt, Int.compare_eq_gt, Int.compare_eq_eq, Nat.compare_eq_gt]

/-- The exponents and mantissas are in order. -/
theorem then_isLE {e f : Int} {m n : Nat} :
    ((compare e f).then (compare m n)).isLE = true ↔ e < f ∨ e = f ∧ m ≤ n := by
  rw [Ordering.isLE_iff_ne_gt, not_congr then_eq_gt]
  omega

/-- The exponents and mantissas are in the order of negative numbers. -/
theorem then_swap_isLE {e f : Int} {m n : Nat} :
    ((compare e f).then (compare m n)).swap.isLE = true ↔ f < e ∨ e = f ∧ n ≤ m := by
  rw [Ordering.isLE_iff_ne_gt, not_congr (Ordering.swap_eq_gt.trans then_eq_lt)]
  omega

/-- The infinities compare as their signs do. -/
theorem compare_infinities :
    compare Sign.negative Sign.positive = .lt ∧ compare Sign.positive Sign.negative = .gt ∧
      ∀ sign : Sign, compare sign sign = .eq :=
  ⟨rfl, rfl, fun sign => by cases sign <;> rfl⟩

/-- The strict comparison compares the ranks. -/
theorem lt_iff_rankOf (a b : UnpackedFloat) :
    a.lt b = true ↔ ∃ p q, rankOf a = some p ∧ rankOf b = some q ∧ p < q := by
  unfold UnpackedFloat.lt UnpackedFloat.compare
  rcases a with (_ | _) | _ | (_ | _) | ⟨_ | _, _, _, _⟩ <;>
  rcases b with (_ | _) | _ | (_ | _) | ⟨_ | _, _, _, _⟩ <;>
  simp [rankOf, Prod.Lex.toLex_lt_toLex, then_eq_lt, then_eq_gt, compare_infinities]

/-- The weak comparison compares the ranks. -/
theorem le_iff_rankOf (a b : UnpackedFloat) :
    a.le b = true ↔ ∃ p q, rankOf a = some p ∧ rankOf b = some q ∧ p ≤ q := by
  unfold UnpackedFloat.le UnpackedFloat.compare
  rcases a with (_ | _) | _ | (_ | _) | ⟨_ | _, _, _, _⟩ <;>
  rcases b with (_ | _) | _ | (_ | _) | ⟨_ | _, _, _, _⟩ <;>
  simp [rankOf, Prod.Lex.toLex_le_toLex, then_isLE, then_swap_isLE, compare_infinities,
    -Ordering.isLE_swap]

/-- Equality compares the ranks. -/
theorem beq_iff_rankOf (a b : UnpackedFloat) :
    a.beq b = true ↔ ∃ p, rankOf a = some p ∧ rankOf b = some p := by
  unfold UnpackedFloat.beq UnpackedFloat.compare
  rcases a with (_ | _) | _ | (_ | _) | ⟨_ | _, _, _, _⟩ <;>
  rcases b with (_ | _) | _ | (_ | _) | ⟨_ | _, _, _, _⟩ <;>
  simp [rankOf, compare_infinities]
  all_goals omega

section Order
variable {x y z : Float}

/-- One number is below another. -/
theorem lt_iff : x < y ↔ ∃ p q, rank x = some p ∧ rank y = some q ∧ p < q := by
  change decide (x.toModel.unpack.lt y.toModel.unpack = true) = true ↔ _
  rw [decide_eq_true_eq]
  exact lt_iff_rankOf _ _

/-- One number is not above another. -/
theorem le_iff : x ≤ y ↔ ∃ p q, rank x = some p ∧ rank y = some q ∧ p ≤ q := by
  change decide (x.toModel.unpack.le y.toModel.unpack = true) = true ↔ _
  rw [decide_eq_true_eq]
  exact le_iff_rankOf _ _

/-- Equal numbers have one rank. -/
theorem beq_iff : (x == y) = true ↔ ∃ p, rank x = some p ∧ rank y = some p := beq_iff_rankOf _ _

/-- Equality is symmetric. -/
theorem beq_symm (same : (x == y) = true) : (y == x) = true := by
  have ⟨p, left, right⟩ := beq_iff.mp same
  exact beq_iff.mpr ⟨p, right, left⟩

/-- Only `NaN` has no rank. -/
theorem isNaN_iff : x.isNaN = true ↔ rank x = none := by
  change UnpackedFloat.isNaN x.toModel.unpack = true ↔ rankOf x.toModel.unpack = none
  rcases x.toModel.unpack with (_ | _) | _ | _ | ⟨_ | _, _, _, _⟩ <;>
  simp [UnpackedFloat.isNaN, rankOf]

/-- A number has a rank. -/
theorem number_iff : x.isNaN = false ↔ ∃ p, rank x = some p := by
  rw [← Bool.not_eq_true, isNaN_iff, ← ne_eq, Option.ne_none_iff_exists']

/-- Both sides of a strict comparison are numbers. -/
theorem numbers_of_lt (below : x < y) : x.isNaN = false ∧ y.isNaN = false := by
  have ⟨p, q, left, right, _⟩ := lt_iff.mp below
  exact ⟨number_iff.mpr ⟨p, left⟩, number_iff.mpr ⟨q, right⟩⟩

/-- Both sides of a weak comparison are numbers. -/
theorem numbers_of_le (below : x ≤ y) : x.isNaN = false ∧ y.isNaN = false := by
  have ⟨p, q, left, right, _⟩ := le_iff.mp below
  exact ⟨number_iff.mpr ⟨p, left⟩, number_iff.mpr ⟨q, right⟩⟩

/-- The weak order is transitive. -/
theorem le_trans (first : x ≤ y) (second : y ≤ z) : x ≤ z := by
  have ⟨p, q, left, middle, below⟩ := le_iff.mp first
  have ⟨q', r, middle', right, below'⟩ := le_iff.mp second
  rw [middle, Option.some_inj] at middle'
  subst middle'
  exact le_iff.mpr ⟨p, r, left, right, below.trans below'⟩

/-- The strict order is transitive. -/
theorem lt_trans (first : x < y) (second : y < z) : x < z := by
  have ⟨p, q, left, middle, below⟩ := lt_iff.mp first
  have ⟨q', r, middle', right, below'⟩ := lt_iff.mp second
  rw [middle, Option.some_inj] at middle'
  subst middle'
  exact lt_iff.mpr ⟨p, r, left, right, below.trans below'⟩

/-- Nothing is below itself. -/
theorem lt_irrefl (x : Float) : ¬ x < x := by
  intro below
  have ⟨p, q, left, right, smaller⟩ := lt_iff.mp below
  rw [left, Option.some_inj] at right
  exact smaller.ne right

/-- Among numbers the weak order is the negation of the strict one. -/
theorem le_of_not_lt (left : x.isNaN = false) (right : y.isNaN = false) (above : ¬ y < x) :
    x ≤ y := by
  have ⟨p, ranked⟩ := number_iff.mp left
  have ⟨q, ranked'⟩ := number_iff.mp right
  apply le_iff.mpr
  refine ⟨p, q, ranked, ranked', ?_⟩
  by_contra smaller
  exact above (lt_iff.mpr ⟨q, p, ranked', ranked, not_le.mp smaller⟩)

/-- Among numbers the strict order is the negation of the weak one. -/
theorem lt_of_not_le (left : x.isNaN = false) (right : y.isNaN = false) (above : ¬ y ≤ x) :
    x < y := by
  have ⟨p, ranked⟩ := number_iff.mp left
  have ⟨q, ranked'⟩ := number_iff.mp right
  apply lt_iff.mpr
  refine ⟨p, q, ranked, ranked', ?_⟩
  by_contra smaller
  exact above (le_iff.mpr ⟨q, p, ranked', ranked, not_lt.mp smaller⟩)

/-- The infinities are the ends of the order. -/
theorem finite_of_between (below : x < y) (above : y < z) : y.isInf = false := by
  have ⟨p, q, left, middle, first⟩ := lt_iff.mp below
  have ⟨q', r, middle', right, second⟩ := lt_iff.mp above
  have bounds (v : Float) (s) (ranked : rank v = some s) :
      toLex (-2, toLex (0, 0)) ≤ s ∧ s ≤ toLex (2, toLex (0, 0)) := by
    revert ranked
    unfold rank
    rcases v.toModel.unpack with (_ | _) | _ | _ | ⟨_ | _, _, _, _⟩ <;>
    simp +contextual [rankOf, Prod.Lex.toLex_le_toLex, eq_comm (b := s)]
  change UnpackedFloat.isInf y.toModel.unpack = false
  revert middle middle'
  unfold rank
  rcases y.toModel.unpack with (_ | _) | _ | _ | _
  · intro middle middle'
    rw [rankOf, Option.some_inj] at middle
    exact absurd first (not_lt.mpr (middle ▸ (bounds x p left).1))
  · intro middle middle'
    rw [rankOf, Option.some_inj] at middle'
    exact absurd second (not_lt.mpr (middle' ▸ (bounds z r right).2))
  all_goals
    intro middle middle'
    rfl

end Order

/-! ## Differences -/

/-- Packing keeps a number a number. -/
theorem unpack_pack_number {u : UnpackedFloat} (number : u ≠ .notANumber) :
    unpack Format.binary64 (pack Format.binary64 u) ≠ .notANumber := by
  have clear (sign : Sign) (exponent : BitVec Format.binary64.exponentBits)
      (mantissa : BitVec Format.binary64.mantissaBitsWithoutImplicit)
      (proper : exponent = -1#_ → mantissa = 0#_) :
      unpack Format.binary64 (packComponents Format.binary64 sign exponent mantissa) ≠
        .notANumber := by
    unfold unpack
    simp only [unpackExponent_packComponents, unpackMantissa_packComponents]
    split
    · split
      · simp
      · exact absurd (proper ‹_›) ‹_›
    · split
      · split <;> simp
      · simp
  fun_cases pack Format.binary64 u with
  | case1 => contradiction
  | case2 sign => exact clear _ _ _ fun _ => rfl
  | case3 sign => exact clear _ _ _ fun _ => rfl
  | case4 sign mantissa exponent positive biased large => exact clear _ _ _ fun _ => rfl
  | case5 sign mantissa exponent positive bits biased small normal =>
    apply clear
    intro full
    have word : biased % 2 ^ 11 = 2 ^ 11 - 1 := congrArg BitVec.toNat full
    have bound : ¬ 2 ^ 11 ≤ biased + 1 := small
    omega
  | case6 sign mantissa exponent positive bits biased small subnormal =>
    apply clear
    intro full
    exact absurd full (by decide)

/-- Rounding gives a number. -/
theorem normalize_number (spec : Format) (mantissa exponent : Int) (zeroSign : Sign) :
    UnpackedFloat.normalize spec mantissa exponent zeroSign ≠ .notANumber := by
  have rounded (sign : Sign) (mantissa : Nat) :
      UnpackedFloat.round spec sign mantissa exponent ≠ .notANumber := by
    simp only [UnpackedFloat.round, roundWithAccuracy]
    split <;> simp
  unfold UnpackedFloat.normalize
  split
  · exact rounded _ _
  · simp
  · exact rounded _ _

/-- The difference of two numbers is a number unless both are infinite. -/
theorem number_sub {x y : Float} (left : x.isNaN = false) (right : y.isNaN = false)
    (bounded : x.isInf = false ∨ y.isInf = false) : (x - y).isNaN = false := by
  have difference : UnpackedFloat.sub Format.binary64 x.toModel.unpack y.toModel.unpack ≠
      .notANumber := by
    change UnpackedFloat.isNaN x.toModel.unpack = false at left
    change UnpackedFloat.isNaN y.toModel.unpack = false at right
    change UnpackedFloat.isInf x.toModel.unpack = false ∨
      UnpackedFloat.isInf y.toModel.unpack = false at bounded
    revert left right bounded
    generalize x.toModel.unpack = a
    generalize y.toModel.unpack = b
    intro left right bounded
    cases a <;> cases b <;>
      simp_all [UnpackedFloat.sub, UnpackedFloat.isNaN, UnpackedFloat.isInf, normalize_number]
    split <;> simp
  have packed := unpack_pack_number difference
  change UnpackedFloat.isNaN (unpack Format.binary64 (pack Format.binary64
    (UnpackedFloat.sub Format.binary64 x.toModel.unpack y.toModel.unpack))) = false
  revert packed
  generalize unpack Format.binary64 _ = result
  intro packed
  cases result <;> simp_all [UnpackedFloat.isNaN]

/-- The operands of a difference that is a number are numbers. -/
theorem numbers_of_sub {x y : Float} (number : (x - y).isNaN = false) :
    x.isNaN = false ∧ y.isNaN = false := by
  have packed : UnpackedFloat.isNaN (unpack Format.binary64 (pack Format.binary64
    (UnpackedFloat.sub Format.binary64 x.toModel.unpack y.toModel.unpack))) = false := number
  change UnpackedFloat.isNaN x.toModel.unpack = false ∧
    UnpackedFloat.isNaN y.toModel.unpack = false
  have nan : UnpackedFloat.isNaN (unpack Format.binary64 (pack Format.binary64 .notANumber)) =
      true := by
    decide
  revert packed
  generalize x.toModel.unpack = a
  generalize y.toModel.unpack = b
  intro packed
  cases a <;> cases b <;> simp_all [UnpackedFloat.sub, UnpackedFloat.isNaN]

/-! ## Integers -/

/-- `x < n`, exactly. -/
def ltInt (x : Float) (n : Int) : Bool :=
  match x.toModel.unpack with
  | .notANumber => false
  | .infinity .negative => true
  | .infinity .positive => false
  | .zero _ => decide (0 < n)
  | .finite sign mantissa exponent _ =>
    decide (sign.apply mantissa * 2 ^ exponent.toNat < n * 2 ^ (-exponent).toNat)

/-- `n < x`, exactly. -/
def intLt (n : Int) (x : Float) : Bool :=
  match x.toModel.unpack with
  | .notANumber => false
  | .infinity .negative => false
  | .infinity .positive => true
  | .zero _ => decide (n < 0)
  | .finite sign mantissa exponent _ =>
    decide (n * 2 ^ (-exponent).toNat < sign.apply mantissa * 2 ^ exponent.toNat)

/-- `n ≤ x`, exactly. -/
def intLe (n : Int) (x : Float) : Bool :=
  match x.toModel.unpack with
  | .notANumber => false
  | .infinity .negative => false
  | .infinity .positive => true
  | .zero _ => decide (n ≤ 0)
  | .finite sign mantissa exponent _ =>
    decide (n * 2 ^ (-exponent).toNat ≤ sign.apply mantissa * 2 ^ exponent.toNat)

/-- A number that is not below an integer reaches it. -/
theorem intLe_iff {n : Int} {x : Float} :
    intLe n x = true ↔ x.isNaN = false ∧ ltInt x n = false := by
  change _ ↔ UnpackedFloat.isNaN x.toModel.unpack = false ∧ _
  unfold intLe ltInt
  rcases x.toModel.unpack with (_ | _) | _ | _ | _ <;> simp [UnpackedFloat.isNaN]

/-- A power of two below one, rounded. -/
def twoPowNeg (k : Nat) : Float :=
  if 1074 < k then Float.ofModel (.pack (.zero .positive))
  else Float.ofModel (.pack (round Format.binary64 .positive 1 (-k)))

end Lib.Binary64
