import Mathlib.Data.List.Induction
import Mathlib.Data.Nat.Bitwise

/-!
# Bits

A number in so many binary places, the highest place first, and the number that such places
spell. Places with zeroes in front spell a small number: each zero halves the bound.
-/

namespace Lib.Bits

/-- The places of a number below `2 ^ width`. -/
def ofNat : Nat → Nat → List Bool
  | 0, _ => []
  | width + 1, number => number.testBit width :: ofNat width number

/-- The number that places spell. -/
def toNat : List Bool → Nat
  | [] => 0
  | bit :: rest => bit.toNat * 2 ^ rest.length + toNat rest

/-- The zeroes in front. -/
def leadingZeroes (bits : List Bool) : Nat := (bits.takeWhile fun bit => !bit).length

/-- The places of digits, one after another. -/
def ofDigits (width : Nat) (digits : List Nat) : List Bool := digits.flatMap (ofNat width)

/-- The number that digits spell, the highest first. -/
def bigEndian (base : Nat) (digits : List Nat) : Nat :=
  digits.foldl (fun number digit => number * base + digit) 0

/-- There are as many places as asked for. -/
@[simp] theorem ofNat_length (width number : Nat) : (ofNat width number).length = width := by
  induction width with
  | zero => rfl
  | succ width ih => rw [ofNat, List.length_cons, ih]

/-- No digits have no places. -/
@[simp] theorem ofDigits_nil (width : Nat) : ofDigits width [] = [] := rfl

/-- The places of a first digit stand in front. -/
@[simp] theorem ofDigits_cons (width digit : Nat) (rest : List Nat) :
    ofDigits width (digit :: rest) = ofNat width digit ++ ofDigits width rest := rfl

/-- The places of a list are those of its parts. -/
theorem ofDigits_append (width : Nat) (front rest : List Nat) :
    ofDigits width (front ++ rest) = ofDigits width front ++ ofDigits width rest :=
  List.flatMap_append

/-- Each digit takes its places. -/
@[simp] theorem ofDigits_length (width : Nat) (digits : List Nat) :
    (ofDigits width digits).length = width * digits.length := by
  induction digits with
  | nil => rfl
  | cons digit rest ih =>
    rw [ofDigits_cons, List.length_append, ih, ofNat_length, List.length_cons, Nat.mul_succ,
      Nat.add_comm]

/-- Places spell a number below the power of two for them. -/
theorem toNat_lt (bits : List Bool) : toNat bits < 2 ^ bits.length := by
  induction bits with
  | nil => decide
  | cons bit rest ih =>
    rw [toNat, List.length_cons, Nat.pow_succ]
    cases bit with
    | false => rw [Bool.toNat_false]; omega
    | true => rw [Bool.toNat_true]; omega

/-- What is in front counts by the length of what follows. -/
theorem toNat_append (front rest : List Bool) :
    toNat (front ++ rest) = toNat front * 2 ^ rest.length + toNat rest := by
  induction front with
  | nil => rw [List.nil_append, toNat, Nat.zero_mul, Nat.zero_add]
  | cons bit front ih =>
    rw [List.cons_append, toNat, toNat, ih, List.length_append, Nat.pow_add, Nat.add_mul,
      Nat.mul_assoc, Nat.add_assoc]

/-- The places of a number spell it. -/
theorem toNat_ofNat (width number : Nat) : toNat (ofNat width number) = number % 2 ^ width := by
  induction width with
  | zero => rw [ofNat, toNat, Nat.pow_zero, Nat.mod_one]
  | succ width ih =>
    rw [ofNat, toNat, ofNat_length, ih, Nat.mod_pow_succ, Nat.toNat_testBit, Nat.mul_comm,
      Nat.add_comm]

/-- The places of digits spell the number of the digits. -/
theorem toNat_ofDigits {width : Nat} {digits : List Nat}
    (small : ∀ digit ∈ digits, digit < 2 ^ width) :
    toNat (ofDigits width digits) = bigEndian (2 ^ width) digits := by
  induction digits using List.reverseRecOn with
  | nil => rfl
  | append_singleton front last ih =>
    have placed : ofDigits width (front ++ [last]) = ofDigits width front ++ ofNat width last := by
      rw [ofDigits_append, ofDigits_cons, ofDigits_nil, List.append_nil]
    have spelled := ih fun digit listed => small digit (List.mem_append_left _ listed)
    have fits : last < 2 ^ width := small last (by simp)
    rw [placed, toNat_append, ofNat_length, spelled, toNat_ofNat, Nat.mod_eq_of_lt fits, bigEndian,
      bigEndian, List.foldl_append, List.foldl_cons, List.foldl_nil]

/-- The places of a number are those of its upper part and those of its lower part. -/
theorem ofNat_split (upper lower number : Nat) :
    ofNat (upper + lower) number = ofNat upper (number / 2 ^ lower) ++ ofNat lower number := by
  induction upper with
  | zero => rw [Nat.zero_add, ofNat, List.nil_append]
  | succ upper ih =>
    have place : (number / 2 ^ lower).testBit upper = number.testBit (upper + lower) :=
      Nat.testBit_div_two_pow number upper
    rw [Nat.add_right_comm, ofNat, ofNat, ih, place, List.cons_append]

/-- Places below a width do not see what is taken off above it. -/
theorem ofNat_mod {width bound : Nat} (within : width ≤ bound) (number : Nat) :
    ofNat width (number % 2 ^ bound) = ofNat width number := by
  induction width with
  | zero => rfl
  | succ width ih =>
    have kept : (number % 2 ^ bound).testBit width = number.testBit width := by
      have below : width < bound := within
      rw [Nat.testBit_mod_two_pow, decide_eq_true below, Bool.true_and]
    rw [ofNat, ofNat, kept, ih (Nat.le_of_succ_le within)]

/-- A digit that is pushed in from below stands behind the places that were there. -/
theorem ofNat_push {width digit : Nat} (held number : Nat) (small : digit < 2 ^ width) :
    ofNat (held + width) (number * 2 ^ width + digit) = ofNat held number ++ ofNat width digit := by
  have above : (number * 2 ^ width + digit) / 2 ^ width = number := by
    rw [Nat.mul_comm, Nat.mul_add_div (Nat.two_pow_pos width), Nat.div_eq_of_lt small, Nat.add_zero]
  have below : ofNat width (number * 2 ^ width + digit) = ofNat width digit := by
    rw [← ofNat_mod (Nat.le_refl width) (number * 2 ^ width + digit), Nat.mul_comm,
      Nat.mul_add_mod, ofNat_mod (Nat.le_refl width)]
  rw [ofNat_split, above, below]

/-- Digits are read back from their places. -/
theorem ofDigits_injective {width : Nat} {left right : List Nat} (wide : 0 < width)
    (leftSmall : ∀ digit ∈ left, digit < 2 ^ width)
    (rightSmall : ∀ digit ∈ right, digit < 2 ^ width)
    (same : ofDigits width left = ofDigits width right) : left = right := by
  induction left generalizing right with
  | nil =>
    cases right with
    | nil => rfl
    | cons digit rest =>
      have lengths := congrArg List.length same
      rw [ofDigits_length, ofDigits_length, List.length_nil, List.length_cons, Nat.mul_succ]
        at lengths
      omega
  | cons first front ih =>
    cases right with
    | nil =>
      have lengths := congrArg List.length same
      rw [ofDigits_length, ofDigits_length, List.length_nil, List.length_cons, Nat.mul_succ]
        at lengths
      omega
    | cons digit rest =>
      rw [List.forall_mem_cons] at leftSmall rightSmall
      have places : (ofNat width first).length = (ofNat width digit).length := by
        rw [ofNat_length, ofNat_length]
      have ⟨heads, tails⟩ := List.append_inj (same : ofNat width first ++ ofDigits width front =
        ofNat width digit ++ ofDigits width rest) places
      have spelled := congrArg toNat heads
      rw [toNat_ofNat, toNat_ofNat, Nat.mod_eq_of_lt leftSmall.1, Nat.mod_eq_of_lt rightSmall.1]
        at spelled
      rw [spelled, ih leftSmall.2 rightSmall.2 tails]

/-- Digits are read back from their places also when fewer places than for a digit follow. -/
theorem ofDigits_append_injective {width : Nat} {left right : List Nat} {rest other : List Bool}
    (leftSmall : ∀ digit ∈ left, digit < 2 ^ width)
    (rightSmall : ∀ digit ∈ right, digit < 2 ^ width)
    (restShort : rest.length < width) (otherShort : other.length < width)
    (same : ofDigits width left ++ rest = ofDigits width right ++ other) :
    left = right ∧ rest = other := by
  have lengths := congrArg List.length same
  rw [List.length_append, List.length_append, ofDigits_length, ofDigits_length] at lengths
  have counts : left.length = right.length := by
    have whole (count short : Nat) (few : short < width) :
        (width * count + short) / width = count := by
      rw [Nat.mul_add_div (Nat.zero_lt_of_lt few), Nat.div_eq_of_lt few, Nat.add_zero]
    rw [← whole left.length rest.length restShort, lengths, whole right.length _ otherShort]
  have places : (ofDigits width left).length = (ofDigits width right).length := by
    rw [ofDigits_length, ofDigits_length, counts]
  have ⟨fronts, rests⟩ := List.append_inj same places
  exact ⟨ofDigits_injective (Nat.zero_lt_of_lt restShort) leftSmall rightSmall fronts, rests⟩

/-- Places with no one among them count whole. -/
theorem leadingZeroes_append_zeroes {front : List Bool} (zero : ∀ bit ∈ front, bit = false)
    (rest : List Bool) :
    leadingZeroes (front ++ rest) = front.length + leadingZeroes rest := by
  have taken : ∀ bit ∈ front, (!bit) = true := fun bit listed => by rw [zero bit listed]; rfl
  rw [leadingZeroes, List.takeWhile_append_of_pos taken, List.length_append, leadingZeroes]

/-- A one stops the count. -/
theorem leadingZeroes_append_one {front : List Bool} (one : true ∈ front) (rest : List Bool) :
    leadingZeroes (front ++ rest) = leadingZeroes front := by
  induction front with
  | nil => cases one
  | cons bit front ih =>
    cases bit with
    | true => rfl
    | false =>
      have later : true ∈ front := by simpa using one
      have counted := ih later
      simp only [leadingZeroes, List.cons_append, List.takeWhile_cons, Bool.not_false, if_true,
        List.length_cons] at counted ⊢
      rw [counted]

/-- So many zeroes are in front exactly when the number is below the power of two for the other
places. -/
theorem le_leadingZeroes_iff (bits : List Bool) {count : Nat} (within : count ≤ bits.length) :
    count ≤ leadingZeroes bits ↔ toNat bits < 2 ^ (bits.length - count) := by
  induction bits generalizing count with
  | nil =>
    have none : count = 0 := Nat.le_zero.mp within
    subst none
    simp [leadingZeroes, toNat]
  | cons bit rest ih =>
    cases count with
    | zero =>
      have bounded := toNat_lt (bit :: rest)
      simpa using bounded
    | succ count =>
      rw [List.length_cons] at within ⊢
      rw [Nat.add_sub_add_right]
      cases bit with
      | false =>
        have counted : leadingZeroes (false :: rest) = leadingZeroes rest + 1 := rfl
        have spelled : toNat (false :: rest) = toNat rest := by
          rw [toNat, Bool.toNat_false, Nat.zero_mul, Nat.zero_add]
        rw [counted, spelled, Nat.add_le_add_iff_right]
        exact ih (Nat.le_of_succ_le_succ within)
      | true =>
        have counted : leadingZeroes (true :: rest) = 0 := rfl
        have large : 2 ^ (rest.length - count) ≤ 2 ^ rest.length :=
          Nat.pow_le_pow_right (by decide) (Nat.sub_le _ _)
        have spelled : toNat (true :: rest) = 2 ^ rest.length + toNat rest := by
          rw [toNat, Bool.toNat_true, Nat.one_mul]
        rw [counted, spelled]
        constructor
        · intro counted
          omega
        · intro bounded
          omega

end Lib.Bits
