import Creditcoin.Query
import Mathlib.Data.List.Induction
import Mathlib.Data.List.TakeWhile

/-!
# What numeral parameters stand for

A text parameter is read as it is printed, with escapes, and then parsed by the constructor of
the unbounded integer or by a stream. Both accept more than plain decimal numerals: the
constructor reads radix marks, leading zeros, no digits at all and a negative zero; the stream
skips blanks, takes a sign and wraps around below zero. A text that is accepted and is none of
these stands for the number it denotes in base ten.
-/

namespace Creditcoin

/-- A decimal numeral without sign and without leading zeros. -/
def IsPlain (text : Text) : Prop :=
  text ≠ [] ∧ (∀ c ∈ text, c.isDigit = true) ∧ (text.head? = some '0' → text = ['0'])

instance (text : Text) : Decidable (IsPlain text) :=
  decidable_of_iff
    (text ≠ [] ∧ text.all Char.isDigit = true ∧ (text.head? = some '0' → text = ['0']))
    (by rw [IsPlain, List.all_eq_true])

/-- The number that decimal digits denote. -/
def decimalValue (digits : Text) : Nat := Nat.ofDigitChars 10 digits 0

/-- A digit of a radix. -/
def isDigitIn (radix : Nat) (c : Char) : Bool :=
  match digitValue c with
  | some digit => digit < radix
  | none => false

/-- Zeros, or nothing, after an optional hexadecimal mark. -/
def isZeroLiteral : Text → Bool
  | '0' :: 'x' :: digits => digits.all (· == '0')
  | '0' :: 'X' :: digits => digits.all (· == '0')
  | digits => digits.all (· == '0')

/-- A text that is accepted as an amount without being a plain numeral: nothing at all, a
negative zero, hexadecimal digits after their mark, octal digits after a zero. -/
def misreadAmount : Text → Bool
  | [] => true
  | '-' :: rest => isZeroLiteral rest
  | '0' :: 'x' :: digits => digits.all (isDigitIn 16)
  | '0' :: 'X' :: digits => digits.all (isDigitIn 16)
  | '0' :: digit :: digits => (digit :: digits).all (isDigitIn 8)
  | _ => false

/-- A text without its sign. -/
def withoutSign : Text → Text
  | '-' :: digits => digits
  | '+' :: digits => digits
  | digits => digits

/-- A text that is accepted as a word without being a plain numeral: blanks or a sign before the
digits, or leading zeros. -/
def misreadWord (text : Text) : Bool :=
  let digits := withoutSign (text.dropWhile (· == ' '))
  !digits.isEmpty && digits.all Char.isDigit && decide (decimalValue digits < 2 ^ 64) &&
    (text != digits || (digits.head? == some '0' && digits != ['0']))

/-! ## Printed strings -/

section Printed

/-- A printed string without its quotes is the escaped string. -/
@[simp] theorem trimQuotes_quoted (text : Text) :
    trimQuotes (Json.quoted text) = Json.escape text := by
  have length : (Json.quoted text).length - 2 = (Json.escape text).length := by
    simp [Json.quoted]
  have rest : (Json.quoted text).drop 1 = Json.escape text ++ ['"'] := rfl
  rw [trimQuotes, length, rest]
  exact List.take_left' rfl

/-- A string parameter is read as the escaped string. -/
theorem Query.getString_string {query : Query} {id name : String} {param : Text}
    (found : query.find id.toList = some (.string param)) :
    query.getString id name = .ok (Json.escape param) := by
  rw [Query.getString, Query.getParam, found]
  dsimp only [Json.dump]
  rw [trimQuotes_quoted]

/-- The escape of a character starts with a backslash or is the character. -/
theorem escapeChar_cases (c : Char) :
    (∃ rest, Json.escapeChar c = '\\' :: rest) ∨ Json.escapeChar c = [c] := by
  unfold Json.escapeChar
  repeat' split
  all_goals first | exact .inl ⟨_, rfl⟩ | exact .inr rfl

/-- A text whose escape has no backslash is its own escape. -/
theorem escape_eq {text : Text} (plain : '\\' ∉ Json.escape text) :
    Json.escape text = text ∧ ∀ c ∈ text, Json.escapeChar c = [c] := by
  induction text with
  | nil => exact ⟨rfl, fun c listed => absurd listed List.not_mem_nil⟩
  | cons c text ih =>
    have split : Json.escape (c :: text) = Json.escapeChar c ++ Json.escape text := rfl
    rw [split, List.mem_append, not_or] at plain
    have single : Json.escapeChar c = [c] := by
      rcases escapeChar_cases c with ⟨rest, escaped⟩ | single
      · rw [escaped] at plain
        exact absurd List.mem_cons_self plain.1
      · exact single
    have rest := ih plain.2
    constructor
    · rw [split, single, rest.1]
      rfl
    · intro other listed
      rcases List.mem_cons.mp listed with rfl | later
      · exact single
      · exact rest.2 other later

/-- A text of characters that are printed as they are is its own escape. -/
theorem escape_of_plain {text : Text} (plain : ∀ c ∈ text, Json.escapeChar c = [c]) :
    Json.escape text = text := by
  induction text with
  | nil => rfl
  | cons c text ih =>
    rw [List.forall_mem_cons] at plain
    change Json.escapeChar c ++ Json.escape text = c :: text
    rw [plain.1, ih plain.2]
    rfl

end Printed

/-! ## Digits -/

section Digits

variable {radix value : Nat} {digits : Text}

/-- Digits of a radix are read, anything else is not. -/
theorem readDigits_isSome (radix value : Nat) (digits : Text) :
    (readDigits radix value digits).isSome = digits.all (isDigitIn radix) := by
  induction digits generalizing value with
  | nil => rfl
  | cons c digits ih =>
    rw [readDigits, List.all_cons, isDigitIn]
    cases digitValue c with
    | none => rfl
    | some digit =>
      by_cases small : digit < radix
      · simp only [small, if_true, decide_true, Bool.true_and]
        exact ih _
      · simp only [small, if_false, decide_false, Bool.false_and, Option.isSome_none]

/-- What holds of all small codes holds of a character with a value. -/
theorem digitValue_forall (holds : Char → Prop) (table : ∀ code < 128, holds (Char.ofNat code))
    {c : Char} {digit : Nat} (found : digitValue c = some digit) : holds c := by
  have small : c.toNat < 128 := Text.isNumeralChar_small (isNumeralChar_of_digitValue found)
  have listed := table c.toNat small
  rwa [Char.ofNat_toNat] at listed

/-- A character of value zero is a zero. -/
theorem digitValue_zero {c : Char} : digitValue c = some 0 ↔ c = '0' := by
  constructor
  · intro zero
    exact digitValue_forall (fun c => digitValue c = some 0 → c = '0') (by decide) zero zero
  · rintro rfl
    rfl

/-- Digits are read as zero when all of them are zeros. -/
theorem readDigits_zero (positive : 0 < radix) :
    readDigits radix value digits = some 0 ↔ value = 0 ∧ digits.all (· == '0') = true := by
  induction digits generalizing value with
  | nil => simp [readDigits]
  | cons c digits ih =>
    rw [readDigits, List.all_cons, Bool.and_eq_true, beq_iff_eq]
    cases found : digitValue c with
    | none =>
      have other : c ≠ '0' := by
        rintro rfl
        cases found
      simp [other]
    | some digit =>
      by_cases small : digit < radix
      · simp only [small, if_true]
        rw [ih, Nat.add_eq_zero_iff, Nat.mul_eq_zero]
        have zero : digit = 0 ↔ c = '0' := by
          rw [← digitValue_zero, found, Option.some.injEq]
        rw [zero]
        constructor
        · rintro ⟨⟨start | empty, first⟩, rest⟩
          · exact ⟨start, first, rest⟩
          · exact absurd empty (Nat.pos_iff_ne_zero.mp positive)
        · rintro ⟨start, first, rest⟩
          exact ⟨⟨.inl start, first⟩, rest⟩
      · have other : c ≠ '0' := by
          rintro rfl
          cases found
          exact small positive
        simp [small, other]

/-- The digits of radix ten. -/
theorem isDigitIn_ten (c : Char) : isDigitIn 10 c = true ↔ c.isDigit = true := by
  constructor
  · intro digit
    unfold isDigitIn at digit
    cases found : digitValue c with
    | none => rw [found] at digit; cases digit
    | some value =>
      exact digitValue_forall (fun c => isDigitIn 10 c = true → c.isDigit = true) (by decide)
        found digit
  · intro digit
    have valued := digitValue_of_isDigit digit
    rw [isDigitIn, valued.1]
    exact decide_eq_true valued.2

/-- Decimal digits are read as the number they denote. -/
theorem readDigits_decimal {digits : Text} {value : Nat} :
    readDigits 10 0 digits = some value ↔
      (∀ c ∈ digits, c.isDigit = true) ∧ value = decimalValue digits := by
  constructor
  · intro read
    have accepted : (readDigits 10 0 digits).isSome = true := by rw [read]; rfl
    rw [readDigits_isSome, List.all_eq_true] at accepted
    have decimal : ∀ c ∈ digits, c.isDigit = true :=
      fun c listed => (isDigitIn_ten c).mp (accepted c listed)
    rw [readDigits_ten digits decimal, Option.some.injEq] at read
    exact ⟨decimal, read.symm⟩
  · rintro ⟨decimal, rfl⟩
    exact readDigits_ten digits decimal 0

end Digits

/-! ## Amounts -/

section Amounts

variable {text : Text} {value : Int}

/-- A leading zero without a hexadecimal mark is octal. -/
theorem readMagnitude_octal {digits : Text} (lower : ∀ rest, digits ≠ 'x' :: rest)
    (upper : ∀ rest, digits ≠ 'X' :: rest) :
    readMagnitude ('0' :: digits) = readDigits 8 0 digits := by
  unfold readMagnitude
  split
  · rename_i rest same
    exact absurd (List.cons.inj same).2 (lower rest)
  · rename_i rest same
    exact absurd (List.cons.inj same).2 (upper rest)
  · rename_i same
    rw [(List.cons.inj same).2]
  · rename_i other
    exact absurd rfl (other digits)

/-- Without a leading zero a magnitude is decimal. -/
theorem readMagnitude_decimal (zero : ∀ rest, text ≠ '0' :: rest) :
    readMagnitude text = readDigits 10 0 text := by
  unfold readMagnitude
  split
  · exact absurd rfl (zero _)
  · exact absurd rfl (zero _)
  · exact absurd rfl (zero _)
  · rfl

/-- A magnitude is zero when nothing but zeros follows its mark. -/
theorem readMagnitude_zero : readMagnitude text = some 0 ↔ isZeroLiteral text = true := by
  unfold isZeroLiteral
  split
  · have positive : 0 < 16 := by decide
    exact (readDigits_zero positive).trans ⟨fun both => both.2, fun zeros => ⟨rfl, zeros⟩⟩
  · have positive : 0 < 16 := by decide
    exact (readDigits_zero positive).trans ⟨fun both => both.2, fun zeros => ⟨rfl, zeros⟩⟩
  · rename_i lower upper
    by_cases led : ∃ rest, text = '0' :: rest
    · obtain ⟨rest, rfl⟩ := led
      have octal : readMagnitude ('0' :: rest) = readDigits 8 0 rest := by
        apply readMagnitude_octal
        · rintro digits rfl
          exact lower digits rfl
        · rintro digits rfl
          exact upper digits rfl
      rw [octal, readDigits_zero (by decide), List.all_cons]
      exact ⟨fun both => both.2, fun zeros => ⟨rfl, zeros⟩⟩
    · rw [readMagnitude_decimal fun rest same => led ⟨rest, same⟩, readDigits_zero (by decide)]
      exact ⟨fun both => both.2, fun zeros => ⟨rfl, zeros⟩⟩

/-- A text without sign is an amount when its magnitude is read. -/
theorem isAmount_unsigned (unsigned : ∀ rest, text ≠ '-' :: rest) :
    IsAmount text value ↔ ∃ magnitude, readMagnitude text = some magnitude ∧ value = magnitude := by
  have read : cppInt text =
      Option.map (fun magnitude : Nat => (magnitude : Int)) (readMagnitude text) := by
    unfold cppInt
    split
    · rename_i rest
      exact absurd rfl (unsigned rest)
    · rfl
  rw [IsAmount, read, Option.map_eq_some_iff]
  constructor
  · rintro ⟨⟨magnitude, found, rfl⟩, _⟩
    exact ⟨magnitude, found, rfl⟩
  · rintro ⟨magnitude, found, rfl⟩
    exact ⟨⟨magnitude, found, rfl⟩, Int.natCast_nonneg magnitude⟩

/-- A text with a minus sign is an amount when it is a negative zero. -/
theorem isAmount_negative {rest : Text} :
    IsAmount ('-' :: rest) value ↔ isZeroLiteral rest = true ∧ value = 0 := by
  have read : cppInt ('-' :: rest) =
      Option.map (fun magnitude : Nat => -(magnitude : Int)) (readMagnitude rest) := rfl
  rw [IsAmount, read, Option.map_eq_some_iff, ← readMagnitude_zero]
  constructor
  · rintro ⟨⟨magnitude, found, rfl⟩, nonneg⟩
    have zero : magnitude = 0 := by omega
    subst zero
    exact ⟨found, rfl⟩
  · rintro ⟨found, rfl⟩
    exact ⟨⟨0, found, rfl⟩, Int.le_refl 0⟩

/-- A literal of a radix is an amount when it has only digits of the radix. -/
theorem isAmount_digits {radix : Nat} {digits : Text}
    (unsigned : ∀ rest, text ≠ '-' :: rest)
    (read : readMagnitude text = readDigits radix 0 digits) :
    (∃ value, IsAmount text value) ↔ digits.all (isDigitIn radix) = true := by
  rw [← readDigits_isSome radix 0, Option.isSome_iff_exists]
  constructor
  · rintro ⟨value, amount⟩
    obtain ⟨magnitude, found, _⟩ := (isAmount_unsigned unsigned).mp amount
    exact ⟨magnitude, read ▸ found⟩
  · rintro ⟨magnitude, found⟩
    exact ⟨magnitude, (isAmount_unsigned unsigned).mpr ⟨magnitude, read.trans found, rfl⟩⟩

/-- A misread text is accepted and is no plain numeral. -/
theorem misreadAmount_accepted (misread : misreadAmount text = true) :
    (∃ value, IsAmount text value) ∧ ¬ IsPlain text := by
  -- a zero with something after it is not plain
  have led (c : Char) (digits : Text) : ¬ IsPlain ('0' :: c :: digits) := by
    intro plain
    cases plain.2.2 rfl
  unfold misreadAmount at misread
  split at misread
  · exact ⟨⟨0, rfl, Int.le_refl 0⟩, fun plain => plain.1 rfl⟩
  · refine ⟨⟨0, isAmount_negative.mpr ⟨misread, rfl⟩⟩, fun plain => ?_⟩
    exact absurd (plain.2.1 '-' List.mem_cons_self) (by decide)
  · exact ⟨(isAmount_digits (by rintro _ ⟨⟩) rfl).mpr misread, led _ _⟩
  · exact ⟨(isAmount_digits (by rintro _ ⟨⟩) rfl).mpr misread, led _ _⟩
  · rename_i digit digits lower upper
    have octal : readMagnitude ('0' :: digit :: digits) = readDigits 8 0 (digit :: digits) :=
      readMagnitude_octal (fun rest same => lower (List.cons.inj same).1)
        fun rest same => upper (List.cons.inj same).1
    exact ⟨(isAmount_digits (by rintro _ ⟨⟩) octal).mpr misread, led _ _⟩
  · cases misread

/-- An amount that is not misread is a plain numeral with its value. -/
theorem isAmount_plain (understood : misreadAmount text = false) (amount : IsAmount text value) :
    IsPlain text ∧ value = decimalValue text := by
  unfold misreadAmount at understood
  split at understood
  · cases understood
  · rw [(isAmount_negative.mp amount).1] at understood
    cases understood
  · have digits := (isAmount_digits (by rintro _ ⟨⟩) rfl).mp ⟨value, amount⟩
    rw [digits] at understood
    cases understood
  · have digits := (isAmount_digits (by rintro _ ⟨⟩) rfl).mp ⟨value, amount⟩
    rw [digits] at understood
    cases understood
  · rename_i digit digits lower upper
    have octal : readMagnitude ('0' :: digit :: digits) = readDigits 8 0 (digit :: digits) :=
      readMagnitude_octal (fun rest same => lower (List.cons.inj same).1)
        fun rest same => upper (List.cons.inj same).1
    have read := (isAmount_digits (by rintro _ ⟨⟩) octal).mp ⟨value, amount⟩
    rw [read] at understood
    cases understood
  · rename_i filled unsigned lower upper longer
    obtain ⟨magnitude, found, rfl⟩ :=
      (isAmount_unsigned fun rest same => unsigned rest same).mp amount
    by_cases led : ∃ rest, text = '0' :: rest
    · obtain ⟨rest, rfl⟩ := led
      cases rest with
      | nil =>
        cases found
        exact ⟨by decide, rfl⟩
      | cons digit rest => exact absurd rfl (longer digit rest)
    · rw [readMagnitude_decimal fun rest same => led ⟨rest, same⟩, readDigits_decimal] at found
      refine ⟨⟨filled, found.1, ?_⟩, by rw [found.2]⟩
      intro zero
      obtain ⟨rest, rfl⟩ := List.head?_eq_some_iff.mp zero
      exact absurd ⟨rest, rfl⟩ led

/-- A plain numeral is what is written for its number. -/
theorem toDigits_plain (plain : IsPlain text) : Nat.toDigits 10 (decimalValue text) = text := by
  induction text using List.reverseRecOn with
  | nil => exact absurd rfl plain.1
  | append_singleton front c ih =>
    obtain ⟨_, decimal, leading⟩ := plain
    have digit := digitValue_of_isDigit (decimal c (by simp))
    have last : Nat.digitChar (c.toNat - '0'.toNat) = c := by
      have table : ∀ code < 128, (Char.ofNat code).isDigit = true →
          Nat.digitChar ((Char.ofNat code).toNat - '0'.toNat) = Char.ofNat code := by decide
      exact digitValue_forall
        (fun c => c.isDigit = true → Nat.digitChar (c.toNat - '0'.toNat) = c) table digit.1
        (decimal c (by simp))
    have value : decimalValue (front ++ [c]) = 10 * decimalValue front + (c.toNat - '0'.toNat) := by
      rw [decimalValue, Nat.ofDigitChars_append]
      rfl
    by_cases single : front = []
    · subst single
      rw [value, show decimalValue [] = 0 from rfl, Nat.mul_zero, Nat.zero_add,
        Nat.toDigits_of_lt_base digit.2, last]
      rfl
    · have unled : front.head? ≠ some '0' := by
        intro zero
        have whole := leading (by rw [List.head?_append, zero]; rfl)
        have longer := congrArg List.length whole
        rw [List.length_append, List.length_singleton, List.length_singleton] at longer
        exact single (List.length_eq_zero_iff.mp (by omega))
      have written := ih ⟨single, fun c listed => decimal c (List.mem_append_left _ listed),
        fun zero => absurd zero unled⟩
      have positive : 0 < decimalValue front := by
        apply Nat.pos_of_ne_zero
        intro zero
        rw [zero, Nat.toDigits_zero] at written
        exact unled (by rw [← written]; rfl)
      rw [value, ← Nat.toDigits_append_toDigits (by decide) positive digit.2, written,
        Nat.toDigits_of_lt_base digit.2, last]

/-- What is written for a number is a plain numeral. -/
theorem isPlain_toDigits (number : Nat) : IsPlain (Nat.toDigits 10 number) := by
  refine ⟨Nat.toDigits_ne_nil, ?_, ?_⟩
  · intro c listed
    exact Nat.isDigit_of_mem_toDigits (by decide) (by decide) listed
  · intro zero
    obtain ⟨rest, led⟩ := List.head?_eq_some_iff.mp zero
    by_cases positive : 0 < number
    · exact absurd led (toDigits_head_ne_zero number positive rest)
    · rw [Nat.eq_zero_of_not_pos positive, Nat.toDigits_zero]

/-- An amount is written as it was read exactly when it is a plain numeral. -/
theorem toText_eq_iff (amount : IsAmount text value) : toText value = text ↔ IsPlain text := by
  have written : toText value = Nat.toDigits 10 value.natAbs := if_neg (Int.not_lt.mpr amount.2)
  constructor
  · intro same
    rw [← same, written]
    exact isPlain_toDigits _
  · intro plain
    have understood : misreadAmount text = false := by
      rw [← Bool.not_eq_true]
      exact fun misread => (misreadAmount_accepted misread).2 plain
    rw [written, (isAmount_plain understood amount).2, Int.natAbs_natCast]
    exact toDigits_plain plain

end Amounts

/-! ## Words -/

section Words

variable {text : Text} {number : UInt64}

/-- The word that a sign makes of a magnitude. -/
def signedWord (signed : Text) : UInt64 :=
  if signed.head? = some '-' then 0 - UInt64.ofNat (decimalValue (withoutSign signed))
  else UInt64.ofNat (decimalValue (withoutSign signed))

/-- The stream takes digits that fit the word. -/
theorem parseUint64_word {digits : Text} {make : Nat → UInt64} :
    parseUint64.word (readDigits 10 0 digits) make = some number ↔
      (∀ c ∈ digits, c.isDigit = true) ∧ decimalValue digits < 2 ^ 64 ∧
        number = make (decimalValue digits) := by
  unfold parseUint64.word
  cases read : readDigits 10 0 digits with
  | none =>
    simp only [reduceCtorEq, false_iff]
    rintro ⟨decimal, _⟩
    rw [readDigits_decimal.mpr ⟨decimal, rfl⟩] at read
    cases read
  | some value =>
    obtain ⟨decimal, rfl⟩ := readDigits_decimal.mp read
    by_cases small : decimalValue digits < 2 ^ 64
    · simp only [small, if_true, Option.some.injEq, true_and]
      exact ⟨fun same => ⟨decimal, same.symm⟩, fun both => both.2.symm⟩
    · simp only [small, if_false, reduceCtorEq, false_and, and_false]

/-- The stream skips blanks, takes a sign and then needs digits that fit the word. -/
theorem parseUint64_iff : parseUint64 text = some number ↔
    withoutSign (text.dropWhile isSpace) ≠ [] ∧
      (∀ c ∈ withoutSign (text.dropWhile isSpace), c.isDigit = true) ∧
      decimalValue (withoutSign (text.dropWhile isSpace)) < 2 ^ 64 ∧
      number = signedWord (text.dropWhile isSpace) := by
  unfold parseUint64
  generalize text.dropWhile isSpace = signed
  split
  · simp [withoutSign]
  · simp [withoutSign]
  · simp [withoutSign]
  · rename_i digits longer
    have filled : withoutSign ('-' :: digits) ≠ [] := fun empty => longer empty
    rw [parseUint64_word]
    exact ⟨fun taken => ⟨filled, taken⟩, fun taken => taken.2⟩
  · rename_i digits longer
    have filled : withoutSign ('+' :: digits) ≠ [] := fun empty => longer empty
    rw [parseUint64_word]
    exact ⟨fun taken => ⟨filled, taken⟩, fun taken => taken.2⟩
  · rename_i filled _ _ minus plus
    have unsigned : withoutSign signed = signed := by
      unfold withoutSign
      split
      · exact absurd rfl (minus _)
      · exact absurd rfl (plus _)
      · rfl
    have positive : ¬ signed.head? = some '-' := by
      intro negative
      obtain ⟨rest, rfl⟩ := List.head?_eq_some_iff.mp negative
      exact minus rest rfl
    rw [parseUint64_word, signedWord, if_neg positive, unsigned]
    exact ⟨fun taken => ⟨filled, taken⟩, fun taken => taken.2⟩

/-- A text is its blanks, perhaps a sign, and the rest. -/
theorem mem_of_withoutSign {skipped : Char → Bool} {c : Char} (listed : c ∈ text) :
    skipped c = true ∨ c = '-' ∨ c = '+' ∨ c ∈ withoutSign (text.dropWhile skipped) := by
  have parts := List.takeWhile_append_dropWhile (p := skipped) (l := text)
  rw [← parts, List.mem_append] at listed
  rcases listed with blank | listed
  · exact .inl (List.mem_takeWhile_imp blank)
  · unfold withoutSign
    split
    · rename_i same
      rw [same] at listed
      rcases List.mem_cons.mp listed with sign | digit
      · exact .inr (.inl sign)
      · exact .inr (.inr (.inr digit))
    · rename_i same
      rw [same] at listed
      rcases List.mem_cons.mp listed with sign | digit
      · exact .inr (.inr (.inl sign))
      · exact .inr (.inr (.inr digit))
    · exact .inr (.inr (.inr listed))

/-- Digits are printed as they are. -/
theorem escapeChar_digit {c : Char} (digit : c.isDigit = true) : Json.escapeChar c = [c] :=
  digitValue_forall (fun c => c.isDigit = true → Json.escapeChar c = [c]) (by decide)
    (digitValue_of_isDigit digit).1 digit

/-- Of the blanks only the space is printed as it is. -/
theorem isSpace_plain {c : Char} (plain : Json.escapeChar c = [c]) : isSpace c = (c == ' ') := by
  by_cases blank : isSpace c = true
  · have listed : c ∈ [' ', '\t', '\n', '\x0b', '\x0c', '\r'] := List.contains_iff_mem.mp blank
    have codes : ∀ c ∈ [' ', '\t', '\n', '\x0b', '\x0c', '\r'], Json.escapeChar c = [c] →
        isSpace c = (c == ' ') := Text.all_holds (by decide)
    exact codes c listed plain
  · have other : c ≠ ' ' := by
      rintro rfl
      exact blank rfl
    rw [Bool.not_eq_true] at blank
    rw [blank, beq_eq_false_iff_ne.mpr other]

/-- Tests that agree on a text drop the same. -/
theorem dropWhile_agree {first second : Char → Bool} (agree : ∀ c ∈ text, first c = second c) :
    text.dropWhile first = text.dropWhile second := by
  induction text with
  | nil => rfl
  | cons c text ih =>
    rw [List.forall_mem_cons] at agree
    rw [List.dropWhile_cons, List.dropWhile_cons, agree.1, ih agree.2]

/-- Printed as it is, a parameter has no blanks but spaces. -/
theorem dropWhile_plain (plain : ∀ c ∈ text, Json.escapeChar c = [c]) :
    text.dropWhile isSpace = text.dropWhile (· == ' ') :=
  dropWhile_agree fun c listed => isSpace_plain (plain c listed)

/-- A parameter whose printed text is taken as a word is printed as it is. -/
theorem plain_of_parseUint64 (taken : parseUint64 (Json.escape text) = some number) :
    ∀ c ∈ text, Json.escapeChar c = [c] := by
  obtain ⟨_, decimal, _⟩ := parseUint64_iff.mp taken
  have slash : '\\' ∉ Json.escape text := by
    intro listed
    rcases @mem_of_withoutSign _ isSpace _ listed with blank | minus | plus | digit
    · cases blank
    · cases minus
    · cases plus
    · cases decimal '\\' digit
  exact (escape_eq slash).2

/-- Spaces, a sign and digits are printed as they are. -/
theorem plain_of_digits
    (decimal : ∀ c ∈ withoutSign (text.dropWhile (· == ' ')), c.isDigit = true) :
    ∀ c ∈ text, Json.escapeChar c = [c] := by
  intro c listed
  rcases @mem_of_withoutSign _ (· == ' ') _ listed with space | rfl | rfl | digit
  · rw [beq_iff_eq.mp space]
    decide
  · decide
  · decide
  · exact escapeChar_digit (decimal c digit)

/-- A printed parameter is taken as a word when its own digits fit the word. -/
theorem parseUint64_escape : parseUint64 (Json.escape text) = some number ↔
    withoutSign (text.dropWhile (· == ' ')) ≠ [] ∧
      (∀ c ∈ withoutSign (text.dropWhile (· == ' ')), c.isDigit = true) ∧
      decimalValue (withoutSign (text.dropWhile (· == ' '))) < 2 ^ 64 ∧
      number = signedWord (text.dropWhile (· == ' ')) := by
  constructor
  · intro taken
    have plain := plain_of_parseUint64 taken
    rw [escape_of_plain plain, parseUint64_iff, dropWhile_plain plain] at taken
    exact taken
  · intro taken
    have plain := plain_of_digits taken.2.1
    rw [escape_of_plain plain, parseUint64_iff, dropWhile_plain plain]
    exact taken

/-- Digits have nothing to skip and no sign. -/
theorem digits_bare (filled : text ≠ []) (decimal : ∀ c ∈ text, c.isDigit = true) :
    text.dropWhile (· == ' ') = text ∧ withoutSign text = text ∧ ¬ text.head? = some '-' := by
  cases text with
  | nil => exact absurd rfl filled
  | cons c rest =>
    have digit := decimal c List.mem_cons_self
    have kept : (c == ' ') = false := by
      rw [beq_eq_false_iff_ne]
      rintro rfl
      cases digit
    have unsigned : c ≠ '-' := by
      rintro rfl
      cases digit
    refine ⟨by rw [List.dropWhile_cons, kept]; rfl, ?_, fun minus => ?_⟩
    · unfold withoutSign
      split
      · rename_i same
        cases same
        exact absurd rfl unsigned
      · rename_i same
        cases same
        cases digit
      · rfl
    · exact unsigned (Option.some.inj minus)

/-- A parameter that is misread is taken as a word and is no plain numeral. -/
theorem misreadWord_accepted (misread : misreadWord text = true) :
    (∃ number, parseUint64 (Json.escape text) = some number) ∧ ¬ IsPlain text := by
  simp only [misreadWord, Bool.and_eq_true, Bool.not_eq_true', List.isEmpty_eq_false_iff,
    List.all_eq_true, decide_eq_true_eq, Bool.or_eq_true, bne_iff_ne, beq_iff_eq] at misread
  obtain ⟨⟨⟨filled, decimal⟩, small⟩, marked⟩ := misread
  refine ⟨⟨_, parseUint64_escape.mpr ⟨filled, decimal, small, rfl⟩⟩, fun plain => ?_⟩
  obtain ⟨kept, unsigned, _⟩ := digits_bare plain.1 plain.2.1
  rw [kept, unsigned] at marked
  rcases marked with other | ⟨zero, longer⟩
  · exact other rfl
  · exact longer (plain.2.2 zero)

/-- A word that is not misread is a plain numeral with its value. -/
theorem word_plain (understood : misreadWord text = false)
    (taken : parseUint64 (Json.escape text) = some number) :
    IsPlain text ∧ number.toNat = decimalValue text := by
  obtain ⟨filled, decimal, small, rfl⟩ := parseUint64_escape.mp taken
  simp only [misreadWord, Bool.and_eq_false_iff, Bool.not_eq_false', List.isEmpty_iff,
    List.all_eq_false, decide_eq_false_iff_not, Bool.or_eq_false_iff, bne_eq_false_iff_eq,
    beq_eq_false_iff_ne] at understood
  rcases understood with ((empty | ⟨c, listed, other⟩) | large) | ⟨whole, led⟩
  · exact absurd empty filled
  · exact absurd (decimal c listed) other
  · exact absurd small large
  · rw [← whole] at filled decimal small led
    obtain ⟨kept, unsigned, positive⟩ := digits_bare filled decimal
    refine ⟨⟨filled, decimal, fun zero => ?_⟩, ?_⟩
    · rcases led with other | single
      · exact absurd zero other
      · exact single
    · rw [kept, signedWord, if_neg positive, unsigned]
      exact UInt64.toNat_ofNat_of_lt' small

end Words

/-! ## Parameters -/

section Parameters

/-- Where a text parameter is accepted as an amount, it is a plain decimal numeral and stands for
the number it denotes. -/
def AmountMeant (query : Query) (id name : String) (param : Text) : Prop :=
  ∀ text value, query.getBigint id name = .ok (text, value) →
    IsPlain param ∧ value = decimalValue param

/-- Where a text parameter is accepted as a word, it is a plain decimal numeral and stands for the
number it denotes. -/
def WordMeant (query : Query) (id name : String) (param : Text) : Prop :=
  ∀ number, query.getUint64 id name = .ok number →
    IsPlain param ∧ number.toNat = decimalValue param

variable {query : Query} {id name : String} {param : Text}

/-- An amount that is read as it is printed. -/
theorem getBigint_string (found : query.find id.toList = some (.string param)) {text : Text}
    {value : Int} : query.getBigint id name = .ok (text, value) ↔
      text = Json.escape param ∧ IsAmount (Json.escape param) value := by
  rw [Query.getBigint_ok, Query.getString_string found, Except.ok.injEq]
  constructor
  · rintro ⟨rfl, amount⟩
    exact ⟨rfl, amount⟩
  · rintro ⟨rfl, amount⟩
    exact ⟨rfl, amount⟩

/-- A word that is read as it is printed. -/
theorem getUint64_string (found : query.find id.toList = some (.string param))
    {number : UInt64} : query.getUint64 id name = .ok number ↔
      parseUint64 (Json.escape param) = some number := by
  rw [Query.getUint64, Query.getString_string found]
  dsimp only
  cases parsed : parseUint64 (Json.escape param) with
  | none => simp only [reduceCtorEq]
  | some other => simp only [Except.ok.injEq, Option.some.injEq]

/-- A parameter whose printed text is an amount is printed as it is. -/
theorem escape_of_amount {value : Int} (amount : IsAmount (Json.escape param) value) :
    Json.escape param = param := by
  have slash : '\\' ∉ Json.escape param := by
    intro listed
    have numeral := cppInt_chars amount.1 '\\' listed
    cases numeral
  exact (escape_eq slash).1

/-- What is misread is printed as it is. -/
theorem escape_of_misread (misread : misreadAmount param = true) : Json.escape param = param := by
  obtain ⟨⟨value, amount⟩, _⟩ := misreadAmount_accepted misread
  apply escape_of_plain
  intro c listed
  have numeral := cppInt_chars amount.1 c listed
  rw [Text.isNumeralChar, List.contains_iff_mem] at numeral
  have table : ∀ c ∈ "0123456789abcdefABCDEFxX-".toList, Json.escapeChar c = [c] :=
    Text.all_holds (by decide)
  exact table c numeral

/-- Numeral parameters mean what they say exactly when the readers do not misread them. -/
theorem numerals_mean_iff (found : query.find id.toList = some (.string param)) :
    (AmountMeant query id name param ↔ misreadAmount param = false) ∧
      (WordMeant query id name param ↔ misreadWord param = false) := by
  refine ⟨⟨fun meant => ?_, fun understood text value read => ?_⟩,
    ⟨fun meant => ?_, fun understood number read => ?_⟩⟩
  · by_contra misread
    rw [Bool.not_eq_false] at misread
    obtain ⟨⟨value, amount⟩, special⟩ := misreadAmount_accepted misread
    rw [← escape_of_misread misread] at amount
    exact special (meant _ value ((getBigint_string found).mpr ⟨rfl, amount⟩)).1
  · obtain ⟨_, amount⟩ := (getBigint_string found).mp read
    rw [escape_of_amount amount] at amount
    exact isAmount_plain understood amount
  · by_contra misread
    rw [Bool.not_eq_false] at misread
    obtain ⟨⟨number, taken⟩, special⟩ := misreadWord_accepted misread
    exact special (meant number ((getUint64_string found).mpr taken)).1
  · exact word_plain understood ((getUint64_string found).mp read)

/-- A plain amount is read as meant. -/
theorem numerals_mean_sample :
    AmountMeant [("p2".toList, .string "1000".toList)] "p2" "amount" "1000".toList :=
  (numerals_mean_iff rfl).1.mpr (by decide)

/-- A hexadecimal amount is accepted, and a negative expiration. -/
theorem numerals_misread : ¬ ∀ (query : Query) (id name : String) (param : Text),
    query.find id.toList = some (.string param) →
      AmountMeant query id name param ∧ WordMeant query id name param := by
  intro meant
  have hexadecimal := meant [("p2".toList, .string "0x10".toList)] "p2" "amount" "0x10".toList rfl
  have negative := meant [("p6".toList, .string "-5".toList)] "p6" "expiration" "-5".toList rfl
  have amount := (hexadecimal.1 "0x10".toList 16 rfl).1
  have word := (negative.2 18446744073709551611 (by decide)).1
  exact absurd (And.intro amount word) (by decide)

end Parameters

end Creditcoin
