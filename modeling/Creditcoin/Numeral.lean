import Creditcoin.Text

/-!
# Numbers as text

Amounts travel as decimal text. `cppInt` is the string constructor of the unbounded integer:
a leading minus sign, then `0x` for hexadecimal, another leading `0` for octal, and decimal
digits otherwise; no digits at all stand for zero. `toText` is its output operator.
`parseUint64` reads an unsigned word the way a formatted stream does, with a sign allowed.
-/

namespace Creditcoin

/-- Value of a digit in any radix up to sixteen. -/
def digitValue (c : Char) : Option Nat :=
  if '0' ≤ c ∧ c ≤ '9' then some (c.toNat - '0'.toNat)
  else if 'a' ≤ c ∧ c ≤ 'f' then some (10 + (c.toNat - 'a'.toNat))
  else if 'A' ≤ c ∧ c ≤ 'F' then some (10 + (c.toNat - 'A'.toNat))
  else none

/-- Digits of one radix, continuing from a value; anything else is refused. -/
def readDigits (radix : Nat) : Nat → Text → Option Nat
  | value, [] => some value
  | value, c :: rest =>
    match digitValue c with
    | some digit => if digit < radix then readDigits radix (value * radix + digit) rest else none
    | none => none

/-- The magnitude of a literal, with its radix mark. -/
def readMagnitude (text : Text) : Option Nat :=
  match text with
  | '0' :: 'x' :: digits => readDigits 16 0 digits
  | '0' :: 'X' :: digits => readDigits 16 0 digits
  | '0' :: digits => readDigits 8 0 digits
  | digits => readDigits 10 0 digits

/-- `boost::multiprecision::cpp_int(std::string)`; `none` is its `std::runtime_error`. -/
def cppInt (text : Text) : Option Int :=
  match text with
  | '-' :: rest => Option.map (fun magnitude : Nat => -(magnitude : Int)) (readMagnitude rest)
  | rest => Option.map (fun magnitude : Nat => (magnitude : Int)) (readMagnitude rest)

/-- `toString(boost::multiprecision::cpp_int)`. -/
def toText (value : Int) : Text :=
  if value < 0 then '-' :: Nat.toDigits 10 value.natAbs else Nat.toDigits 10 value.natAbs

/-- `isspace`. -/
def isSpace (c : Char) : Bool := [' ', '\t', '\n', '\x0b', '\x0c', '\r'].contains c

/-- `parseUint64`, without its exception. -/
def parseUint64 (text : Text) : Option UInt64 :=
  match text.dropWhile isSpace with
  | [] => none
  | '-' :: [] => none
  | '+' :: [] => none
  | '-' :: digits => word (readDigits 10 0 digits) fun value => 0 - UInt64.ofNat value
  | '+' :: digits => word (readDigits 10 0 digits) UInt64.ofNat
  | digits => word (readDigits 10 0 digits) UInt64.ofNat
where
  /-- A magnitude above the word range sets the fail bit. -/
  word (read : Option Nat) (make : Nat → UInt64) : Option UInt64 :=
    match read with
    | some value => if value < 2 ^ 64 then some (make value) else none
    | none => none

/-! ## Written numbers are read back -/

/-- A decimal digit has its own value. -/
theorem digitValue_of_isDigit {c : Char} (digit : c.isDigit = true) :
    digitValue c = some (c.toNat - '0'.toNat) ∧ c.toNat - '0'.toNat < 10 := by
  simp only [Char.isDigit, ge_iff_le, Bool.and_eq_true, decide_eq_true_eq] at digit
  have low : '0' ≤ c := digit.1
  have high : c ≤ '9' := digit.2
  have upper : c.toNat ≤ '9'.toNat := high
  refine ⟨by simp [digitValue, low, high], ?_⟩
  have nine : '9'.toNat = 57 := rfl
  have zero : '0'.toNat = 48 := rfl
  omega

/-- Reading decimal digits is the library's positional value. -/
theorem readDigits_ten (digits : Text) (decimal : ∀ c ∈ digits, c.isDigit = true) (value : Nat) :
    readDigits 10 value digits = some (Nat.ofDigitChars 10 digits value) := by
  induction digits generalizing value with
  | nil => rfl
  | cons c digits ih =>
    obtain ⟨found, small⟩ := digitValue_of_isDigit (decimal c List.mem_cons_self)
    simp only [readDigits, found, small, if_true, Nat.ofDigitChars, List.foldl_cons]
    rw [ih (fun other listed => decimal other (List.mem_cons_of_mem _ listed)), Nat.mul_comm]
    rfl

/-- The digits of a number above zero do not start with zero. -/
theorem toDigits_head_ne_zero (value : Nat) (positive : 0 < value) (rest : Text) :
    Nat.toDigits 10 value ≠ '0' :: rest := by
  induction value using Nat.strongRecOn generalizing rest with
  | ind value ih =>
    intro digits
    by_cases small : value < 10
    · rw [Nat.toDigits_of_lt_base small] at digits
      have head : value.digitChar = '0' := (List.cons.inj digits).1
      exact (by decide : ∀ value < 10, 0 < value → value.digitChar ≠ '0') value small positive head
    · rw [Nat.toDigits_of_base_le (by decide) (by omega)] at digits
      cases front : Nat.toDigits 10 (value / 10) with
      | nil => exact Nat.toDigits_ne_nil front
      | cons c front' =>
        rw [front, List.cons_append] at digits
        obtain ⟨rfl, _⟩ := List.cons.inj digits
        exact ih (value / 10) (by omega) (by omega) front' front

/-- Written magnitudes are read back. -/
theorem readMagnitude_toDigits (value : Nat) :
    readMagnitude (Nat.toDigits 10 value) = some value := by
  have decimal : ∀ c ∈ Nat.toDigits 10 value, c.isDigit = true :=
    fun c listed => Nat.isDigit_of_mem_toDigits (by decide) (by decide) listed
  by_cases zero : value = 0
  · subst zero
    rfl
  · have plain : readMagnitude (Nat.toDigits 10 value) = readDigits 10 0 (Nat.toDigits 10 value) := by
      unfold readMagnitude
      split
      · rename_i digits
        exact absurd digits (toDigits_head_ne_zero value (Nat.pos_of_ne_zero zero) _)
      · rename_i digits
        exact absurd digits (toDigits_head_ne_zero value (Nat.pos_of_ne_zero zero) _)
      · rename_i digits
        exact absurd digits (toDigits_head_ne_zero value (Nat.pos_of_ne_zero zero) _)
      · rfl
    rw [plain, readDigits_ten _ decimal, Nat.ofDigitChars_ten_toDigits]

/-- Written numbers are read back. -/
@[simp] theorem cppInt_toText (value : Int) : cppInt (toText value) = some value := by
  unfold toText
  by_cases negative : value < 0
  · rw [if_pos negative]
    change Option.map _ (readMagnitude (Nat.toDigits 10 value.natAbs)) = _
    rw [readMagnitude_toDigits]
    simp only [Option.map_some, Option.some.injEq]
    omega
  · rw [if_neg negative]
    have decimal : ∀ rest, Nat.toDigits 10 value.natAbs ≠ '-' :: rest := by
      intro rest digits
      have listed : '-' ∈ Nat.toDigits 10 value.natAbs := digits ▸ List.mem_cons_self
      exact absurd (Nat.isDigit_of_mem_toDigits (by decide) (by decide) listed) (by decide)
    have plain : cppInt (Nat.toDigits 10 value.natAbs) =
        Option.map (fun magnitude : Nat => (magnitude : Int))
          (readMagnitude (Nat.toDigits 10 value.natAbs)) := by
      unfold cppInt
      split
      · rename_i digits
        exact absurd digits (decimal _)
      · rfl
    rw [plain, readMagnitude_toDigits]
    simp only [Option.map_some, Option.some.injEq]
    omega

/-- A written number is not empty. -/
@[simp] theorem toText_ne_nil (value : Int) : toText value ≠ [] := by
  unfold toText
  split
  · exact List.cons_ne_nil _ _
  · exact Nat.toDigits_ne_nil

/-- A written word is short. -/
theorem toText_length {value : Nat} (word : value < 2 ^ 64) :
    (toText (value : Int)).length ≤ 20 := by
  have plain : ¬ (value : Int) < 0 := by omega
  rw [toText, if_neg plain, Int.natAbs_natCast]
  exact (Nat.length_toDigits_le_iff (by decide) (by decide)).mpr (by omega)

/-! ## The characters of a literal -/

/-- A character with a digit value can stand in a literal. -/
theorem isNumeralChar_of_digitValue {c : Char} {digit : Nat} (found : digitValue c = some digit) :
    Text.isNumeralChar c = true := by
  have range : c.toNat < 128 := by
    unfold digitValue at found
    split at found
    · rename_i bounds
      exact Nat.lt_of_le_of_lt (show c.toNat ≤ '9'.toNat from bounds.2) (by decide)
    · split at found
      · rename_i bounds
        exact Nat.lt_of_le_of_lt (show c.toNat ≤ 'f'.toNat from bounds.2) (by decide)
      · split at found
        · rename_i bounds
          exact Nat.lt_of_le_of_lt (show c.toNat ≤ 'F'.toNat from bounds.2) (by decide)
        · cases found
  have table := (by decide : ∀ code < 128, (digitValue (Char.ofNat code)).isSome = true →
    Text.isNumeralChar (Char.ofNat code) = true) c.toNat range
  rw [Char.ofNat_toNat] at table
  exact table (by rw [found]; rfl)

/-- Every character of a digit sequence can stand in a literal. -/
theorem readDigits_chars {radix start value : Nat} {digits : Text}
    (read : readDigits radix start digits = some value) :
    ∀ c ∈ digits, Text.isNumeralChar c = true := by
  induction digits generalizing start with
  | nil => intro c listed; cases listed
  | cons first digits ih =>
    intro c listed
    cases found : digitValue first with
    | none => simp [readDigits, found] at read
    | some digit =>
      by_cases small : digit < radix
      · simp only [readDigits, found, small, if_true] at read
        rcases List.mem_cons.mp listed with rfl | listed
        · exact isNumeralChar_of_digitValue found
        · exact ih read c listed
      · simp [readDigits, found, small] at read

/-- Every character of a magnitude can stand in a literal. -/
theorem readMagnitude_chars {text : Text} {value : Nat} (read : readMagnitude text = some value) :
    ∀ c ∈ text, Text.isNumeralChar c = true := by
  have marks : Text.isNumeralChar '0' = true ∧ Text.isNumeralChar 'x' = true ∧
      Text.isNumeralChar 'X' = true := by decide
  unfold readMagnitude at read
  split at read
  · intro c listed
    rcases List.mem_cons.mp listed with rfl | listed
    · exact marks.1
    · rcases List.mem_cons.mp listed with rfl | listed
      · exact marks.2.1
      · exact readDigits_chars read c listed
  · intro c listed
    rcases List.mem_cons.mp listed with rfl | listed
    · exact marks.1
    · rcases List.mem_cons.mp listed with rfl | listed
      · exact marks.2.2
      · exact readDigits_chars read c listed
  · intro c listed
    rcases List.mem_cons.mp listed with rfl | listed
    · exact marks.1
    · exact readDigits_chars read c listed
  · exact readDigits_chars read

/-- Every character of an accepted literal is a digit, a sign or a radix mark. -/
theorem cppInt_chars {text : Text} {value : Int} (read : cppInt text = some value) :
    ∀ c ∈ text, Text.isNumeralChar c = true := by
  unfold cppInt at read
  split at read
  · rename_i rest
    obtain ⟨magnitude, found, _⟩ := Option.map_eq_some_iff.mp read
    intro c listed
    rcases List.mem_cons.mp listed with rfl | listed
    · decide
    · exact readMagnitude_chars found c listed
  · obtain ⟨magnitude, found, _⟩ := Option.map_eq_some_iff.mp read
    exact readMagnitude_chars found

/-- A literal with a decimal digit before a letter is refused. -/
theorem cppInt_eight_letter (rest : Text) : cppInt ('8' :: 'a' :: rest) = none := rfl

end Creditcoin
