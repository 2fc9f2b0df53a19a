import Mathlib.Algebra.Group.Nat.Defs
import Mathlib.Data.List.Basic

/-!
# Text

The processor's strings are modelled by their characters. A string that holds Unicode text
is the sequence of its code points; a serialized message is a sequence of byte characters.
Case and class functions are those of the C locale, which the processor runs in.
-/

namespace Creditcoin

/-- `std::string`. -/
abbrev Text : Type := List Char

instance Text.lawfulBEq : LawfulBEq Text := inferInstance

namespace Text

/-- `boost::to_lower`. -/
def toLower (text : Text) : Text := text.map Char.toLower

/-- `boost::iequals`. -/
def iequals (left right : Text) : Bool := left.toLower == right.toLower

/-- `boost::starts_with(text, start)`. -/
def startsWith (text start : Text) : Bool := start.isPrefixOf text

/-- What a test finds of all characters holds of each. -/
theorem all_holds {text : Text} {holds : Char → Prop} [DecidablePred holds]
    (tested : (text.all fun c => decide (holds c)) = true) : ∀ c ∈ text, holds c :=
  fun c listed => of_decide_eq_true (List.all_eq_true.mp tested c listed)

/-- A prefix test is a decomposition. -/
theorem startsWith_iff {text start : Text} :
    text.startsWith start = true ↔ ∃ rest, text = start ++ rest := by
  rw [startsWith, List.isPrefixOf_iff_prefix]
  constructor
  · rintro ⟨rest, rfl⟩
    exact ⟨rest, rfl⟩
  · rintro ⟨rest, rfl⟩
    exact ⟨rest, rfl⟩

/-- A digit of a lower case hexadecimal text. -/
def isHexDigit (c : Char) : Bool := "0123456789abcdef".toList.contains c

/-- `isHex`. -/
def isHex (text : Text) : Bool := text.all isHexDigit

/-- A character an integer literal can hold: a digit in any radix, a sign or a radix mark. -/
def isNumeralChar (c : Char) : Bool := "0123456789abcdefABCDEFxX-".toList.contains c

/-- Hexadecimal digits can stand in a literal. -/
theorem isNumeralChar_of_isHexDigit {c : Char} (digit : isHexDigit c = true) :
    isNumeralChar c = true := by
  simp only [isHexDigit, isNumeralChar, List.contains_iff_mem] at digit ⊢
  exact (by decide : "0123456789abcdef".toList ⊆ "0123456789abcdefABCDEFxX-".toList) digit

/-- The characters of literals are bytes below 128. -/
theorem isNumeralChar_small {c : Char} (numeral : isNumeralChar c = true) : c.toNat < 128 := by
  simp only [isNumeralChar, List.contains_iff_mem] at numeral
  have small : ∀ c ∈ "0123456789abcdefABCDEFxX-".toList, c.toNat < 128 := all_holds (by decide)
  exact small c numeral

/-- Read as a wire tag, a character of a literal is a text field only at three numbers. -/
theorem isNumeralChar_tag {c : Char} (numeral : isNumeralChar c = true) {number : Nat}
    (tag : c.toNat = number * 8 + 2) : number = 6 ∨ number = 8 ∨ number = 12 := by
  simp only [isNumeralChar, List.contains_iff_mem] at numeral
  have codes : ∀ c ∈ "0123456789abcdefABCDEFxX-".toList,
      c.toNat % 8 = 2 → c.toNat / 8 = 6 ∨ c.toNat / 8 = 8 ∨ c.toNat / 8 = 12 :=
    all_holds (by decide)
  have codes := codes c numeral
  have class2 : c.toNat % 8 = 2 := by omega
  have quotient : c.toNat / 8 = number := by omega
  rw [quotient] at codes
  exact codes class2

end Text

end Creditcoin
