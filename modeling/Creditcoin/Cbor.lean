import Creditcoin.Query
import Mathlib.Algebra.Group.Int.Defs

/-!
# Payloads

A payload is a value in CBOR, read the way `nlohmann::json::from_cbor` reads it: integers, strings,
arrays, objects with strings as keys, three simple values and floats. A string, an array or an
object has its length before it or ends with a break byte. What follows the value is not looked at,
and of members with the same key the last one counts.
-/

namespace Creditcoin.Cbor

/-- A reader of values from the front of a byte string; it fails where the library throws. -/
abbrev Reader (α : Type) : Type := Text → Option (α × Text)

/-! ## Parts of values -/

/-- The next bytes, which `check_length` requires to be there. -/
def takeBytes (len : Nat) : Reader Text := fun bytes =>
  if len ≤ bytes.length then some (bytes.take len, bytes.drop len) else none

/-- `get_from_vector`: the next bytes as a number, high bytes first. -/
def takeNumber (width : Nat) : Reader Nat := fun bytes =>
  match takeBytes width bytes with
  | some (digits, rest) => some (digits.foldl (fun value byte => value * 256 + byte.toNat) 0, rest)
  | none => none

/-- The number that the first byte of a value holds or announces. -/
def argument (additional : Nat) : Reader Nat := fun bytes =>
  if additional < 24 then some (additional, bytes)
  else if additional < 28 then takeNumber (2 ^ (additional - 24)) bytes
  else none

/-- A negative integer; the number above -1 is cast to a signed word. -/
def negative (number : Nat) : Int :=
  -1 - (if number < 2 ^ 63 then (number : Int) else (number : Int) - 2 ^ 64)

/-- `cbor_expect_string`. -/
def expectString (bytes : Text) : Bool :=
  match bytes with
  | byte :: _ => (0x60 ≤ byte.toNat && byte.toNat ≤ 0x7b) || byte.toNat == 0x7f
  | [] => false

/-- `result[key] = value`, in key order. -/
def setMember (key : Text) (value : Json) : List (Text × Json) → List (Text × Json)
  | [] => [(key, value)]
  | (other, old) :: members =>
    if key = other then (key, value) :: members
    else if key < other then (key, value) :: (other, old) :: members
    else (other, old) :: setMember key value members

/-- The object of members that are found in order. -/
def setMembers (members : List (Text × Json)) : List (Text × Json) :=
  members.foldl (fun object found => setMember found.1 found.2 object) []

section Parts

variable {α : Type} (read : Reader α)

/-- As many values as were announced. -/
def times : Nat → Reader (List α)
  | 0, bytes => some ([], bytes)
  | count + 1, bytes =>
    match read bytes with
    | some (value, rest) =>
      match times count rest with
      | some (values, rest) => some (value :: values, rest)
      | none => none
    | none => none

/-- Values up to a break byte; the first argument bounds their number. -/
def untilBreak : Nat → Reader (List α)
  | _, [] => none
  | 0, _ => none
  | bound + 1, byte :: bytes =>
    if byte.toNat = 0xff then some ([], bytes)
    else
      match read (byte :: bytes) with
      | some (value, rest) =>
        match untilBreak bound rest with
        | some (values, rest) => some (value :: values, rest)
        | none => none
      | none => none

/-- The values of an array, the members of an object or the parts of a string. -/
def sequence (additional : Nat) : Reader (List α) := fun bytes =>
  if additional = 31 then untilBreak read (bytes.length + 1) bytes
  else
    match argument additional bytes with
    | some (count, rest) => times read count rest
    | none => none

end Parts

/-- A key and a value. -/
def member (nested : Reader Json) : Reader (Text × Json) := fun bytes =>
  if expectString bytes then
    match nested bytes with
    | some (.string key, rest) =>
      match nested rest with
      | some (value, rest) => some ((key, value), rest)
      | none => none
    | _ => none
  else none

/-- A part of a string, which is itself a string. -/
def part (nested : Reader Json) : Reader Text := fun bytes =>
  match nested bytes with
  | some (.string text, rest) => some (text, rest)
  | _ => none

/-- A string. -/
def string (nested : Reader Json) (additional : Nat) : Reader Text := fun bytes =>
  if additional = 31 then
    match sequence (part nested) additional bytes with
    | some (parts, rest) => some (parts.flatten, rest)
    | none => none
  else
    match argument additional bytes with
    | some (len, rest) => takeBytes len rest
    | none => none

/-! ## Values -/

/-- What a reader has found, as a value. -/
def as {α : Type} (make : α → Json) (found : Option (α × Text)) : Option (Json × Text) :=
  found.map fun (value, rest) => (make value, rest)

/-- `from_cbor_internal`, with the values inside read by another reader. The type of a value is the
high bits of its first byte. -/
def valueWith (printFloat : Text → Text) (nested : Reader Json) : Reader Json
  | [] => none
  | byte :: bytes =>
    let additional := byte.toNat % 32
    match byte.toNat / 32 with
    | 0 => as (fun number : Nat => .integer (number : Int)) (argument additional bytes)
    | 1 => as (fun number => .integer (negative number)) (argument additional bytes)
    | 3 => as .string (string nested additional bytes)
    | 4 => as .array (sequence nested additional bytes)
    | 5 => as (fun members => .object (setMembers members)) (sequence (member nested) additional bytes)
    | 7 =>
      match additional with
      | 20 => some (.boolean false, bytes)
      | 21 => some (.boolean true, bytes)
      | 22 => some (.null, bytes)
      | 25 => as (fun digits => .float (printFloat digits)) (takeBytes 2 bytes)
      | 26 => as (fun digits => .float (printFloat digits)) (takeBytes 4 bytes)
      | 27 => as (fun digits => .float (printFloat digits)) (takeBytes 8 bytes)
      | _ => none
    | _ => none

/-- A value whose parts are nested at most as deep as the first argument. -/
def value (printFloat : Text → Text) : Nat → Reader Json
  | 0 => fun _ => none
  | depth + 1 => valueWith printFloat (value printFloat depth)

end Creditcoin.Cbor
