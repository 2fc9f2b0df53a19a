import Creditcoin.Lib.Binary64
import Creditcoin.Numeral
import Mathlib.Data.List.DropRight

/-!
# Python values and exceptions

What the consensus module uses of Python: splitting and decoding byte strings, the readings of
`int` and `float`, and numbers that are integers until a float enters. A byte string is the
sequence of its byte characters. `float` is binary64 with the machine operations; integers are
unbounded, and an integer and a float compare exactly.

`Runtime` holds what the interpreter takes from tables: the classes of the characters beyond ASCII
and the shortest decimal form of a float.
-/

namespace Creditcoin.PoW

/-- The exceptions the module raises or lets pass. -/
inductive Fault where
  | keyError
  | indexError
  | valueError
  | unicodeDecodeError
  | zeroDivisionError
  | overflowError
  | assertionError
  | runtimeError (message : Text)
  | unboundLocalError
  /-- `TypeError('fork contains non PoW blocks')`. -/
  | nonPowFork
  /-- `TypeError('New fork head {} is not a PoW block: consensus {}')`. -/
  | nonPowHead (identifier consensus : Text)
  /-- `TypeError('Trying to compare a PoW block {} to a non-PoW block {} that is not the direct
  predecessor')`. -/
  | nonPowPredecessor (newIdentifier curIdentifier : Text)
  | blockValidationAborted (reason : Text)
  deriving DecidableEq, Repr

/-- A Python computation that may raise. -/
abbrev Py (α : Type) : Type := Except Fault α

/-- What the interpreter takes from tables. -/
structure Runtime where
  /-- White space beyond ASCII. -/
  isSpace : Char → Bool
  /-- Decimal digits beyond ASCII. -/
  decimal : Char → Option (Fin 10)
  /-- `str` of a float. -/
  str : Float → Text

/-- A reading of `time.time()`. -/
structure Instant where
  seconds : Float
  finite : seconds.isFinite = true

/-- A reading of the clock is a number. -/
theorem Instant.number (now : Instant) : now.seconds.isNaN = false := by
  have finite := now.finite
  change Float.Model.UnpackedFloat.isFinite now.seconds.toModel.unpack = true at finite
  change Float.Model.UnpackedFloat.isNaN now.seconds.toModel.unpack = false
  revert finite
  cases now.seconds.toModel.unpack <;>
    simp [Float.Model.UnpackedFloat.isFinite, Float.Model.UnpackedFloat.isNaN]

/-- A sequence returns a value when its parts do. -/
theorem bind_ok {α β : Type} {first : Py α} {next : α → Py β} {result : β} :
    (first >>= next) = .ok result ↔ ∃ value, first = .ok value ∧ next value = .ok result := by
  cases first with
  | ok value =>
    change next value = .ok result ↔ _
    simp
  | error fault =>
    change Except.error fault = Except.ok result ↔ _
    simp

/-! ## Byte strings -/

/-- `bytes.split`, for a separator of one byte. -/
def split (glue : Char) : Text → List Text
  | [] => [[]]
  | c :: rest =>
    if c = glue then [] :: split glue rest
    else
      match split glue rest with
      | [] => [[c]]
      | first :: others => (c :: first) :: others

/-- A split has parts. -/
theorem split_ne_nil (glue : Char) (bytes : Text) : split glue bytes ≠ [] := by
  cases bytes with
  | nil => simp [split]
  | cons c rest =>
    unfold split
    split
    · simp
    · split <;> simp

/-- A part without the separator is a part of its own. -/
theorem split_last {glue : Char} {part : Text} (free : glue ∉ part) : split glue part = [part] := by
  induction part with
  | nil => rfl
  | cons c rest ih =>
    rw [List.mem_cons, not_or] at free
    rw [split, if_neg (Ne.symm free.1), ih free.2]

/-- A part without the separator is split off at the separator. -/
theorem split_join {glue : Char} {part : Text} (free : glue ∉ part) (rest : Text) :
    split glue (part ++ glue :: rest) = part :: split glue rest := by
  induction part with
  | nil => rw [List.nil_append, split, if_pos rfl]
  | cons c part ih =>
    rw [List.mem_cons, not_or] at free
    rw [List.cons_append, split, if_neg (Ne.symm free.1), ih free.2]

/-- `fields[index]`. -/
def field (fields : List Text) (index : Nat) : Py Text :=
  match fields[index]? with
  | some value => .ok value
  | none => .error .indexError

/-- Strict UTF-8 with so many continuation bytes due, the bits read so far and the range of the
next continuation byte. -/
def decodeFrom : Nat → Nat → Nat → Nat → List Nat → Option Text
  | 0, _, _, _, [] => some []
  | _ + 1, _, _, _, [] => none
  | 0, _, _, _, byte :: rest =>
    if byte < 0x80 then (decodeFrom 0 0 0 0 rest).map (Char.ofNat byte :: ·)
    else if 0xc2 ≤ byte ∧ byte ≤ 0xdf then decodeFrom 1 (byte - 0xc0) 0x80 0xbf rest
    else if byte = 0xe0 then decodeFrom 2 0 0xa0 0xbf rest
    else if byte = 0xed then decodeFrom 2 0xd 0x80 0x9f rest
    else if 0xe1 ≤ byte ∧ byte ≤ 0xef then decodeFrom 2 (byte - 0xe0) 0x80 0xbf rest
    else if byte = 0xf0 then decodeFrom 3 0 0x90 0xbf rest
    else if 0xf1 ≤ byte ∧ byte ≤ 0xf3 then decodeFrom 3 (byte - 0xf0) 0x80 0xbf rest
    else if byte = 0xf4 then decodeFrom 3 4 0x80 0x8f rest
    else none
  | due + 1, value, low, high, byte :: rest =>
    if low ≤ byte ∧ byte ≤ high then
      let value := value * 64 + (byte - 0x80)
      match due with
      | 0 => (decodeFrom 0 0 0 0 rest).map (Char.ofNat value :: ·)
      | due + 1 => decodeFrom (due + 1) value 0x80 0xbf rest
    else none

/-- `bytes.decode()`. -/
def decode (bytes : Text) : Py Text :=
  match decodeFrom 0 0 0 0 (bytes.map Char.toNat) with
  | some text => .ok text
  | none => .error .unicodeDecodeError

/-- ASCII stands for itself. -/
theorem decode_ascii {bytes : Text} (ascii : ∀ c ∈ bytes, c.toNat < 128) :
    decode bytes = .ok bytes := by
  have read : decodeFrom 0 0 0 0 (bytes.map Char.toNat) = some bytes := by
    induction bytes with
    | nil => rfl
    | cons c rest ih =>
      rw [List.forall_mem_cons] at ascii
      rw [List.map_cons, decodeFrom, if_pos ascii.1, ih ascii.2, Char.ofNat_toNat]
      rfl
  rw [decode, read]

/-- `str.encode()`. -/
def encode (text : Text) : List Nat :=
  text.flatMap fun c => (String.utf8EncodeChar c).map UInt8.toNat

/-! ## Reading numbers -/

/-- White space around a literal is ignored. -/
def strip (text : Text) : Text := (text.dropWhile isSpace).rdropWhile isSpace

/-- Decimal digits, at least one. -/
def readNatural (digits : Text) : Option Nat :=
  if digits = [] then none else readDigits 10 0 digits

/-- A decimal literal with an optional sign. -/
def readInt (text : Text) : Option Int :=
  match strip text with
  | '-' :: digits => Option.map (fun magnitude : Nat => -(magnitude : Int)) (readNatural digits)
  | '+' :: digits => Option.map (fun magnitude : Nat => (magnitude : Int)) (readNatural digits)
  | digits => Option.map (fun magnitude : Nat => (magnitude : Int)) (readNatural digits)

/-- `inf`. -/
def infinity : Float := .ofModel (.pack (.infinity .positive))

/-- `nan`. -/
def nan : Float := .ofModel (.pack .notANumber)

/-- A decimal mantissa and exponent, rounded to the nearest float. -/
def scientific (mantissa : Nat) (exponent : Int) : Float :=
  if 0 ≤ exponent then Float.ofScientific mantissa false exponent.toNat
  else Float.ofScientific mantissa true (-exponent).toNat

/-- The exponent of a literal. -/
def readExponent : Text → Option Int
  | [] => some 0
  | mark :: text =>
    if mark = 'e' ∨ mark = 'E' then
      match text with
      | '-' :: digits => Option.map (fun magnitude : Nat => -(magnitude : Int)) (readNatural digits)
      | '+' :: digits => Option.map (fun magnitude : Nat => (magnitude : Int)) (readNatural digits)
      | digits => Option.map (fun magnitude : Nat => (magnitude : Int)) (readNatural digits)
    else none

/-- The digits after a decimal point, and what follows. -/
def readFraction : Text → Text × Text
  | '.' :: rest => (rest.takeWhile Char.isDigit, rest.dropWhile Char.isDigit)
  | tail => ([], tail)

/-- A decimal literal with an optional fraction and exponent. -/
def readDecimal (text : Text) : Option Float :=
  let whole := text.takeWhile Char.isDigit
  let (fraction, tail) := readFraction (text.dropWhile Char.isDigit)
  if whole = [] ∧ fraction = [] then none
  else
    (readExponent tail).map fun exponent =>
      scientific (Nat.ofDigitChars 10 (whole ++ fraction) 0) (exponent - fraction.length)

/-- A float literal without its sign. -/
def readUnsigned (text : Text) : Option Float :=
  let word := Text.toLower text
  if word = "inf".toList ∨ word = "infinity".toList then some infinity
  else if word = "nan".toList then some nan
  else readDecimal text

/-- A float literal. -/
def readFloat (text : Text) : Option Float :=
  match strip text with
  | '-' :: rest => (readUnsigned rest).map fun value => -value
  | '+' :: rest => readUnsigned rest
  | rest => readUnsigned rest

/-- Raises when a literal is not one. -/
def orValueError {α : Type} (read : Option α) : Py α :=
  match read with
  | some value => .ok value
  | none => .error .valueError

section Reading
variable (runtime : Runtime)

/-- Digits and spaces beyond ASCII count as the ASCII ones. -/
def Runtime.transform (text : Text) : Text :=
  if text.all fun c => decide (c.toNat < 128) then text
  else text.map fun c =>
    if c.toNat < 127 then c
    else if runtime.isSpace c then ' '
    else
      match runtime.decimal c with
      | some digit => Nat.digitChar digit
      | none => '?'

/-- `int(bytes)`. -/
def intOfBytes (bytes : Text) : Py Int := orValueError (readInt bytes)

/-- `float(bytes)`. -/
def floatOfBytes (bytes : Text) : Py Float := orValueError (readFloat bytes)

/-- `int(bytes.decode())`. -/
def Runtime.int (bytes : Text) : Py Int := do
  let text ← decode bytes
  orValueError (readInt (runtime.transform text))

/-- `float(bytes.decode())`. -/
def Runtime.float (bytes : Text) : Py Float := do
  let text ← decode bytes
  orValueError (readFloat (runtime.transform text))

end Reading

/-! ## A byte string that is a literal is its own text -/

/-- What is not dropped from the front stays. -/
theorem mem_dropWhile {text : Text} {drops : Char → Bool} {c : Char} (listed : c ∈ text)
    (keeps : drops c = false) : c ∈ text.dropWhile drops := by
  induction text with
  | nil => exact absurd listed (List.not_mem_nil)
  | cons head rest ih =>
    rw [List.dropWhile_cons]
    split
    · rename_i dropped
      apply ih
      rcases List.mem_cons.mp listed with same | later
      · rw [← same, keeps] at dropped
        exact absurd dropped (by decide)
      · exact later
    · exact listed

/-- The stripped characters are ASCII. -/
theorem strip_ascii {text : Text} (ascii : ∀ c ∈ strip text, c.toNat < 128) :
    ∀ c ∈ text, c.toNat < 128 := by
  intro c listed
  by_cases space : isSpace c = true
  · simp only [isSpace, List.contains_iff_mem] at space
    have small : ∀ c ∈ [' ', '\t', '\n', '\x0b', '\x0c', '\r'], c.toNat < 128 := by simp
    exact small c space
  · have plain : isSpace c = false := Bool.eq_false_iff.mpr space
    apply ascii
    rw [strip, List.rdropWhile, List.mem_reverse]
    exact mem_dropWhile (List.mem_reverse.mpr (mem_dropWhile listed plain)) plain

/-- Decimal digits are ASCII. -/
theorem readNatural_ascii {digits : Text} {value : Nat} (read : readNatural digits = some value) :
    ∀ c ∈ digits, c.toNat < 128 := by
  unfold readNatural at read
  split at read
  · contradiction
  · intro c listed
    exact Text.isNumeralChar_small (readDigits_chars read c listed)

/-- An integer literal is ASCII. -/
theorem readInt_ascii {text : Text} {value : Int} (read : readInt text = some value) :
    ∀ c ∈ text, c.toNat < 128 := by
  apply strip_ascii
  unfold readInt at read
  split at read
  · rename_i stripped
    have ⟨magnitude, digits, _⟩ := Option.map_eq_some_iff.mp read
    rw [stripped]
    exact List.forall_mem_cons.mpr ⟨by decide, readNatural_ascii digits⟩
  · rename_i stripped
    have ⟨magnitude, digits, _⟩ := Option.map_eq_some_iff.mp read
    rw [stripped]
    exact List.forall_mem_cons.mpr ⟨by decide, readNatural_ascii digits⟩
  · have ⟨magnitude, digits, _⟩ := Option.map_eq_some_iff.mp read
    exact readNatural_ascii digits

/-- A letter that is ASCII in lower case is ASCII. -/
theorem toLower_ascii {text : Text} (ascii : ∀ c ∈ Text.toLower text, c.toNat < 128) :
    ∀ c ∈ text, c.toNat < 128 := by
  intro c listed
  have lower := ascii c.toLower (List.mem_map_of_mem listed)
  by_cases upper : c.toLower = c
  · rwa [upper] at lower
  · unfold Char.toLower at upper
    split at upper
    · rename_i capital
      have bound := capital.2
      change c.val.toNat ≤ 90 at bound
      change c.val.toNat < 128
      omega
    · exact absurd rfl upper

/-- Digits are ASCII. -/
theorem isDigit_ascii {c : Char} (digit : c.isDigit = true) : c.toNat < 128 := by
  have bounds := digitValue_of_isDigit digit
  have zero : '0'.toNat = 48 := rfl
  omega

/-- An exponent is ASCII. -/
theorem readExponent_ascii {text : Text} {value : Int} (read : readExponent text = some value) :
    ∀ c ∈ text, c.toNat < 128 := by
  unfold readExponent at read
  split at read
  · intro c listed
    exact absurd listed List.not_mem_nil
  · split at read
    · rename_i mark rest marked
      have small : mark.toNat < 128 := by
        rcases marked with rfl | rfl <;> decide
      refine List.forall_mem_cons.mpr ⟨small, ?_⟩
      split at read
      all_goals
        have ⟨magnitude, digits, _⟩ := Option.map_eq_some_iff.mp read
      · exact List.forall_mem_cons.mpr ⟨by decide, readNatural_ascii digits⟩
      · exact List.forall_mem_cons.mpr ⟨by decide, readNatural_ascii digits⟩
      · exact readNatural_ascii digits
    · contradiction

/-- A text of digits followed by ASCII is ASCII. -/
theorem ascii_of_dropWhile {text : Text}
    (ascii : ∀ c ∈ text.dropWhile Char.isDigit, c.toNat < 128) : ∀ c ∈ text, c.toNat < 128 := by
  intro c listed
  by_cases digit : c.isDigit = true
  · exact isDigit_ascii digit
  · exact ascii c (mem_dropWhile listed (Bool.eq_false_iff.mpr digit))

/-- A fraction followed by ASCII is ASCII. -/
theorem readFraction_ascii {text : Text} (ascii : ∀ c ∈ (readFraction text).2, c.toNat < 128) :
    ∀ c ∈ text, c.toNat < 128 := by
  unfold readFraction at ascii
  split at ascii
  · exact List.forall_mem_cons.mpr ⟨by decide, ascii_of_dropWhile ascii⟩
  · exact ascii

/-- A decimal literal is ASCII. -/
theorem readDecimal_ascii {text : Text} {value : Float} (read : readDecimal text = some value) :
    ∀ c ∈ text, c.toNat < 128 := by
  apply ascii_of_dropWhile
  apply readFraction_ascii
  unfold readDecimal at read
  dsimp only at read
  split at read
  · contradiction
  · have ⟨exponent, found, _⟩ := Option.map_eq_some_iff.mp read
    exact readExponent_ascii found

/-- A float literal without its sign is ASCII. -/
theorem readUnsigned_ascii {text : Text} {value : Float} (read : readUnsigned text = some value) :
    ∀ c ∈ text, c.toNat < 128 := by
  unfold readUnsigned at read
  dsimp only at read
  split at read
  · rename_i word
    apply toLower_ascii
    rcases word with word | word <;> rw [word] <;> simp
  · split at read
    · rename_i word
      apply toLower_ascii
      rw [word]
      simp
    · exact readDecimal_ascii read

/-- A float literal is ASCII. -/
theorem readFloat_ascii {text : Text} {value : Float} (read : readFloat text = some value) :
    ∀ c ∈ text, c.toNat < 128 := by
  apply strip_ascii
  unfold readFloat at read
  split at read
  · rename_i stripped
    have ⟨magnitude, unsigned, _⟩ := Option.map_eq_some_iff.mp read
    rw [stripped]
    exact List.forall_mem_cons.mpr ⟨by decide, readUnsigned_ascii unsigned⟩
  · rename_i stripped
    rw [stripped]
    exact List.forall_mem_cons.mpr ⟨by decide, readUnsigned_ascii read⟩
  · exact readUnsigned_ascii read

section Agreement
variable {runtime : Runtime} {bytes : Text}

/-- ASCII is its own text. -/
theorem Runtime.transform_ascii (ascii : ∀ c ∈ bytes, c.toNat < 128) :
    runtime.transform bytes = bytes := by
  rw [transform, if_pos]
  exact List.all_eq_true.mpr fun c listed => decide_eq_true (ascii c listed)

/-- A literal was read. -/
theorem orValueError_ok {α : Type} {read : Option α} {value : α} :
    orValueError read = .ok value ↔ read = some value := by
  cases read <;> simp [orValueError]

/-- What `int` reads of the bytes it reads of their text. -/
theorem Runtime.int_of_bytes {value : Int} (read : intOfBytes bytes = .ok value) :
    runtime.int bytes = .ok value := by
  have ascii := readInt_ascii (orValueError_ok.mp read)
  apply bind_ok.mpr
  refine ⟨bytes, decode_ascii ascii, ?_⟩
  rw [transform_ascii ascii]
  exact read

/-- What `float` reads of the bytes it reads of their text. -/
theorem Runtime.float_of_bytes {value : Float} (read : floatOfBytes bytes = .ok value) :
    runtime.float bytes = .ok value := by
  have ascii := readFloat_ascii (orValueError_ok.mp read)
  apply bind_ok.mpr
  refine ⟨bytes, decode_ascii ascii, ?_⟩
  rw [transform_ascii ascii]
  exact read

end Agreement

/-! ## Written integers are read back -/

/-- An integer is written with a sign and digits. -/
theorem toText_chars {value : Int} {c : Char} (listed : c ∈ toText value) :
    c = '-' ∨ c.isDigit = true := by
  have digits : c ∈ Nat.toDigits 10 value.natAbs → c.isDigit = true :=
    Nat.isDigit_of_mem_toDigits (by decide) (by decide)
  unfold toText at listed
  split at listed
  · rcases List.mem_cons.mp listed with sign | digit
    · exact .inl sign
    · exact .inr (digits digit)
  · exact .inr (digits listed)

/-- What has no white space is not stripped. -/
theorem strip_eq_self {text : Text} (plain : ∀ c ∈ text, isSpace c = false) :
    strip text = text := by
  have front : text.dropWhile isSpace = text := by
    apply List.dropWhile_eq_self_iff.mpr
    intro length
    rw [plain _ (List.getElem_mem length)]
    exact Bool.false_ne_true
  rw [strip, front]
  apply List.rdropWhile_eq_self_iff.mpr
  intro filled
  rw [plain _ (List.getLast_mem filled)]
  exact Bool.false_ne_true

/-- The digits of a number are read back. -/
theorem readNatural_toDigits (value : Nat) :
    readNatural (Nat.toDigits 10 value) = some value := by
  have decimal : ∀ c ∈ Nat.toDigits 10 value, c.isDigit = true :=
    fun c listed => Nat.isDigit_of_mem_toDigits (by decide) (by decide) listed
  rw [readNatural, if_neg Nat.toDigits_ne_nil, readDigits_ten _ decimal,
    Nat.ofDigitChars_ten_toDigits]

/-- A written integer is read back. -/
theorem readInt_toText (value : Int) : readInt (toText value) = some value := by
  have plain : ∀ c ∈ toText value, isSpace c = false := by
    intro c listed
    rcases toText_chars listed with sign | digit
    · rw [sign]
      rfl
    · by_contra space
      simp only [isSpace, Bool.not_eq_false, List.contains_iff_mem] at space
      have table : ∀ c ∈ [' ', '\t', '\n', '\x0b', '\x0c', '\r'], c.isDigit = false := by
        simp
      rw [table c space] at digit
      contradiction
  have stripped := strip_eq_self plain
  unfold readInt
  rw [stripped]
  unfold toText
  by_cases negative : value < 0
  · rw [if_pos negative]
    change Option.map _ (readNatural (Nat.toDigits 10 value.natAbs)) = _
    rw [readNatural_toDigits, Option.map_some, Option.some_inj]
    omega
  · rw [if_neg negative]
    have first (c : Char) (rest : Text) (digits : Nat.toDigits 10 value.natAbs = c :: rest) :
        c.isDigit = true :=
      Nat.isDigit_of_mem_toDigits (by decide) (by decide) (digits ▸ List.mem_cons_self)
    split
    · rename_i digits
      exact absurd (first _ _ digits) (by decide)
    · rename_i digits
      exact absurd (first _ _ digits) (by decide)
    · rw [readNatural_toDigits, Option.map_some, Option.some_inj]
      omega

/-- A written integer is one part of a split. -/
theorem toText_unsplit (value : Int) : ':' ∉ toText value := by
  intro listed
  rcases toText_chars listed with sign | digit
  · exact absurd sign (by decide)
  · exact absurd digit (by decide)

/-! ## Numbers -/

/-- A Python number: an integer or a float. -/
inductive Number where
  | int (value : Int)
  | float (value : Float)

/-- The float of an integer. -/
def floatOfInt (value : Int) : Py Float :=
  if (Float.ofInt value).isInf then .error .overflowError else .ok (Float.ofInt value)

/-- `value / 2` of an integer, rounded once. -/
def half (value : Int) : Py Float :=
  let magnitude := Float.ofScientific (5 * value.natAbs) true 1
  if magnitude.isInf then .error .overflowError
  else .ok (if value < 0 then -magnitude else magnitude)

/-- `2 ** exponent`. -/
def twoPow (exponent : Int) : Py Number :=
  if 0 ≤ exponent then .ok (.int (2 ^ exponent.toNat))
  else do
    let _ ← floatOfInt exponent
    return .float (Lib.Binary64.twoPowNeg (-exponent).toNat)

/-- `left + right`. -/
def Number.add : Number → Number → Py Number
  | .int left, .int right => .ok (.int (left + right))
  | .int left, .float right => do return .float ((← floatOfInt left) + right)
  | .float left, .int right => do return .float (left + (← floatOfInt right))
  | .float left, .float right => .ok (.float (left + right))

/-- `left < right`. -/
def Number.lt : Number → Number → Bool
  | .int left, .int right => decide (left < right)
  | .int left, .float right => Lib.Binary64.intLt left right
  | .float left, .int right => Lib.Binary64.ltInt left right
  | .float left, .float right => decide (left < right)

/-- `left == right`. -/
def Number.eq : Number → Number → Bool
  | .int left, .int right => decide (left = right)
  | .float left, .float right => left == right
  | .int left, .float right | .float right, .int left =>
    !Lib.Binary64.intLt left right && !Lib.Binary64.ltInt right left && !right.isNaN

end Creditcoin.PoW
