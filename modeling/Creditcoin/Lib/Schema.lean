import Creditcoin.Lib.Wire

/-!
# Messages read through a schema

A schema lists the numbers a message type knows, by wire type. Reading a message through a
schema takes the last field of each known number, gives an absent field its default, and
keeps every other field aside, to be written back behind the known ones. The rules here say
what each number reads as in a written message, so a message type is verified without
looking at its bytes.
-/

namespace Lib.Wire

/-! ## Reading one number -/

/-- The last text of a number, starting from a default. -/
def textFrom (number : Nat) : List Char → List Field → List Char
  | found, [] => found
  | found, ⟨other, .text value⟩ :: fields =>
    textFrom number (if other = number then value else found) fields
  | found, ⟨_, .varint _⟩ :: fields => textFrom number found fields
  | found, ⟨_, .fixed64 _⟩ :: fields => textFrom number found fields
  | found, ⟨_, .fixed32 _⟩ :: fields => textFrom number found fields

/-- The last text of a number, empty when there is none. -/
def textAt (number : Nat) (fields : List Field) : List Char := textFrom number [] fields

/-- The last number of a number, starting from a default. -/
def varintFrom (number : Nat) : UInt64 → List Field → UInt64
  | found, [] => found
  | found, ⟨other, .varint value⟩ :: fields =>
    varintFrom number (if other = number then value else found) fields
  | found, ⟨_, .text _⟩ :: fields => varintFrom number found fields
  | found, ⟨_, .fixed64 _⟩ :: fields => varintFrom number found fields
  | found, ⟨_, .fixed32 _⟩ :: fields => varintFrom number found fields

/-- The last number of a number, zero when there is none. -/
def varintAt (number : Nat) (fields : List Field) : UInt64 := varintFrom number 0 fields

/-- Reading a concatenation continues with what the first part left. -/
theorem textFrom_append (number : Nat) (found : List Char) (left right : List Field) :
    textFrom number found (left ++ right) = textFrom number (textFrom number found left) right := by
  induction left generalizing found with
  | nil => rfl
  | cons field left ih =>
    obtain ⟨other, payload⟩ := field
    cases payload <;> exact ih _

/-- Reading a concatenation continues with what the first part left. -/
theorem varintFrom_append (number : Nat) (found : UInt64) (left right : List Field) :
    varintFrom number found (left ++ right) =
      varintFrom number (varintFrom number found left) right := by
  induction left generalizing found with
  | nil => rfl
  | cons field left ih =>
    obtain ⟨other, payload⟩ := field
    cases payload <;> exact ih _

/-- Fields without a text of a number leave the text found so far. -/
theorem textFrom_of_absent {number : Nat} {fields : List Field}
    (absent : ∀ value, ⟨number, .text value⟩ ∉ fields) (found : List Char) :
    textFrom number found fields = found := by
  induction fields generalizing found with
  | nil => rfl
  | cons field fields ih =>
    have later : ∀ value, ⟨number, .text value⟩ ∉ fields :=
      fun value member => absent value (List.mem_cons_of_mem _ member)
    obtain ⟨other, payload⟩ := field
    cases payload with
    | text value =>
      have different : other ≠ number := by
        rintro rfl
        exact absent value List.mem_cons_self
      rw [textFrom, if_neg different]
      exact ih later found
    | varint value => exact ih later found
    | fixed64 bytes => exact ih later found
    | fixed32 bytes => exact ih later found

/-- Fields without a number of a number leave the number found so far. -/
theorem varintFrom_of_absent {number : Nat} {fields : List Field}
    (absent : ∀ value, ⟨number, .varint value⟩ ∉ fields) (found : UInt64) :
    varintFrom number found fields = found := by
  induction fields generalizing found with
  | nil => rfl
  | cons field fields ih =>
    have later : ∀ value, ⟨number, .varint value⟩ ∉ fields :=
      fun value member => absent value (List.mem_cons_of_mem _ member)
    obtain ⟨other, payload⟩ := field
    cases payload with
    | varint value =>
      have different : other ≠ number := by
        rintro rfl
        exact absent value List.mem_cons_self
      rw [varintFrom, if_neg different]
      exact ih later found
    | text value => exact ih later found
    | fixed64 bytes => exact ih later found
    | fixed32 bytes => exact ih later found

/-- A nonempty text was written by some field. -/
theorem textAt_mem {number : Nat} {fields : List Field} (present : textAt number fields ≠ []) :
    ∃ value, ⟨number, .text value⟩ ∈ fields := by
  by_contra none
  exact present (textFrom_of_absent (fun value member => none ⟨value, member⟩) [])

/-! ## Writing one number -/

/-- A text field, left out when it has the default value. -/
def optText (number : Nat) (value : List Char) : List Field :=
  if value = [] then [] else [⟨number, .text value⟩]

/-- A number field, left out when it has the default value. -/
def optVarint (number : Nat) (value : UInt64) : List Field :=
  if value = 0 then [] else [⟨number, .varint value⟩]

/-- A written text is read back under its own number only. -/
theorem textFrom_optText (number other : Nat) (found value : List Char) :
    textFrom number found (optText other value) =
      if other = number ∧ value ≠ [] then value else found := by
  by_cases empty : value = []
  · simp [optText, empty, textFrom]
  · simp [optText, empty, textFrom]

/-- A written number is no text. -/
@[simp] theorem textFrom_optVarint (number other : Nat) (found : List Char) (value : UInt64) :
    textFrom number found (optVarint other value) = found := by
  by_cases zero : value = 0
  · simp [optVarint, zero, textFrom]
  · simp [optVarint, zero, textFrom]

/-- A written number is read back under its own number only. -/
theorem varintFrom_optVarint (number other : Nat) (found value : UInt64) :
    varintFrom number found (optVarint other value) =
      if other = number ∧ value ≠ 0 then value else found := by
  by_cases zero : value = 0
  · simp [optVarint, zero, varintFrom]
  · simp [optVarint, zero, varintFrom]

/-- A written text is no number. -/
@[simp] theorem varintFrom_optText (number other : Nat) (found : UInt64) (value : List Char) :
    varintFrom number found (optText other value) = found := by
  by_cases empty : value = []
  · simp [optText, empty, varintFrom]
  · simp [optText, empty, varintFrom]

/-- The text under its own number, over the default. -/
@[simp] theorem textFrom_optText_self (number : Nat) (value : List Char) :
    textFrom number [] (optText number value) = value := by
  by_cases empty : value = []
  · simp [textFrom_optText, empty]
  · simp [textFrom_optText, empty]

/-- The number under its own number, over the default. -/
@[simp] theorem varintFrom_optVarint_self (number : Nat) (value : UInt64) :
    varintFrom number 0 (optVarint number value) = value := by
  by_cases zero : value = 0
  · simp [varintFrom_optVarint, zero]
  · simp [varintFrom_optVarint, zero]

/-- A text under another number is passed over. -/
theorem textFrom_optText_ne {number other : Nat} (different : other ≠ number)
    (found value : List Char) : textFrom number found (optText other value) = found := by
  simp [textFrom_optText, different]

/-- A number under another number is passed over. -/
theorem varintFrom_optVarint_ne {number other : Nat} (different : other ≠ number)
    (found value : UInt64) : varintFrom number found (optVarint other value) = found := by
  simp [varintFrom_optVarint, different]

/-! ## Schemas -/

/-- The numbers a message type knows. -/
structure Schema where
  /-- Numbers of text fields. -/
  texts : List Nat
  /-- Numbers of number fields. -/
  varints : List Nat

/-- A field the message type reads. -/
def Schema.knows (schema : Schema) (field : Field) : Bool :=
  match field.payload with
  | .text _ => schema.texts.contains field.number
  | .varint _ => schema.varints.contains field.number
  | .fixed64 _ => false
  | .fixed32 _ => false

/-- Fields a message type carries without reading them. -/
def Schema.Unknown (schema : Schema) : Type :=
  { fields : List Field // ∀ field ∈ fields, field.WellFormed ∧ schema.knows field = false }

instance (schema : Schema) : DecidableEq schema.Unknown :=
  inferInstanceAs (DecidableEq { _fields : List Field // _ })

instance (schema : Schema) : Inhabited schema.Unknown := ⟨⟨[], by simp⟩⟩

/-- No unknown fields. -/
def Schema.noUnknown (schema : Schema) : schema.Unknown := ⟨[], by simp⟩

/-- The fields of a message that its type does not read, in order. -/
def Schema.unknown (schema : Schema) (input : List Char) : schema.Unknown :=
  ⟨(decode input).filter (fun field => !schema.knows field), by
    intro field member
    rw [List.mem_filter] at member
    exact ⟨decode_wellFormed input field member.1, by simpa using member.2⟩⟩

section Rules

variable {schema : Schema}

/-- Unknown fields hold no text of a known number. -/
theorem Schema.Unknown.text_absent (kept : schema.Unknown) {number : Nat}
    (known : number ∈ schema.texts) (value : List Char) : ⟨number, .text value⟩ ∉ kept.val := by
  intro member
  have unread := (kept.property _ member).2
  simp [Schema.knows, known] at unread

/-- Unknown fields hold no number of a known number. -/
theorem Schema.Unknown.varint_absent (kept : schema.Unknown) {number : Nat}
    (known : number ∈ schema.varints) (value : UInt64) :
    ⟨number, .varint value⟩ ∉ kept.val := by
  intro member
  have unread := (kept.property _ member).2
  simp [Schema.knows, known] at unread

/-- Unknown fields do not change the text of a known number. -/
theorem Schema.Unknown.textFrom_known (kept : schema.Unknown) {number : Nat}
    (known : number ∈ schema.texts) (found : List Char) :
    textFrom number found kept.val = found :=
  textFrom_of_absent (kept.text_absent known) found

/-- Unknown fields do not change the number of a known number. -/
theorem Schema.Unknown.varintFrom_known (kept : schema.Unknown) {number : Nat}
    (known : number ∈ schema.varints) (found : UInt64) :
    varintFrom number found kept.val = found :=
  varintFrom_of_absent (kept.varint_absent known) found

/-- Dropping the fields of other numbers keeps the text of a number. -/
theorem textFrom_filter {number : Nat} (keep : Field → Bool)
    (kept : ∀ value, keep ⟨number, .text value⟩ = true) (fields : List Field)
    (found : List Char) : textFrom number found (fields.filter keep) =
      textFrom number found fields := by
  induction fields generalizing found with
  | nil => rfl
  | cons field fields ih =>
    obtain ⟨other, payload⟩ := field
    cases payload with
    | text value =>
      by_cases same : other = number
      · subst same
        rw [List.filter_cons_of_pos (kept value)]
        exact ih _
      · by_cases stays : keep ⟨other, .text value⟩ = true
        · rw [List.filter_cons_of_pos stays]
          exact ih _
        · rw [List.filter_cons_of_neg stays, ih, textFrom, if_neg same]
    | varint value =>
      by_cases stays : keep ⟨other, .varint value⟩ = true
      · rw [List.filter_cons_of_pos stays]
        exact ih _
      · rw [List.filter_cons_of_neg stays]
        exact ih _
    | fixed64 bytes =>
      by_cases stays : keep ⟨other, .fixed64 bytes⟩ = true
      · rw [List.filter_cons_of_pos stays]
        exact ih _
      · rw [List.filter_cons_of_neg stays]
        exact ih _
    | fixed32 bytes =>
      by_cases stays : keep ⟨other, .fixed32 bytes⟩ = true
      · rw [List.filter_cons_of_pos stays]
        exact ih _
      · rw [List.filter_cons_of_neg stays]
        exact ih _

/-- The unknown fields of a message hold its texts of unknown numbers. -/
theorem Schema.textAt_unknown {number : Nat} (unread : number ∉ schema.texts)
    (input : List Char) : textAt number (schema.unknown input).val = textAt number (decode input) :=
  textFrom_filter _ (by intro value; simp [Schema.knows, unread]) _ _

/-- A written text of a known number is known. -/
theorem Schema.filter_optText {number : Nat} (known : number ∈ schema.texts) (value : List Char) :
    (optText number value).filter (fun field => !schema.knows field) = [] := by
  by_cases empty : value = []
  · simp [optText, empty]
  · simp [optText, empty, Schema.knows, known]

/-- A written number of a known number is known. -/
theorem Schema.filter_optVarint {number : Nat} (known : number ∈ schema.varints)
    (value : UInt64) :
    (optVarint number value).filter (fun field => !schema.knows field) = [] := by
  by_cases zero : value = 0
  · simp [optVarint, zero]
  · simp [optVarint, zero, Schema.knows, known]

/-- Unknown fields stay unknown. -/
theorem Schema.filter_unknown (kept : schema.Unknown) :
    kept.val.filter (fun field => !schema.knows field) = kept.val := by
  rw [List.filter_eq_self]
  intro field member
  simp [(kept.property field member).2]

/-- An optional text is well formed when its number is legal. -/
theorem optText_wellFormed {number : Nat} (positive : 0 < number) (value : List Char) :
    ∀ field ∈ optText number value, field.WellFormed := by
  intro field member
  unfold optText at member
  split at member
  · cases member
  · obtain rfl := List.mem_singleton.mp member
    exact ⟨positive, trivial⟩

/-- An optional number is well formed when its number is legal. -/
theorem optVarint_wellFormed {number : Nat} (positive : 0 < number) (value : UInt64) :
    ∀ field ∈ optVarint number value, field.WellFormed := by
  intro field member
  unfold optVarint at member
  split at member
  · cases member
  · obtain rfl := List.mem_singleton.mp member
    exact ⟨positive, trivial⟩

end Rules

/-! ## Writing a message -/

/-- A value a message type writes under one of its numbers. -/
inductive Slot where
  /-- A text. -/
  | text (number : Nat) (value : List Char)
  /-- A number. -/
  | varint (number : Nat) (value : UInt64)

/-- The field of a slot, left out when the value is the default. -/
def Slot.fields : Slot → List Field
  | .text number value => optText number value
  | .varint number value => optVarint number value

/-- The number of a text slot. -/
def Slot.textNumber : Slot → Option Nat
  | .text number _ => some number
  | .varint _ _ => none

/-- The number of a number slot. -/
def Slot.varintNumber : Slot → Option Nat
  | .text _ _ => none
  | .varint number _ => some number

/-- A serialized message: its slots in order, then the fields it carries unread. -/
def Schema.write (schema : Schema) (slots : List Slot) (unknown : schema.Unknown) : List Char :=
  encode (slots.flatMap Slot.fields ++ unknown.val)

/-- Slots that give every number of a schema one value. -/
structure Schema.Fits (schema : Schema) (slots : List Slot) : Prop where
  /-- The text slots are the text numbers. -/
  texts : slots.filterMap Slot.textNumber = schema.texts
  /-- The number slots are the number numbers. -/
  varints : slots.filterMap Slot.varintNumber = schema.varints
  /-- No text number is used twice. -/
  texts_nodup : schema.texts.Nodup
  /-- No number number is used twice. -/
  varints_nodup : schema.varints.Nodup
  /-- Text numbers are legal. -/
  texts_positive : ∀ number ∈ schema.texts, 0 < number
  /-- Number numbers are legal. -/
  varints_positive : ∀ number ∈ schema.varints, 0 < number

/-- A text slot counts among the text numbers. -/
theorem Slot.mem_textNumbers {slots : List Slot} {number : Nat} {value : List Char}
    (member : .text number value ∈ slots) : number ∈ slots.filterMap Slot.textNumber :=
  List.mem_filterMap.mpr ⟨_, member, rfl⟩

/-- A number slot counts among the number numbers. -/
theorem Slot.mem_varintNumbers {slots : List Slot} {number : Nat} {value : UInt64}
    (member : .varint number value ∈ slots) : number ∈ slots.filterMap Slot.varintNumber :=
  List.mem_filterMap.mpr ⟨_, member, rfl⟩

/-- Slots without a text of a number leave the text found so far. -/
theorem textFrom_slots_of_notMem {number : Nat} {slots : List Slot}
    (absent : number ∉ slots.filterMap Slot.textNumber) (found : List Char) :
    textFrom number found (slots.flatMap Slot.fields) = found := by
  induction slots with
  | nil => rfl
  | cons slot slots ih =>
    rw [List.flatMap_cons, textFrom_append]
    cases slot with
    | text other value =>
      change number ∉ other :: slots.filterMap Slot.textNumber at absent
      rw [List.mem_cons, not_or] at absent
      rw [Slot.fields, textFrom_optText_ne (Ne.symm absent.1)]
      exact ih absent.2
    | varint other value =>
      rw [List.filterMap_cons_none rfl] at absent
      rw [Slot.fields, textFrom_optVarint]
      exact ih absent

/-- Slots without a number of a number leave the number found so far. -/
theorem varintFrom_slots_of_notMem {number : Nat} {slots : List Slot}
    (absent : number ∉ slots.filterMap Slot.varintNumber) (found : UInt64) :
    varintFrom number found (slots.flatMap Slot.fields) = found := by
  induction slots with
  | nil => rfl
  | cons slot slots ih =>
    rw [List.flatMap_cons, varintFrom_append]
    cases slot with
    | text other value =>
      rw [List.filterMap_cons_none rfl] at absent
      rw [Slot.fields, varintFrom_optText]
      exact ih absent
    | varint other value =>
      change number ∉ other :: slots.filterMap Slot.varintNumber at absent
      rw [List.mem_cons, not_or] at absent
      rw [Slot.fields, varintFrom_optVarint_ne (Ne.symm absent.1)]
      exact ih absent.2

/-- The text of a slot is read back. -/
theorem textFrom_slots {number : Nat} {value : List Char} {slots : List Slot}
    (distinct : (slots.filterMap Slot.textNumber).Nodup) (member : .text number value ∈ slots) :
    textFrom number [] (slots.flatMap Slot.fields) = value := by
  induction slots with
  | nil => cases member
  | cons slot slots ih =>
    rw [List.flatMap_cons, textFrom_append]
    cases slot with
    | text other first =>
      change (other :: slots.filterMap Slot.textNumber).Nodup at distinct
      rw [List.nodup_cons] at distinct
      rcases List.mem_cons.mp member with same | later
      · cases same
        rw [Slot.fields, textFrom_optText_self]
        exact textFrom_slots_of_notMem distinct.1 _
      · have different : other ≠ number := by
          rintro rfl
          exact distinct.1 (Slot.mem_textNumbers later)
        rw [Slot.fields, textFrom_optText_ne different]
        exact ih distinct.2 later
    | varint other first =>
      rw [List.filterMap_cons_none rfl] at distinct
      rcases List.mem_cons.mp member with same | later
      · cases same
      · rw [Slot.fields, textFrom_optVarint]
        exact ih distinct later

/-- The number of a slot is read back. -/
theorem varintFrom_slots {number : Nat} {value : UInt64} {slots : List Slot}
    (distinct : (slots.filterMap Slot.varintNumber).Nodup)
    (member : .varint number value ∈ slots) :
    varintFrom number 0 (slots.flatMap Slot.fields) = value := by
  induction slots with
  | nil => cases member
  | cons slot slots ih =>
    rw [List.flatMap_cons, varintFrom_append]
    cases slot with
    | text other first =>
      rw [List.filterMap_cons_none rfl] at distinct
      rcases List.mem_cons.mp member with same | later
      · cases same
      · rw [Slot.fields, varintFrom_optText]
        exact ih distinct later
    | varint other first =>
      change (other :: slots.filterMap Slot.varintNumber).Nodup at distinct
      rw [List.nodup_cons] at distinct
      rcases List.mem_cons.mp member with same | later
      · cases same
        rw [Slot.fields, varintFrom_optVarint_self]
        exact varintFrom_slots_of_notMem distinct.1 _
      · have different : other ≠ number := by
          rintro rfl
          exact distinct.1 (Slot.mem_varintNumbers later)
        rw [Slot.fields, varintFrom_optVarint_ne different]
        exact ih distinct.2 later

namespace Schema.Fits

variable {schema : Schema} {slots : List Slot}

/-- Every written field is legal. -/
theorem wellFormed (fits : schema.Fits slots) (unknown : schema.Unknown) :
    ∀ field ∈ slots.flatMap Slot.fields ++ unknown.val, field.WellFormed := by
  intro field member
  rcases List.mem_append.mp member with member | member
  · obtain ⟨slot, listed, member⟩ := List.mem_flatMap.mp member
    cases slot with
    | text number value =>
      have known : number ∈ schema.texts := fits.texts ▸ Slot.mem_textNumbers listed
      exact optText_wellFormed (fits.texts_positive _ known) _ _ member
    | varint number value =>
      have known : number ∈ schema.varints := fits.varints ▸ Slot.mem_varintNumbers listed
      exact optVarint_wellFormed (fits.varints_positive _ known) _ _ member
  · exact (unknown.property field member).1

/-- A serialized message is read back field by field. -/
theorem decode_write (fits : schema.Fits slots) (unknown : schema.Unknown) :
    decode (schema.write slots unknown) = slots.flatMap Slot.fields ++ unknown.val :=
  decode_encode _ (fits.wellFormed unknown)

/-- The text of a slot is read back from the serialized message. -/
theorem textAt_write (fits : schema.Fits slots) (unknown : schema.Unknown) {number : Nat}
    {value : List Char} (member : .text number value ∈ slots) :
    textAt number (decode (schema.write slots unknown)) = value := by
  have known : number ∈ schema.texts := fits.texts ▸ Slot.mem_textNumbers member
  rw [fits.decode_write, textAt, textFrom_append,
    textFrom_slots (fits.texts ▸ fits.texts_nodup) member, unknown.textFrom_known known]

/-- The number of a slot is read back from the serialized message. -/
theorem varintAt_write (fits : schema.Fits slots) (unknown : schema.Unknown) {number : Nat}
    {value : UInt64} (member : .varint number value ∈ slots) :
    varintAt number (decode (schema.write slots unknown)) = value := by
  have known : number ∈ schema.varints := fits.varints ▸ Slot.mem_varintNumbers member
  rw [fits.decode_write, varintAt, varintFrom_append,
    varintFrom_slots (fits.varints ▸ fits.varints_nodup) member, unknown.varintFrom_known known]

/-- A text of an unread number is the one the message carried. -/
theorem textAt_write_unread (fits : schema.Fits slots) (unknown : schema.Unknown) {number : Nat}
    (unread : number ∉ schema.texts) :
    textAt number (decode (schema.write slots unknown)) = textAt number unknown.val := by
  rw [fits.decode_write, textAt, textFrom_append,
    textFrom_slots_of_notMem (by rw [fits.texts]; exact unread), textAt]

/-- The unread fields are carried through. -/
theorem unknown_write (fits : schema.Fits slots) (unknown : schema.Unknown) :
    schema.unknown (schema.write slots unknown) = unknown := by
  apply Subtype.ext
  change (decode _).filter _ = _
  rw [fits.decode_write, List.filter_append, Schema.filter_unknown]
  have none : (slots.flatMap Slot.fields).filter (fun field => !schema.knows field) = [] := by
    rw [List.filter_eq_nil_iff]
    intro field member
    obtain ⟨slot, listed, member⟩ := List.mem_flatMap.mp member
    cases slot with
    | text number value =>
      have known : number ∈ schema.texts := fits.texts ▸ Slot.mem_textNumbers listed
      have gone := Schema.filter_optText known value
      exact List.filter_eq_nil_iff.mp gone field member
    | varint number value =>
      have known : number ∈ schema.varints := fits.varints ▸ Slot.mem_varintNumbers listed
      have gone := Schema.filter_optVarint known value
      exact List.filter_eq_nil_iff.mp gone field member
  rw [none, List.nil_append]

end Schema.Fits

/-! ## Plain text read as a message -/

/-- A number written without marked digits is one character. -/
theorem decodeVarint_of_unmarked {input rest : List Char} {value : Nat}
    (unmarked : ∀ digit ∈ input, digit.toNat < 128)
    (read : decodeVarint input = some (value, rest)) :
    ∃ digit, input = digit :: rest ∧ digit.toNat = value := by
  cases input with
  | nil => cases read
  | cons digit input =>
    have small := unmarked digit List.mem_cons_self
    simp only [decodeVarint, small, if_true, Option.some.injEq, Prod.mk.injEq] at read
    exact ⟨digit, by rw [read.2], read.1⟩

/-- In an input without marked digits, the tag of a text field is a character of the input. -/
theorem decodeInto_text_tag (fuel : Nat) (opened : List Nat) (input : List Char)
    (unmarked : ∀ digit ∈ input, digit.toNat < 128) {number : Nat} {value : List Char}
    (member : ⟨number, .text value⟩ ∈ decodeInto fuel opened input) :
    ∃ digit ∈ input, digit.toNat = number * 8 + 2 := by
  induction fuel generalizing opened input with
  | zero => cases member
  | succ fuel ih =>
    unfold decodeInto at member
    split at member
    · cases member
    · rename_i tag rest readTag
      obtain ⟨first, rfl, code⟩ := decodeVarint_of_unmarked unmarked readTag
      have restUnmarked : ∀ digit ∈ rest, digit.toNat < 128 :=
        fun digit listed => unmarked digit (List.mem_cons_of_mem _ listed)
      have later (opened : List Nat) (suffix : List Char) (inside : suffix ⊆ rest)
          (found : ⟨number, .text value⟩ ∈ decodeInto fuel opened suffix) :
          ∃ digit ∈ first :: rest, digit.toNat = number * 8 + 2 := by
        obtain ⟨digit, listed, tagged⟩ :=
          ih opened suffix (fun digit listed => restUnmarked digit (inside listed)) found
        exact ⟨digit, List.mem_cons_of_mem _ (inside listed), tagged⟩
      split at member
      · cases member
      · split at member
        · split at member
          · cases member
          · rename_i payload suffix readPayload
            obtain ⟨digit, rfl, _⟩ := decodeVarint_of_unmarked restUnmarked readPayload
            rcases mem_emit member with same | member
            · cases same
            · exact later opened suffix (List.subset_cons_self _ _) member
        · split at member
          · cases member
          · rcases mem_emit member with same | member
            · cases same
            · exact later opened _ (List.drop_subset _ _) member
        · rename_i textTag
          have tagged : first.toNat = tag / 8 * 8 + 2 := by omega
          split at member
          · cases member
          · rename_i length suffix readLength
            obtain ⟨digit, rfl, _⟩ := decodeVarint_of_unmarked restUnmarked readLength
            split at member
            · rcases mem_emit member with same | member
              · cases same
                exact ⟨first, List.mem_cons_self, tagged⟩
              · cases member
            · rcases mem_emit member with same | member
              · cases same
                exact ⟨first, List.mem_cons_self, tagged⟩
              · exact later opened _
                  (fun _ listed => List.mem_cons_of_mem _ (List.drop_subset _ _ listed)) member
        · split at member
          · exact later _ rest (List.Subset.refl _) member
          · cases member
        · split at member
          · cases member
          · split at member
            · exact later _ rest (List.Subset.refl _) member
            · cases member
        · split at member
          · cases member
          · rcases mem_emit member with same | member
            · cases same
            · exact later opened _ (List.drop_subset _ _) member
        · cases member

/-- The tag of a nonempty text read from unmarked input is a character of the input. -/
theorem textAt_decode_tag {input : List Char} (unmarked : ∀ digit ∈ input, digit.toNat < 128)
    {number : Nat} (present : textAt number (decode input) ≠ []) :
    ∃ digit ∈ input, digit.toNat = number * 8 + 2 := by
  obtain ⟨value, member⟩ := textAt_mem present
  exact decodeInto_text_tag _ _ _ unmarked member

end Lib.Wire
