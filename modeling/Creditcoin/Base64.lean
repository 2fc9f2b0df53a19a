import Creditcoin.Lib.Base64
import Creditcoin.Query

/-!
# Base 64

Both directions keep the bits at hand in the low places of a 32-bit word that is never cleared, and
count the places by a number that is below zero while too few are there. What stands above the
places at hand is pushed out of the word and never looked at again.
-/

namespace Creditcoin

open Lib

/-- What keeps a loop over characters, bytes or lines from its end. -/
inductive Halt where
  /-- A shift of a word by a negative number of places or by all of them, which has no meaning. -/
  | undefinedShift (amount : Int)
  /-- A sum of an `int` and one beyond the largest `int`, which has no meaning either. -/
  | undefinedSum
  /-- An exception. -/
  | thrown (failure : Exception)
deriving DecidableEq

/-- `value >> amount`, for an `unsigned int`. -/
def shiftRight (value : UInt32) (amount : Int) : Except Halt UInt32 :=
  if 0 ≤ amount ∧ amount < 32 then .ok (value >>> amount.toNat.toUInt32)
  else .error (.undefinedShift amount)

/-- `base64lookupString`. -/
def base64lookupString : Text :=
  "ABCDEFGHIJKLMNOPQRSTUVWXYZabcdefghijklmnopqrstuvwxyz0123456789+/".toList

/-- `base64lookupString[i]`. -/
def base64Char (i : Nat) : Char := base64lookupString.getD i '\x00'

/-- `MakeBase64lookupTable`. -/
def makeBase64lookupTable : List Int :=
  (List.range 64).foldl (fun ret i => ret.set (base64Char i).toNat i) (List.replicate 256 (-1))

/-- `base64lookupTable[c]`. -/
def base64lookup (c : Char) : Int := makeBase64lookupTable.getD c.toNat (-1)

/-! ## Decoding -/

/-- The loop of `decodeBase64`, from a word and its count of places. -/
def decodeBase64From (val : UInt32) (valb : Int) : Text → Except Halt (List UInt8)
  | [] => .ok []
  | c :: rest =>
    if c = '=' then .ok []
    else
      let lookup := base64lookup c
      if lookup = -1 then .error (.thrown (rejection "Invalid character in base64"))
      else
        let val := (val <<< 6) + lookup.toNat.toUInt32
        let valb := valb + 6
        if 0 ≤ valb then do
          let byte ← shiftRight val valb
          let ret ← decodeBase64From val (valb - 8) rest
          return (byte &&& 0xFF).toUInt8 :: ret
        else decodeBase64From val valb rest

/-- `decodeBase64`. -/
def decodeBase64 (text : Text) : Except Halt (List UInt8) := decodeBase64From 0 (-8) text

/-! ## Encoding -/

/-- The inner loop of `encodeBase64`: the characters it writes and the count it leaves. -/
def drainSextets (val : UInt32) (valb : Int) : Except Halt (Text × Int) :=
  if 0 ≤ valb then do
    let sextet ← shiftRight val valb
    let (out, left) ← drainSextets val (valb - 6)
    return (base64Char (sextet &&& 0x3F).toNat :: out, left)
  else .ok ([], valb)
termination_by (valb + 6).toNat

/-- The loop of `encodeBase64` over the bytes: what it writes, the word and the count it leaves. -/
def encodeBase64From (val : UInt32) (valb : Int) : List UInt8 → Except Halt (Text × UInt32 × Int)
  | [] => .ok ([], val, valb)
  | c :: rest => do
    let val := (val <<< 8) + c.toUInt32
    let (out, valb) ← drainSextets val (valb + 8)
    let (later, left) ← encodeBase64From val valb rest
    return (out ++ later, left)

/-- What `encodeBase64` writes after the loop for the places that are left. -/
def encodeBase64Last (val : UInt32) (valb : Int) : Except Halt Text :=
  if -6 < valb then do
    let sextet ← shiftRight (val <<< 8) (valb + 8)
    return [base64Char (sextet &&& 0x3F).toNat]
  else .ok []

/-- `encodeBase64`. -/
def encodeBase64 (input : List UInt8) : Except Halt Text := do
  let (out, val, valb) ← encodeBase64From 0 (-6) input
  let last ← encodeBase64Last val valb
  return out ++ last ++ List.replicate (input.length % 3) '='

/-! ## Words -/

/-- A shift by less than the width of the word is a quotient. -/
theorem shiftRight_ok (value : UInt32) {amount : Int} (lower : 0 ≤ amount) (upper : amount < 32) :
    ∃ shifted, shiftRight value amount = .ok shifted ∧
      shifted.toNat = value.toNat / 2 ^ amount.toNat := by
  refine ⟨value >>> amount.toNat.toUInt32, by rw [shiftRight, if_pos ⟨lower, upper⟩], ?_⟩
  have places : amount.toNat < 32 := by omega
  have count : amount.toNat.toUInt32.toNat = amount.toNat :=
    Nat.mod_eq_of_lt (Nat.lt_trans places (by decide))
  rw [UInt32.toNat_shiftRight, count, Nat.mod_eq_of_lt places, Nat.shiftRight_eq_div_pow]

/-- A sextet pushed into a word. -/
theorem toNat_push_sextet (value : UInt32) {sextet : Nat} (small : sextet < 2 ^ 6) :
    ((value <<< 6) + sextet.toUInt32).toNat = (value.toNat * 2 ^ 6 + sextet) % 2 ^ 32 := by
  have digit : sextet.toUInt32.toNat = sextet :=
    Nat.mod_eq_of_lt (Nat.lt_trans small (by decide))
  rw [UInt32.toNat_add, UInt32.toNat_shiftLeft, digit, Nat.shiftLeft_eq, Nat.mod_add_mod]
  rfl

/-- A byte pushed into a word. -/
theorem toNat_push_byte (value : UInt32) (byte : UInt8) :
    ((value <<< 8) + byte.toUInt32).toNat = (value.toNat * 2 ^ 8 + byte.toNat) % 2 ^ 32 := by
  rw [UInt32.toNat_add, UInt32.toNat_shiftLeft, UInt8.toNat_toUInt32, Nat.shiftLeft_eq,
    Nat.mod_add_mod]
  rfl

/-- The places at hand after a push are those before it and those of the digit, however much was
pushed out of the word. -/
theorem ofNat_pushed {held width digit : Nat} (number : Nat) (fits : held + width ≤ 32)
    (small : digit < 2 ^ width) :
    Bits.ofNat (held + width) ((number * 2 ^ width + digit) % 2 ^ 32) =
      Bits.ofNat held number ++ Bits.ofNat width digit := by
  rw [Bits.ofNat_mod fits, Bits.ofNat_push held number small]

/-! ## What is decoded -/

/-- The sextets of the characters before the first pad, if each of them has one. -/
def base64Sextets : Text → Option (List Nat)
  | [] => some []
  | c :: rest =>
    if c = '=' then some []
    else if base64lookup c = -1 then none
    else (base64Sextets rest).map ((base64lookup c).toNat :: ·)

/-- The table holds sextets. -/
theorem base64lookup_small (c : Char) : (base64lookup c).toNat < 2 ^ 6 := by
  have entries : ∀ entry ∈ makeBase64lookupTable, entry.toNat < 2 ^ 6 := by decide +kernel
  rw [base64lookup, List.getD_eq_getElem?_getD]
  cases found : makeBase64lookupTable[c.toNat]? with
  | none => decide
  | some entry => exact entries entry (List.mem_of_getElem? found)

/-- The low byte of a word. -/
theorem lowByte_toNat (word : UInt32) : (word &&& 0xFF).toUInt8.toNat = word.toNat % 2 ^ 8 := by
  rw [UInt32.toNat_toUInt8, UInt32.toNat_and]
  have masked : word.toNat &&& (0xFF : UInt32).toNat = word.toNat % 2 ^ 8 :=
    Nat.and_two_pow_sub_one_eq_mod word.toNat 8
  rw [masked, Nat.mod_mod]

/-- Decoding from a word with some places at hand: the bytes and fewer than eight places that are
left have the places at hand and then those of the sextets. -/
theorem decodeBase64From_ok {text : Text} {sextets : List Nat}
    (read : base64Sextets text = some sextets) (val : UInt32) {valb : Int} {held : Nat}
    (count : valb + 8 = held) (few : held < 8) :
    ∃ ret left, decodeBase64From val valb text = .ok ret ∧ left.length < 8 ∧
      Bits.ofDigits 8 (ret.map UInt8.toNat) ++ left =
        Bits.ofNat held val.toNat ++ Bits.ofDigits 6 sextets := by
  induction text generalizing sextets val valb held with
  | nil =>
    obtain rfl : [] = sextets := Option.some.inj read
    exact ⟨[], Bits.ofNat held val.toNat, rfl, by rwa [Bits.ofNat_length], by simp⟩
  | cons c rest ih =>
    rw [base64Sextets] at read
    rw [decodeBase64From]
    by_cases pad : c = '='
    · rw [if_pos pad] at read ⊢
      obtain rfl : [] = sextets := Option.some.inj read
      exact ⟨[], Bits.ofNat held val.toNat, rfl, by rwa [Bits.ofNat_length], by simp⟩
    · rw [if_neg pad] at read ⊢
      by_cases foreign : base64lookup c = -1
      · rw [if_pos foreign] at read
        cases read
      · rw [if_neg foreign] at read
        simp only [if_neg foreign]
        obtain ⟨later, readLater, rfl⟩ := Option.map_eq_some_iff.mp read
        have digit := base64lookup_small c
        have pushed := toNat_push_sextet val digit
        have places := ofNat_pushed val.toNat (by omega : held + 6 ≤ 32) digit
        rw [← pushed] at places
        generalize (val <<< 6) + (base64lookup c).toNat.toUInt32 = word at places ⊢
        by_cases full : 0 ≤ valb + 6
        · obtain ⟨shifted, shifts, value⟩ :=
            shiftRight_ok word full (by omega : valb + 6 < 32)
          have count : valb + 6 - 8 + 8 = ((held - 2 : Nat) : Int) := by omega
          obtain ⟨ret, left, decoded, short, same⟩ := ih readLater word count (by omega)
          refine ⟨(shifted &&& 0xFF).toUInt8 :: ret, left, ?_, short, ?_⟩
          · rw [if_pos full, shifts]
            simp only [bind, Except.bind, decoded]
            rfl
          · have amount : (valb + 6).toNat = held - 2 := by omega
            have split := Bits.ofNat_split 8 (held - 2) word.toNat
            rw [show 8 + (held - 2) = held + 6 by omega, places] at split
            rw [List.map_cons, Bits.ofDigits_cons, List.append_assoc, same, lowByte_toNat, value,
              amount, Bits.ofNat_mod (Nat.le_refl 8), ← List.append_assoc, ← split,
              Bits.ofDigits_cons, List.append_assoc]
        · have count : valb + 6 + 8 = ((held + 6 : Nat) : Int) := by omega
          obtain ⟨ret, left, decoded, short, same⟩ := ih readLater word count (by omega)
          refine ⟨ret, left, ?_, short, ?_⟩
          · rw [if_neg full, decoded]
          · rw [same, places, Bits.ofDigits_cons, List.append_assoc]

/-- A character without a sextet is refused. -/
theorem decodeBase64From_error {text : Text} (unread : base64Sextets text = none) (val : UInt32)
    {valb : Int} (lower : -8 ≤ valb) (upper : valb < 0) :
    decodeBase64From val valb text =
      .error (.thrown (rejection "Invalid character in base64")) := by
  induction text generalizing val valb with
  | nil => cases unread
  | cons c rest ih =>
    rw [base64Sextets] at unread
    rw [decodeBase64From]
    by_cases pad : c = '='
    · rw [if_pos pad] at unread
      cases unread
    · rw [if_neg pad] at unread ⊢
      by_cases foreign : base64lookup c = -1
      · simp only [if_pos foreign]
      · rw [if_neg foreign] at unread
        simp only [if_neg foreign]
        have unreadLater := Option.map_eq_none_iff.mp unread
        generalize (val <<< 6) + (base64lookup c).toNat.toUInt32 = word
        by_cases full : 0 ≤ valb + 6
        · obtain ⟨shifted, shifts, -⟩ := shiftRight_ok word full (by omega : valb + 6 < 32)
          have refused := ih unreadLater word (by omega : -8 ≤ valb + 6 - 8) (by omega)
          rw [if_pos full, shifts]
          simp only [bind, Except.bind, refused]
        · rw [if_neg full]
          exact ih unreadLater word (by omega) (by omega)

/-! ## What is encoded -/

/-- The low sextet of a word. -/
theorem lowSextet_toNat (word : UInt32) : (word &&& 0x3F).toNat = word.toNat % 2 ^ 6 := by
  rw [UInt32.toNat_and]
  exact Nat.and_two_pow_sub_one_eq_mod word.toNat 6

/-- The inner loop writes a character for each six places at hand and leaves the others. -/
theorem drainSextets_ok (val : UInt32) (held : Nat) (fits : held ≤ 32) :
    ∃ (sextets : List Nat) (kept : Nat),
      drainSextets val ((held : Int) - 6) = .ok (sextets.map base64Char, (kept : Int) - 6) ∧
      kept < 6 ∧ (∀ sextet ∈ sextets, sextet < 2 ^ 6) ∧
      Bits.ofNat held val.toNat = Bits.ofDigits 6 sextets ++ Bits.ofNat kept val.toNat := by
  induction held using Nat.strong_induction_on with
  | _ held ih =>
    rw [drainSextets]
    by_cases full : 0 ≤ (held : Int) - 6
    · obtain ⟨shifted, shifts, value⟩ :=
        shiftRight_ok val full (by omega : (held : Int) - 6 < 32)
      obtain ⟨sextets, kept, drained, few, small, same⟩ := ih (held - 6) (by omega) (by omega)
      rw [show ((held - 6 : Nat) : Int) - 6 = (held : Int) - 6 - 6 by omega] at drained
      refine ⟨(shifted &&& 0x3F).toNat :: sextets, kept, ?_, few, ?_, ?_⟩
      · rw [if_pos full, shifts]
        simp only [bind, Except.bind, drained]
        rfl
      · rw [List.forall_mem_cons, lowSextet_toNat]
        exact ⟨Nat.mod_lt _ (by decide), small⟩
      · have amount : ((held : Int) - 6).toNat = held - 6 := by omega
        have split := Bits.ofNat_split 6 (held - 6) val.toNat
        rw [show 6 + (held - 6) = held by omega] at split
        rw [split, same, Bits.ofDigits_cons, lowSextet_toNat, value, amount,
          Bits.ofNat_mod (Nat.le_refl 6), List.append_assoc]
    · rw [if_neg full]
      exact ⟨[], held, rfl, by omega, fun _ listed => (nomatch listed), rfl⟩

/-- Encoding from a word with some places at hand: the characters are those of sextets that have
the places at hand and those of the bytes, but for fewer than six that are left. -/
theorem encodeBase64From_ok (bytes : List UInt8) (val : UInt32) {held : Nat} (few : held < 6) :
    ∃ (sextets : List Nat) (word : UInt32) (kept : Nat),
      encodeBase64From val ((held : Int) - 6) bytes =
        .ok (sextets.map base64Char, word, (kept : Int) - 6) ∧
      kept < 6 ∧ (∀ sextet ∈ sextets, sextet < 2 ^ 6) ∧
      Bits.ofNat held val.toNat ++ Bits.ofDigits 8 (bytes.map UInt8.toNat) =
        Bits.ofDigits 6 sextets ++ Bits.ofNat kept word.toNat := by
  induction bytes generalizing val held with
  | nil => exact ⟨[], val, held, rfl, few, fun _ listed => (nomatch listed), by simp⟩
  | cons byte rest ih =>
    rw [encodeBase64From]
    have places := ofNat_pushed val.toNat (by omega : held + 8 ≤ 32) byte.toNat_lt
    rw [← toNat_push_byte] at places
    generalize (val <<< 8) + byte.toUInt32 = word at places ⊢
    obtain ⟨front, kept, drained, fewKept, smallFront, sameFront⟩ :=
      drainSextets_ok word (held + 8) (by omega)
    obtain ⟨later, last, left, encoded, fewLeft, smallLater, sameLater⟩ := ih word fewKept
    refine ⟨front ++ later, last, left, ?_, fewLeft, ?_, ?_⟩
    · rw [show ((held + 8 : Nat) : Int) - 6 = (held : Int) - 6 + 8 by omega] at drained
      simp only [bind, Except.bind, drained, encoded, List.map_append]
      rfl
    · intro sextet listed
      exact (List.mem_append.mp listed).elim (smallFront sextet) (smallLater sextet)
    · rw [List.map_cons, Bits.ofDigits_cons, ← List.append_assoc, ← places, sameFront,
        List.append_assoc, sameLater, Bits.ofDigits_append, List.append_assoc]

/-- The last character has the places that are left, filled up with zeroes. -/
theorem ofNat_last (word : UInt32) {kept : Nat} (few : kept < 6) :
    Bits.ofNat 6 ((word <<< 8).toNat / 2 ^ (kept + 2) % 2 ^ 6) =
      Bits.ofNat kept word.toNat ++ List.replicate (6 - kept) false := by
  have value : (word <<< 8).toNat = (word.toNat * 2 ^ 8 + 0) % 2 ^ 32 := by
    have eight : (8 : UInt32).toNat % 32 = 8 := rfl
    rw [UInt32.toNat_shiftLeft, Nat.shiftLeft_eq, eight, Nat.add_zero]
  have places := ofNat_pushed word.toNat (by omega : kept + 8 ≤ 32)
    (by decide : 0 < 2 ^ 8)
  rw [← value] at places
  have split := Bits.ofNat_split 6 (kept + 2) (word <<< 8).toNat
  rw [show 6 + (kept + 2) = kept + 8 by omega, places] at split
  have zeroes : Bits.ofNat 8 0 =
      List.replicate (6 - kept) false ++ List.replicate (kept + 2) false := by
    rw [List.replicate_append_replicate, show 6 - kept + (kept + 2) = 8 by omega]
    rfl
  rw [zeroes, ← List.append_assoc] at split
  rw [Bits.ofNat_mod (Nat.le_refl 6)]
  refine (List.append_inj split ?_).1.symm
  rw [List.length_append, List.length_replicate, Bits.ofNat_length, Bits.ofNat_length]
  omega

/-- The places of the bytes of a text. -/
theorem toNat_small (bytes : List UInt8) : ∀ byte ∈ bytes.map UInt8.toNat, byte < 2 ^ 8 := by
  intro byte listed
  obtain ⟨word, -, rfl⟩ := List.mem_map.mp listed
  exact word.toNat_lt

/-- `encodeBase64` writes the characters of the standard, and as many pads as bytes stand in the
last group: one where the standard has two, and two where it has one. -/
theorem encodeBase64_eq (input : List UInt8) :
    encodeBase64 input = .ok ((Lib.Base64.sextets (input.map UInt8.toNat)).map base64Char ++
      List.replicate (input.length % 3) '=') := by
  obtain ⟨sextets, word, kept, encoded, few, small, same⟩ :=
    encodeBase64From_ok input 0 (by decide : 0 < 6)
  have bytes := toNat_small input
  rw [show ((0 : Nat) : Int) - 6 = -6 by decide] at encoded
  by_cases rest : -6 < (kept : Int) - 6
  · obtain ⟨shifted, shifts, value⟩ := shiftRight_ok (word <<< 8)
      (by omega : 0 ≤ (kept : Int) - 6 + 8) (by omega : (kept : Int) - 6 + 8 < 32)
    have amount : ((kept : Int) - 6 + 8).toNat = kept + 2 := by omega
    rw [amount] at value
    have all : sextets ++ [(shifted &&& 0x3F).toNat] =
        Lib.Base64.sextets (input.map UInt8.toNat) := by
      refine Lib.Base64.eq_sextets bytes ?_ (by omega : 6 - kept < 6) ?_
      · intro sextet listed
        refine (List.mem_append.mp listed).elim (small sextet) fun last => ?_
        rw [List.mem_singleton.mp last, lowSextet_toNat]
        exact Nat.mod_lt _ (by decide)
      · rw [Bits.ofDigits_append, Bits.ofDigits_cons, Bits.ofDigits_nil, List.append_nil,
          lowSextet_toNat, value, ofNat_last word few, ← List.append_assoc, ← same]
        rfl
    have last : encodeBase64Last word ((kept : Int) - 6) =
        .ok [base64Char (shifted &&& 0x3F).toNat] := by
      rw [encodeBase64Last, if_pos rest, shifts]
      rfl
    simp only [encodeBase64, bind, Except.bind, encoded, last]
    rw [← all, List.map_append]
    rfl
  · obtain rfl : kept = 0 := by omega
    have all : sextets = Lib.Base64.sextets (input.map UInt8.toNat) :=
      Lib.Base64.eq_sextets bytes small (by decide : 0 < 6) (by simpa [Bits.ofNat] using same.symm)
    have last : encodeBase64Last word ((0 : Nat) - 6) = .ok [] := if_neg rest
    simp only [encodeBase64, bind, Except.bind, encoded, last]
    rw [all, List.append_nil]
    rfl

/-! ## There and back -/

/-- The string is the alphabet of the standard. -/
theorem base64Char_character : ∀ sextet < 2 ^ 6,
    base64Char sextet = Lib.Base64.character sextet := by decide

/-- The table reads each character of the string back, and none of them is the pad. -/
theorem base64lookup_character : ∀ sextet < 2 ^ 6,
    base64lookup (base64Char sextet) = sextet ∧ base64Char sextet ≠ '=' := by decide +kernel

/-- A text of characters is read as their sextets, whatever pads follow. -/
theorem base64Sextets_characters {sextets : List Nat} (small : ∀ sextet ∈ sextets, sextet < 2 ^ 6)
    (pads : Nat) :
    base64Sextets (sextets.map base64Char ++ List.replicate pads '=') = some sextets := by
  induction sextets with
  | nil =>
    cases pads with
    | zero => rfl
    | succ pads => rfl
  | cons sextet rest ih =>
    rw [List.forall_mem_cons] at small
    have ⟨read, other⟩ := base64lookup_character sextet small.1
    have digit : base64lookup (base64Char sextet) ≠ -1 := by
      rw [read]
      omega
    rw [List.map_cons, List.cons_append, base64Sextets, if_neg other, if_neg digit, ih small.2,
      read]
    rfl

/-- The characters of the sextets of bytes are decoded as the bytes, whatever pads follow. -/
theorem decodeBase64_characters (bytes : List UInt8) (pads : Nat) :
    decodeBase64 ((Lib.Base64.sextets (bytes.map UInt8.toNat)).map base64Char ++
      List.replicate pads '=') = .ok bytes := by
  have small := toNat_small bytes
  have read := base64Sextets_characters (Lib.Base64.sextets_lt small) pads
  obtain ⟨ret, left, decoded, short, same⟩ :=
    decodeBase64From_ok read 0 (by decide : (-8 : Int) + 8 = ((0 : Nat) : Int)) (by decide)
  have numbers : ret.map UInt8.toNat = bytes.map UInt8.toNat :=
    Lib.Base64.eq_of_sextets small (toNat_small ret) short same
  have inverse : ret = bytes :=
    List.map_injective_iff.mpr (fun _ _ => UInt8.toNat_inj.mp) numbers
  rw [decodeBase64, decoded, inverse]

/-- No text makes the decoder shift by an amount without a meaning. -/
theorem decodeBase64_defined (text : Text) (amount : Int) :
    decodeBase64 text ≠ .error (.undefinedShift amount) := by
  intro failed
  cases read : base64Sextets text with
  | some sextets =>
    obtain ⟨ret, left, decoded, -, -⟩ :=
      decodeBase64From_ok read 0 (by decide : (-8 : Int) + 8 = ((0 : Nat) : Int)) (by decide)
    rw [decodeBase64, decoded] at failed
    cases failed
  | none =>
    rw [decodeBase64, decodeBase64From_error read 0 (by decide) (by decide)] at failed
    cases failed

/-- Decoding inverts the processor's encoding of every byte vector and the standard one, padded or
not, and no shift on the way there or on the way from any text is by a negative amount or by 32 or
more. -/
theorem decodeBase64_inverse (bytes : List UInt8) :
    (∃ text, encodeBase64 bytes = .ok text ∧ decodeBase64 text = .ok bytes) ∧
    (∀ padded, decodeBase64 (Lib.Base64.encode padded (bytes.map UInt8.toNat)) = .ok bytes) ∧
    (∀ text amount, decodeBase64 text ≠ .error (.undefinedShift amount)) := by
  refine ⟨⟨_, encodeBase64_eq bytes, decodeBase64_characters bytes _⟩, fun padded => ?_,
    decodeBase64_defined⟩
  have alphabet : (Lib.Base64.sextets (bytes.map UInt8.toNat)).map Lib.Base64.character =
      (Lib.Base64.sextets (bytes.map UInt8.toNat)).map base64Char := by
    refine List.map_congr_left fun sextet listed => ?_
    have small := Lib.Base64.sextets_lt (toNat_small bytes) sextet listed
    exact (base64Char_character sextet small).symm
  rw [Lib.Base64.encode, alphabet]
  exact decodeBase64_characters bytes _

/-- One pad stands where the standard has two. -/
example : encodeBase64 [77] = .ok "TQ=".toList := by
  rw [encodeBase64_eq]
  decide +kernel

end Creditcoin
