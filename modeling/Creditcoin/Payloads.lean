import Creditcoin.Acceptance
import Creditcoin.Cbor
import Creditcoin.Rejections

/-!
# Parameters that are no texts

A parameter is read by printing its value and cutting the first and the last character off. This
takes the quotes from a text, whose escapes stay apart. It also takes two characters from the print
of every other value, which is then read like a text; only a verb is never read in this way, as the
print of no other value has the name of a command between its ends.
-/

namespace Creditcoin

open Lib

/-! ## Texts -/

namespace Json

/-- Whether a value is a text. -/
def isText : Json → Bool
  | .string _ => true
  | _ => false

/-- The character that a letter behind a backslash stands for. -/
def escaped (c : Char) : Char :=
  if c = 'b' then '\x08'
  else if c = 'f' then '\x0c'
  else if c = 'n' then '\n'
  else if c = 'r' then '\r'
  else if c = 't' then '\t'
  else c

/-- The value of a hexadecimal digit. -/
def digitOf (c : Char) : Nat := (List.range 16).findIdx fun digit => Nat.digitChar digit == c

/-- The first character of a printed string, and the rest. -/
def unescapeChar : Text → Option (Char × Text)
  | '\\' :: 'u' :: _ :: _ :: high :: low :: rest =>
    some (Char.ofNat (digitOf high * 16 + digitOf low), rest)
  | '\\' :: c :: rest => some (escaped c, rest)
  | c :: rest => some (c, rest)
  | [] => none

/-- A character is read back. -/
theorem unescapeChar_escapeChar (c : Char) (rest : Text) :
    unescapeChar (escapeChar c ++ rest) = some (c, rest) := by
  have digits : ∀ code < 32, digitOf (Nat.digitChar (code / 16)) * 16 +
      digitOf (Nat.digitChar (code % 16)) = code := by
    decide
  unfold escapeChar
  by_cases quote : c = '"'
  · subst quote
    rfl
  by_cases backslash : c = '\\'
  · subst backslash
    rfl
  rw [if_neg quote, if_neg backslash]
  by_cases letter : c ∈ ['\x08', '\x0c', '\n', '\r', '\t']
  · simp only [List.mem_cons, List.not_mem_nil, or_false] at letter
    rcases letter with rfl | rfl | rfl | rfl | rfl <;> rfl
  · simp only [List.mem_cons, List.not_mem_nil, or_false, not_or] at letter
    obtain ⟨backspace, feed, line, carriage, tab⟩ := letter
    rw [if_neg backspace, if_neg feed, if_neg line, if_neg carriage, if_neg tab]
    by_cases control : c.toNat < 32
    · rw [if_pos control]
      show some (Char.ofNat (digitOf _ * 16 + digitOf _), rest) = _
      rw [digits c.toNat control, Char.ofNat_toNat]
    · rw [if_neg control, List.singleton_append]
      unfold unescapeChar
      split
      · rename_i same
        exact absurd (List.cons.inj same).1 backslash
      · rename_i same
        exact absurd (List.cons.inj same).1 backslash
      · rename_i same
        obtain ⟨rfl, rfl⟩ := List.cons.inj same
        rfl
      · rename_i empty
        cases empty

/-- Different strings are printed differently. -/
theorem escape_injective {left right : Text} (same : escape left = escape right) :
    left = right := by
  induction left generalizing right with
  | nil =>
    cases right with
    | nil => rfl
    | cons c rest =>
      have read := unescapeChar_escapeChar c (escape rest)
      rw [show escapeChar c ++ escape rest = escape (c :: rest) from rfl, ← same] at read
      cases read
  | cons c rest ih =>
    have read := unescapeChar_escapeChar c (escape rest)
    rw [show escapeChar c ++ escape rest = escape (c :: rest) from rfl, same] at read
    cases right with
    | nil => cases read
    | cons other others =>
      rw [show escape (other :: others) = escapeChar other ++ escape others from rfl,
        unescapeChar_escapeChar, Option.some.injEq, Prod.mk.injEq] at read
      obtain ⟨rfl, left⟩ := read
      rw [ih left.symm]

/-- What is between the ends of a print. -/
theorem trimQuotes_wrapped (first last : Char) (text : Text) :
    trimQuotes (first :: (text ++ [last])) = text := by
  simp [trimQuotes]

end Json

/-! ## Parameters -/

/-- What a command takes a parameter for. -/
inductive Reading where
  /-- A text. -/
  | plain
  /-- A numeral of an amount. -/
  | amount
  /-- A numeral that may be negative. -/
  | signed
  /-- A number of a word. -/
  | word
deriving DecidableEq

/-- What is read as such a parameter. -/
def Reading.Takes : Reading → Text → Prop
  | .plain, _ => True
  | .amount, text => ∃ value, IsAmount text value
  | .signed, text => ∃ value, cppInt text = some value
  | .word, text => ∃ number, parseUint64 text = some number

/-- The parameters that a command reads, with what they are taken for. -/
def Verb.parameters : Verb → List (String × Reading)
  | .sendFunds => [("p1", .amount), ("p2", .plain)]
  | .registerAddress => [("p1", .plain), ("p2", .plain), ("p3", .plain)]
  | .registerTransfer => [("p1", .signed), ("p2", .plain), ("p3", .plain)]
  | .addAskOrder => [("p1", .plain), ("p2", .amount), ("p3", .amount), ("p4", .amount),
      ("p5", .amount), ("p6", .word)]
  | .addBidOrder => [("p1", .plain), ("p2", .amount), ("p3", .amount), ("p4", .amount),
      ("p5", .amount), ("p6", .word)]
  | .addOffer => [("p1", .plain), ("p2", .plain), ("p3", .word)]
  | .addDealOrder => [("p1", .plain), ("p2", .word)]
  | .completeDealOrder => [("p1", .plain), ("p2", .plain)]
  | .lockDealOrder => [("p1", .plain)]
  | .closeDealOrder => [("p1", .plain), ("p2", .plain)]
  | .exempt => [("p1", .plain), ("p2", .plain)]
  | .addRepaymentOrder => [("p1", .plain), ("p2", .plain), ("p3", .amount), ("p4", .word)]
  | .completeRepaymentOrder => [("p1", .plain)]
  | .closeRepaymentOrder => [("p1", .plain), ("p2", .plain)]
  | .collectCoins => [("p1", .plain), ("p2", .amount), ("p3", .plain)]
  | .housekeeping => [("p1", .amount)]

namespace Query

variable {query : Query} {id name : String}

/-- A parameter is there and is read as what it is taken for. -/
def Reads (query : Query) (parameter : String × Reading) : Prop :=
  ∃ value, query.find parameter.1.toList = some value ∧
    parameter.2.Takes (trimQuotes value.dump)

/-- A parameter that is there is read. -/
theorem getString_ok {text : Text} : query.getString id name = .ok text ↔
    ∃ value, query.find id.toList = some value ∧ trimQuotes value.dump = text := by
  unfold getString getParam
  cases query.find id.toList with
  | none => simp
  | some param => simp

/-- A word is a parameter that is a number. -/
theorem getUint64_ok {number : UInt64} : query.getUint64 id name = .ok number ↔
    ∃ text, query.getString id name = .ok text ∧ parseUint64 text = some number := by
  unfold getUint64
  cases query.getString id name with
  | error failure => simp
  | ok text =>
    cases parsed : parseUint64 text with
    | none => simp [parsed]
    | some found => simp [parsed]

/-- Texts are read when they are there. -/
theorem getString_reads :
    (∃ text, query.getString id name = .ok text) ↔ query.Reads (id, .plain) := by
  simp only [getString_ok, Reads, Reading.Takes]
  constructor
  · rintro ⟨text, value, found, rfl⟩
    exact ⟨value, found, trivial⟩
  · rintro ⟨value, found, _⟩
    exact ⟨_, value, found, rfl⟩

/-- Lower case texts are read when they are there. -/
theorem getStringLower_reads :
    (∃ text, query.getStringLower id name = .ok text) ↔ query.Reads (id, .plain) := by
  simp only [getStringLower_ok, getString_ok, Reads, Reading.Takes]
  constructor
  · rintro ⟨_, text, ⟨value, found, _⟩, _⟩
    exact ⟨value, found, trivial⟩
  · rintro ⟨value, found, _⟩
    exact ⟨_, _, ⟨value, found, rfl⟩, rfl⟩

/-- Amounts are read when they are numerals. -/
theorem getBigint_reads :
    (∃ text value, query.getBigint id name = .ok (text, value)) ↔ query.Reads (id, .amount) := by
  simp only [getBigint_ok, getString_ok, Reads, Reading.Takes]
  constructor
  · rintro ⟨text, amount, ⟨value, found, rfl⟩, numeral⟩
    exact ⟨value, found, amount, numeral⟩
  · rintro ⟨value, found, amount, numeral⟩
    exact ⟨_, amount, ⟨value, found, rfl⟩, numeral⟩

/-- Numerals that may be negative are read when they are numerals. -/
theorem getSigned_reads (id name : String) :
    (∃ text value, query.getString id name = .ok text ∧
      Creditcoin.getBigint text true = .ok value) ↔ query.Reads (id, .signed) := by
  simp only [getBigint_signed_ok, getString_ok, Reads, Reading.Takes]
  constructor
  · rintro ⟨text, number, ⟨value, found, rfl⟩, numeral⟩
    exact ⟨value, found, number, numeral⟩
  · rintro ⟨value, found, number, numeral⟩
    exact ⟨_, number, ⟨value, found, rfl⟩, numeral⟩

/-- Words are read when they are numbers. -/
theorem getUint64_reads :
    (∃ number, query.getUint64 id name = .ok number) ↔ query.Reads (id, .word) := by
  simp only [getUint64_ok, getString_ok, Reads, Reading.Takes]
  constructor
  · rintro ⟨number, text, ⟨value, found, rfl⟩, parsed⟩
    exact ⟨value, found, number, parsed⟩
  · rintro ⟨value, found, number, parsed⟩
    exact ⟨number, _, ⟨value, found, rfl⟩, parsed⟩

end Query

/-- A further step is taken with what the first one has read. -/
theorem exists_bind_ok {ε α β : Type} {first : Except ε α} {next : α → Except ε β} :
    (∃ result, (first >>= next) = .ok result) ↔
      ∃ value, first = .ok value ∧ ∃ result, next value = .ok result := by
  simp only [bind_eq_ok]
  constructor
  · rintro ⟨result, value, read, taken⟩
    exact ⟨value, read, result, taken⟩
  · rintro ⟨value, read, result, taken⟩
    exact ⟨result, value, read, taken⟩

/-- A command is read when all its parameters are. -/
theorem Verb.command_reads {query : Query} {verb : Verb} :
    (∃ command, verb.command query = .ok command) ↔
      ∀ parameter ∈ verb.parameters, query.Reads parameter := by
  have done {command : Command} :
      (∃ result, (pure command : Except Exception Command) = .ok result) ↔ True := by
    simp only [pure_eq_ok, exists_eq']
  cases verb
  all_goals
    simp only [Verb.command, Query.sendFunds, Query.registerAddress, Query.registerTransfer,
      Query.addOrder, Query.addOffer, Query.addDealOrder, Query.completeDealOrder,
      Query.lockDealOrder, Query.closeDealOrder, Query.exempt, Query.addRepaymentOrder,
      Query.completeRepaymentOrder, Query.closeRepaymentOrder, Query.collectCoins,
      Query.housekeeping, exists_bind_ok, done, Prod.exists, exists_and_right, and_true,
      Query.getString_reads, Query.getStringLower_reads, Query.getBigint_reads,
      Query.getUint64_reads, Verb.parameters, List.forall_mem_cons, List.not_mem_nil,
      false_implies, implies_true]
  -- the gain is read as a text and then as a numeral that may be negative
  rw [← Query.getSigned_reads "p1" "gain"]
  simp only [← exists_and_right, exists_and_left, and_assoc]

/-- A step fails when the first one does or what follows. -/
theorem bind_eq_error {ε α β : Type} {first : Except ε α} {next : α → Except ε β} {failure : ε} :
    (first >>= next) = .error failure ↔
      first = .error failure ∨ ∃ value, first = .ok value ∧ next value = .error failure := by
  cases first with
  | ok value => simp [bind, Except.bind]
  | error other => simp [bind, Except.bind]

/-- A verb refuses its parameters by a rejection. -/
theorem Verb.command_rejects {query : Query} {verb : Verb} {failure : Exception}
    (failed : verb.command query = .error failure) :
    ∃ what, failure = .invalidTransaction what := by
  cases failure with
  | invalidTransaction what => exact ⟨what, rfl⟩
  | standard what =>
    exfalso
    cases verb
    all_goals
      simp only [Verb.command, Query.sendFunds, Query.registerAddress, Query.registerTransfer,
        Query.addOrder, Query.addOffer, Query.addDealOrder, Query.completeDealOrder,
        Query.lockDealOrder, Query.closeDealOrder, Query.exempt, Query.addRepaymentOrder,
        Query.completeRepaymentOrder, Query.closeRepaymentOrder, Query.collectCoins,
        Query.housekeeping, bind_eq_error, getString_standard, getStringLower_standard,
        getBigintParameter_standard, getUint64_standard, getBigint_standard, pure, Except.pure,
        reduceCtorEq, and_false, exists_false, or_false] at failed

/-! ## Verbs -/

mutual

/-- The printed floats in a value. -/
def Json.floats : Json → List Text
  | .float printed => [printed]
  | .array values => Json.floatsOf values
  | .object members => Json.floatsOfMembers members
  | _ => []

/-- The printed floats in the elements of an array. -/
def Json.floatsOf : List Json → List Text
  | [] => []
  | value :: rest => value.floats ++ Json.floatsOf rest

/-- The printed floats in the members of an object. -/
def Json.floatsOfMembers : List (Text × Json) → List Text
  | [] => []
  | (_, value) :: rest => value.floats ++ Json.floatsOfMembers rest

end

/-- The characters of printed numbers. -/
def numberChars : Text := "0123456789+-.e".toList

/-- How the library prints a float: as a number, or as `null` where it is none. -/
def PrintsNumber (printed : Text) : Prop :=
  printed = "null".toList ∨ ∀ c ∈ printed, c ∈ numberChars

section Verbs

variable {cmd : Text} {value : Json}

/-- A text that is spelled like no name names no command. -/
theorem find_none (other : ∀ verb ∈ Verb.all, cmd.toLower ≠ verb.name.toLower) :
    Verb.find cmd = none := by
  rw [Verb.find, List.find?_eq_none]
  intro verb known same
  rw [Text.iequals, beq_iff_eq] at same
  exact other verb known same

/-- A name is made of six or more letters, and one of them stands in no number. -/
theorem name_letters : ∀ verb ∈ Verb.all, (verb.name.toLower.all Char.isLower) = true ∧
    6 ≤ verb.name.toLower.length ∧
    (verb.name.toLower.any fun c => !numberChars.contains c) = true := by
  decide +kernel

/-- A text with a character that is no letter names no command. -/
theorem find_other {c : Char} (listed : c ∈ cmd) (other : c.toLower.isLower = false) :
    Verb.find cmd = none := by
  refine find_none fun verb known equal => ?_
  have mapped : c.toLower ∈ verb.name.toLower := equal ▸ List.mem_map_of_mem listed
  have letter := List.all_eq_true.mp (name_letters verb known).1 _ mapped
  rw [other] at letter
  cases letter

/-- A text that is shorter than every name names no command. -/
theorem find_short (short : cmd.length < 6) : Verb.find cmd = none := by
  refine find_none fun verb known equal => ?_
  have long := (name_letters verb known).2.1
  rw [← equal, Text.toLower, List.length_map] at long
  omega

/-- A printed number names no command. -/
theorem find_number (number : ∀ c ∈ cmd, c ∈ numberChars) : Verb.find cmd = none := by
  have lowered : (numberChars.all fun c => numberChars.contains c.toLower) = true := by decide
  simp only [List.all_eq_true, List.contains_iff_mem] at lowered
  refine find_none fun verb known equal => ?_
  obtain ⟨c, listed, other⟩ := List.any_eq_true.mp (name_letters verb known).2.2
  rw [Bool.not_eq_true', ← Bool.not_eq_true, List.contains_iff_mem] at other
  rw [← equal] at listed
  obtain ⟨source, found, rfl⟩ := List.mem_map.mp listed
  exact other (lowered source (number source found))

/-- What is cut out of a print is in it. -/
theorem mem_of_mem_trimQuotes {c : Char} {text : Text} (listed : c ∈ trimQuotes text) : c ∈ text :=
  List.mem_of_mem_drop (List.mem_of_mem_take listed)

/-- An integer is printed as a number. -/
theorem toText_number (number : Int) : ∀ c ∈ toText number, c ∈ numberChars := by
  have table : ∀ code < 58, (Char.ofNat code).isDigit = true → Char.ofNat code ∈ numberChars := by
    decide
  have digits : ∀ c ∈ Nat.toDigits 10 number.natAbs, c ∈ numberChars := by
    intro c listed
    have digit := Nat.isDigit_of_mem_toDigits (by decide) (by decide) listed
    have small : c.toNat < 58 := Nat.lt_succ_of_le (Char.isDigit_iff_toNat.mp digit).2
    have found := table c.toNat small
    rw [Char.ofNat_toNat] at found
    exact found digit
  intro c listed
  unfold toText at listed
  split at listed
  · rcases List.mem_cons.mp listed with rfl | listed
    · decide
    · exact digits c listed
  · exact digits c listed

/-- What is printed between brackets names no command. -/
theorem find_element (printed : ∀ text ∈ value.floats, PrintsNumber text) :
    Verb.find value.dump = none := by
  cases value with
  | null => exact find_short (by decide)
  | boolean value => cases value <;> exact find_short (by decide)
  | integer number => exact find_number (toText_number number)
  | float text =>
    rcases printed text List.mem_cons_self with rfl | number
    · exact find_short (by decide)
    · exact find_number number
  | string text => exact find_other (c := '"') List.mem_cons_self (by decide)
  | array values => exact find_other (c := '[') List.mem_cons_self (by decide)
  | object members => exact find_other (c := '\x7b') List.mem_cons_self (by decide)

/-- A verb that is no text names no command. -/
theorem find_untext (untext : value.isText = false)
    (printed : ∀ text ∈ value.floats, PrintsNumber text) :
    Verb.find (trimQuotes value.dump) = none := by
  cases value with
  | null => exact find_short (by decide)
  | boolean value => cases value <;> exact find_short (by decide)
  | integer number =>
    exact find_number fun c listed => toText_number number c (mem_of_mem_trimQuotes listed)
  | float text =>
    rcases printed text List.mem_cons_self with rfl | number
    · exact find_short (by decide)
    · exact find_number fun c listed => number c (mem_of_mem_trimQuotes listed)
  | string text => cases untext
  | array values =>
    rw [Json.dump, Json.trimQuotes_wrapped]
    cases values with
    | nil => exact find_short (by decide)
    | cons first rest =>
      cases rest with
      | nil => exact find_element fun text listed => printed text (List.mem_append_left _ listed)
      | cons second others =>
        exact find_other (c := ',') (List.mem_append_right _ List.mem_cons_self)
          (by decide)
  | object members =>
    rw [Json.dump, Json.trimQuotes_wrapped]
    cases members with
    | nil => exact find_short (by decide)
    | cons first rest =>
      obtain ⟨key, value⟩ := first
      have quote : '"' ∈ Json.dumpMembers ((key, value) :: rest) := by
        cases rest with
        | nil => exact List.mem_cons_self
        | cons second others => exact List.mem_cons_self
      exact find_other quote (by decide)

end Verbs

/-! ## Payloads -/

/-- A computation is left by a rejection. -/
def Refused {α : Type} (outcome : Except Exception α) : Prop :=
  ∃ what, outcome = .error (.invalidTransaction what)

namespace Query

/-- The verb of a payload names a command. -/
def Names (query : Query) (verb : Verb) : Prop :=
  ∃ value, query.find "v".toList = some value ∧ Verb.find (trimQuotes value.dump) = some verb

/-- A parameter of a command is no text. -/
def HasUntext (query : Query) (verb : Verb) : Prop :=
  ∃ parameter ∈ verb.parameters, ∃ value,
    query.find parameter.1.toList = some value ∧ value.isText = false

/-- The verb of a payload or a parameter of its command is no text. -/
def HoldsUntext (query : Query) : Prop :=
  (∃ value, query.find "v".toList = some value ∧ value.isText = false) ∨
    ∃ verb, query.Names verb ∧ query.HasUntext verb

/-- A parameter is no text, and what is cut out of its print is taken for one: all parameters of
the command are there and are read as what they are taken for. -/
def Misread (query : Query) : Prop :=
  ∃ verb, query.Names verb ∧ query.HasUntext verb ∧
    ∀ parameter ∈ verb.parameters, query.Reads parameter

/-- A payload that holds something else than texts is refused when its command is read. -/
def OnlyTexts (query : Query) : Prop := query.HoldsUntext → Refused (Json.object query).command

end Query

section Payloads

variable {query : Query} {verb : Verb}

/-- A payload that names a command is read as its parameters. -/
theorem Query.Names.command (names : query.Names verb) :
    (Json.object query).command = verb.command query := by
  obtain ⟨value, found, named⟩ := names
  simp only [Json.command, cborToParams, found, named]

/-- A payload is refused by a rejection. -/
theorem command_rejects {failure : Exception}
    (failed : (Json.object query).command = .error failure) :
    ∃ what, failure = .invalidTransaction what := by
  cases found : query.find "v".toList with
  | none =>
    simp only [Json.command, cborToParams, found, Except.error.injEq] at failed
    exact ⟨_, failed.symm⟩
  | some value =>
    cases named : Verb.find (trimQuotes value.dump) with
    | none =>
      simp only [Json.command, cborToParams, found, named, Except.error.injEq] at failed
      exact ⟨_, failed.symm⟩
    | some verb =>
      have names : query.Names verb := ⟨value, found, named⟩
      rw [names.command] at failed
      exact Verb.command_rejects failed

/-- A payload that is read names a command and has its parameters. -/
theorem command_reads :
    (∃ command, (Json.object query).command = .ok command) ↔
      ∃ verb, query.Names verb ∧ ∀ parameter ∈ verb.parameters, query.Reads parameter := by
  constructor
  · rintro ⟨command, read⟩
    cases found : query.find "v".toList with
    | none => simp only [Json.command, cborToParams, found, reduceCtorEq] at read
    | some value =>
      cases named : Verb.find (trimQuotes value.dump) with
      | none => simp only [Json.command, cborToParams, found, named, reduceCtorEq] at read
      | some verb =>
        have names : query.Names verb := ⟨value, found, named⟩
        rw [names.command] at read
        exact ⟨verb, names, Verb.command_reads.mp ⟨command, read⟩⟩
  · rintro ⟨verb, names, reads⟩
    rw [names.command]
    exact Verb.command_reads.mpr reads

/-- A payload is refused when it is not read. -/
theorem refused_iff : Refused (Json.object query).command ↔
    ¬ ∃ command, (Json.object query).command = .ok command := by
  constructor
  · rintro ⟨what, failed⟩ ⟨command, read⟩
    rw [failed] at read
    cases read
  · intro unread
    cases outcome : (Json.object query).command with
    | ok command => exact absurd ⟨command, outcome⟩ unread
    | error failure =>
      obtain ⟨what, rfl⟩ := command_rejects outcome
      exact ⟨what, rfl⟩

/-- A payload names one command. -/
theorem Query.Names.unique {verb' : Verb} (names : query.Names verb) (names' : query.Names verb') :
    verb = verb' := by
  obtain ⟨value, found, named⟩ := names
  obtain ⟨value', found', named'⟩ := names'
  rw [found, Option.some.injEq] at found'
  subst found'
  exact Option.some.inj (named.symm.trans named')

/-- A transaction is refused when its payload is. -/
theorem apply_refused {sha : Sha512} {env : Env} {memory : Memory} (live : env.Live)
    (quiet : env.Quiet) (refused : Refused (Json.object query).command) :
    Refused (apply sha (.object query) env memory) := by
  have unread := refused_iff.mp refused
  have sound : ¬ env.Crashes sha memory.state (.object query) := by
    rintro ⟨_, _, command, _, read, _⟩
    exact unread ⟨command, read⟩
  have rejects := (only_rejections live quiet (.object query) memory).mpr sound
  cases ran : apply sha (.object query) env memory with
  | ok result =>
    obtain ⟨_, after⟩ := result
    obtain ⟨_, command, _, read, _⟩ := apply_executed live ran
    exact absurd ⟨command, read⟩ unread
  | error failure =>
    obtain ⟨what, rfl⟩ := rejects failure ran
    exact ⟨what, rfl⟩

/-- A byte string is no value, so that a payload that holds one is not read at all. -/
theorem value_bytes {printFloat : Text → Text} {depth : Nat} {byte : Char} {bytes : Text}
    (major : byte.toNat / 32 = 2) : Cbor.value printFloat depth (byte :: bytes) = none := by
  cases depth with
  | zero => rfl
  | succ depth => simp only [Cbor.value, Cbor.valueWith, major]

/-- Payloads with other values than texts are refused exactly when they are not misread, and texts
that differ are read differently. Byte strings are no values. -/
theorem only_texts_iff (printed : ∀ value, query.find "v".toList = some value →
      ∀ text ∈ value.floats, PrintsNumber text) :
    (query.OnlyTexts ↔ ¬ query.Misread) ∧
    (¬ query.Misread → query.HoldsUntext → ∀ {sha : Sha512} {env : Env} {memory : Memory},
      env.Live → env.Quiet → Refused (apply sha (.object query) env memory)) ∧
    (∀ {other : Query} {id name : String} {left right : Text},
      query.find id.toList = some (.string left) → other.find id.toList = some (.string right) →
      query.getString id name = other.getString id name → left = right) ∧
    ∀ {printFloat : Text → Text} {depth : Nat} {byte : Char} {bytes : Text},
      byte.toNat / 32 = 2 → Cbor.value printFloat depth (byte :: bytes) = none := by
  have spared : ¬ query.Misread → query.OnlyTexts := by
    intro understood untext
    rw [refused_iff, command_reads]
    rintro ⟨verb, names, reads⟩
    rcases untext with ⟨value, found, untext⟩ | ⟨verb', names', untext⟩
    · obtain ⟨value', found', named⟩ := names
      rw [found, Option.some.injEq] at found'
      subst found'
      rw [find_untext untext (printed value found)] at named
      cases named
    · obtain rfl := names.unique names'
      exact understood ⟨verb, names, untext, reads⟩
  refine ⟨⟨?_, spared⟩, ?_, ?_, value_bytes⟩
  · rintro refuses ⟨verb, names, untext, reads⟩
    exact refused_iff.mp (refuses (.inr ⟨verb, names, untext⟩))
      (command_reads.mpr ⟨verb, names, reads⟩)
  · intro understood untext sha env memory live quiet
    exact apply_refused live quiet (spared understood untext)
  · intro other id name left right found found' same
    simp only [Query.getString, Query.getParam, found, found', Except.ok.injEq, Json.dump,
      Json.quoted, Json.trimQuotes_wrapped] at same
    exact Json.escape_injective same

end Payloads

/-! ## Values that are taken for texts -/

/-- A value as the text that is cut out of its print. -/
def Json.asText (value : Json) : Json := .string (trimQuotes value.dump)

/-- A payload with the texts that are cut out of its prints. -/
def Query.asTexts (query : Query) : Query := query.map fun member => (member.1, member.2.asText)

section AsTexts

variable {sha : Sha512} {query query' : Query}

/-- A verb runs alike on parameters that are read alike. -/
theorem run_congr {verb : Verb}
    (same : ∀ id name, query.getString id name = query'.getString id name) :
    verb.run sha query = verb.run sha query' := by
  cases verb
  all_goals
    simp only [Verb.run, sendFunds, registerAddress, registerTransfer, addAskOrder, addBidOrder,
      addOrder, addOffer, addDealOrder, completeDealOrder, lockDealOrder, closeDealOrder, exempt,
      addRepaymentOrder, completeRepaymentOrder, closeRepaymentOrder, collectCoins, housekeeping,
      Query.getStringLower, Query.getBigint, Query.getUint64, same]

/-- A text that is cut out of a print and has nothing to escape is read as that print. -/
theorem trimQuotes_asText {value : Json}
    (plain : Json.escape (trimQuotes value.dump) = trimQuotes value.dump) :
    trimQuotes value.asText.dump = trimQuotes value.dump := by
  rw [Json.asText, Json.dump, Json.quoted, Json.trimQuotes_wrapped, plain]

/-- A value is found as the text that is cut out of its print. -/
theorem find_asTexts {id : Text} : query.asTexts.find id = (query.find id).map Json.asText := by
  simp only [Query.find, Query.asTexts, List.find?_map, Option.map_map]
  rfl

/-- A payload whose prints have nothing to escape between their ends is executed as if it held the
texts that are cut out of them. -/
theorem apply_asTexts (plain : ∀ member ∈ query,
      Json.escape (trimQuotes member.2.dump) = trimQuotes member.2.dump) :
    apply sha (.object query) = apply sha (.object query.asTexts) := by
  have read {id : Text} {value : Json} (found : query.find id = some value) :
      trimQuotes value.asText.dump = trimQuotes value.dump := by
    obtain ⟨member, listed, rfl⟩ := Option.map_eq_some_iff.mp found
    exact trimQuotes_asText (plain member (List.mem_of_find?_eq_some listed))
  have same (id name : String) : query.getString id name = query.asTexts.getString id name := by
    simp only [Query.getString, Query.getParam, find_asTexts]
    cases found : query.find id.toList with
    | none => rfl
    | some value => simp only [Option.map_some, read found]
  have commands (cmd : Text) : applyCommand sha cmd query = applyCommand sha cmd query.asTexts := by
    have runs (verb : Verb) : verb.run sha query = verb.run sha query.asTexts := run_congr same
    simp only [applyCommand, runs]
  cases found : query.find "v".toList with
  | none => simp only [apply, cborToParams, find_asTexts, found, Option.map_none]
  | some value =>
    simp only [apply, cborToParams, find_asTexts, found, Option.map_some, read found]
    show (Exec.asksExcept _ >>= fun _ => applyCommand sha _ query) =
      (Exec.asksExcept _ >>= fun _ => applyCommand sha _ query.asTexts)
    rw [commands]

end AsTexts

/-! ## An amount that is a number -/

/-- The chain on which the investor has coins. -/
def coinsChain : Chain := (Chain.empty 2).plays sample sampleNode [collect investorKey "1"]

/-- The investor sends coins on that chain. -/
def coinsEnv : Env := coinsChain.serve sampleNode investorKey "2".toList

/-- The parameters of a `SendFunds` to the fundraiser. -/
def coinsQuery (amount : Json) : Query :=
  [("p1".toList, amount), ("p2".toList, .string (sample.id fundraiserKey)),
    ("v".toList, .string "SendFunds".toList)]

/-- The amount is no text. -/
theorem coinsQuery_untext {amount : Json} (untext : amount.isText = false) :
    (coinsQuery amount).HasUntext .sendFunds :=
  ⟨("p1", .amount), List.mem_cons_self, amount, rfl, untext⟩

/-- The command is named by a text. -/
theorem coinsQuery_names (amount : Json) : (coinsQuery amount).Names .sendFunds :=
  ⟨.string "SendFunds".toList, rfl, by decide +kernel⟩

/-- An amount that is a truth value is refused. -/
theorem only_texts_sample :
    Refused (apply sample (.object (coinsQuery (.boolean true))) coinsEnv
      ⟨coinsChain.context, ∅⟩) := by
  have printed : ∀ value, (coinsQuery (.boolean true)).find "v".toList = some value →
      ∀ text ∈ value.floats, PrintsNumber text := by
    rintro value found text listed
    cases found
    cases listed
  have understood : ¬ (coinsQuery (.boolean true)).Misread := by
    rintro ⟨verb, names, _, reads⟩
    obtain rfl := names.unique (coinsQuery_names _)
    obtain ⟨value, found, amount, numeral, _⟩ := reads ("p1", .amount) List.mem_cons_self
    cases found
    cases numeral
  exact (only_texts_iff printed).2.1 understood
    (.inr ⟨.sendFunds, coinsQuery_names _, coinsQuery_untext rfl⟩)
    (Chain.serve_serves investorKey "2".toList).live (sampleNode_quiet _ _ _)

/-- An amount that is a number loses its ends and is sent. -/
theorem number_sent :
    ¬ ∀ (sha : Sha512) (tip : UInt64) (steps : List ChainStep) (chain : Chain) (env : Env)
      (query : Query), ChainRun sha tip steps chain → chain.Serves env → env.Quiet →
      query.HoldsUntext → Refused (apply sha (.object query) env ⟨chain.context, ∅⟩) := by
  intro claim
  have sent : Accepts sample coinsEnv coinsChain.context
      (.object (coinsQuery (.integer 12345))) := by
    decide +kernel
  obtain ⟨memory, ran⟩ := sent
  obtain ⟨what, refused⟩ : Refused (apply sample (.object (coinsQuery (.integer 12345))) coinsEnv
      ⟨coinsChain.context, ∅⟩) :=
    claim sample 2 _ _ coinsEnv (coinsQuery (.integer 12345)) Chain.steps_run
      (Chain.serve_serves investorKey "2".toList) (sampleNode_quiet _ _ _)
      (.inr ⟨.sendFunds, coinsQuery_names _, coinsQuery_untext rfl⟩)
  rw [ran] at refused
  cases refused

end Creditcoin
