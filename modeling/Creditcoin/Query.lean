import Creditcoin.Numeral

/-!
# Command parameters

A command arrives as a decoded CBOR object. A parameter is taken from the object as its
printed JSON text with the first and the last character cut off, so that a string parameter
is read with its escapes and every other value is read without its first and last printed
character; the assertion that would refuse the latter is compiled out of a release build.
-/

namespace Creditcoin

/-- What a command leaves by. -/
inductive Exception where
  /-- `sawtooth::InvalidTransaction`. -/
  | invalidTransaction (what : Text)
  /-- Any other `std::exception`. -/
  | standard (what : Text)
deriving DecidableEq

/-- A rejection with a fixed message. -/
def rejection (message : String) : Exception := .invalidTransaction message.toList

/-- A decoded CBOR value, as `nlohmann::json` holds it. -/
inductive Json where
  /-- `null`. -/
  | null
  /-- A boolean. -/
  | boolean (value : Bool)
  /-- An integer. -/
  | integer (value : Int)
  /-- A floating point number, by its printed text. -/
  | float (printed : Text)
  /-- A string. -/
  | string (value : Text)
  /-- An array. -/
  | array (values : List Json)
  /-- An object, its members in key order. -/
  | object (members : List (Text × Json))

namespace Json

/-- How a character of a string is printed. -/
def escapeChar (c : Char) : Text :=
  if c = '"' then ['\\', '"']
  else if c = '\\' then ['\\', '\\']
  else if c = '\x08' then ['\\', 'b']
  else if c = '\x0c' then ['\\', 'f']
  else if c = '\n' then ['\\', 'n']
  else if c = '\r' then ['\\', 'r']
  else if c = '\t' then ['\\', 't']
  else if c.toNat < 32 then
    ['\\', 'u', '0', '0', Nat.digitChar (c.toNat / 16), Nat.digitChar (c.toNat % 16)]
  else [c]

/-- How a string is printed, without its quotes. -/
def escape (text : Text) : Text := text.flatMap escapeChar

/-- A printed string. -/
def quoted (text : Text) : Text := '"' :: (escape text ++ ['"'])

mutual

/-- `dump()`. -/
def dump : Json → Text
  | .null => "null".toList
  | .boolean value => if value then "true".toList else "false".toList
  | .integer value => toText value
  | .float printed => printed
  | .string value => quoted value
  | .array values => '[' :: (dumpElements values ++ [']'])
  | .object members => '\x7b' :: (dumpMembers members ++ ['\x7d'])

/-- Printed elements, with commas between them. -/
def dumpElements : List Json → Text
  | [] => []
  | [value] => dump value
  | value :: next :: rest => dump value ++ ',' :: dumpElements (next :: rest)

/-- Printed members, with commas between them. -/
def dumpMembers : List (Text × Json) → Text
  | [] => []
  | [(key, value)] => quoted key ++ ':' :: dump value
  | (key, value) :: next :: rest =>
    quoted key ++ ':' :: dump value ++ ',' :: dumpMembers (next :: rest)

end

/-- A printed text never holds a control character of its own. -/
theorem escape_printable (text : Text) : ∀ c ∈ escape text, 32 ≤ c.toNat := by
  intro c listed
  obtain ⟨source, _, listed⟩ := List.mem_flatMap.mp listed
  unfold escapeChar at listed
  have digits : ∀ digit < 16, 32 ≤ (Nat.digitChar digit).toNat := by decide
  repeat' split at listed
  all_goals try (simp only [List.mem_cons, List.not_mem_nil, or_false] at listed)
  · rcases listed with rfl | rfl <;> decide
  · rcases listed with rfl | rfl <;> decide
  · rcases listed with rfl | rfl <;> decide
  · rcases listed with rfl | rfl <;> decide
  · rcases listed with rfl | rfl <;> decide
  · rcases listed with rfl | rfl <;> decide
  · rcases listed with rfl | rfl <;> decide
  · rename_i control
    rcases listed with rfl | rfl | rfl | rfl | rfl | rfl
    · decide
    · decide
    · decide
    · decide
    · exact digits _ (by omega)
    · exact digits _ (by omega)
  · subst listed
    omega

end Json

/-- The object that holds the parameters of a command. -/
abbrev Query : Type := List (Text × Json)

/-- `getBigint(bigint, allowNegative)`. -/
def getBigint (bigint : Text) (allowNegative : Bool) : Except Exception Int :=
  match cppInt bigint with
  | none => .error (rejection "Invalid number format")
  | some value =>
    if !allowNegative && value < 0 then .error (rejection "Expecting a positive value")
    else .ok value

/-- `trimQuotes`, in a release build. -/
def trimQuotes (quotedStr : Text) : Text := (quotedStr.drop 1).take (quotedStr.length - 2)

namespace Query

/-- `query.find(id)`. -/
def find (query : Query) (id : Text) : Option Json :=
  (List.find? (fun member => member.1 == id) query).map Prod.snd

/-- `getParam`. -/
def getParam (query : Query) (id name : String) : Except Exception Text :=
  match query.find id.toList with
  | none => .error (.invalidTransaction ("Expecting ".toList ++ name.toList))
  | some param => .ok param.dump

/-- `getString`. -/
def getString (query : Query) (id name : String) : Except Exception Text :=
  match query.getParam id name with
  | .ok param => .ok (trimQuotes param)
  | .error failure => .error failure

/-- `getStringLower`. -/
def getStringLower (query : Query) (id name : String) : Except Exception Text :=
  match query.getString id name with
  | .ok text => .ok text.toLower
  | .error failure => .error failure

/-- `getBigint(query, id, name, value)`: the text and the value it stands for. -/
def getBigint (query : Query) (id name : String) : Except Exception (Text × Int) :=
  match query.getString id name with
  | .ok text =>
    match Creditcoin.getBigint text false with
    | .ok value => .ok (text, value)
    | .error failure => .error failure
  | .error failure => .error failure

/-- `getUint64`. -/
def getUint64 (query : Query) (id name : String) : Except Exception UInt64 :=
  match query.getString id name with
  | .ok text =>
    match parseUint64 text with
    | some number => .ok number
    | none => .error (rejection "Invalid number")
  | .error failure => .error failure

end Query

/-! ## What was read -/

/-- A literal that stands for an amount. -/
def IsAmount (text : Text) (amount : Int) : Prop := cppInt text = some amount ∧ 0 ≤ amount

/-- An accepted amount is a literal that does not stand for a negative number. -/
theorem getBigint_ok {text : Text} {value : Int} :
    getBigint text false = .ok value ↔ IsAmount text value := by
  unfold getBigint IsAmount
  cases read : cppInt text with
  | none => simp
  | some found =>
    by_cases negative : found < 0
    · have refused : ¬ (0 : Int) ≤ found := by omega
      simp only [Bool.not_false, negative, decide_true, Bool.and_true, if_true, reduceCtorEq,
        Option.some.injEq, false_iff, not_and]
      rintro rfl
      exact refused
    · have accepted : (0 : Int) ≤ found := by omega
      simp only [negative, decide_false, Bool.and_false, if_false, Except.ok.injEq,
        Option.some.injEq, Bool.false_eq_true]
      constructor
      · rintro rfl
        exact ⟨rfl, accepted⟩
      · exact fun found => found.1

/-- A signed amount is any literal. -/
theorem getBigint_signed_ok {text : Text} {value : Int} :
    getBigint text true = .ok value ↔ cppInt text = some value := by
  unfold getBigint
  cases read : cppInt text with
  | none => simp
  | some found => simp

namespace Query

variable {query : Query} {id name : String}

/-- A numeral parameter is a string parameter that holds an accepted amount. -/
theorem getBigint_ok {result : Text × Int} :
    query.getBigint id name = .ok result ↔
      query.getString id name = .ok result.1 ∧ IsAmount result.1 result.2 := by
  unfold getBigint
  cases read : query.getString id name with
  | error failure => simp
  | ok text =>
    obtain ⟨found, value⟩ := result
    cases parsed : Creditcoin.getBigint text false with
    | error failure =>
      simp only [parsed, reduceCtorEq, Except.ok.injEq, false_iff, not_and]
      rintro rfl accepted
      rw [Creditcoin.getBigint_ok.mpr accepted] at parsed
      cases parsed
    | ok number =>
      have accepted := Creditcoin.getBigint_ok.mp parsed
      simp only [parsed, Except.ok.injEq, Prod.mk.injEq]
      constructor
      · rintro ⟨rfl, rfl⟩
        exact ⟨rfl, accepted⟩
      · rintro ⟨rfl, again⟩
        have again := again.1
        rw [accepted.1] at again
        exact ⟨rfl, Option.some.inj again⟩

/-- A lower case parameter is a string parameter in lower case. -/
theorem getStringLower_ok {text : Text} :
    query.getStringLower id name = .ok text ↔
      ∃ original, query.getString id name = .ok original ∧ original.toLower = text := by
  unfold getStringLower
  cases read : query.getString id name with
  | error failure => simp
  | ok original => simp

end Query

end Creditcoin
