import Creditcoin.Query

/-!
# State keys

Every record lives under a key made of the namespace of the family, four characters that say
what kind of record it is, and sixty hexadecimal digits. The digits come from SHA-512, which
is a parameter: what is used of it is the shape of its digests and the six digits of the
namespace. Records of one kind are found by the first ten characters of their keys.
-/

namespace Creditcoin

/-- SHA-512 with its digest in lower case hexadecimal. -/
structure Sha512 where
  /-- `sha512`. -/
  digest : Text → Text
  /-- A digest has 512 bits. -/
  digest_length : ∀ message, (digest message).length = 128
  /-- A digest is lower case hexadecimal. -/
  digest_isHex : ∀ message, Text.isHex (digest message) = true
  /-- The digest of the family name starts with the namespace. -/
  digest_namespace : (digest "CREDITCOIN".toList).take 6 = "8a1a04".toList

/-- What a record is, by the code in its key. -/
inductive Kind where
  /-- `WALLET`. -/
  | wallet
  /-- `ADDR`. -/
  | addr
  /-- `TRANSFER`. -/
  | transfer
  /-- `ASK_ORDER`. -/
  | askOrder
  /-- `BID_ORDER`. -/
  | bidOrder
  /-- `DEAL_ORDER`. -/
  | dealOrder
  /-- `REPAYMENT_ORDER`. -/
  | repaymentOrder
  /-- `OFFER`. -/
  | offer
  /-- `ERC20`. -/
  | erc20
  /-- `PROCESSED_BLOCK`. -/
  | processedBlock
  /-- `FEE`. -/
  | fee
deriving DecidableEq

/-- The four characters of a kind. -/
def Kind.code : Kind → Text
  | .wallet => "0000".toList
  | .addr => "1000".toList
  | .transfer => "2000".toList
  | .askOrder => "3000".toList
  | .bidOrder => "4000".toList
  | .dealOrder => "5000".toList
  | .repaymentOrder => "6000".toList
  | .offer => "7000".toList
  | .erc20 => "8000".toList
  | .processedBlock => "9000".toList
  | .fee => "0100".toList

/-- All kinds. -/
def Kind.all : List Kind :=
  [.wallet, .addr, .transfer, .askOrder, .bidOrder, .dealOrder, .repaymentOrder, .offer, .erc20,
    .processedBlock, .fee]

/-- `PROCESSED_BLOCK_ID`. -/
def processedBlockId : Text := List.replicate 60 '0'

/-- `TX_FEE`. -/
def txFee : Int := 10000000000000000

/-- `compress`. -/
def compress (uncompressed : Text) : Except Exception Text :=
  let marker := uncompressed.take 2
  if uncompressed.length = 2 * (1 + 2 * 32) ∧ Text.isHex uncompressed ∧ marker = "04".toList then
    let x := (uncompressed.drop 2).take (2 * 32)
    let yLast := (uncompressed.drop (2 * (1 + 32 + 31))).take 2
    match readDigits 16 0 yLast with
    | some last => .ok (if last % 2 = 0 then "02".toList ++ x else "03".toList ++ x)
    | none => .error (rejection "Unexpected public key format")
  else if (marker = "02".toList ∨ marker = "03".toList) ∧ uncompressed.length = 66 then
    .ok uncompressed
  else .error (rejection "Unexpected public key format")

namespace Sha512

variable (sha : Sha512)

/-- `sha512id`: the last sixty digits of a digest. -/
def id (message : Text) : Text := (sha.digest message).drop 68

/-- `namespacePrefix`. -/
def namespacePrefix : Text := (sha.digest "CREDITCOIN".toList).take 6

/-- `namespacePrefix + kind`, which every key of the kind starts with. -/
def space (kind : Kind) : Text := sha.namespacePrefix ++ kind.code

/-- `makeAddress`. -/
def makeAddress (kind : Kind) (key : Text) : Text := sha.space kind ++ sha.id key

/-- `namespacePrefix + WALLET + sighash`. -/
def walletId (sighash : Text) : Text := sha.space .wallet ++ sighash

/-- `namespacePrefix + PROCESSED_BLOCK + PROCESSED_BLOCK_ID`. -/
def processedBlockIdx : Text := sha.space .processedBlock ++ processedBlockId

/-- The kind a key belongs to. -/
def kindOf (key : Text) : Option Kind := Kind.all.find? fun kind => key.startsWith (sha.space kind)

end Sha512

/-! ## Shapes of keys -/

/-- Every kind is listed. -/
theorem Kind.mem_all (kind : Kind) : kind ∈ Kind.all := by cases kind <;> decide

/-- Codes have four characters. -/
@[simp] theorem Kind.code_length (kind : Kind) : kind.code.length = 4 := by cases kind <;> rfl

/-- Codes tell kinds apart. -/
theorem Kind.code_injective {left right : Kind} (same : left.code = right.code) :
    left = right := by
  revert left right
  have apart : ∀ left ∈ Kind.all, ∀ right ∈ Kind.all, left.code = right.code → left = right := by
    decide
  intro left right same
  exact apart left left.mem_all right right.mem_all same

namespace Sha512

variable (sha : Sha512)

/-- The namespace in characters. -/
theorem namespacePrefix_eq : sha.namespacePrefix = "8a1a04".toList := sha.digest_namespace

/-- An identifier has sixty characters. -/
@[simp] theorem id_length (message : Text) : (sha.id message).length = 60 := by
  rw [id, List.length_drop, sha.digest_length]

/-- An identifier is lower case hexadecimal. -/
theorem id_isHex (message : Text) : Text.isHex (sha.id message) = true := by
  have all := sha.digest_isHex message
  rw [Text.isHex, List.all_eq_true] at all ⊢
  intro c listed
  exact all c (List.mem_of_mem_drop listed)

/-- An identifier is not empty. -/
@[simp] theorem id_ne_nil (message : Text) : sha.id message ≠ [] := by
  intro empty
  have length := sha.id_length message
  rw [empty] at length
  cases length

/-- The start of a key has ten characters. -/
@[simp] theorem space_length (kind : Kind) : (sha.space kind).length = 10 := by
  rw [space, List.length_append, sha.namespacePrefix_eq, Kind.code_length]
  rfl

/-- The start of a key tells kinds apart. -/
theorem space_injective {left right : Kind} (same : sha.space left = sha.space right) :
    left = right :=
  Kind.code_injective (List.append_cancel_left same)

/-- A made key has seventy characters. -/
@[simp] theorem makeAddress_length (kind : Kind) (key : Text) :
    (sha.makeAddress kind key).length = 70 := by
  simp [makeAddress]

/-- The key of the marker has seventy characters. -/
theorem processedBlockIdx_length : sha.processedBlockIdx.length = 70 := by
  rw [processedBlockIdx, List.length_append, sha.space_length]
  rfl

/-- A key of a kind. -/
theorem kindOf_eq_some {key : Text} {kind : Kind} :
    sha.kindOf key = some kind ↔ ∃ rest, key = sha.space kind ++ rest := by
  rw [kindOf]
  constructor
  · intro found
    have matched := List.find?_some found
    exact Text.startsWith_iff.mp matched
  · rintro ⟨rest, rfl⟩
    have starts : Text.startsWith (sha.space kind ++ rest) (sha.space kind) = true :=
      Text.startsWith_iff.mpr ⟨rest, rfl⟩
    cases found : Kind.all.find? fun kind' => Text.startsWith (sha.space kind ++ rest)
        (sha.space kind') with
    | none =>
      have none := List.find?_eq_none.mp found kind kind.mem_all
      exact absurd starts none
    | some other =>
      have matched := List.find?_some found
      obtain ⟨suffix, split⟩ := Text.startsWith_iff.mp matched
      have same : sha.space kind = sha.space other :=
        List.append_inj_left split (by rw [sha.space_length, sha.space_length])
      rw [sha.space_injective same]

/-- A key of a kind, as the source tests it. -/
theorem kindOf_eq_some_iff_startsWith {key : Text} {kind : Kind} :
    sha.kindOf key = some kind ↔ key.startsWith (sha.space kind) = true := by
  rw [sha.kindOf_eq_some, Text.startsWith_iff]

/-- A made key belongs to its kind. -/
@[simp] theorem kindOf_makeAddress (kind : Kind) (key : Text) :
    sha.kindOf (sha.makeAddress kind key) = some kind :=
  sha.kindOf_eq_some.mpr ⟨_, rfl⟩

/-- A wallet key belongs to the wallets. -/
@[simp] theorem kindOf_walletId (sighash : Text) :
    sha.kindOf (sha.walletId sighash) = some .wallet :=
  sha.kindOf_eq_some.mpr ⟨_, rfl⟩

/-- The marker key belongs to the marker. -/
@[simp] theorem kindOf_processedBlockIdx :
    sha.kindOf sha.processedBlockIdx = some .processedBlock :=
  sha.kindOf_eq_some.mpr ⟨_, rfl⟩

/-- A key that starts with a line feed is of no kind. -/
theorem kindOf_line {key : Text} (head : key.head? = some '\n') : sha.kindOf key = none := by
  cases kind : sha.kindOf key with
  | none => rfl
  | some found =>
    obtain ⟨rest, rfl⟩ := sha.kindOf_eq_some.mp kind
    rw [space, namespacePrefix_eq] at head
    cases head

/-- Keys of different kinds differ. -/
theorem ne_of_kindOf_ne {left right : Text} (different : sha.kindOf left ≠ sha.kindOf right) :
    left ≠ right := by
  rintro rfl
  exact different rfl

/-- Wallet keys tell owners apart. -/
theorem walletId_injective {left right : Text} (same : sha.walletId left = sha.walletId right) :
    left = right :=
  List.append_cancel_left same

/-- Made keys of one kind tell identifiers apart. -/
theorem makeAddress_injective {kind : Kind} {left right : Text}
    (same : sha.makeAddress kind left = sha.makeAddress kind right) : sha.id left = sha.id right :=
  List.append_cancel_left same

/-- A key of the namespace is no literal. -/
theorem cppInt_of_kindOf {key : Text} {kind : Kind} (found : sha.kindOf key = some kind) :
    cppInt key = none := by
  obtain ⟨rest, rfl⟩ := sha.kindOf_eq_some.mp found
  rw [space, namespacePrefix_eq]
  exact cppInt_eight_letter _

end Sha512

end Creditcoin
