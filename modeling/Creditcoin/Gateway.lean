import Creditcoin.Context

/-!
# Requests to the gateway

A payment on another blockchain is checked by a gateway, which receives a line of text and
answers in one word. The processor writes the line by concatenation and the gateway splits it
at every white-space character; the first word chooses a plugin, and every plugin reads its
arguments by position. What the plugin reads is what the processor wrote exactly when no
written word holds white space.
-/

namespace Creditcoin

open Lib

/-! ## The processor's side -/

/-- The request of `CollectCoins`. -/
def collectCoinsCommand (ethAddress mySighash amountString blockchainTxId : Text) : Text :=
  "ethereum verify ".toList ++ ethAddress ++ " creditcoin ".toList ++ mySighash ++ " ".toList ++
    amountString ++ " ".toList ++ blockchainTxId ++ " unused".toList

/-- The request of `RegisterTransfer`. -/
def registerTransferCommand (srcAddress dstAddress : Address)
    (orderId amountString blockchainTxId : Text) : Text :=
  srcAddress.blockchain ++ " verify ".toList ++ srcAddress.value ++ " ".toList ++
    dstAddress.value ++ " ".toList ++ orderId ++ " ".toList ++ amountString ++ " ".toList ++
    blockchainTxId ++ " ".toList ++ srcAddress.network

/-- What the gateways answer: the external gateway is asked when the local one is silent or has
no plugin. -/
def Env.gatewayResponse (env : Env) (gatewayCommand : Text) : Except Exception Text :=
  match env.localGateway gatewayCommand with
  | .error failure => .error failure
  | .ok answer =>
    let response := answer.getD []
    if response.isEmpty ∨ response = "miss".toList then
      if env.externalGatewayAddress.isEmpty then .ok response
      else
        match env.externalGateway gatewayCommand with
        | .error failure => .error failure
        | .ok answer => .ok (answer.getD response)
    else .ok response

/-- A gateway accepted a request. -/
def Env.Verified (env : Env) (gatewayCommand : Text) : Prop :=
  env.gatewayResponse gatewayCommand = .ok "good".toList

/-- `verify`. -/
def verify (gatewayCommand : Text) : App Unit := do
  let transitioning ← Exec.asks fun env => env.ctx.transitioning
  if transitioning then pure ()
  else do
    let response ← Exec.asksExcept fun env => env.gatewayResponse gatewayCommand
    Exec.failIf (response ≠ "good".toList) (rejection "Couldn't validate the transaction")

/-- A request passes when a gateway accepts it. -/
theorem verify_ok {env : Env} (live : env.Live) {memory after : Memory} {gatewayCommand : Text}
    {result : Unit} : verify gatewayCommand env memory = .ok (result, after) ↔
      env.Verified gatewayCommand ∧ after = memory := by
  simp only [verify, Exec.bind_ok, Exec.asks_ok, live.transitioning, existsAndEq, true_and,
    Bool.false_eq_true, if_false, Exec.asksExcept_ok, Exec.failIf_ok, not_not, and_assoc,
    Env.Verified]

/-! ## The gateway's side -/

/-- `Char.IsWhiteSpace`. -/
def isWhiteSpace (c : Char) : Bool :=
  (9 ≤ c.toNat && c.toNat ≤ 13) || c.toNat = 32 || c.toNat = 0x85 || c.toNat = 0xa0 ||
    c.toNat = 0x1680 || (0x2000 ≤ c.toNat && c.toNat ≤ 0x200a) || c.toNat = 0x2028 ||
    c.toNat = 0x2029 || c.toNat = 0x202f || c.toNat = 0x205f || c.toNat = 0x3000

/-- `requestString.Split()`: empty words are kept. -/
def split (requestString : Text) : List Text := requestString.splitOnP isWhiteSpace

/-- What a plugin reads from the request to verify a payment. -/
structure Verification where
  /-- The plugin that was chosen. -/
  action : Text
  /-- `command[1]`. -/
  sourceAddressString : Text
  /-- `command[2]`. -/
  destinationAddressString : Text
  /-- `command[3]`. -/
  proof : Text
  /-- `command[4]`. -/
  destinationAmount : Text
  /-- `command[5]`. -/
  txId : Text
  /-- `command[6]`. -/
  network : Text
deriving DecidableEq

/-- What `Main` hands to a plugin and the plugin reads; none where the request has too few words
or another verb. -/
def readVerification (requestString : Text) : Option Verification :=
  match split requestString with
  | action :: verb :: source :: destination :: proof :: amount :: txId :: network :: _ =>
    if verb = "verify".toList then some ⟨action, source, destination, proof, amount, txId, network⟩
    else none
  | _ => none

/-! ## Both sides together -/

/-- A text that is one word. -/
def OneWord (text : Text) : Prop := ∀ c ∈ text, isWhiteSpace c = false

/-- A verification every part of which is one word. -/
structure Verification.Plain (verification : Verification) : Prop where
  /-- The plugin is one word. -/
  action : OneWord verification.action
  /-- The source is one word. -/
  source : OneWord verification.sourceAddressString
  /-- The destination is one word. -/
  destination : OneWord verification.destinationAddressString
  /-- The order is one word. -/
  proof : OneWord verification.proof
  /-- The amount is one word. -/
  amount : OneWord verification.destinationAmount
  /-- The transaction is one word. -/
  txId : OneWord verification.txId
  /-- The network is one word. -/
  network : OneWord verification.network

/-- The words of a verification with a space between them. -/
def Verification.line (verification : Verification) : Text :=
  verification.action ++ ' ' :: ("verify".toList ++ ' ' :: (verification.sourceAddressString ++
    ' ' :: (verification.destinationAddressString ++ ' ' :: (verification.proof ++
    ' ' :: (verification.destinationAmount ++ ' ' :: (verification.txId ++
    ' ' :: verification.network))))))

/-- A split off word holds no white space. -/
theorem oneWord_of_mem_split {requestString word : Text} (listed : word ∈ split requestString) :
    OneWord word := by
  rw [split] at listed
  induction requestString generalizing word with
  | nil =>
    rw [List.splitOnP_nil, List.mem_singleton] at listed
    subst listed
    intro c member
    cases member
  | cons c rest ih =>
    rw [List.splitOnP_cons_eq_if_modifyHead] at listed
    by_cases space : isWhiteSpace c = true
    · rw [if_pos space] at listed
      rcases List.mem_cons.mp listed with rfl | listed
      · intro c member
        cases member
      · exact ih listed
    · rw [if_neg space] at listed
      cases words : rest.splitOnP isWhiteSpace with
      | nil => exact absurd words (List.splitOnP_ne_nil _ _)
      | cons first others =>
        rw [words, List.modifyHead_cons] at listed
        rcases List.mem_cons.mp listed with rfl | listed
        · intro other member
          rcases List.mem_cons.mp member with rfl | member
          · exact Bool.eq_false_iff.mpr space
          · exact ih (by rw [words]; exact List.mem_cons_self) other member
        · exact ih (by rw [words]; exact List.mem_cons_of_mem _ listed)

/-- The first word of a line is split off at the first space. -/
theorem split_cons {word : Text} (plain : OneWord word) (rest : Text) :
    split (word ++ ' ' :: rest) = word :: split rest :=
  List.splitOnP_append_cons_of_forall_mem plain ' ' (by decide) rest

/-- A line of one word is not split. -/
theorem split_single {word : Text} (plain : OneWord word) : split word = [word] :=
  List.splitOnP_eq_singleton plain

/-- What was written is read exactly when every part is one word. -/
theorem readVerification_line (verification : Verification) :
    readVerification verification.line = some verification ↔ verification.Plain := by
  constructor
  · intro read
    unfold readVerification at read
    split at read
    · rename_i action verb source destination proof amount txId network rest words
      split at read
      · have same := Option.some.inj read
        have plain (word : Text) (member : word ∈ split verification.line) : OneWord word :=
          oneWord_of_mem_split member
        rw [words] at plain
        subst same
        exact ⟨plain action (by simp), plain source (by simp), plain destination (by simp),
          plain proof (by simp), plain amount (by simp), plain txId (by simp),
          plain network (by simp)⟩
      · cases read
    · cases read
  · intro plain
    have verb : OneWord "verify".toList := Text.all_holds (by decide)
    have words : split verification.line = [verification.action, "verify".toList,
        verification.sourceAddressString, verification.destinationAddressString,
        verification.proof, verification.destinationAmount, verification.txId,
        verification.network] := by
      rw [Verification.line, split_cons plain.action, split_cons verb, split_cons plain.source,
        split_cons plain.destination, split_cons plain.proof, split_cons plain.amount,
        split_cons plain.txId, split_single plain.network]
    rw [readVerification, words]
    exact if_pos rfl

/-- What the processor means by a request of `CollectCoins`. -/
def collectCoinsVerification (ethAddress mySighash amountString blockchainTxId : Text) :
    Verification :=
  ⟨"ethereum".toList, ethAddress, "creditcoin".toList, mySighash, amountString, blockchainTxId,
    "unused".toList⟩

/-- What the processor means by a request of `RegisterTransfer`. -/
def registerTransferVerification (srcAddress dstAddress : Address)
    (orderId amountString blockchainTxId : Text) : Verification :=
  ⟨srcAddress.blockchain, srcAddress.value, dstAddress.value, orderId, amountString,
    blockchainTxId, srcAddress.network⟩

/-- A line written part by part. -/
theorem line_eq_append (verification : Verification) :
    verification.line = verification.action ++ (' ' :: ("verify".toList ++ [' '])) ++
      verification.sourceAddressString ++ [' '] ++ verification.destinationAddressString ++
      [' '] ++ verification.proof ++ [' '] ++ verification.destinationAmount ++ [' '] ++
      verification.txId ++ [' '] ++ verification.network := by
  rw [Verification.line]
  generalize "verify".toList = verb
  simp only [List.append_assoc, List.cons_append, List.nil_append]

/-- The request of `CollectCoins` is the line of its meaning. -/
theorem collectCoinsCommand_eq (ethAddress mySighash amountString blockchainTxId : Text) :
    collectCoinsCommand ethAddress mySighash amountString blockchainTxId =
      (collectCoinsVerification ethAddress mySighash amountString blockchainTxId).line := by
  have start : "ethereum verify ".toList = "ethereum".toList ++ (' ' :: ("verify".toList ++ [' '])) :=
    by decide
  have middle : " creditcoin ".toList = [' '] ++ "creditcoin".toList ++ [' '] := by decide
  have last : " unused".toList = [' '] ++ "unused".toList := by decide
  have space : " ".toList = [' '] := by decide
  change "ethereum verify ".toList ++ ethAddress ++ " creditcoin ".toList ++ mySighash ++
    " ".toList ++ amountString ++ " ".toList ++ blockchainTxId ++ " unused".toList = _
  rw [line_eq_append, start, middle, last, space]
  change _ = "ethereum".toList ++ _ ++ ethAddress ++ [' '] ++ "creditcoin".toList ++ [' '] ++
    mySighash ++ [' '] ++ amountString ++ [' '] ++ blockchainTxId ++ [' '] ++ "unused".toList
  simp only [List.append_assoc]

/-- The request of `RegisterTransfer` is the line of its meaning. -/
theorem registerTransferCommand_eq (srcAddress dstAddress : Address)
    (orderId amountString blockchainTxId : Text) :
    registerTransferCommand srcAddress dstAddress orderId amountString blockchainTxId =
      (registerTransferVerification srcAddress dstAddress orderId amountString
        blockchainTxId).line := by
  have verb : " verify ".toList = ' ' :: ("verify".toList ++ [' ']) := by decide
  have space : " ".toList = [' '] := by decide
  rw [line_eq_append, registerTransferCommand, verb, space]
  rfl

/-- The characters of a literal are no white space. -/
theorem oneWord_of_cppInt {text : Text} {value : Int} (read : cppInt text = some value) :
    OneWord text := by
  intro c listed
  have numeral := cppInt_chars read c listed
  simp only [Text.isNumeralChar, List.contains_iff_mem] at numeral
  have dark : ∀ c ∈ "0123456789abcdefABCDEFxX-".toList, isWhiteSpace c = false :=
    Text.all_holds (by decide)
  exact dark c numeral

/-- A hexadecimal text is one word. -/
theorem oneWord_of_isHex {text : Text} (hex : Text.isHex text = true) : OneWord text := by
  intro c listed
  have digit := List.all_eq_true.mp hex c listed
  simp only [Text.isHexDigit, List.contains_iff_mem] at digit
  have dark : ∀ c ∈ "0123456789abcdef".toList, isWhiteSpace c = false :=
    Text.all_holds (by decide)
  exact dark c digit

/-! ## What the gateway verifies -/

/-- The gateway reads from a request of `CollectCoins` what the processor credits and marks. -/
def CollectIntact (ethAddress mySighash amountString blockchainTxId : Text) : Prop :=
  ∃ read, readVerification
      (collectCoinsCommand ethAddress mySighash amountString blockchainTxId) = some read ∧
    read.sourceAddressString = ethAddress ∧
    read.destinationAddressString = "creditcoin".toList ∧ read.proof = mySighash ∧
    read.destinationAmount = amountString ∧ read.txId = blockchainTxId

/-- The gateway reads from a request of `RegisterTransfer` what the processor records. -/
def TransferIntact (srcAddress dstAddress : Address) (orderId amountString blockchainTxId : Text) :
    Prop :=
  readVerification
      (registerTransferCommand srcAddress dstAddress orderId amountString blockchainTxId) =
    some (registerTransferVerification srcAddress dstAddress orderId amountString blockchainTxId)

/-- A request of `CollectCoins` is read as it was meant when the two texts the signer chooses
freely are one word each. -/
theorem collectIntact_iff {ethAddress mySighash amountString blockchainTxId : Text} {amount : Int}
    (sighash : OneWord mySighash) (numeral : IsAmount amountString amount) :
    CollectIntact ethAddress mySighash amountString blockchainTxId ↔
      OneWord ethAddress ∧ OneWord blockchainTxId := by
  constructor
  · rintro ⟨read, found, rfl, -, -, -, rfl⟩
    have words {word : Text} (listed : word ∈ split (collectCoinsCommand read.sourceAddressString
        mySighash amountString read.txId)) : OneWord word := oneWord_of_mem_split listed
    unfold readVerification at found
    split at found
    · rename_i split
      rw [split] at words
      split at found
      · have same := Option.some.inj found
        subst same
        exact ⟨words (by simp), words (by simp)⟩
      · cases found
    · cases found
  · rintro ⟨source, txId⟩
    refine ⟨collectCoinsVerification ethAddress mySighash amountString blockchainTxId, ?_, rfl, rfl,
      rfl, rfl, rfl⟩
    rw [collectCoinsCommand_eq, readVerification_line]
    have action : OneWord "ethereum".toList := Text.all_holds (by decide)
    have destination : OneWord "creditcoin".toList := Text.all_holds (by decide)
    have network : OneWord "unused".toList := Text.all_holds (by decide)
    exact ⟨action, source, destination, sighash, oneWord_of_cppInt numeral.1, txId, network⟩

/-- A request of `RegisterTransfer` is read as it was meant when all of its parts are one word
each. -/
theorem transferIntact_iff {srcAddress dstAddress : Address} {orderId blockchainTxId : Text}
    {amount : Int} :
    TransferIntact srcAddress dstAddress orderId (toText amount) blockchainTxId ↔
      OneWord srcAddress.blockchain ∧ OneWord srcAddress.value ∧ OneWord dstAddress.value ∧
        OneWord orderId ∧ OneWord blockchainTxId ∧ OneWord srcAddress.network := by
  rw [TransferIntact, registerTransferCommand_eq, readVerification_line]
  constructor
  · rintro ⟨action, source, destination, proof, _, txId, network⟩
    exact ⟨action, source, destination, proof, txId, network⟩
  · rintro ⟨action, source, destination, proof, txId, network⟩
    exact ⟨action, source, destination, proof, oneWord_of_cppInt (cppInt_toText amount), txId,
      network⟩

/-- The requests of both commands are read as they were meant exactly when no text that a signer
chooses holds white space. -/
theorem requests_intact (ethAddress mySighash amountString : Text) (amount : Int)
    (burnTxId : Text) (srcAddress dstAddress : Address) (orderId : Text) (paid : Int)
    (paymentTxId : Text) :
    (Text.isHex mySighash = true → IsAmount amountString amount →
      (CollectIntact ethAddress mySighash amountString burnTxId ↔
        OneWord ethAddress ∧ OneWord burnTxId)) ∧
    (TransferIntact srcAddress dstAddress orderId (toText paid) paymentTxId ↔
      OneWord srcAddress.blockchain ∧ OneWord srcAddress.value ∧ OneWord dstAddress.value ∧
        OneWord orderId ∧ OneWord paymentTxId ∧ OneWord srcAddress.network) := by
  constructor
  · intro hex numeral
    exact collectIntact_iff (oneWord_of_isHex hex) numeral
  · exact transferIntact_iff

/-- A burn can be collected again under its identifier and another word. -/
theorem request_not_intact :
    ¬ ∀ (ethAddress mySighash amountString : Text) (amount : Int) (blockchainTxId : Text),
      Text.isHex mySighash = true → IsAmount amountString amount →
      CollectIntact ethAddress mySighash amountString blockchainTxId := by
  intro claim
  have intact := claim "0x1".toList "5e".toList "7".toList 7 "0xb7 again".toList (by decide)
    ⟨by decide, by decide⟩
  have sighash : OneWord "5e".toList := Text.all_holds (by decide)
  have numeral : IsAmount "7".toList 7 := ⟨by decide, by decide⟩
  have plain := ((collectIntact_iff sighash numeral).mp intact).2
  exact absurd (plain ' ' (by decide)) (by decide)

end Creditcoin
