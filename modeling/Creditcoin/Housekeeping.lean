import Creditcoin.Orders
import Creditcoin.Rewards

/-!
# Housekeeping

Every record that expires is visited by a listing of its kind and deleted by the callback of
the listing: open orders and offers without further effect, deal orders without a loan with a
refund of their fee, fee records with a refund of the transaction fee. Then the blocks since
the last processed one are rewarded and the marker of the processed block moves on.
-/

namespace Creditcoin

open Lib

/-! ## Callbacks of the listings -/

/-- The deletion of a record that has expired. -/
def deleteExpired (blockIdx : Int) (expiration : UInt64) (block address : Text) : App Unit := do
  let start ← Exec.lift (getBigint block false)
  let elapsed := blockIdx - start
  if (expiration.toNat : Int) < elapsed then deleteState address else pure ()

/-- The callback for ask and bid orders. -/
def expireOrder (blockIdx : Int) (address protobuf : Text) : App Unit :=
  let order := Order.parseFromString protobuf
  deleteExpired blockIdx order.expiration order.block address

/-- The callback for offers. -/
def expireOffer (blockIdx : Int) (address protobuf : Text) : App Unit :=
  let offer := Offer.parseFromString protobuf
  deleteExpired blockIdx offer.expiration offer.block address

/-- The refund of the fee of a deal order, left out in old replayed blocks. -/
def refundDealOrder (sha : Sha512) (dealOrder : DealOrder) : App Unit := do
  let refunds ← Exec.asks fun env => env.ctx.tip == 0 || env.dealExpFixBlock < env.ctx.tip
  if refunds then do
    let walletId := sha.walletId dealOrder.sighash
    let stateData ← getStateData walletId true
    let wallet := Wallet.parseFromString stateData
    let balance ← Exec.lift (getBigint wallet.amount false)
    let fee ← Exec.lift (getBigint dealOrder.fee false)
    let wallet := { wallet with amount := toText (balance + fee) }
    setStates [(walletId, wallet.serializeToString)]
  else pure ()

/-- The callback for deal orders. -/
def expireDealOrder (sha : Sha512) (blockIdx : Int) (address protobuf : Text) : App Unit := do
  let dealOrder := DealOrder.parseFromString protobuf
  let start ← Exec.lift (getBigint dealOrder.block false)
  let elapsed := blockIdx - start
  if (dealOrder.expiration.toNat : Int) < elapsed ∧ dealOrder.loanTransfer = [] then do
    refundDealOrder sha dealOrder
    deleteState address
  else pure ()

/-- The callback for repayment orders. -/
def expireRepaymentOrder (blockIdx : Int) (address protobuf : Text) : App Unit := do
  let repaymentOrder := RepaymentOrder.parseFromString protobuf
  let start ← Exec.lift (getBigint repaymentOrder.block false)
  let elapsed := blockIdx - start
  if (repaymentOrder.expiration.toNat : Int) < elapsed ∧ repaymentOrder.previousOwner = [] then
    deleteState address
  else pure ()

/-- `cpp_int(std::string)` with the exception it throws. -/
def makeCppInt (text : Text) : Except Exception Int :=
  match cppInt text with
  | some value => .ok value
  | none => .error (.standard "Unexpected content found while parsing character string.".toList)

/-- The callback for fees. -/
def refundFee (sha : Sha512) (blockIdx : Int) (address protobuf : Text) : App Unit := do
  let fee := Fee.parseFromString protobuf
  let start ← Exec.lift (makeCppInt fee.block)
  let elapsed := blockIdx - start
  if yearOfBlocks < elapsed then do
    let walletId := sha.walletId fee.sighash
    let stateData ← getState walletId
    Exec.failIf (stateData = [])
      (.invalidTransaction ("Existing state expected ".toList ++ walletId))
    let wallet := Wallet.parseFromString stateData
    let balance ← Exec.lift (getBigint wallet.amount false)
    let wallet := { wallet with amount := toText (balance + txFee) }
    let stateData := wallet.serializeToString
    -- the pointer overload takes the data first, so the wallet becomes the key
    setStatePointer walletId stateData
    deleteState address
  else pure ()

/-! ## The command -/

/-- `verifyGatewaySigner`. -/
def verifyGatewaySigner (sha : Sha512) : App Unit := do
  let transitioning ← Exec.asks fun env => env.ctx.transitioning
  if transitioning then pure ()
  else do
    let mySighash ← getSighash sha
    let setting ← Exec.asksExcept fun env =>
      match findSetting env.settings "sawtooth.gateway.sighash" with
      | some setting => .ok setting
      | none =>
        match findSetting env.updatedSettings "sawtooth.gateway.sighash" with
        | some setting => .ok setting
        | none => .error (rejection "Gateway sighash is not configured")
    Exec.failIf (mySighash ≠ setting)
      (rejection "Only gateway sighash can perform this operation")

/-- The six listings of `Housekeeping`. -/
def sweep (sha : Sha512) (blockIdx : Int) : App Unit := do
  filter (sha.space .askOrder) (expireOrder blockIdx)
  filter (sha.space .bidOrder) (expireOrder blockIdx)
  filter (sha.space .offer) (expireOffer blockIdx)
  filter (sha.space .dealOrder) (expireDealOrder sha blockIdx)
  filter (sha.space .repaymentOrder) (expireRepaymentOrder blockIdx)
  filter (sha.space .fee) (refundFee sha blockIdx)

/-- `lastProcessedBlockIdx`. -/
def getLastProcessedBlockIdx (sha : Sha512) : App Int := do
  let stateData ← getStateData sha.processedBlockIdx false
  if stateData.isEmpty then pure 0 else Exec.lift (getBigint stateData false)

/-- `Housekeeping`. -/
def housekeeping (sha : Sha512) (query : Query) : App Unit := do
  let (_, blockIdx) ← Exec.lift (query.getBigint "p1" "blockIdx")
  let lastProcessedBlockIdx ← getLastProcessedBlockIdx sha
  if blockIdx = 0 then do
    let head ← lastBlockInt
    if lastProcessedBlockIdx + confirmationCount * 2 + blockRewardProcessingCount < head then do
      reward sha lastProcessedBlockIdx 0
      setState sha.processedBlockIdx (toText (lastProcessedBlockIdx + blockRewardProcessingCount))
    else pure ()
  else do
    verifyGatewaySigner sha
    if blockIdx < confirmationCount * 2 ∨ blockIdx ≤ lastProcessedBlockIdx then pure ()
    else do
      let tip ← lastBlockInt
      if tip - confirmationCount ≤ blockIdx then pure ()
      else do
        sweep sha blockIdx
        reward sha lastProcessedBlockIdx blockIdx
        setState sha.processedBlockIdx (toText blockIdx)

/-! ## What the callbacks do -/

section Effects

variable {sha : Sha512} {env : Env} {memory after : Memory} {query : Query} {blockIdx : Int}
  {address protobuf : Text} {result : Unit}

/-- A record is deleted when it has expired, and must have a block. -/
theorem deleteExpired_ok (live : env.Live) {expiration : UInt64} {block : Text} :
    deleteExpired blockIdx expiration block address env memory = .ok (result, after) ↔
      ∃ start, IsAmount block start ∧
        (((expiration.toNat : Int) < blockIdx - start ∧
            after = { memory with state := memory.state.erase address }) ∨
          (¬ (expiration.toNat : Int) < blockIdx - start ∧ after = memory)) := by
  simp only [deleteExpired, Exec.bind_ok, Exec.lift_ok, getBigint_ok, Exec.ite_ok,
    deleteState_ok live, Exec.pure_ok, existsAndEq, true_and, and_assoc]

/-- A refunded deal order adds its fee to the wallet of the fundraiser. -/
theorem refundDealOrder_ok (live : env.Live) {dealOrder : DealOrder} :
    refundDealOrder sha dealOrder env memory = .ok (result, after) ↔
      ∃ balance fee, Covers sha memory.state dealOrder.sighash 0 balance ∧
        IsAmount dealOrder.fee fee ∧
        after = { memory with state := (memory.state.setAll
          [walletEntry sha memory.state dealOrder.sighash (balance + fee)]) } := by
  simp only [refundDealOrder, Exec.bind_ok, Exec.asks_ok, live.tip, beq_self_eq_true,
    Bool.true_or, Exec.ite_ok, getStateData_existing_ok live, Exec.lift_ok, getBigint_ok,
    setStates_ok live, existsAndEq, true_and, not_true_eq_false, false_and, or_false, and_assoc]
  constructor
  · rintro ⟨present, balance, read, fee, feeRead, rfl⟩
    exact ⟨balance, fee, ⟨present, read.1, read.2, read.2⟩, feeRead, rfl⟩
  · rintro ⟨balance, fee, covers, feeRead, rfl⟩
    exact ⟨covers.present, balance, ⟨covers.read, covers.nonneg⟩, fee, feeRead, rfl⟩

/-- An expired deal order without a loan is refunded and deleted. -/
theorem expireDealOrder_ok (live : env.Live) :
    expireDealOrder sha blockIdx address protobuf env memory = .ok (result, after) ↔
      ∃ start, IsAmount (DealOrder.parseFromString protobuf).block start ∧
        ((((DealOrder.parseFromString protobuf).expiration.toNat < blockIdx - start ∧
              (DealOrder.parseFromString protobuf).loanTransfer = []) ∧
            ∃ balance fee,
              Covers sha memory.state (DealOrder.parseFromString protobuf).sighash 0 balance ∧
              IsAmount (DealOrder.parseFromString protobuf).fee fee ∧
              after = { memory with state := ((memory.state.setAll
                [walletEntry sha memory.state (DealOrder.parseFromString protobuf).sighash
                  (balance + fee)]).erase address) }) ∨
          (¬ ((DealOrder.parseFromString protobuf).expiration.toNat < blockIdx - start ∧
              (DealOrder.parseFromString protobuf).loanTransfer = []) ∧ after = memory)) := by
  simp only [expireDealOrder, Exec.bind_ok, Exec.lift_ok, getBigint_ok, Exec.ite_ok,
    refundDealOrder_ok live, deleteState_ok live, Exec.pure_ok, existsAndEq, exists_const,
    true_and, and_assoc]

/-- An expired repayment order is deleted unless it was accepted. -/
theorem expireRepaymentOrder_ok (live : env.Live) :
    expireRepaymentOrder blockIdx address protobuf env memory = .ok (result, after) ↔
      ∃ start, IsAmount (RepaymentOrder.parseFromString protobuf).block start ∧
        ((((RepaymentOrder.parseFromString protobuf).expiration.toNat < blockIdx - start ∧
              (RepaymentOrder.parseFromString protobuf).previousOwner = []) ∧
            after = { memory with state := memory.state.erase address }) ∨
          (¬ ((RepaymentOrder.parseFromString protobuf).expiration.toNat < blockIdx - start ∧
              (RepaymentOrder.parseFromString protobuf).previousOwner = []) ∧ after = memory)) := by
  simp only [expireRepaymentOrder, Exec.bind_ok, Exec.lift_ok, getBigint_ok, Exec.ite_ok,
    deleteState_ok live, Exec.pure_ok, existsAndEq, true_and, and_assoc]

/-- The exception aside, `cpp_int` is the literal reader. -/
theorem makeCppInt_ok {text : Text} {value : Int} :
    makeCppInt text = .ok value ↔ cppInt text = some value := by
  unfold makeCppInt
  cases read : cppInt text with
  | some found => simp
  | none => simp

/-- A due fee record is deleted, and the raised wallet is written as a key. -/
theorem refundFee_ok (live : env.Live) :
    refundFee sha blockIdx address protobuf env memory = .ok (result, after) ↔
      ∃ start, cppInt (Fee.parseFromString protobuf).block = some start ∧
        ((yearOfBlocks < blockIdx - start ∧ ∃ balance,
            Covers sha memory.state (Fee.parseFromString protobuf).sighash 0 balance ∧
            after = { memory with state := ((memory.state.set
              (walletEntry sha memory.state (Fee.parseFromString protobuf).sighash
                (balance + txFee)).2
              (sha.walletId (Fee.parseFromString protobuf).sighash)).erase address) }) ∨
          (¬ yearOfBlocks < blockIdx - start ∧ after = memory)) := by
  simp only [refundFee, Exec.bind_ok, Exec.lift_ok, makeCppInt_ok, getState_ok live,
    Exec.failIf_ok, getBigint_ok, Exec.ite_ok, setStatePointer_ok live, deleteState_ok live,
    Exec.pure_ok, existsAndEq, exists_const, true_and, and_assoc]
  constructor
  · rintro ⟨start, read, ⟨due, present, balance, balanceRead, rfl⟩ | kept⟩
    · exact ⟨start, read, .inl ⟨due, balance,
        ⟨present, balanceRead.1, balanceRead.2, balanceRead.2⟩, rfl⟩⟩
    · exact ⟨start, read, .inr kept⟩
  · rintro ⟨start, read, ⟨due, balance, covers, rfl⟩ | kept⟩
    · exact ⟨start, read, .inl ⟨due, covers.present, balance, ⟨covers.read, covers.nonneg⟩, rfl⟩⟩
    · exact ⟨start, read, .inr kept⟩

/-! ## What the command does to the ledger -/

/-- A listing is a sequence of the writes of its callback. -/
theorem filter_swept (live : env.Live) {start : Text} {lister : Text → Text → App Unit}
    (writes : ∀ key value before later, Listed env start key value →
      lister key value env before = .ok ((), later) →
      Relation.ReflTransGen (Swept sha env blockIdx) before.state later.state)
    (ran : filter start lister env memory = .ok ((), after)) :
    Relation.ReflTransGen (Swept sha env blockIdx) memory.state after.state := by
  obtain ⟨pages, found, ran⟩ := (filter_ok live).mp ran
  refine Exec.forEach_preserves
    (fun middle => Relation.ReflTransGen (Swept sha env blockIdx) memory.state middle.state)
    ?_ .refl ran
  intro entry listed before later earlier ran
  exact earlier.trans (writes entry.1 entry.2 before later ⟨pages, found, listed⟩ ran)

/-- The listings are a sequence of writes. -/
theorem sweep_swept (live : env.Live) (settled : blockIdx < env.head - confirmationCount)
    (ran : sweep sha blockIdx env memory = .ok ((), after)) :
    Relation.ReflTransGen (Swept sha env blockIdx) memory.state after.state := by
  simp only [sweep, Exec.bind_ok] at ran
  obtain ⟨_, _, asks, _, _, bids, _, _, offers, _, _, deals, _, _, repayments, fees⟩ := ran
  have orders (side : Side) {memory after : Memory}
      (ran : filter (sha.space side.kind) (expireOrder blockIdx) env memory = .ok ((), after)) :
      Relation.ReflTransGen (Swept sha env blockIdx) memory.state after.state := by
    refine filter_swept live (fun key value before later listed ran => ?_) ran
    obtain ⟨start, read, ⟨expired, rfl⟩ | ⟨_, rfl⟩⟩ := (deleteExpired_ok live).mp ran
    · exact .single (.order listed ⟨start, read, expired⟩)
    · exact .refl
  have swept := (orders .ask asks).trans (orders .bid bids)
  refine swept.trans ?_
  refine (filter_swept live (fun key value before later listed ran => ?_) offers).trans ?_
  · obtain ⟨start, read, ⟨expired, rfl⟩ | ⟨_, rfl⟩⟩ := (deleteExpired_ok live).mp ran
    · exact .single (.offer listed ⟨start, read, expired⟩)
    · exact .refl
  refine (filter_swept live (fun key value before later listed ran => ?_) deals).trans ?_
  · obtain ⟨start, read, ⟨⟨expired, pending⟩, balance, fee, covers, feeRead, rfl⟩ | ⟨_, rfl⟩⟩ :=
      (expireDealOrder_ok live).mp ran
    · exact .single (.deal listed settled ⟨start, read, expired⟩ pending covers feeRead)
    · exact .refl
  refine (filter_swept live (fun key value before later listed ran => ?_) repayments).trans ?_
  · obtain ⟨start, read, ⟨⟨expired, unaccepted⟩, rfl⟩ | ⟨_, rfl⟩⟩ :=
      (expireRepaymentOrder_ok live).mp ran
    · exact .single (.repayment listed ⟨start, read, expired⟩ unaccepted)
    · exact .refl
  refine filter_swept live (fun key value before later listed ran => ?_) fees
  obtain ⟨start, read, ⟨due, balance, covers, rfl⟩ | ⟨_, rfl⟩⟩ := (refundFee_ok live).mp ran
  · exact .single (.fee listed read due covers)
  · exact .refl

/-- The last processed block is read off the marker. -/
theorem getLastProcessedBlockIdx_ok (live : env.Live) {last : Int} :
    getLastProcessedBlockIdx sha env memory = .ok (last, after) ↔
      (if memory.state.get sha.processedBlockIdx = [] then last = 0
        else IsAmount (memory.state.get sha.processedBlockIdx) last) ∧ after = memory := by
  simp only [getLastProcessedBlockIdx, Exec.bind_ok, getStateData_optional_ok live, existsAndEq,
    true_and, and_assoc, List.isEmpty_iff]
  by_cases missing : memory.state.get sha.processedBlockIdx = []
  · simp only [missing, if_true, Exec.pure_ok]
  · simp only [missing, if_false, Exec.lift_ok, getBigint_ok]

/-- Outside of replay only the configured signer passes. -/
theorem verifyGatewaySigner_ok (live : env.Live)
    (ran : verifyGatewaySigner sha env memory = .ok (result, after)) : after = memory := by
  simp only [verifyGatewaySigner, Exec.bind_ok, Exec.asks_ok, live.transitioning,
    Bool.false_eq_true, if_false, getSighash_ok, Exec.asksExcept_ok, Exec.failIf_ok, existsAndEq,
    true_and, and_assoc] at ran
  obtain ⟨_, _, _, _, _, rfl⟩ := ran
  rfl

/-- The configured signer passes. -/
theorem verifyGatewaySigner_verified (live : env.Live) {signer : Text}
    (signed : env.sighash sha = .ok signer)
    (configured : findSetting env.settings "sawtooth.gateway.sighash" = some signer) :
    verifyGatewaySigner sha env memory = .ok ((), memory) := by
  simp only [verifyGatewaySigner, Exec.bind_ok, Exec.asks_ok, live.transitioning,
    Bool.false_eq_true, if_false, getSighash_ok, Exec.asksExcept_ok, Exec.failIf_ok, existsAndEq,
    true_and, and_assoc]
  exact ⟨signer, signed, signer, by rw [configured], fun other => other rfl, trivial⟩

/-- `Housekeeping` is a sequence of writes. -/
theorem housekeeping_executed (live : env.Live) {signer : Text}
    (ran : housekeeping sha query env memory = .ok ((), after)) :
    ∃ command, query.housekeeping = .ok command ∧
      Executed sha env signer memory.state command after.state := by
  simp only [housekeeping, Exec.bind_ok, Exec.lift_ok, getLastProcessedBlockIdx_ok live,
    Exec.ite_ok, lastBlockInt_ok, setState_ok live, Exec.pure_ok, existsAndEq, true_and,
    and_assoc, Prod.exists] at ran
  obtain ⟨text, blockIdx, read, last, _, body⟩ := ran
  have reads : query.housekeeping = .ok (.housekeeping blockIdx) := by
    rw [Query.housekeeping, read]
    rfl
  refine ⟨_, reads, .housekeeping ?_⟩
  have mark (state : State) (height : Int) :
      Swept sha env blockIdx state (state.set sha.processedBlockIdx (toText height)) := .mark height
  rcases body with ⟨_, ⟨_, _, middle, rewarded, rfl⟩ | ⟨_, rfl⟩⟩ | ⟨_, _, middle, verified, body⟩
  · exact (reward_swept live rewarded).tail (mark _ _)
  · exact .refl
  · obtain rfl := verifyGatewaySigner_ok live verified
    rcases body with ⟨_, rfl⟩ | ⟨_, ⟨_, rfl⟩ | ⟨settled, _, swept, sweeps, _, _, rewarded, rfl⟩⟩
    · exact .refl
    · exact .refl
    · have writes := sweep_swept live (by omega) sweeps
      exact (writes.trans (reward_swept live rewarded)).tail (mark _ _)

end Effects

end Creditcoin
