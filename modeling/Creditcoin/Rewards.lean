import Creditcoin.Funds

/-!
# Block rewards

The signer of every processed block is credited once. The reward is a fixed amount, or, some
blocks after a configured one, a fraction of 28 coins that shrinks with the period of the
block and is cut out of the printed fraction. The signers are fetched one by one while a block
is built and all together when it is validated.
-/

namespace Creditcoin

open Lib

/-- `REWARD_AMOUNT`. -/
def rewardAmount : Int := 222000000000000000000

/-- `REWARD_AMOUNT_STRING`. -/
def rewardAmountString : Text := "222000000000000000000".toList

/-- `BLOCKS_IN_PERIOD_UPDATE1`. -/
def blocksInPeriodUpdate1 : Int := 2500000

/-- `RPC_FAILURE`. -/
def rpcFailure : Exception := rejection "Failed to process RPC response"

/-- A text filled up with zeros on the right, as `std::left` and `std::setw` do. -/
def padRight (width : Nat) (text : Text) : Text :=
  text ++ List.replicate (width - text.length) '0'

/-- The printed fraction as a number of wei: the point is taken out and 18 digits are kept. -/
def fractionInWei (fraction : Text) : Text :=
  let pos := fraction.findIdx (· == '.')
  if fraction.head? ≠ some '0' then
    fraction.take pos ++ padRight 18 (fraction.drop (pos + 1))
  else
    let pos := 2 + ((fraction.drop 2).takeWhile (· == '0')).length
    padRight (20 - pos) (fraction.drop pos)

/-- The reward of a block and its text. -/
def Env.blockReward (env : Env) (newFormula : Bool) (blockIdx : Int) :
    Except Exception (Int × Text) :=
  if newFormula then
    let period := blockIdx.tdiv blocksInPeriodUpdate1
    match cppInt (fractionInWei (env.fixedPower period)) with
    | none =>
      .error (.standard "Unexpected content found while parsing character string.".toList)
    | some fraction => .ok (28 * fraction, toText (28 * fraction))
  else .ok (rewardAmount, rewardAmountString)

/-- `award`. -/
def award (sha : Sha512) (newFormula : Bool) (blockIdx : Int) (signer : Text) : App Unit := do
  let (reward, rewardString) ← Exec.asksExcept fun env => env.blockReward newFormula blockIdx
  if 0 < reward then do
    let signerSighash := sha.id signer
    let walletId := sha.walletId signerSighash
    let stateData ← getStateData walletId false
    let wallet ← Exec.lift (credit stateData rewardString reward)
    setStates [(walletId, wallet.serializeToString)]
  else pure ()

/-- A setting by its key. -/
def findSetting (settings : List (Text × Text)) (key : String) : Option Text :=
  (settings.find? fun setting => setting.1 == key.toList).map Prod.snd

/-- Whether the new formula applies after a processed block. -/
def Env.newFormula (env : Env) (processedBlockIdx : Int) : Except Exception Bool :=
  match findSetting env.settings "sawtooth.validator.update1" with
  | none => .ok false
  | some updateBlockStr =>
    match getBigint updateBlockStr false with
    | .ok updateBlock => .ok (updateBlock + 500 < processedBlockIdx)
    | .error failure => .error failure

/-- The heights from one above a block, in ascending order. -/
def heightsAbove (processedBlockIdx : Int) (count : Nat) : List Int :=
  (List.range count).map fun step => processedBlockIdx + 1 + step

/-- The loop of `reward` while recorded blocks are replayed. -/
def rewardReplayed (sha : Sha512) (processedBlockIdx uptoBlockIdx : Int) : App Unit := do
  let tip ← Exec.asks fun env => env.ctx.tip
  let setBlock : Int := if 278890 ≤ tip ∧ tip ≤ 278904 then 277800 else 278910
  let newFormula : Bool := setBlock + 500 < processedBlockIdx
  let heights := heightsAbove processedBlockIdx (uptoBlockIdx - processedBlockIdx).toNat
  Exec.forEach heights.reverse fun i => do
    let block ← Exec.asksExcept fun env =>
      match env.blocks[i.toNat]? with
      | some block => .ok block
      | none => .error (.standard "vector".toList)
    award sha newFormula i block.signer

/-- The loop of `reward` while a block is built. -/
def rewardByNum (sha : Sha512) (newFormula : Bool) (processedBlockIdx lastBlockIdx : Int) :
    App Unit :=
  Exec.forEach (heightsAbove processedBlockIdx (lastBlockIdx - processedBlockIdx).toNat) fun i => do
    let signer ← Exec.asksExcept fun env => env.getSigByNum (UInt64.ofNat i.toNat)
    award sha newFormula i signer

/-- The loop of `reward` while a block is validated. -/
def rewardBySignatures (sha : Sha512) (newFormula : Bool) (processedBlockIdx lastBlockIdx : Int) :
    App Unit := do
  let signatures ← Exec.asksExcept fun env =>
    env.getRewardBlockSignatures env.blockSignature (UInt64.ofNat lastBlockIdx.toNat)
      (UInt64.ofNat (processedBlockIdx + 1).toNat)
  Exec.forEach ((heightsAbove processedBlockIdx signatures.length).zip signatures) fun block =>
    award sha newFormula block.1 block.2

/-- How `reward` reports an exception. -/
def rewardFailure : Exception → Exception
  | .invalidTransaction what => .invalidTransaction what
  | .standard _ => rpcFailure

/-- `reward`. -/
def reward (sha : Sha512) (processedBlockIdx uptoBlockIdx : Int) : App Unit :=
  Exec.mapError rewardFailure do
    let transitioning ← Exec.asks fun env => env.ctx.transitioning
    if transitioning then rewardReplayed sha processedBlockIdx uptoBlockIdx
    else do
      let newFormula ← Exec.asksExcept fun env => env.newFormula processedBlockIdx
      let lastBlockIdx :=
        if uptoBlockIdx = 0 then processedBlockIdx + blockRewardProcessingCount else uptoBlockIdx
      let sig ← Exec.asks fun env => env.blockSignature
      if sig.isEmpty then rewardByNum sha newFormula processedBlockIdx lastBlockIdx
      else rewardBySignatures sha newFormula processedBlockIdx lastBlockIdx

/-! ## What they do to the ledger -/

section Effects

variable {sha : Sha512} {env : Env} {memory after : Memory}

/-- A printed reward is the reward. -/
theorem blockReward_read {newFormula : Bool} {blockIdx reward : Int} {rewardString : Text}
    (computed : env.blockReward newFormula blockIdx = .ok (reward, rewardString)) :
    cppInt rewardString = some reward := by
  unfold Env.blockReward at computed
  split at computed
  · dsimp only at computed
    split at computed
    · cases computed
    · cases computed
      exact cppInt_toText _
  · cases computed
    decide

/-- An award raises the wallet of a signer, or nothing when the reward is zero. -/
theorem award_ok (live : env.Live) {newFormula : Bool} {blockIdx : Int} {signer : Text}
    {result : Unit} :
    award sha newFormula blockIdx signer env memory = .ok (result, after) ↔
      ∃ reward rewardString, env.blockReward newFormula blockIdx = .ok (reward, rewardString) ∧
        ((0 < reward ∧ ∃ wallet,
            Credited (memory.state.get (sha.walletId (sha.id signer))) rewardString reward wallet ∧
            after = { memory with state :=
              (memory.state.setAll [(sha.walletId (sha.id signer), wallet.serializeToString)]) }) ∨
          (¬ 0 < reward ∧ after = memory)) := by
  simp only [award, Exec.bind_ok, Exec.asksExcept_ok, Exec.ite_ok, getStateData_optional_ok live,
    Exec.lift_ok, credit_ok, setStates_ok live, Exec.pure_ok, existsAndEq, true_and, and_assoc,
    Prod.exists]

/-- An award is one write of `Housekeeping`. -/
theorem award_swept (live : env.Live) {newFormula : Bool} {blockIdx height : Int} {signer : Text}
    {result : Unit} (ran : award sha newFormula height signer env memory = .ok (result, after)) :
    Relation.ReflTransGen (Swept sha env blockIdx) memory.state after.state := by
  obtain ⟨reward, rewardString, computed, ⟨positive, wallet, credited, rfl⟩ | ⟨_, rfl⟩⟩ :=
    (award_ok live).mp ran
  · exact .single (.award positive (blockReward_read computed) credited)
  · exact .refl

/-- Rewarding is a sequence of awards. -/
theorem reward_swept (live : env.Live) {processedBlockIdx uptoBlockIdx blockIdx : Int}
    {result : Unit}
    (ran : reward sha processedBlockIdx uptoBlockIdx env memory = .ok (result, after)) :
    Relation.ReflTransGen (Swept sha env blockIdx) memory.state after.state := by
  simp only [reward, Exec.mapError_ok, Exec.bind_ok, Exec.asks_ok, live.transitioning,
    Bool.false_eq_true, Exec.asksExcept_ok, Exec.ite_ok, existsAndEq, true_and, false_and,
    not_false_eq_true, false_or, and_assoc] at ran
  obtain ⟨newFormula, _, ⟨_, ran⟩ | ⟨_, ran⟩⟩ := ran
  · unfold rewardByNum at ran
    refine Exec.forEach_preserves
      (fun middle => Relation.ReflTransGen (Swept sha env blockIdx) memory.state middle.state)
      ?_ .refl ran
    intro height _ before later earlier ran
    simp only [Exec.bind_ok, Exec.asksExcept_ok, existsAndEq, true_and, and_assoc] at ran
    obtain ⟨signer, _, ran⟩ := ran
    exact earlier.trans (award_swept live ran)
  · unfold rewardBySignatures at ran
    simp only [Exec.bind_ok, Exec.asksExcept_ok, existsAndEq, true_and, and_assoc] at ran
    obtain ⟨signatures, _, ran⟩ := ran
    refine Exec.forEach_preserves
      (fun middle => Relation.ReflTransGen (Swept sha env blockIdx) memory.state middle.state)
      ?_ .refl ran
    intro block _ before later earlier ran
    exact earlier.trans (award_swept live ran)

end Effects

end Creditcoin
