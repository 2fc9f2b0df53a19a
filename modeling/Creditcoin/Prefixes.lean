import Creditcoin.Listings
import Creditcoin.Replay

/-!
# Prefixes of a recorded history

A command that replays looks at the maps, the recorded blocks and its context only, so it writes the
same whether it is caught up or requested. The loops of `Apply` therefore rebuild the maps of the
straight replay, as long as they go through the transactions that they mean to.
-/

namespace Creditcoin

open Lib Lib.Exec

/-! ## Commands that replay -/

/-- Two environments in which a command replays alike. -/
structure Env.Alike (env env' : Env) : Prop where
  /-- Both replay. -/
  transitioning : env.ctx.transitioning = true ∧ env'.ctx.transitioning = true
  /-- The signer is the same. -/
  sighash : env.ctx.sighash = env'.ctx.sighash
  /-- The nonce is the same. -/
  guid : env.ctx.guid = env'.ctx.guid
  /-- The block before is the same. -/
  tip : env.ctx.tip = env'.ctx.tip
  /-- The block at hand is the same. -/
  tipCurrentState : env.tipCurrentState = env'.tipCurrentState
  /-- The blocks that are done are the same. -/
  transitioningState : env.transitioningState = env'.transitioningState
  /-- The recorded blocks are the same. -/
  blocks : env.blocks = env'.blocks
  /-- The powers are printed the same. -/
  fixedPower : env.fixedPower = env'.fixedPower
  /-- Refunds start at the same block. -/
  dealExpFixBlock : env.dealExpFixBlock = env'.dealExpFixBlock

/-- Two memories with the same writes of the command. -/
def SameWrites (memory memory' : Memory) : Prop := memory.currentState = memory'.currentState

section Alike

variable {sha : Sha512} {env env' : Env}

/-- The operations of the commands agree. -/
theorem Env.Alike.interfaces (alike : env.Alike env') : Interfaces sha env env' SameWrites where
  read before before' kept id := by
    unfold SameWrites at kept
    simp only [Memory.read, alike.transitioning.1, alike.transitioning.2, if_true, kept,
      alike.tipCurrentState, alike.transitioningState]
  setStates states := Agree.modify fun before before' kept => by
    unfold SameWrites at kept ⊢
    simp only [alike.transitioning.1, alike.transitioning.2, kept]
  setStatePointer stateData id := Agree.modify fun before before' kept => by
    unfold SameWrites at kept ⊢
    simp only [alike.transitioning.1, alike.transitioning.2, kept]
  deleteState id := Agree.modify fun before before' kept => by
    unfold SameWrites at kept ⊢
    simp only [alike.transitioning.1, alike.transitioning.2, kept]
  head := by
    simp only [Env.head, alike.transitioning.1, alike.transitioning.2, if_true, alike.tip]
  guid := by
    simp only [Env.guid, alike.transitioning.1, alike.transitioning.2, if_true, alike.guid]
  sighash := by
    simp only [Env.sighash, alike.transitioning.1, alike.transitioning.2, if_true, alike.sighash]
  verify gatewayCommand := by
    apply Agree.bind_asks
    rw [alike.transitioning.1, alike.transitioning.2]
    exact Agree.pure ()

/-- The listings agree when their callbacks do. -/
theorem Env.Alike.filter (alike : env.Alike env') (start : Text) {lister : Text → Text → App Unit}
    (agree : ∀ key value, Agree env env' SameWrites (lister key value) (lister key value)) :
    Agree env env' SameWrites (filter start lister) (filter start lister) := by
  apply Agree.bind_asks
  rw [alike.transitioning.1, alike.transitioning.2, if_pos rfl]
  apply Agree.bind
  · apply Agree.gets
    intro before before' kept
    unfold SameWrites at kept
    simp only [Memory.overlaid, kept, alike.tipCurrentState, alike.transitioningState]
  · intro listed
    exact Agree.forEach fun entry _ => agree entry.1 entry.2

/-- The callbacks of the listings agree. -/
theorem Env.Alike.expire (alike : env.Alike env') (blockIdx : Int) (kind : Kind)
    (address protobuf : Text) : Agree env env' SameWrites
      (expire sha blockIdx kind address protobuf) (expire sha blockIdx kind address protobuf) := by
  have same : Interfaces sha env env' SameWrites := alike.interfaces
  let refunding : App Bool :=
    Exec.asks fun env => env.ctx.tip == 0 || decide (env.dealExpFixBlock < env.ctx.tip)
  have refunds : Agree env env' SameWrites refunding refunding := by
    apply Agree.asks
    rw [alike.tip, alike.dealExpFixBlock]
  cases kind
  all_goals
    simp only [Creditcoin.expire]
    first
      | unfold expireOrder deleteExpired
      | unfold expireOffer deleteExpired
      | unfold expireDealOrder refundDealOrder
      | unfold expireRepaymentOrder
      | unfold refundFee
      | skip
    repeat' first
      | with_reducible exact refunds
      | with_reducible exact same.getState _
      | with_reducible exact same.getStateData _ _
      | with_reducible exact same.setStates _
      | with_reducible exact same.setStatePointer _ _
      | with_reducible exact same.deleteState _
      | with_reducible exact Agree.pure _
      | with_reducible exact Agree.lift _
      | with_reducible exact Agree.failIf
      | with_reducible apply Agree.bind
      | with_reducible apply Agree.ite
      | intro _

/-- Rewards agree. -/
theorem Env.Alike.reward (alike : env.Alike env') (processedBlockIdx uptoBlockIdx : Int) :
    Agree env env' SameWrites (reward sha processedBlockIdx uptoBlockIdx)
      (reward sha processedBlockIdx uptoBlockIdx) := by
  have same : Interfaces sha env env' SameWrites := alike.interfaces
  have awards (newFormula : Bool) (height : Int) (signer : Text) :
      Agree env env' SameWrites (award sha newFormula height signer)
        (award sha newFormula height signer) := by
    apply Agree.bind
    · apply Agree.asksExcept
      rw [Env.blockReward, alike.fixedPower, Env.blockReward]
    intro reward
    apply Agree.ite
    · intro _
      apply Agree.bind (same.getStateData _ _)
      intro stateData
      apply Agree.bind (Agree.lift _)
      intro wallet
      exact same.setStates _
    · intro _
      exact Agree.pure ()
  apply Agree.mapError
  apply Agree.bind_asks
  rw [alike.transitioning.1, alike.transitioning.2, if_pos rfl]
  unfold rewardReplayed
  apply Agree.bind_asks
  rw [alike.tip]
  apply Agree.forEach
  intro height _
  apply Agree.bind
  · apply Agree.asksExcept
    rw [alike.blocks]
  intro block
  exact awards _ _ _

/-- Every verb agrees. -/
theorem Env.Alike.run (alike : env.Alike env') (verb : Verb) (query : Query) :
    Agree env env' SameWrites (verb.run sha query) (verb.run sha query) := by
  have same : Interfaces sha env env' SameWrites := alike.interfaces
  by_cases keeps : verb = .housekeeping
  · subst keeps
    have verified : Agree env env' SameWrites (verifyGatewaySigner sha) (verifyGatewaySigner sha) := by
      apply Agree.bind_asks
      rw [alike.transitioning.1, alike.transitioning.2]
      exact Agree.pure ()
    have processed : Agree env env' SameWrites (getLastProcessedBlockIdx sha)
        (getLastProcessedBlockIdx sha) := by
      apply Agree.bind (same.getStateData _ _)
      intro stateData
      exact Agree.ite (fun _ => Agree.pure _) fun _ => Agree.lift _
    have swept (blockIdx : Int) : Agree env env' SameWrites (sweep sha blockIdx)
        (sweep sha blockIdx) := by
      have listing (kind : Kind) := alike.filter (sha.space kind)
        (@Env.Alike.expire sha env env' alike blockIdx kind)
      exact Agree.bind (listing .askOrder) fun _ => Agree.bind (listing .bidOrder) fun _ =>
        Agree.bind (listing .offer) fun _ => Agree.bind (listing .dealOrder) fun _ =>
          Agree.bind (listing .repaymentOrder) fun _ => listing .fee
    unfold Verb.run housekeeping
    repeat' first
      | with_reducible exact verified
      | with_reducible exact processed
      | with_reducible exact swept _
      | with_reducible exact alike.reward _ _
      | with_reducible exact same.lastBlockInt
      | with_reducible exact same.setState _ _
      | with_reducible exact Agree.pure _
      | with_reducible exact Agree.lift _
      | with_reducible apply Agree.bind
      | with_reducible apply Agree.ite
      | intro _
  · exact same.run query keeps

end Alike

end Creditcoin
