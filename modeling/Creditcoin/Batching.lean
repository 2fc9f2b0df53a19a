import Creditcoin.Progress
import Creditcoin.Settlements

/-!
# Batches of rewards

`Housekeeping` moves the marker by intervals of any length, and the formula of the reward is
chosen once for an interval, from the block before it. As long as no interval straddles the change
of the formula, what a wallet earns depends on the heights that the marker passes and not on the
intervals.
-/

namespace Creditcoin

open Lib

/-- Every height of an interval has the formula of its first one. -/
def Env.Uniform (terms : Env) (last upto : Int) : Prop :=
  ∀ height, last < height → height ≤ upto → terms.newFormula (height - 1) = terms.newFormula last

/-- What an owner earns with a height. -/
def Env.earnedAt (sha : Sha512) (terms : Env) (signerOf : Int → Text) (owner : Text)
    (height : Int) : Int :=
  if sha.id (signerOf height) = owner then terms.creditOf (terms.formula (height - 1)) height else 0

/-- What an owner earns with the heights of a range. -/
def Env.earned (sha : Sha512) (terms : Env) (signerOf : Int → Text) (last upto : Int)
    (owner : Text) : Int :=
  ((heightsAbove last (upto - last).toNat).map (terms.earnedAt sha signerOf owner)).sum

/-- What the refunds of a step pay to an owner. -/
def refundedBy (sha : Sha512) (owner : Text) (taken : ChainStep) : Int :=
  match taken.label with
  | .transaction env payload =>
    match apply sha payload env ⟨taken.before.context, ∅⟩, payload.command with
    | .ok _, .ok (.housekeeping blockIdx) =>
      env.paidBack sha (processedHeight sha taken.before.context) blockIdx owner
    | _, _ => 0
  | .commit => 0

/-- Only `Housekeeping` is executed, under fixed settings and with honest answers. -/
structure OnlyHousekeeping (sha : Sha512) (terms : Env) (signerOf : Int → Text) (taken : ChainStep) :
    Prop where
  /-- Accepted transactions are `Housekeeping`. -/
  only : ∀ env signer command, Succeeds sha taken env signer command →
    ∃ blockIdx, command = .housekeeping blockIdx
  /-- The signers are those of the heights. -/
  answered : AnsweredBy signerOf taken
  /-- The settings and the printed powers are those of the terms. -/
  settled : ∀ env payload, taken.label = .transaction env payload →
    env.settings = terms.settings ∧ env.fixedPower = terms.fixedPower

section Batching

variable {sha : Sha512} {env terms : Env} {signerOf : Int → Text} {last middle upto : Int}
  {owner : Text} {taken : ChainStep}

/-- What is earned with two ranges that continue each other is earned with the whole range. -/
theorem Env.earned_append (first : last ≤ middle) (second : middle ≤ upto) :
    terms.earned sha signerOf last middle owner + terms.earned sha signerOf middle upto owner =
      terms.earned sha signerOf last upto owner := by
  have length : (upto - last).toNat = (middle - last).toNat + (upto - middle).toNat := by omega
  have place : last + ((middle - last).toNat : Int) = middle := by omega
  rw [Env.earned, Env.earned, Env.earned, length, heightsAbove_add, List.map_append, List.sum_append,
    place]

/-- Nothing is earned with no height. -/
theorem Env.earned_none : terms.earned sha signerOf last last owner = 0 := by
  rw [Env.earned, Int.sub_self]
  rfl

/-- The awards of a uniform interval are what is earned with its heights. -/
theorem Env.creditsOf_signedHeights (settings : env.settings = terms.settings)
    (powers : env.fixedPower = terms.fixedPower) (uniform : terms.Uniform last upto) :
    env.creditsOf sha (env.formula last) (signedHeights signerOf last upto) owner =
      terms.earned sha signerOf last upto owner := by
  have formula (height : Int) : env.newFormula height = terms.newFormula height := by
    rw [Env.newFormula, Env.newFormula, settings]
  rw [Env.creditsOf, signedHeights, List.map_map, Env.earned]
  congr 1
  apply List.map_congr_left
  intro height listed
  obtain ⟨above, within⟩ := mem_heightsAbove.mp listed
  have chosen : env.formula last = terms.formula (height - 1) := by
    rw [Env.formula, formula, Env.formula, uniform height above (by omega)]
  have credit : env.creditOf (terms.formula (height - 1)) height =
      terms.creditOf (terms.formula (height - 1)) height := by
    rw [Env.creditOf, Env.blockReward, powers, Env.creditOf, Env.blockReward]
  rw [Function.comp_apply, chosen, Env.earnedAt, credit]

/-- A step moves the marker and pays what was refunded and earned. -/
theorem Chain.Step.balance (step : Chain.Step sha taken.before taken.label taken.after)
    (keeps : OnlyHousekeeping sha terms signerOf taken)
    (processed : Processed sha taken.before.context last) :
    ∃ upto, Processed sha taken.after.context upto ∧ last ≤ upto ∧
      (terms.Uniform last upto → balanceOf sha taken.after.context owner =
        balanceOf sha taken.before.context owner + refundedBy sha owner taken +
          terms.earned sha signerOf last upto owner) := by
  have still (context : taken.after.context = taken.before.context)
      (unpaid : refundedBy sha owner taken = 0) :
      ∃ upto, Processed sha taken.after.context upto ∧ last ≤ upto ∧
        (terms.Uniform last upto → balanceOf sha taken.after.context owner =
          balanceOf sha taken.before.context owner + refundedBy sha owner taken +
            terms.earned sha signerOf last upto owner) := by
    refine ⟨last, context.symm ▸ processed, Int.le_refl last, fun _ => ?_⟩
    rw [context, unpaid, Env.earned_none, Int.add_zero, Int.add_zero]
  obtain ⟨before, label, after⟩ := taken
  dsimp only at step processed still ⊢
  cases step with
  | accepted serves ran read =>
    rename_i env payload command memory
    obtain ⟨signer, _, signed, _, _⟩ := apply_executed serves.live ran
    obtain ⟨blockIdx, rfl⟩ := keeps.only env signer command ⟨⟨payload, memory, rfl, read, ran⟩, signed⟩
    obtain ⟨_, _, last', blocks, processed', path⟩ := (apply_housekeeping_ok serves.live read).mp ran
    obtain rfl : last' = last := processed'.read.1.symm.trans processed.read.1
    obtain ⟨upto, marked, forward, _, rfl⟩ := path.progress processed' (keeps.answered env payload rfl)
    obtain ⟨settings, powers⟩ := keeps.settled env payload rfl
    refine ⟨upto, marked, forward, fun uniform => ?_⟩
    have paid : refundedBy sha owner ⟨before, .transaction env payload,
        { before with
          context := memory.state
          housekept := before.housekept || (Command.housekeeping blockIdx).isExplicitHousekeeping }⟩ =
        env.paidBack sha last' blockIdx owner := by
      simp only [refundedBy, read, ran]
      rw [processed'.read.1]
    have balance := @Housekept.balance _ _ _ _ _ _ _ _ owner serves path
    rw [Env.creditsOf_signedHeights settings powers uniform] at balance
    rw [paid]
    exact balance
  | rejected serves ran =>
    apply still rfl
    simp only [refundedBy, ran]
  | commit => exact still rfl rfl

/-- A run of uniform intervals pays what was refunded and what is earned with the heights that the
marker passes. -/
theorem run_earned {start chain : Chain} {steps : List ChainStep}
    (run : Run (Chain.Step sha) start steps chain)
    (keeps : ∀ taken ∈ steps, OnlyHousekeeping sha terms signerOf taken)
    (uniform : ∀ taken ∈ steps, terms.Uniform (processedHeight sha taken.before.context)
      (processedHeight sha taken.after.context))
    (processed : Processed sha start.context last) :
    ∃ upto, Processed sha chain.context upto ∧ last ≤ upto ∧
      balanceOf sha chain.context owner = balanceOf sha start.context owner +
        (steps.map (refundedBy sha owner)).sum + terms.earned sha signerOf last upto owner := by
  induction run with
  | nil =>
    refine ⟨last, processed, Int.le_refl last, ?_⟩
    rw [Env.earned_none, List.map_nil, List.sum_nil, Int.add_zero, Int.add_zero]
  | snoc run next ih =>
    rename_i earlier before label after
    obtain ⟨middle, reached, forward, balance⟩ := ih
      (fun taken listed => keeps taken (List.mem_append_left _ listed))
      (fun taken listed => uniform taken (List.mem_append_left _ listed))
    have listed : (⟨before, label, after⟩ : ChainStep) ∈ earlier ++ [⟨before, label, after⟩] :=
      List.mem_append_right _ List.mem_cons_self
    obtain ⟨upto, marked, onward, paid⟩ := @Chain.Step.balance sha terms signerOf middle owner
      ⟨before, label, after⟩ next (keeps _ listed) reached
    have straight : terms.Uniform middle upto := by
      have whole := uniform _ listed
      rwa [reached.read.1, marked.read.1] at whole
    refine ⟨upto, marked, Int.le_trans forward onward, ?_⟩
    rw [paid straight, balance, ← Env.earned_append forward onward, List.map_append, List.sum_append,
      List.map_singleton, List.sum_singleton]
    omega

/-- Two runs that move the marker from one height to another leave every owner the same, refunds
aside, when no interval of either straddles the change of the formula. -/
theorem rewards_unbatched {start chain other : Chain} {steps others : List ChainStep}
    (first : Run (Chain.Step sha) start steps chain)
    (second : Run (Chain.Step sha) start others other)
    (keeps : ∀ taken ∈ steps ++ others, OnlyHousekeeping sha terms signerOf taken)
    (uniform : ∀ taken ∈ steps ++ others, terms.Uniform (processedHeight sha taken.before.context)
      (processedHeight sha taken.after.context))
    (processed : Processed sha start.context last)
    (same : processedHeight sha chain.context = processedHeight sha other.context) (owner : Text) :
    balanceOf sha chain.context owner - (steps.map (refundedBy sha owner)).sum =
      balanceOf sha other.context owner - (others.map (refundedBy sha owner)).sum := by
  obtain ⟨upto, marked, _, balance⟩ := @run_earned sha terms signerOf last owner _ _ _ first
    (fun taken listed => keeps taken (List.mem_append_left _ listed))
    (fun taken listed => uniform taken (List.mem_append_left _ listed)) processed
  obtain ⟨upto', marked', _, balance'⟩ := @run_earned sha terms signerOf last owner _ _ _ second
    (fun taken listed => keeps taken (List.mem_append_right _ listed))
    (fun taken listed => uniform taken (List.mem_append_right _ listed)) processed
  rw [marked.read.1, marked'.read.1] at same
  rw [balance, balance', same]
  omega

end Batching

/-! ## Two batches of one miner -/

section Mining

variable {sha : Sha512} {node : Env} {chain : Chain} {signerPublicKey nonce miner : Text}
  {payload : Json} {blockIdx last : Int} {newFormula : Bool} {script : List Turn}

/-- A script of `Housekeeping` keeps house on the terms of its node. -/
theorem Chain.steps_onlyHousekeeping (honest : ∀ chain : Chain, ∀ signerPublicKey nonce,
      (chain.serve node signerPublicKey nonce).Honest fun _ => miner)
    (keeps : ∀ signerPublicKey nonce payload, Turn.submit signerPublicKey nonce payload ∈ script →
      ∃ blockIdx, payload.command = .ok (.housekeeping blockIdx)) :
    ∀ taken ∈ chain.steps sha node script, OnlyHousekeeping sha node (fun _ => miner) taken := by
  induction script generalizing chain with
  | nil =>
    intro taken listed
    cases listed
  | cons turn script ih =>
    intro taken listed
    rcases List.mem_cons.mp listed with rfl | later
    · cases turn with
      | submit signerPublicKey nonce payload =>
        obtain ⟨blockIdx, read⟩ := keeps _ _ _ List.mem_cons_self
        refine ⟨fun env signer command succeeds => ?_, fun env other label => ?_,
          fun env other label => ?_⟩
        · obtain ⟨other, _, label, reads, _⟩ := succeeds.ran
          obtain ⟨_, rfl⟩ := Event.transaction.inj label
          exact ⟨blockIdx, Except.ok.inj (reads.symm.trans read)⟩
        · obtain ⟨rfl, _⟩ := Event.transaction.inj label
          exact honest _ _ _
        · obtain ⟨rfl, _⟩ := Event.transaction.inj label
          exact ⟨rfl, rfl⟩
      | commit =>
        refine ⟨fun env signer command succeeds => ?_, fun env other label => ?_,
          fun env other label => ?_⟩
        · obtain ⟨_, _, label, _, _⟩ := succeeds.ran
          cases label
        · cases label
        · cases label
    · exact ih (fun _ _ _ member => keeps _ _ _ (List.mem_cons_of_mem _ member)) taken later

/-- A node without committed records settles any height that passes the guards. -/
theorem Chain.play_settles (bare : chain.committed = ∅) (solvent : Solvent sha chain.context)
    (processed : Processed sha chain.context last)
    (read : payload.command = .ok (.housekeeping blockIdx))
    (key : ∃ compressed, compress signerPublicKey = .ok compressed) (version : node.v2block = 0)
    (verified : verifyGatewaySigner sha (chain.serve node signerPublicKey nonce)
      ⟨chain.context, ∅⟩ = .ok ((), ⟨chain.context, ∅⟩))
    (passes : (chain.serve node signerPublicKey nonce).Passes last blockIdx)
    (formula : node.newFormula last = .ok newFormula) (building : node.blockSignature = [])
    (mined : ∀ height, node.getSigByNum height = .ok miner)
    (computed : ∀ height, ∃ reward, node.blockReward newFormula height = .ok reward) :
    let after := chain.play sha node (.submit signerPublicKey nonce payload)
    Solvent sha after.context ∧ Processed sha after.context blockIdx ∧ after.committed = ∅ ∧
      after.tip = chain.tip ∧ ∀ owner, balanceOf sha after.context owner =
        balanceOf sha chain.context owner + node.creditsOf sha newFormula
          (signedHeights (fun _ => miner) last blockIdx) owner := by
  intro after
  have serves : chain.Serves (chain.serve node signerPublicKey nonce) :=
    Chain.serve_serves signerPublicKey nonce
  have lists (start : Text) : chain.records start = [] := by
    rw [Chain.records, bare]
    rfl
  have sweeps : sweep sha blockIdx (chain.serve node signerPublicKey nonce) ⟨chain.context, ∅⟩ =
      .ok ((), ⟨chain.context, ∅⟩) := by
    refine sweep_bare serves.live passes.2.2.2 fun start => ⟨_, rfl, ?_⟩
    rw [List.flatten_singleton, lists]
  obtain ⟨memory, path, left⟩ := Housekept.settles serves.live passes verified sweeps solvent formula
    (.mined building mined) fun block _ => computed block.1
  have ran : apply sha payload (chain.serve node signerPublicKey nonce) ⟨chain.context, ∅⟩ =
      .ok ((), memory) := by
    rw [apply_housekeeping_ok serves.live read]
    refine ⟨key, ?_, last, _, processed, path⟩
    simp [Chain.serve, version]
  have played : after = { chain with
      context := memory.state
      housekept := chain.housekept || (Command.housekeeping blockIdx).isExplicitHousekeeping } := by
    simp only [after, Chain.play, ran, read]
  have none : dueRecords sha (chain.serve node signerPublicKey nonce) blockIdx = [] := by
    simp [dueRecords, Env.listed, Chain.serve, lists]
  rw [played]
  refine ⟨left, path.marked processed passes, bare, rfl, fun owner => ?_⟩
  have unpaid : (chain.serve node signerPublicKey nonce).paidBack sha last blockIdx owner = 0 := by
    rw [Env.paidBack, if_pos passes, Env.refundsOf, none]
    rfl
  have chosen : (chain.serve node signerPublicKey nonce).formula last = newFormula := by
    rw [Env.formula]
    exact formula ▸ rfl
  rw [path.balance serves, unpaid, chosen, Int.add_zero]
  rfl

/-- One miner earns the same with every height of a flat interval. -/
theorem creditsOf_mined {reward : Int} {upto : Int}
    (flat : ∀ height, node.creditOf newFormula height = reward) :
    node.creditsOf sha newFormula (signedHeights (fun _ => miner) last upto) (sha.id miner) =
      (upto - last).toNat * reward := by
  rw [Env.creditsOf, signedHeights, List.map_map]
  have constant : ((fun block : Int × Text =>
      if sha.id block.2 = sha.id miner then node.creditOf newFormula block.1 else 0) ∘
        fun height => (height, miner)) = fun _ => reward := by
    funext height
    rw [Function.comp_apply, if_pos rfl, flat]
  rw [constant, List.map_const', heightsAbove_length, List.sum_replicate, nsmul_eq_mul]

end Mining

/-- A sample node of the gateway signer with the new formula after the first blocks. -/
def updatedNode : Env :=
  { miningNode with
    settings := [("sawtooth.validator.update1".toList, "0".toList),
      ("sawtooth.gateway.sighash".toList, sample.id investorKey)] }

/-- The gateway signer keeps house at a height. -/
def keepsHouseAt (blockIdx : String) : Turn :=
  .submit investorKey "1".toList (keepHouse blockIdx)

/-- The sample node answers honestly. -/
theorem updatedNode_honest (chain : Chain) (signerPublicKey nonce : Text) :
    (chain.serve updatedNode signerPublicKey nonce).Honest fun _ => investorKey where
  byNum _ _ _ _ found := (Except.ok.inj found).symm
  together _ _ _ _ _ _ found := nomatch found

/-- The sample node settles any height below the tip, flat by either formula. -/
theorem updatedNode_settles {chain : Chain} {text : String} {blockIdx last : Int}
    {newFormula : Bool} (bare : chain.committed = ∅) (tip : chain.tip = 600)
    (solvent : Solvent sample chain.context) (processed : Processed sample chain.context last)
    (read : (keepHouse text).command = .ok (.housekeeping blockIdx))
    (bounds : 60 ≤ blockIdx ∧ last < blockIdx ∧ blockIdx < 569)
    (formula : updatedNode.newFormula last = .ok newFormula) :
    let after := chain.play sample updatedNode (keepsHouseAt text)
    Solvent sample after.context ∧ Processed sample after.context blockIdx ∧ after.committed = ∅ ∧
      after.tip = 600 ∧ balanceOf sample after.context (sample.id investorKey) =
        balanceOf sample chain.context (sample.id investorKey) + (blockIdx - last).toNat *
          (if newFormula then 28000000000000000000 else 222000000000000000000) := by
  intro after
  let env := chain.serve updatedNode investorKey "1".toList
  have live : env.Live := (Chain.serve_serves investorKey "1".toList).live
  have signed : env.sighash sample = .ok (sample.id investorKey) := by
    have key : compress investorKey = .ok investorKey := by decide
    simp only [Env.sighash, Bool.false_eq_true, if_false, env, Chain.serve, key]
  have verified : verifyGatewaySigner sample env ⟨chain.context, ∅⟩ = .ok ((), ⟨chain.context, ∅⟩) :=
    verifyGatewaySigner_verified live signed rfl
  have head : env.head = 599 := by
    rw [live.head_eq]
    simp [env, Chain.serve, tip]
  have passes : env.Passes last blockIdx := by
    have count : confirmationCount = 30 := rfl
    refine ⟨by omega, by omega, by omega, by omega⟩
  have computed (height : Int) : ∃ reward, updatedNode.blockReward newFormula height = .ok reward := by
    cases newFormula with
    | false => exact ⟨_, rfl⟩
    | true => exact ⟨_, rfl⟩
  have flat (height : Int) : updatedNode.creditOf newFormula height =
      if newFormula then 28000000000000000000 else 222000000000000000000 := by
    cases newFormula with
    | false => rfl
    | true => rfl
  obtain ⟨left, marked, still, height, balance⟩ := Chain.play_settles bare solvent processed read
    ⟨investorKey, rfl⟩ rfl verified passes formula rfl (fun _ => rfl) computed
  refine ⟨left, marked, still, height.trans tip, (balance _).trans ?_⟩
  rw [creditsOf_mined flat]

/-- An interval below the change of the formula is uniform. -/
theorem updatedNode_uniform {last upto : Int} (low : upto ≤ 501) :
    updatedNode.Uniform last upto := by
  have formula (height : Int) (early : height ≤ 500) : updatedNode.newFormula height = .ok false := by
    have chosen : updatedNode.newFormula height = .ok (decide ((0 : Int) + 500 < height)) := rfl
    rw [chosen, decide_eq_false (by omega)]
  intro height above within
  rw [formula _ (by omega), formula _ (by omega)]

/-- Two intervals up to the block 70 pay the same as one. -/
theorem rewards_unbatched_sample :
    let start := Chain.empty 600
    let twice := [keepsHouseAt "60", keepsHouseAt "70"]
    let once := [keepsHouseAt "70"]
    balanceOf sample (start.plays sample updatedNode twice).context (sample.id investorKey) -
        ((start.steps sample updatedNode twice).map
          (refundedBy sample (sample.id investorKey))).sum =
      balanceOf sample (start.plays sample updatedNode once).context (sample.id investorKey) -
        ((start.steps sample updatedNode once).map
          (refundedBy sample (sample.id investorKey))).sum := by
  intro start twice once
  have reads60 : (keepHouse "60").command = .ok (.housekeeping 60) := by decide
  have reads70 : (keepHouse "70").command = .ok (.housekeeping 70) := by decide
  have early : updatedNode.newFormula 0 = .ok false := rfl
  have later : updatedNode.newFormula 60 = .ok false := rfl
  obtain ⟨solvent, processed, bare, tip, _⟩ := updatedNode_settles
    (rfl : start.committed = ∅) rfl solvent_empty processed_empty reads60 (by decide) early
  obtain ⟨_, marked, _⟩ := updatedNode_settles bare tip solvent processed reads70 (by decide) later
  obtain ⟨_, marked', _⟩ := updatedNode_settles (rfl : start.committed = ∅) rfl solvent_empty
    processed_empty reads70 (by decide) early
  have reads (turn : Turn) (member : turn ∈ twice ++ once) (signerPublicKey nonce : Text)
      (payload : Json) (same : turn = .submit signerPublicKey nonce payload) :
      ∃ blockIdx, payload.command = .ok (.housekeeping blockIdx) := by
    subst same
    rcases List.mem_cons.mp member with same | member
    · obtain ⟨_, _, rfl⟩ := Turn.submit.inj same
      exact ⟨60, reads60⟩
    · have same := (List.mem_pair.mp member).elim id id
      obtain ⟨_, _, rfl⟩ := Turn.submit.inj same
      exact ⟨70, reads70⟩
  have keeps : ∀ taken ∈ start.steps sample updatedNode twice ++ start.steps sample updatedNode once,
      OnlyHousekeeping sample updatedNode (fun _ => investorKey) taken := by
    intro taken listed
    rcases List.mem_append.mp listed with first | second
    · exact Chain.steps_onlyHousekeeping updatedNode_honest (fun _ _ _ member =>
        reads _ (List.mem_append_left _ member) _ _ _ rfl) taken first
    · exact Chain.steps_onlyHousekeeping updatedNode_honest (fun _ _ _ member =>
        reads _ (List.mem_append_right _ member) _ _ _ rfl) taken second
  have same : processedHeight sample (start.plays sample updatedNode twice).context =
      processedHeight sample (start.plays sample updatedNode once).context := by
    rw [Chain.plays_cons, Chain.plays_cons, Chain.plays_nil, Chain.plays_cons, Chain.plays_nil,
      marked.read.1, marked'.read.1]
  refine rewards_unbatched Chain.steps_run Chain.steps_run keeps ?_ processed_empty same _
  rw [Chain.steps_cons, Chain.steps_cons, Chain.steps_nil, Chain.steps_cons, Chain.steps_nil,
    List.cons_append, List.cons_append, List.nil_append]
  simp only [List.forall_mem_cons, List.not_mem_nil, false_imp_iff, implies_true, and_true]
  refine ⟨updatedNode_uniform ?_, updatedNode_uniform ?_, updatedNode_uniform ?_⟩
  · rw [processed.read.1]
    decide
  · rw [marked.read.1]
    decide
  · rw [marked'.read.1]
    decide

/-- One interval up to the block 502 pays the last block by the old formula, two intervals pay it by
the new one. -/
theorem rewards_batched :
    ¬ ∀ (sha : Sha512) (terms : Env) (signerOf : Int → Text) (start chain other : Chain)
        (steps others : List ChainStep) (last : Int) (owner : Text),
        Run (Chain.Step sha) start steps chain → Run (Chain.Step sha) start others other →
        (∀ taken ∈ steps ++ others, OnlyHousekeeping sha terms signerOf taken) →
        Processed sha start.context last →
        processedHeight sha chain.context = processedHeight sha other.context →
        balanceOf sha chain.context owner = balanceOf sha other.context owner := by
  intro claim
  let start := Chain.empty 600
  let once := [keepsHouseAt "502"]
  let twice := [keepsHouseAt "501", keepsHouseAt "502"]
  have reads501 : (keepHouse "501").command = .ok (.housekeeping 501) := by decide
  have reads502 : (keepHouse "502").command = .ok (.housekeeping 502) := by decide
  have early : updatedNode.newFormula 0 = .ok false := rfl
  have late : updatedNode.newFormula 501 = .ok true := rfl
  obtain ⟨_, marked, _, _, balance⟩ := updatedNode_settles (rfl : start.committed = ∅) rfl
    solvent_empty processed_empty reads502 (by decide) early
  obtain ⟨solvent, processed, bare, tip, between⟩ := updatedNode_settles
    (rfl : start.committed = ∅) rfl solvent_empty processed_empty reads501 (by decide) early
  obtain ⟨_, marked', _, _, balance'⟩ := updatedNode_settles bare tip solvent processed reads502
    (by decide) late
  have keeps : ∀ taken ∈ start.steps sample updatedNode once ++ start.steps sample updatedNode twice,
      OnlyHousekeeping sample updatedNode (fun _ => investorKey) taken := by
    intro taken listed
    rcases List.mem_append.mp listed with first | second
    · refine Chain.steps_onlyHousekeeping updatedNode_honest ?_ taken first
      intro signerPublicKey nonce payload member
      obtain ⟨_, _, rfl⟩ := Turn.submit.inj (List.mem_singleton.mp member)
      exact ⟨502, reads502⟩
    · refine Chain.steps_onlyHousekeeping updatedNode_honest ?_ taken second
      intro signerPublicKey nonce payload member
      rcases List.mem_pair.mp member with same | same
      · obtain ⟨_, _, rfl⟩ := Turn.submit.inj same
        exact ⟨501, reads501⟩
      · obtain ⟨_, _, rfl⟩ := Turn.submit.inj same
        exact ⟨502, reads502⟩
  have same : processedHeight sample (start.plays sample updatedNode once).context =
      processedHeight sample (start.plays sample updatedNode twice).context := by
    rw [Chain.plays_cons, Chain.plays_nil, Chain.plays_cons, Chain.plays_cons, Chain.plays_nil,
      marked.read.1, marked'.read.1]
  have agree := claim sample updatedNode (fun _ => investorKey) start _ _ _ _ 0
    (sample.id investorKey) Chain.steps_run Chain.steps_run keeps processed_empty same
  rw [Chain.plays_cons, Chain.plays_nil, Chain.plays_cons, Chain.plays_cons, Chain.plays_nil,
    balance, balance', between] at agree
  generalize balanceOf sample start.context (sample.id investorKey) = held at agree
  have whole : ((502 - 0 : Int).toNat : Int) = 502 := rfl
  have most : ((501 - 0 : Int).toNat : Int) = 501 := rfl
  have one : ((502 - 501 : Int).toNat : Int) = 1 := rfl
  rw [whole, most, one, if_neg Bool.false_ne_true, if_pos rfl] at agree
  omega

end Creditcoin
