import Creditcoin.Script

/-!
# Fee records

A charged command writes a fee record under a key made of its nonce alone, and does not look
whether one is there. In runs where the key is free every fee record stays as it was written
until a `Housekeeping` deletes it, and no charge is lost: those of a signer are the fee records
left and those deleted.
-/

namespace Creditcoin

open Lib

/-- A charged command finds the key of its fee record free. -/
def FreshFee (sha : Sha512) (taken : ChainStep) : Prop :=
  ∀ env signer command, Succeeds sha taken env signer command → command.isCharged = true →
    taken.before.context.get (env.feeId sha) = []

/-- One for every fee record of a signer. -/
def feeOf (sha : Sha512) (signer key data : Text) : Nat :=
  if sha.kindOf key = some .fee ∧ data ≠ [] ∧ (Fee.parseFromString data).sighash = signer then 1
  else 0

/-- The number of fee records of a signer. -/
def feesOf (sha : Sha512) (state : State) (signer : Text) : Nat :=
  Store.total (feeOf sha signer) state

/-- A step executes a charged command of a signer. -/
def Charges (sha : Sha512) (signer : Text) (taken : ChainStep) : Prop :=
  ∃ env command, Succeeds sha taken env signer command ∧ command.isCharged = true

/-- A step executes a `Housekeeping`. -/
def KeepsHouse (sha : Sha512) (taken : ChainStep) : Prop :=
  ∃ env signer blockIdx, Succeeds sha taken env signer (.housekeeping blockIdx)

/-- A `Housekeeping` deletes a fee record that is due. -/
def Refunds (sha : Sha512) (key value : Text) (taken : ChainStep) : Prop :=
  taken.before.context.get key = value ∧ taken.after.context.get key = [] ∧
    ∃ env signer blockIdx listed, Succeeds sha taken env signer (.housekeeping blockIdx) ∧
      Listed env (sha.space .fee) key listed ∧ Due env blockIdx listed .fee

open Classical in
/-- The number of charged commands of a signer. -/
noncomputable def charges (sha : Sha512) (steps : List ChainStep) (signer : Text) : Nat :=
  steps.countP fun taken => decide (Charges sha signer taken)

open Classical in
/-- The number of fee records of a signer that `Housekeeping` deleted. -/
noncomputable def refunds (sha : Sha512) (steps : List ChainStep) (signer : Text) : Nat :=
  (steps.map fun taken => if KeepsHouse sha taken then
    feesOf sha taken.before.context signer - feesOf sha taken.after.context signer else 0).sum

/-- Fee records are refundable: a charge's record stays as it was written until a `Housekeeping`
deletes it, and the charges of a signer are the fee records left and those deleted. -/
structure RefundableFees (sha : Sha512) (steps : List ChainStep) (chain : Chain) : Prop where
  /-- A record stays until it is refunded. -/
  kept : ∀ earlier taken later, steps = earlier ++ taken :: later → ∀ env signer command,
    Succeeds sha taken env signer command → command.isCharged = true →
    chain.context.get (env.feeId sha) = (env.feeEntry sha signer).2 ∨
      ∃ refund ∈ later, Refunds sha (env.feeId sha) (env.feeEntry sha signer).2 refund
  /-- No charge is lost. -/
  counted : ∀ signer, charges sha steps signer =
    feesOf sha chain.context signer + refunds sha steps signer

section Fees

variable {sha : Sha512} {env : Env} {signer payer : Text} {state after : State}
  {command : Command} {key : Text} {tip : UInt64} {steps : List ChainStep} {chain : Chain}

/-- A fee record names its signer. -/
theorem feeEntry_read :
    (Fee.parseFromString (env.feeEntry sha signer).2).sighash = signer :=
  congrArg Fee.sighash (Fee.parse_serialize _)

/-- A fee record is not empty. -/
theorem feeEntry_ne_nil (isId : sha.IsId signer) : (env.feeEntry sha signer).2 ≠ [] := by
  intro empty
  have read : (Fee.parseFromString (env.feeEntry sha signer).2).sighash = signer := feeEntry_read
  rw [empty] at read
  exact isId.ne_nil read.symm

/-- A new fee record counts for its signer. -/
theorem feeOf_feeEntry (isId : sha.IsId signer) :
    feeOf sha payer (env.feeId sha) (env.feeEntry sha signer).2 =
      if signer = payer then 1 else 0 := by
  have filled : (env.feeEntry sha signer).2 ≠ [] := feeEntry_ne_nil isId
  simp only [feeOf, Env.kindOf_feeId, feeEntry_read, ne_eq, filled, not_false_eq_true, true_and]

/-- Only fee records count. -/
theorem feeOf_other {data : Text} (other : sha.kindOf key ≠ some .fee) :
    feeOf sha payer key data = 0 :=
  if_neg fun counted => other counted.1

/-- A missing record does not count. -/
@[simp] theorem feeOf_nil : feeOf sha payer key [] = 0 := if_neg fun counted => counted.2.1 rfl

/-- A charged command adds one fee record, its signer's, when the key is free. -/
theorem Executed.feesOf_charged (around : Surroundings sha env signer state command)
    (executed : Executed sha env signer state command after)
    (charged : command.isCharged = true) (fresh : state.get (env.feeId sha) = []) :
    feesOf sha after payer = feesOf sha state payer + if signer = payer then 1 else 0 := by
  have changed (key : Text) : (feeOf sha payer key (after.get key) : Int) =
      feeOf sha payer key (state.get key) +
        (if key = env.feeId sha then ((if signer = payer then 1 else 0 : Nat) : Int) else 0) +
        (if key = env.feeId sha then 0 else 0) := by
    by_cases found : sha.kindOf key = some .fee
    · rw [executed.fee_paid around charged found]
      by_cases paid : key = env.feeId sha
      · subst paid
        rw [if_pos rfl, if_pos rfl, if_pos rfl, fresh, feeOf_nil, feeOf_feeEntry around.isId]
        simp
      · rw [if_neg paid, if_neg paid, if_neg paid]
        simp
    · have apart : key ≠ env.feeId sha := by
        rintro rfl
        exact found (env.kindOf_feeId sha)
      rw [feeOf_other found, feeOf_other found, if_neg apart, if_neg apart]
      simp
  have total : (feesOf sha after payer : Int) = feesOf sha state payer +
      (if signer = payer then 1 else 0 : Nat) + 0 := Store.total_add (fun _ => feeOf_nil) changed
  omega

/-- A command that is not charged adds no fee record. -/
theorem Executed.feesOf_uncharged (around : Surroundings sha env signer state command)
    (executed : Executed sha env signer state command after)
    (uncharged : command.isCharged = false) :
    feesOf sha after payer ≤ feesOf sha state payer := by
  refine Store.total_le (fun _ => feeOf_nil) fun key => ?_
  by_cases found : sha.kindOf key = some .fee
  · rcases executed.fee_refunded around uncharged found with same | ⟨gone, _⟩
    · rw [same]
    · rw [gone, feeOf_nil]
      exact Nat.zero_le _
  · rw [feeOf_other found, feeOf_other found]

/-- A command that is neither charged nor `Housekeeping` leaves the fee records. -/
theorem Executed.feesOf_collected (around : Surroundings sha env signer state command)
    (executed : Executed sha env signer state command after)
    (uncharged : command.isCharged = false)
    (other : ∀ blockIdx, command ≠ .housekeeping blockIdx) :
    feesOf sha after payer = feesOf sha state payer := by
  refine Store.total_congr (fun _ => feeOf_nil) fun key => ?_
  by_cases found : sha.kindOf key = some .fee
  · rcases executed.fee_refunded around uncharged found with same | ⟨_, blockIdx, _, house, _⟩
    · rw [same]
    · exact absurd house (other blockIdx)
  · rw [feeOf_other found, feeOf_other found]

/-! ## Runs -/

open Classical in
/-- The charges of a longer run. -/
theorem charges_snoc (taken : ChainStep) : charges sha (steps ++ [taken]) payer =
    charges sha steps payer + if Charges sha payer taken then 1 else 0 := by
  simp only [charges, List.countP_append, List.countP_singleton, decide_eq_true_eq]

open Classical in
/-- The refunds of a longer run. -/
theorem refunds_snoc (taken : ChainStep) : refunds sha (steps ++ [taken]) payer =
    refunds sha steps payer + if KeepsHouse sha taken then
      feesOf sha taken.before.context payer - feesOf sha taken.after.context payer else 0 := by
  simp only [refunds, List.map_append, List.map_cons, List.map_nil, List.sum_append,
    List.sum_cons, List.sum_nil, Nat.add_zero]

/-- A step whose charged command finds its key free keeps the account of the fees. -/
theorem Chain.Did.fees_balance {taken : ChainStep} (did : Chain.Did sha taken)
    (kept : taken.before.Kept sha) (named : NamesOffers sha taken) (free : FreshFee sha taken)
    (balance : charges sha steps payer =
      feesOf sha taken.before.context payer + refunds sha steps payer) :
    charges sha (steps ++ [taken]) payer =
      feesOf sha taken.after.context payer + refunds sha (steps ++ [taken]) payer := by
  have idle (same : taken.after.context = taken.before.context)
      (none : ∀ env signer command, ¬ Succeeds sha taken env signer command) :
      charges sha (steps ++ [taken]) payer =
        feesOf sha taken.after.context payer + refunds sha (steps ++ [taken]) payer := by
    have free : ¬ Charges sha payer taken := fun ⟨_, _, succeeds, _⟩ => none _ _ _ succeeds
    have kept : ¬ KeepsHouse sha taken := fun ⟨_, _, _, succeeds⟩ => none _ _ _ succeeds
    rw [charges_snoc, refunds_snoc, if_neg free, if_neg kept, same]
    exact balance
  cases did with
  | executed serves succeeds effect committed tip housekept =>
    rename_i env signer command
    have around := succeeds.around serves kept named
    rw [charges_snoc, refunds_snoc]
    cases charged : command.isCharged with
    | true =>
      have house : ¬ KeepsHouse sha taken := by
        rintro ⟨_, _, blockIdx, other⟩
        obtain ⟨_, _, rfl⟩ := succeeds.unique other
        cases charged
      have counted : Charges sha payer taken ↔ signer = payer := by
        constructor
        · rintro ⟨_, _, other, _⟩
          exact (succeeds.unique other).2.1
        · rintro rfl
          exact ⟨env, command, succeeds, charged⟩
      rw [effect.feesOf_charged around charged (free _ _ _ succeeds charged), if_neg house]
      simp only [counted]
      omega
    | false =>
      have uncounted : ¬ Charges sha payer taken := by
        rintro ⟨_, _, other, charged'⟩
        obtain ⟨_, _, rfl⟩ := succeeds.unique other
        rw [charged] at charged'
        cases charged'
      rw [if_neg uncounted]
      by_cases house : KeepsHouse sha taken
      · have fewer : feesOf sha taken.after.context payer ≤ feesOf sha taken.before.context payer :=
          effect.feesOf_uncharged around charged
        rw [if_pos house]
        omega
      · rw [if_neg house, effect.feesOf_collected around charged]
        · exact balance
        · rintro blockIdx rfl
          exact house ⟨_, _, _, succeeds⟩
  | rejected same none => exact idle (by rw [same]) none
  | committed committed context housekept none => exact idle context none

/-- A step leaves a fee record whose key no charged command finds free, or deletes it when due. -/
theorem Chain.Did.fee_stays {taken : ChainStep} (did : Chain.Did sha taken)
    (kept : taken.before.Kept sha) (named : NamesOffers sha taken) (free : FreshFee sha taken)
    (found : sha.kindOf key = some .fee) (present : taken.before.context.get key ≠ []) :
    taken.after.context.get key = taken.before.context.get key ∨
      Refunds sha key (taken.before.context.get key) taken := by
  cases did with
  | executed serves succeeds effect committed tip housekept =>
    rename_i env signer command
    have around := succeeds.around serves kept named
    cases charged : command.isCharged with
    | true =>
      left
      rw [effect.fee_paid around charged found, if_neg]
      rintro rfl
      exact present (free _ _ _ succeeds charged)
    | false =>
      rcases effect.fee_refunded around charged found with
        same | ⟨gone, blockIdx, value, rfl, listed, due⟩
      · exact .inl same
      · exact .inr ⟨rfl, gone, env, signer, blockIdx, value, succeeds, listed, due⟩
  | rejected same => exact .inl (by rw [same])
  | committed committed context => exact .inl (by rw [context])

/-- A fee record stays as the chain goes on, until it is refunded. -/
theorem fee_stays {earlier later : List ChainStep} {middle : Chain} {value : Text}
    (start : ChainRun sha tip earlier middle) (rest : Run (Chain.Step sha) middle later chain)
    (guarded : ∀ taken ∈ earlier ++ later, NamesOffers sha taken ∧ FreshFee sha taken)
    (found : sha.kindOf key = some .fee) (filled : value ≠ [])
    (written : middle.context.get key = value) :
    chain.context.get key = value ∨ ∃ refund ∈ later, Refunds sha key value refund := by
  induction rest with
  | nil => exact .inl written
  | snoc rest next ih =>
    rename_i steps before label after
    have reached : ChainRun sha tip (earlier ++ steps) before := start.append rest
    rw [← List.append_assoc] at guarded
    have shorter : ∀ taken ∈ earlier ++ steps, NamesOffers sha taken ∧ FreshFee sha taken :=
      fun taken listed => guarded taken (List.mem_append_left _ listed)
    obtain ⟨named, free⟩ := guarded ⟨before, label, after⟩ (by simp)
    rcases ih shorter with same | ⟨refund, listed, refunded⟩
    · subst same
      rcases next.did.fee_stays (reached.kept fun taken listed => (shorter taken listed).1)
        named free found filled with same | refunded
      · exact .inl same
      · exact .inr ⟨_, by simp, refunded⟩
    · exact .inr ⟨refund, List.mem_append_left _ listed, refunded⟩

/-- In a run whose charged commands find their keys free, fees are refundable. -/
theorem fees_kept (run : ChainRun sha tip steps chain)
    (guarded : ∀ taken ∈ steps, NamesOffers sha taken ∧ FreshFee sha taken) :
    RefundableFees sha steps chain := by
  constructor
  · rintro earlier taken later rfl env signer command succeeds charged
    obtain ⟨reached, step, rest⟩ := Run.split run
    have shapes := ChainRun.kept reached fun other listed =>
      (guarded other (List.mem_append_left _ listed)).1
    obtain ⟨serves, executed⟩ := succeeds.executed step
    have around := succeeds.around serves shapes (guarded taken (by simp)).1
    have written := executed.fee_paid around charged (env.kindOf_feeId sha)
    rw [if_pos rfl] at written
    refine fee_stays (reached.snoc step) rest (by simpa using guarded) (env.kindOf_feeId sha) ?_
      written
    have counted : feeOf sha signer (env.feeId sha) (env.feeEntry sha signer).2 =
        if signer = signer then 1 else 0 := feeOf_feeEntry around.isId
    rw [if_pos rfl] at counted
    intro empty
    rw [empty, feeOf_nil] at counted
    cases counted
  · intro signer
    refine run.history (fun steps chain => charges sha steps signer =
      feesOf sha chain.context signer + refunds sha steps signer) rfl ?_ guarded
    rintro earlier taken reached before balance did ⟨named, free⟩
    exact did.fees_balance (reached.kept fun other listed => (before other listed).1) named free
      balance

end Fees

/-! ## Equal nonces -/

/-- Whether a charged command finds the key of its fee record free. -/
def Command.freshFee (sha : Sha512) (env : Env) (state : State) (command : Command) : Bool :=
  !command.isCharged || (state.get (env.feeId sha)).isEmpty

/-- The investor pays for an address. -/
theorem fees_kept_sample :
    let script := [collect investorKey "1", register investorKey "2" "0x1"]
    RefundableFees sample ((Chain.empty 2).steps sample sampleNode script)
      ((Chain.empty 2).plays sample sampleNode script) := by
  intro script
  have checked : (Chain.empty 2).checks sample sampleNode
      (fun chain env _ command => command.ordinary sample chain &&
        command.freshFee sample env chain.context) script = true := by
    decide +kernel
  refine fees_kept Chain.steps_run fun taken listed => ?_
  obtain ⟨named, _, fresh⟩ := Chain.checks_ordinary checked taken listed
  refine ⟨named, fun env signer command succeeds charged => ?_⟩
  have passes := fresh _ _ _ succeeds
  simpa [Command.freshFee, charged] using passes

/-- Where fees are refundable, a fee record after one more turn is still its signer's or gone. -/
theorem RefundableFees.next {sha : Sha512} {node : Env} {chain : Chain} {script : List Turn}
    {signerPublicKey nonce signer : Text} {payload : Json} {command : Command} {turn : Turn}
    (fees : RefundableFees sha
      (chain.steps sha node (script ++ [.submit signerPublicKey nonce payload, turn]))
      (chain.plays sha node (script ++ [.submit signerPublicKey nonce payload, turn])))
    (accepted : (chain.plays sha node script).accepts sha node
      (.submit signerPublicKey nonce payload) = some (signer, command))
    (charged : command.isCharged = true) :
    let after := (chain.plays sha node script).plays sha node
      [.submit signerPublicKey nonce payload, turn]
    (feeAt after.context (sha.makeAddress .fee nonce)).sighash = signer ∨
      (feeAt after.context (sha.makeAddress .fee nonce)).sighash = [] := by
  intro after
  rcases fees.kept _ _ _ Chain.steps_append _ _ _ (Chain.accepts_succeeds accepted) charged with
    same | ⟨refund, listed, _, deleted, _⟩
  · rw [Chain.plays_append] at same
    have read := congrArg (fun data => (Fee.parseFromString data).sighash) same
    have owner : (Fee.parseFromString (Env.feeEntry sha
        ((chain.plays sha node script).serve node signerPublicKey nonce) signer).2).sighash =
        signer := congrArg Fee.sighash (Fee.parse_serialize _)
    exact .inl (read.trans owner)
  · rw [List.mem_singleton.mp listed] at deleted
    exact .inr (congrArg (fun data => (Fee.parseFromString data).sighash) deleted)

/-- The fundraiser takes the nonce of the investor, whose fee record is lost. -/
theorem fee_overwritten :
    ¬ ∀ (sha : Sha512) (tip : UInt64) (steps : List ChainStep) (chain : Chain),
      ChainRun sha tip steps chain → RefundableFees sha steps chain := by
  intro claim
  have overwritten :
      let script := [collect investorKey "1", collect fundraiserKey "2"]
      let charge := register investorKey "3" "0x1"
      let overwrite := register fundraiserKey "3" "0x2"
      let funded := (Chain.empty 2).plays sample sampleNode script
      let owner := (feeAt (funded.plays sample sampleNode [charge, overwrite]).context
        (sample.makeAddress .fee "3".toList)).sighash
      funded.accepts sample sampleNode charge = some (sample.id investorKey,
          .registerAddress "ethereum".toList "0x1".toList "rinkeby".toList) ∧
        owner ≠ sample.id investorKey ∧ owner ≠ [] := by
    decide +kernel
  obtain ⟨charged, other, present⟩ := overwritten
  exact ((claim _ _ _ _ Chain.steps_run).next charged rfl).elim other present

end Creditcoin
