import Creditcoin.Balances
import Creditcoin.Chain

/-!
# Awards

`reward` fetches the signers of the blocks it goes through, one by one or all together, and
awards them in ascending order. This module reads a successful `Housekeeping` apart: which of its
paths it takes, what the listings leave, which blocks are awarded, and where the marker moves.
-/

namespace Creditcoin

open Lib

/-- The award of every block of a list. -/
def awards (sha : Sha512) (newFormula : Bool) (blocks : List (Int × Text)) : App Unit :=
  Exec.forEach blocks fun block => award sha newFormula block.1 block.2

/-- The last block that `reward` goes up to. -/
def lastRewarded (processedBlockIdx uptoBlockIdx : Int) : Int :=
  if uptoBlockIdx = 0 then processedBlockIdx + blockRewardProcessingCount else uptoBlockIdx

/-- The blocks that `reward` goes through outside of replay, with their signers. -/
inductive Env.Rewards (env : Env) (processedBlockIdx lastBlockIdx : Int) :
    List (Int × Text) → Prop
  /-- While a block is built, the signers are fetched by height. -/
  | built {signers : List Text} (building : env.blockSignature = [])
      (fetched : List.Forall₂
        (fun height signer => env.getSigByNum (UInt64.ofNat height.toNat) = .ok signer)
        (heightsAbove processedBlockIdx (lastBlockIdx - processedBlockIdx).toNat) signers) :
      Env.Rewards env processedBlockIdx lastBlockIdx
        ((heightsAbove processedBlockIdx (lastBlockIdx - processedBlockIdx).toNat).zip signers)
  /-- While a block is validated, the signers are fetched together. -/
  | validated {signatures : List Text} (validating : env.blockSignature ≠ [])
      (fetched : env.getRewardBlockSignatures env.blockSignature
        (UInt64.ofNat lastBlockIdx.toNat) (UInt64.ofNat (processedBlockIdx + 1).toNat) =
          .ok signatures) :
      Env.Rewards env processedBlockIdx lastBlockIdx
        ((heightsAbove processedBlockIdx signatures.length).zip signatures)

/-- The marker of the processed block stands for a height; a missing one stands for zero. -/
def Processed (sha : Sha512) (state : State) (height : Int) : Prop :=
  if state.get sha.processedBlockIdx = [] then height = 0
  else IsAmount (state.get sha.processedBlockIdx) height

/-- A height passes the guards of an explicit `Housekeeping`. -/
def Env.Passes (env : Env) (last blockIdx : Int) : Prop :=
  blockIdx ≠ 0 ∧ confirmationCount * 2 ≤ blockIdx ∧ last < blockIdx ∧
    blockIdx < env.head - confirmationCount

/-- What a successful `Housekeeping` does: the blocks it awards and the memory it leaves. -/
inductive Housekept (sha : Sha512) (env : Env) (blockIdx last : Int) (memory : Memory) :
    List (Int × Text) → Memory → Prop
  /-- Too few blocks are left to reward. -/
  | idle (periodic : blockIdx = 0)
      (early : ¬ last + confirmationCount * 2 + blockRewardProcessingCount < env.head) :
      Housekept sha env blockIdx last memory [] memory
  /-- The next blocks are rewarded. -/
  | rewarded {newFormula : Bool} {blocks : List (Int × Text)} {after : Memory}
      (periodic : blockIdx = 0)
      (late : last + confirmationCount * 2 + blockRewardProcessingCount < env.head)
      (formula : env.newFormula last = .ok newFormula)
      (fetched : env.Rewards last (last + blockRewardProcessingCount) blocks)
      (ran : awards sha newFormula blocks env memory = .ok ((), after)) :
      Housekept sha env blockIdx last memory blocks { after with
        state := after.state.set sha.processedBlockIdx
          (toText (last + blockRewardProcessingCount)) }
  /-- The height asked for is too low or too high. -/
  | ignored (explicit : blockIdx ≠ 0)
      (verified : verifyGatewaySigner sha env memory = .ok ((), memory))
      (outside : (blockIdx < confirmationCount * 2 ∨ blockIdx ≤ last) ∨
        env.head - confirmationCount ≤ blockIdx) :
      Housekept sha env blockIdx last memory [] memory
  /-- Expired records are swept and the blocks up to the height are rewarded. -/
  | settled {newFormula : Bool} {blocks : List (Int × Text)} {swept after : Memory}
      (explicit : blockIdx ≠ 0)
      (verified : verifyGatewaySigner sha env memory = .ok ((), memory))
      (inside : ¬ (blockIdx < confirmationCount * 2 ∨ blockIdx ≤ last))
      (settled : blockIdx < env.head - confirmationCount)
      (sweeps : sweep sha blockIdx env memory = .ok ((), swept))
      (formula : env.newFormula last = .ok newFormula)
      (fetched : env.Rewards last blockIdx blocks)
      (ran : awards sha newFormula blocks env swept = .ok ((), after)) :
      Housekept sha env blockIdx last memory blocks { after with
        state := after.state.set sha.processedBlockIdx (toText blockIdx) }

section Rewards

variable {sha : Sha512} {env : Env} {memory after : Memory} {query : Query}

/-- The heights above a block are counted from it. -/
theorem heightsAbove_eq (processedBlockIdx : Int) (count : Nat) :
    heightsAbove processedBlockIdx count =
      (List.range count).map fun step : Nat => processedBlockIdx + 1 + (step : Int) := by
  simp [heightsAbove, ← List.map_eq_flatMap]

/-- There are as many heights as asked for. -/
@[simp] theorem heightsAbove_length (processedBlockIdx : Int) (count : Nat) :
    (heightsAbove processedBlockIdx count).length = count := by
  simp [heightsAbove_eq]

/-- The heights above a block continue with those above a later one. -/
theorem heightsAbove_add (processedBlockIdx : Int) (first second : Nat) :
    heightsAbove processedBlockIdx (first + second) =
      heightsAbove processedBlockIdx first ++ heightsAbove (processedBlockIdx + first) second := by
  rw [heightsAbove_eq, List.range_add, List.map_append, List.map_map, heightsAbove_eq,
    heightsAbove_eq]
  congr 1
  apply List.map_congr_left
  intro step _
  simp only [Function.comp_apply, Nat.cast_add]
  omega

/-- A height above a block lies between the block and the last one. -/
theorem mem_heightsAbove {processedBlockIdx height : Int} {count : Nat} :
    height ∈ heightsAbove processedBlockIdx count ↔
      processedBlockIdx < height ∧ height ≤ processedBlockIdx + count := by
  simp only [heightsAbove_eq, List.mem_map, List.mem_range]
  constructor
  · rintro ⟨step, within, rfl⟩
    omega
  · rintro ⟨above, within⟩
    exact ⟨(height - processedBlockIdx - 1).toNat, by omega, by omega⟩

/-- A loop that fetches and awards is a loop that awards what was fetched. -/
theorem fetchEach_ok {newFormula : Bool} {heights : List Int} {result : Unit} :
    Exec.forEach heights (fun height => do
      let signer ← Exec.asksExcept fun env => env.getSigByNum (UInt64.ofNat height.toNat)
      award sha newFormula height signer) env memory = .ok (result, after) ↔
      ∃ signers, List.Forall₂
        (fun height signer => env.getSigByNum (UInt64.ofNat height.toNat) = .ok signer)
        heights signers ∧ awards sha newFormula (heights.zip signers) env memory = .ok ((), after) := by
  induction heights generalizing memory with
  | nil =>
    simp only [Exec.forEach_nil_ok, List.forall₂_nil_left_iff, exists_eq_left, List.zip_nil_left]
    exact Exec.forEach_nil_ok.symm
  | cons height heights ih =>
    simp only [Exec.forEach_cons_ok, ih, Exec.bind_ok, Exec.asksExcept_ok, existsAndEq, true_and,
      and_assoc]
    constructor
    · rintro ⟨middle, ⟨signer, found, first⟩, signers, fetched, rest⟩
      exact ⟨signer :: signers, .cons found fetched,
        Exec.forEach_cons_ok.mpr ⟨middle, first, rest⟩⟩
    · rintro ⟨signers, fetched, ran⟩
      cases fetched with
      | cons found fetched =>
        obtain ⟨middle, first, rest⟩ := Exec.forEach_cons_ok.mp ran
        exact ⟨middle, ⟨_, found, first⟩, _, fetched, rest⟩

/-- `reward` awards the blocks it goes through. -/
theorem reward_ok (live : env.Live) {processedBlockIdx uptoBlockIdx : Int} {result : Unit} :
    reward sha processedBlockIdx uptoBlockIdx env memory = .ok (result, after) ↔
      ∃ newFormula blocks, env.newFormula processedBlockIdx = .ok newFormula ∧
        env.Rewards processedBlockIdx (lastRewarded processedBlockIdx uptoBlockIdx) blocks ∧
        awards sha newFormula blocks env memory = .ok ((), after) := by
  simp only [reward, Exec.mapError_ok, Exec.bind_ok, Exec.asks_ok, live.transitioning,
    Bool.false_eq_true, Exec.asksExcept_ok, Exec.ite_ok, existsAndEq, true_and, false_and,
    not_false_eq_true, false_or, and_assoc, rewardByNum, rewardBySignatures, fetchEach_ok,
    List.isEmpty_iff, ← lastRewarded.eq_1]
  constructor
  · rintro ⟨newFormula, formula, ⟨building, signers, fetched, ran⟩ | ⟨validating, signatures,
      fetched, ran⟩⟩
    · exact ⟨newFormula, _, formula, .built building fetched, ran⟩
    · exact ⟨newFormula, _, formula, .validated validating fetched, ran⟩
  · rintro ⟨newFormula, blocks, formula, fetched, ran⟩
    cases fetched with
    | built building fetched => exact ⟨newFormula, formula, .inl ⟨building, _, fetched, ran⟩⟩
    | validated validating fetched =>
      exact ⟨newFormula, formula, .inr ⟨validating, _, fetched, ran⟩⟩

/-- The last processed block is what the marker stands for. -/
theorem getLastProcessedBlockIdx_processed (live : env.Live) {last : Int} :
    getLastProcessedBlockIdx sha env memory = .ok (last, after) ↔
      Processed sha memory.state last ∧ after = memory :=
  getLastProcessedBlockIdx_ok live

/-- A successful `Housekeeping` takes one of its paths. -/
theorem housekeeping_ok (live : env.Live) :
    housekeeping sha query env memory = .ok ((), after) ↔
      ∃ blockIdx last blocks, query.housekeeping = .ok (.housekeeping blockIdx) ∧
        Processed sha memory.state last ∧ Housekept sha env blockIdx last memory blocks after := by
  have read (blockIdx : Int) : query.housekeeping = .ok (.housekeeping blockIdx) ↔
      ∃ text, query.getBigint "p1" "blockIdx" = .ok (text, blockIdx) := by
    simp only [Query.housekeeping, bind_eq_ok, pure_eq_ok, Prod.exists, Command.housekeeping.injEq,
      existsAndEq, and_true]
  simp only [housekeeping, Exec.bind_ok, Exec.lift_ok, getLastProcessedBlockIdx_processed live,
    Exec.ite_ok, lastBlockInt_ok, setState_ok live, Exec.pure_ok, existsAndEq, true_and,
    and_assoc, Prod.exists, reward_ok live, read]
  constructor
  · rintro ⟨text, blockIdx, found, last, processed, path⟩
    rcases path with ⟨periodic, ⟨late, _, middle, ⟨newFormula, blocks, formula, fetched, ran⟩, rfl⟩ |
      ⟨early, rfl⟩⟩ | ⟨explicit, _, middle, verified, path⟩
    · exact ⟨blockIdx, last, blocks, ⟨text, found⟩, processed,
        .rewarded periodic late formula fetched ran⟩
    · exact ⟨blockIdx, last, [], ⟨text, found⟩, processed, .idle periodic early⟩
    obtain rfl := verifyGatewaySigner_ok live verified
    rcases path with ⟨outside, rfl⟩ | ⟨inside, ⟨outside, rfl⟩ | ⟨settled, _, swept, sweeps, _, middle,
      ⟨newFormula, blocks, formula, fetched, ran⟩, rfl⟩⟩
    · exact ⟨blockIdx, last, [], ⟨text, found⟩, processed, .ignored explicit verified (.inl outside)⟩
    · exact ⟨blockIdx, last, [], ⟨text, found⟩, processed, .ignored explicit verified (.inr outside)⟩
    · rw [lastRewarded, if_neg explicit] at fetched
      exact ⟨blockIdx, last, blocks, ⟨text, found⟩, processed,
        .settled explicit verified inside (Int.not_le.mp settled) sweeps formula fetched ran⟩
  · rintro ⟨blockIdx, last, blocks, ⟨text, found⟩, processed, path⟩
    refine ⟨text, blockIdx, found, last, processed, ?_⟩
    cases path with
    | idle periodic early => exact .inl ⟨periodic, .inr ⟨early, rfl⟩⟩
    | rewarded periodic late formula fetched ran =>
      exact .inl ⟨periodic, .inl ⟨late, (), _, ⟨_, _, formula, fetched, ran⟩, rfl⟩⟩
    | ignored explicit verified outside =>
      rcases outside with early | late
      · exact .inr ⟨explicit, (), _, verified, .inl ⟨early, rfl⟩⟩
      · by_cases early : blockIdx < confirmationCount * 2 ∨ blockIdx ≤ last
        · exact .inr ⟨explicit, (), _, verified, .inl ⟨early, rfl⟩⟩
        · exact .inr ⟨explicit, (), _, verified, .inr ⟨early, .inl ⟨late, rfl⟩⟩⟩
    | settled explicit verified inside settled sweeps formula fetched ran =>
      have target : lastRewarded last blockIdx = blockIdx := by rw [lastRewarded, if_neg explicit]
      exact .inr ⟨explicit, (), _, verified, .inr ⟨inside, .inr ⟨Int.not_le.mpr settled, (), _,
        sweeps, (), _, ⟨_, _, formula, target.symm ▸ fetched, ran⟩, rfl⟩⟩⟩

/-- A `Housekeeping` transaction succeeds when it is admitted and takes one of its paths. -/
theorem apply_housekeeping_ok (live : env.Live) {payload : Json} {blockIdx : Int}
    (read : payload.command = .ok (.housekeeping blockIdx)) :
    apply sha payload env memory = .ok ((), after) ↔
      (∃ compressed, compress env.signerPublicKey = .ok compressed) ∧
      ¬ (env.v2block != 0 && decide (env.v2block < env.head) &&
        env.familyVersion.head? == some '1') = true ∧
      ∃ last blocks, Processed sha memory.state last ∧
        Housekept sha env blockIdx last memory blocks after := by
  rw [apply_ok]
  constructor
  · rintro ⟨query, cmd, verb, compressed, params, key, version, found, ran⟩
    simp only [Json.command, params, found] at read
    obtain rfl := command_verb read
    obtain ⟨other, last, blocks, again, processed, path⟩ := (housekeeping_ok live).mp ran
    have same := Except.ok.inj (again.symm.trans read)
    rw [Command.housekeeping.injEq] at same
    subst same
    exact ⟨⟨compressed, key⟩, version, last, blocks, processed, path⟩
  · rintro ⟨⟨compressed, key⟩, version, last, blocks, processed, path⟩
    unfold Json.command at read
    split at read
    · rename_i query cmd params
      split at read
      · rename_i verb found
        obtain rfl := command_verb read
        refine ⟨query, cmd, _, compressed, params, key, version, found, ?_⟩
        exact (housekeeping_ok live).mpr ⟨blockIdx, last, blocks, read, processed, path⟩
      · cases read
    · cases read

end Rewards

/-! ## Wallets that can be credited -/

/-- Every wallet that exists has an amount. -/
def Solvent (sha : Sha512) (state : State) : Prop :=
  ∀ owner, state.get (sha.walletId owner) ≠ [] →
    ∃ balance, IsAmount (walletOf sha state owner).amount balance

section Solvency

variable {sha : Sha512} {env : Env} {memory : Memory} {state : State} {newFormula : Bool}
  {blocks : List (Int × Text)}

/-- A state without wallets is solvent. -/
theorem solvent_empty : Solvent sha ∅ := fun _ present => absurd rfl present

/-- A written wallet with an amount keeps the wallets solvent. -/
theorem Solvent.set (solvent : Solvent sha state) {payee : Text} {wallet : Wallet} {balance : Int}
    (read : IsAmount wallet.amount balance) :
    Solvent sha (state.set (sha.walletId payee) wallet.serializeToString) := by
  intro owner present
  by_cases same : owner = payee
  · subst same
    rw [walletOf, Store.get_set_self, Wallet.parse_serialize]
    exact ⟨balance, read⟩
  · have apart : sha.walletId owner ≠ sha.walletId payee :=
      fun equal => same (sha.walletId_injective equal)
    rw [Store.get_set_ne _ apart] at present
    rw [walletOf, Store.get_set_ne _ apart]
    exact solvent owner present

/-- A write of another kind keeps the wallets solvent. -/
theorem Solvent.set_apart (solvent : Solvent sha state) {key value : Text}
    (apart : sha.kindOf key ≠ some .wallet) : Solvent sha (state.set key value) := by
  intro owner present
  have other : sha.walletId owner ≠ key :=
    sha.ne_of_kindOf_ne fun same => apart (same ▸ sha.kindOf_walletId owner)
  rw [Store.get_set_ne _ other] at present
  rw [walletOf, Store.get_set_ne _ other]
  exact solvent owner present

/-- A solvent wallet can be awarded. -/
theorem award_total (live : env.Live) (solvent : Solvent sha memory.state) {height : Int}
    {signer : Text} (computed : ∃ reward, env.blockReward newFormula height = .ok reward) :
    ∃ after, award sha newFormula height signer env memory = .ok ((), after) ∧
      Solvent sha after.state := by
  obtain ⟨⟨reward, rewardString⟩, computed⟩ := computed
  by_cases positive : 0 < reward
  · have printed := blockReward_read computed
    have credited : ∃ wallet balance,
        Credited (memory.state.get (sha.walletId (sha.id signer))) rewardString reward wallet ∧
          IsAmount wallet.amount balance := by
      by_cases missing : memory.state.get (sha.walletId (sha.id signer)) = []
      · exact ⟨_, reward, .created missing, printed, by omega⟩
      · obtain ⟨balance, read⟩ := solvent _ missing
        exact ⟨_, balance + reward, .raised missing read.1 read.2, cppInt_toText _,
          by have := read.2; omega⟩
    obtain ⟨wallet, balance, credited, read⟩ := credited
    exact ⟨_, (award_ok live).mpr ⟨_, _, computed, .inl ⟨positive, wallet, credited, rfl⟩⟩,
      solvent.set read⟩
  · exact ⟨memory, (award_ok live).mpr ⟨_, _, computed, .inr ⟨positive, rfl⟩⟩, solvent⟩

/-- Solvent wallets can be awarded any blocks whose rewards can be computed. -/
theorem awards_total (live : env.Live) (solvent : Solvent sha memory.state)
    (computed : ∀ block ∈ blocks, ∃ reward, env.blockReward newFormula block.1 = .ok reward) :
    ∃ after, awards sha newFormula blocks env memory = .ok ((), after) ∧
      Solvent sha after.state := by
  induction blocks generalizing memory with
  | nil => exact ⟨memory, Exec.forEach_nil_ok.mpr rfl, solvent⟩
  | cons block blocks ih =>
    rw [List.forall_mem_cons] at computed
    obtain ⟨middle, first, between⟩ := award_total live solvent computed.1
    obtain ⟨after, rest, last⟩ := ih between computed.2
    exact ⟨after, Exec.forEach_cons_ok.mpr ⟨middle, first, rest⟩, last⟩

/-- While a block is built with one miner, every height is rewarded to the miner. -/
theorem Env.Rewards.mined {signer : Text} {last upto : Int} (building : env.blockSignature = [])
    (mined : ∀ height, env.getSigByNum height = .ok signer) :
    env.Rewards last upto
      ((heightsAbove last (upto - last).toNat).map fun height => (height, signer)) := by
  have fetched (heights : List Int) : List.Forall₂
      (fun height signer => env.getSigByNum (UInt64.ofNat height.toNat) = .ok signer)
      heights (heights.map fun _ => signer) := by
    induction heights with
    | nil => exact .nil
    | cons height heights ih => exact .cons (mined _) ih
  have zipped (heights : List Int) : heights.zip (heights.map fun _ => signer) =
      heights.map fun height => (height, signer) := by
    induction heights with
    | nil => rfl
    | cons height heights ih => rw [List.map_cons, List.zip_cons_cons, ih, List.map_cons]
  rw [← zipped]
  exact .built building (fetched _)

/-- A `Housekeeping` that passes its guards succeeds when its listings do and leave solvent
wallets. -/
theorem Housekept.settles {blockIdx last : Int} {swept : Memory} (live : env.Live)
    (passes : env.Passes last blockIdx)
    (verified : verifyGatewaySigner sha env memory = .ok ((), memory))
    (sweeps : sweep sha blockIdx env memory = .ok ((), swept)) (solvent : Solvent sha swept.state)
    (formula : env.newFormula last = .ok newFormula) (fetched : env.Rewards last blockIdx blocks)
    (computed : ∀ block ∈ blocks, ∃ reward, env.blockReward newFormula block.1 = .ok reward) :
    ∃ after, Housekept sha env blockIdx last memory blocks after ∧ Solvent sha after.state := by
  obtain ⟨explicit, high, above, settled⟩ := passes
  obtain ⟨after, ran, left⟩ := awards_total live solvent computed
  have inside : ¬ (blockIdx < confirmationCount * 2 ∨ blockIdx ≤ last) := by omega
  refine ⟨_, .settled explicit verified inside settled sweeps formula fetched ran, ?_⟩
  apply left.set_apart
  rw [sha.kindOf_processedBlockIdx]
  exact fun same => nomatch same

end Solvency

/-! ## What awards credit -/

/-- What the award of a block credits. -/
def Env.creditOf (env : Env) (newFormula : Bool) (blockIdx : Int) : Int :=
  match env.blockReward newFormula blockIdx with
  | .ok (reward, _) => if 0 < reward then reward else 0
  | .error _ => 0

/-- What the awards of some blocks credit to an owner. -/
def Env.creditsOf (sha : Sha512) (env : Env) (newFormula : Bool) (blocks : List (Int × Text))
    (owner : Text) : Int :=
  (blocks.map fun block =>
    if sha.id block.2 = owner then env.creditOf newFormula block.1 else 0).sum

section Credits

variable {sha : Sha512} {env : Env} {memory after : Memory} {newFormula : Bool}
  {blocks : List (Int × Text)} {owner key : Text}

/-- An award credits the signer of its block. -/
theorem award_balance (live : env.Live) {height : Int} {signer : Text} {result : Unit}
    (ran : award sha newFormula height signer env memory = .ok (result, after)) :
    balanceOf sha after.state owner = balanceOf sha memory.state owner +
      if sha.id signer = owner then env.creditOf newFormula height else 0 := by
  obtain ⟨reward, rewardString, computed, credited⟩ := (award_ok live).mp ran
  have credit : env.creditOf newFormula height = if 0 < reward then reward else 0 := by
    rw [Env.creditOf, computed]
  rw [credit]
  rcases credited with ⟨positive, wallet, credited, rfl⟩ | ⟨none, rfl⟩
  · rw [if_pos positive]
    exact balanceOf_credit (blockReward_read computed) credited
  · rw [if_neg none, ite_self, Int.add_zero]

/-- Awards credit the signers of their blocks. -/
theorem awards_balance (live : env.Live)
    (ran : awards sha newFormula blocks env memory = .ok ((), after)) :
    balanceOf sha after.state owner =
      balanceOf sha memory.state owner + env.creditsOf sha newFormula blocks owner := by
  induction blocks generalizing memory with
  | nil =>
    obtain rfl := Exec.forEach_nil_ok.mp ran
    simp [Env.creditsOf]
  | cons block blocks ih =>
    obtain ⟨middle, first, rest⟩ := Exec.forEach_cons_ok.mp ran
    rw [ih rest, award_balance live first, Env.creditsOf, Env.creditsOf, List.map_cons,
      List.sum_cons, Int.add_assoc]

/-- Awards write wallets only. -/
theorem awards_frame (live : env.Live) (other : sha.kindOf key ≠ some .wallet)
    (ran : awards sha newFormula blocks env memory = .ok ((), after)) :
    after.state.get key = memory.state.get key := by
  refine Exec.forEach_preserves (fun middle => middle.state.get key = memory.state.get key)
    ?_ rfl ran
  intro block _ before later same ran
  obtain ⟨_, _, _, ⟨_, wallet, _, rfl⟩ | ⟨_, rfl⟩⟩ := (award_ok live).mp ran
  · have apart : key ≠ sha.walletId (sha.id block.2) :=
      fun equal => other (equal ▸ sha.kindOf_walletId _)
    exact (Store.get_set_ne _ apart _).trans same
  · exact same

/-- A credit leaves one wallet. -/
theorem Credited.unique {data amountString : Text} {amount : Int} {wallet wallet' : Wallet}
    (credited : Credited data amountString amount wallet)
    (again : Credited data amountString amount wallet') : wallet = wallet' := by
  cases credited with
  | created missing =>
    cases again with
    | created => rfl
    | raised present => exact absurd missing present
  | raised present read =>
    cases again with
    | created missing => exact absurd missing present
    | raised _ read' => rw [Option.some.inj (read.symm.trans read')]

/-- Awards to the same wallets leave the same wallets. -/
theorem awards_agree (live : env.Live) {memory' left left' : Memory}
    (same : ∀ key, memory.state.get key = memory'.state.get key)
    (ran : awards sha newFormula blocks env memory = .ok ((), left))
    (again : awards sha newFormula blocks env memory' = .ok ((), left')) :
    left.state.get key = left'.state.get key := by
  induction blocks generalizing memory memory' with
  | nil =>
    obtain rfl := Exec.forEach_nil_ok.mp ran
    obtain rfl := Exec.forEach_nil_ok.mp again
    exact same key
  | cons block blocks ih =>
    obtain ⟨middle, first, rest⟩ := Exec.forEach_cons_ok.mp ran
    obtain ⟨middle', first', rest'⟩ := Exec.forEach_cons_ok.mp again
    refine ih (fun key => ?_) rest rest'
    obtain ⟨reward, text, computed, written⟩ := (award_ok live).mp first
    obtain ⟨reward', text', computed', written'⟩ := (award_ok live).mp first'
    obtain ⟨rfl, rfl⟩ := Prod.mk.inj (Except.ok.inj (computed.symm.trans computed'))
    rcases written with ⟨positive, wallet, credited, rfl⟩ | ⟨idle, rfl⟩
    · rcases written' with ⟨_, wallet', credited', rfl⟩ | ⟨idle, _⟩
      · rw [same] at credited
        rw [credited.unique credited', Store.setAll_cons, Store.setAll_nil, Store.setAll_cons,
          Store.setAll_nil, Store.get_set, Store.get_set, same]
      · exact absurd positive idle
    · rcases written' with ⟨positive, _⟩ | ⟨_, rfl⟩
      · exact absurd positive idle
      · exact same key

/-- Awards that succeed have rewards. -/
theorem awards_computed (live : env.Live)
    (ran : awards sha newFormula blocks env memory = .ok ((), after)) :
    ∀ block ∈ blocks, ∃ reward, env.blockReward newFormula block.1 = .ok reward := by
  induction blocks generalizing memory with
  | nil => exact fun block listed => absurd listed List.not_mem_nil
  | cons block blocks ih =>
    obtain ⟨middle, first, rest⟩ := Exec.forEach_cons_ok.mp ran
    obtain ⟨reward, text, computed, _⟩ := (award_ok live).mp first
    rw [List.forall_mem_cons]
    exact ⟨⟨_, computed⟩, ih rest⟩

/-- An accepted `Housekeeping` takes one of its paths. -/
theorem Succeeds.housekept {taken : ChainStep} {signer : Text} {blockIdx : Int}
    (succeeds : Succeeds sha taken env signer (.housekeeping blockIdx))
    (step : Chain.Step sha taken.before taken.label taken.after) :
    ∃ last blocks memory, Processed sha taken.before.context last ∧
      Housekept sha env blockIdx last ⟨taken.before.context, ∅⟩ blocks memory ∧
      taken.after.context = memory.state := by
  obtain ⟨before, label, after⟩ := taken
  obtain ⟨payload, memory, labelled, read, ran⟩ := succeeds.ran
  dsimp only at step labelled ran ⊢
  subst labelled
  cases step with
  | accepted serves ran' read' =>
    rw [ran, Except.ok.injEq, Prod.mk.injEq] at ran'
    obtain ⟨_, rfl⟩ := ran'
    obtain ⟨query, reads, ran⟩ := apply_ran read ran
    obtain ⟨blockIdx', last, blocks, reads', processed, path⟩ :=
      (housekeeping_ok serves.live).mp ran
    have same := Except.ok.inj (reads.symm.trans reads')
    rw [Command.housekeeping.injEq] at same
    subst same
    exact ⟨last, blocks, _, processed, path, rfl⟩
  | rejected serves ran' =>
    rw [ran] at ran'
    cases ran'

end Credits

end Creditcoin
