import Creditcoin.Awards
import Creditcoin.Listings

/-!
# The progress of rewards

The marker of the processed block divides the heights into those that have been rewarded and
those that have not. Every `Housekeeping` that rewards goes through the heights from the marker
to its new place, so over a whole run every height up to the marker is rewarded once.
-/

namespace Creditcoin

open Lib

/-- The height up to which blocks are rewarded. -/
def processedHeight (sha : Sha512) (state : State) : Int :=
  if state.get sha.processedBlockIdx = [] then 0 else amountOf (state.get sha.processedBlockIdx)

/-- The blocks that a step awards. -/
inductive Chain.Awards (sha : Sha512) (taken : ChainStep) : List (Int × Text) → Prop
  /-- A `Housekeeping` awards the blocks it goes through. -/
  | housekept {env : Env} {signer : Text} {blockIdx last : Int} {blocks : List (Int × Text)}
      {memory : Memory} (succeeds : Succeeds sha taken env signer (.housekeeping blockIdx))
      (processed : Processed sha taken.before.context last)
      (path : Housekept sha env blockIdx last ⟨taken.before.context, ∅⟩ blocks memory)
      (left : taken.after.context = memory.state) : Chain.Awards sha taken blocks
  /-- Nothing else awards a block. -/
  | other (idle : ∀ env signer blockIdx, ¬ Succeeds sha taken env signer (.housekeeping blockIdx)) :
      Chain.Awards sha taken []

/-- The blocks that a run awards, in order. -/
inductive Chain.AwardsOf (sha : Sha512) : List ChainStep → List (Int × Text) → Prop
  /-- The empty run awards nothing. -/
  | nil : Chain.AwardsOf sha [] []
  /-- A step adds its awards. -/
  | snoc {steps : List ChainStep} {taken : ChainStep} {earlier blocks : List (Int × Text)}
      (run : Chain.AwardsOf sha steps earlier) (step : Chain.Awards sha taken blocks) :
      Chain.AwardsOf sha (steps ++ [taken]) (earlier ++ blocks)

/-- The validator returns the signers of the heights asked for, in ascending order. -/
structure Env.Honest (env : Env) (signerOf : Int → Text) : Prop where
  /-- The signer of a height. -/
  byNum : ∀ height signer, 0 < height → height ≤ env.head →
    env.getSigByNum (UInt64.ofNat height.toNat) = .ok signer → signer = signerOf height
  /-- The signers of some heights. -/
  together : ∀ first last signatures, 0 ≤ last → last < first → first ≤ env.head →
    env.getRewardBlockSignatures env.blockSignature (UInt64.ofNat first.toNat)
      (UInt64.ofNat (last + 1).toNat) = .ok signatures →
    signatures = (heightsAbove last (first - last).toNat).map signerOf

/-- The transactions of a step are answered honestly. -/
def AnsweredBy (signerOf : Int → Text) (taken : ChainStep) : Prop :=
  ∀ env payload, taken.label = .transaction env payload → env.Honest signerOf

/-- The heights of a range with their signers. -/
def signedHeights (signerOf : Int → Text) (last upto : Int) : List (Int × Text) :=
  (heightsAbove last (upto - last).toNat).map fun height => (height, signerOf height)

section Progress

variable {sha : Sha512} {env : Env} {memory after : Memory} {state : State}
  {signerOf : Int → Text} {blocks : List (Int × Text)} {blockIdx last height : Int}

/-- A marker stands for one height, which is not negative. -/
theorem Processed.read (processed : Processed sha state height) :
    processedHeight sha state = height ∧ 0 ≤ height := by
  unfold Processed at processed
  unfold processedHeight
  by_cases missing : state.get sha.processedBlockIdx = []
  · rw [if_pos missing] at processed ⊢
    omega
  · rw [if_neg missing] at processed ⊢
    exact ⟨processed.amountOf, processed.2⟩

/-- A written marker stands for its height. -/
theorem processed_set (nonneg : 0 ≤ height) :
    Processed sha (state.set sha.processedBlockIdx (toText height)) height := by
  unfold Processed
  rw [Store.get_set_self, if_neg (toText_ne_nil height)]
  exact ⟨cppInt_toText height, nonneg⟩

/-- A list with its images is the list of pairs. -/
theorem zip_map_eq (heights : List Int) :
    heights.zip (heights.map signerOf) = heights.map fun height => (height, signerOf height) := by
  induction heights with
  | nil => rfl
  | cons height heights ih => rw [List.map_cons, List.zip_cons_cons, ih, List.map_cons]

/-- Honest answers name the signers of the heights. -/
theorem Env.Rewards.signedHeights {upto : Int} (fetched : env.Rewards last upto blocks)
    (honest : env.Honest signerOf) (nonneg : 0 ≤ last) (above : last < upto)
    (reached : upto ≤ env.head) : blocks = signedHeights signerOf last upto := by
  cases fetched with
  | built building fetched =>
    rename_i signers
    have named : signers = (heightsAbove last (upto - last).toNat).map signerOf := by
      have within : ∀ height ∈ heightsAbove last (upto - last).toNat,
          0 < height ∧ height ≤ env.head := by
        intro height listed
        obtain ⟨low, high⟩ := mem_heightsAbove.mp listed
        omega
      generalize heightsAbove last (upto - last).toNat = heights at fetched within
      induction fetched with
      | nil => rfl
      | cons found fetched ih =>
        have bounds := within _ List.mem_cons_self
        rw [List.map_cons, ← honest.byNum _ _ bounds.1 bounds.2 found,
          ← ih fun height listed => within height (List.mem_cons_of_mem _ listed)]
    rw [named, zip_map_eq]
    rfl
  | validated validating fetched =>
    have named := honest.together upto last _ nonneg above reached fetched
    rw [named, List.length_map, heightsAbove_length, zip_map_eq]
    rfl

/-- A `Housekeeping` awards the heights over which it moves the marker. -/
theorem Housekept.progress (path : Housekept sha env blockIdx last memory blocks after)
    (processed : Processed sha memory.state last) (honest : env.Honest signerOf) :
    ∃ upto, Processed sha after.state upto ∧ last ≤ upto ∧
      (last < upto → upto < env.head - confirmationCount) ∧
      blocks = signedHeights signerOf last upto := by
  have nonneg := processed.read.2
  have none : signedHeights signerOf last last = [] := by
    rw [signedHeights, Int.sub_self]
    rfl
  have count : confirmationCount = 30 := rfl
  have step : blockRewardProcessingCount = 10 := rfl
  cases path with
  | idle periodic early => exact ⟨last, processed, Int.le_refl _, by omega, none.symm⟩
  | rewarded periodic late formula fetched ran =>
    refine ⟨last + blockRewardProcessingCount, processed_set (by omega), by omega,
      fun _ => by omega, ?_⟩
    exact fetched.signedHeights honest nonneg (by omega) (by omega)
  | ignored explicit verified outside =>
    exact ⟨last, processed, Int.le_refl _, by omega, none.symm⟩
  | settled explicit verified inside settled sweeps formula fetched ran =>
    refine ⟨blockIdx, processed_set (by omega), by omega, fun _ => settled, ?_⟩
    exact fetched.signedHeights honest nonneg (by omega) (by omega)

/-- A `Housekeeping` that passes its guards moves the marker to its height. -/
theorem Housekept.marked (path : Housekept sha env blockIdx last memory blocks after)
    (processed : Processed sha memory.state last) (passes : env.Passes last blockIdx) :
    Processed sha after.state blockIdx := by
  have nonneg := processed.read.2
  obtain ⟨explicit, high, above, settled⟩ := passes
  cases path with
  | idle periodic => exact absurd periodic explicit
  | rewarded periodic => exact absurd periodic explicit
  | ignored _ _ outside => omega
  | settled => exact processed_set (by omega)

end Progress

section Steps

variable {sha : Sha512} {signerOf : Int → Text} {taken : ChainStep} {blocks : List (Int × Text)}
  {last : Int} {tip : UInt64} {steps : List ChainStep} {chain : Chain}

/-- The awards of a longer run are those of the run and those of its last step. -/
theorem Chain.AwardsOf.split (awarded : Chain.AwardsOf sha (steps ++ [taken]) blocks) :
    ∃ earlier last, Chain.AwardsOf sha steps earlier ∧ Chain.Awards sha taken last ∧
      blocks = earlier ++ last := by
  generalize whole : steps ++ [taken] = all at awarded
  cases awarded with
  | nil => simp at whole
  | snoc run step =>
    obtain ⟨rfl, same⟩ := List.append_inj' whole rfl
    obtain rfl := List.singleton_inj.mp same
    exact ⟨_, _, run, step, rfl⟩

/-- The empty run awards nothing. -/
theorem Chain.AwardsOf.empty (awarded : Chain.AwardsOf sha [] blocks) : blocks = [] := by
  generalize whole : ([] : List ChainStep) = all at awarded
  cases awarded with
  | nil => rfl
  | snoc run step => simp at whole

/-- An empty chain has rewarded no block. -/
theorem processed_empty : Processed sha (Chain.empty tip).context 0 := by
  unfold Processed
  exact if_pos rfl ▸ rfl

end Steps

/-- A sample node without a list of signatures. -/
def miningNode : Env :=
  { sampleNode with
    getRewardBlockSignatures := fun _ _ _ => .error (.standard "no signatures".toList) }

end Creditcoin
