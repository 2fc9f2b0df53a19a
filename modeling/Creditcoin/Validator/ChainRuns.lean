import Creditcoin.Validator.ChainController

/-!
# Runs of the chain controller

However the events of a run interleave, the store holds the line of the chain head, each block that
is processed has one thread, and each block that waits does so for a block that is processed. Where
`compare_forks` decides, the work of the chain head never falls.
-/

namespace Creditcoin.Validator

open Lib (Run Transition)
open PoW (Block)

namespace ChainController

variable {σ : Type}

section Invariants

variable {store : ChainStore σ} {controller : ChainController σ} {known : PoW.BlockCache}
  {blocks descendants : List Block}
  {newBlock : Block}

/-! ## Waiting blocks -/

/-- No block waits and is verified at once, and each waits for one that is verified or waits, but
for some that were just taken from the blocks that wait. -/
structure Released (known : PoW.BlockCache) (controller : ChainController σ)
    (descendants : List Block) : Prop where
  /-- One thread verifies a block. -/
  once : (idsOf (controller.threads.map VerifierThread.block)).Nodup
  /-- The blocks that are processed are those of the threads. -/
  processing : ∀ id, id ∈ controller.blocksProcessing ↔
    id ∈ idsOf (controller.threads.map VerifierThread.block)
  /-- A block waits for its predecessor, and is not processed. -/
  listed : ∀ id, ∀ block ∈ controller.pendingOn id, known.Holds block ∧
    block.previousBlockId = id ∧ block.headerSignature ∈ controller.blocksPending ∧
      block.headerSignature ∉ controller.blocksProcessing
  /-- It waits once. -/
  distinct : ∀ id, (controller.pendingOn id).Nodup
  /-- What others may wait for is processed, or waits, or was taken. -/
  waits : ∀ id ∈ controller.blocksPending, id ∈ controller.blocksProcessing ∨
    (∃ block, block.headerSignature = id ∧ block ∈ controller.pendingOn block.previousBlockId) ∨
      id ∈ idsOf descendants
  /-- What was taken is not processed and does not wait. -/
  free : ∀ block ∈ descendants, known.Holds block ∧
    block.headerSignature ∈ controller.blocksPending ∧
      block.headerSignature ∉ controller.blocksProcessing ∧
        block ∉ controller.pendingOn block.previousBlockId
  /-- It was taken once. -/
  apart : descendants.Nodup

/-- No block is forgotten. -/
def Tended (known : PoW.BlockCache) (controller : ChainController σ) : Prop :=
  controller.Released known []

/-- Known blocks of one identifier are one block. -/
theorem ids_nodup (held : ∀ block ∈ blocks, known.Holds block) (apart : blocks.Nodup) :
    (idsOf blocks).Nodup := by
  apply apart.map_on
  intro block listed block' listed' same
  exact (held block listed).eq (held block' listed') same

/-- A known block is not its own predecessor. -/
theorem ne_previous (held : known.Holds newBlock) :
    newBlock.previousBlockId ≠ newBlock.headerSignature := by
  intro same
  have older := known.older held (by rw [same]; exact held)
  rw [same] at older
  exact lt_irrefl _ older

/-- Submitting what was taken leaves no block forgotten. -/
theorem Released.submit (released : controller.Released known descendants) :
    (controller.submitBlocksForVerification descendants).Tended known where
  once := by
    have threads : idsOf ((controller.submitBlocksForVerification descendants).threads.map
        VerifierThread.block) =
          idsOf (controller.threads.map VerifierThread.block) ++ idsOf descendants := by
      simp [submitBlocksForVerification, idsOf]
    rw [threads, List.nodup_append]
    refine ⟨released.once, ids_nodup (fun block listed => (released.free block listed).1)
      released.apart, ?_⟩
    intro id old other new same
    subst same
    obtain ⟨block, listed, rfl⟩ := List.mem_map.mp new
    exact (released.free block listed).2.2.1 ((released.processing _).mpr old)
  processing id := by
    have processing := released.processing id
    simp only [submitBlocksForVerification, Finset.mem_union, List.mem_toFinset, processing, idsOf,
      List.map_append, List.mem_append, List.map_map]
    rfl
  listed id block listed := by
    obtain ⟨held, follows, key, apart⟩ := released.listed id block listed
    refine ⟨held, follows, key, ?_⟩
    change block.headerSignature ∉ controller.blocksProcessing ∪ _
    rw [Finset.mem_union, List.mem_toFinset, not_or]
    refine ⟨apart, fun taken => ?_⟩
    obtain ⟨other, isTaken, same⟩ := List.mem_map.mp taken
    have free := released.free other isTaken
    rw [free.1.eq held same] at free
    apply free.2.2.2
    rw [follows]
    exact listed
  distinct := released.distinct
  waits id key := by
    rcases released.waits id key with processed | waits | taken
    · exact .inl (Finset.mem_union_left _ processed)
    · exact .inr (.inl waits)
    · exact .inl (Finset.mem_union_right _ (List.mem_toFinset.mpr taken))
  free _ impossible := absurd impossible List.not_mem_nil
  apart := List.nodup_nil

/-- What waits after an entry is put. -/
theorem pendingOn_insert {after : ChainController σ} {key id : Text}
    (put : after.blocksPending = controller.blocksPending.insert key blocks) :
    after.pendingOn id = if id = key then blocks else controller.pendingOn id := by
  unfold pendingOn
  rw [put]
  split
  · rename_i same
    rw [same, AList.lookup_insert]
    rfl
  · rename_i different
    rw [AList.lookup_insert_ne different]

/-- What waits after an entry is taken. -/
theorem pendingOn_erase {after : ChainController σ} {key id : Text}
    (taken : after.blocksPending = controller.blocksPending.erase key) :
    after.pendingOn id = if id = key then [] else controller.pendingOn id := by
  unfold pendingOn
  rw [taken]
  split
  · rename_i same
    rw [same, AList.lookup_erase]
    rfl
  · rename_i different
    rw [AList.lookup_erase_ne different]

/-- Nothing waits without an entry. -/
theorem pendingOn_of_notMem {id : Text} (missing : id ∉ controller.blocksPending) :
    controller.pendingOn id = [] := by
  rw [pendingOn, AList.lookup_eq_none.mpr missing]
  rfl

/-- The identifiers of the threads without that of a block. -/
theorem ids_eraseP {threads : List VerifierThread} {id : Text} :
    idsOf ((threads.eraseP fun thread => thread.block.headerSignature == id).map
      VerifierThread.block) = (idsOf (threads.map VerifierThread.block)).erase id := by
  induction threads with
  | nil => rfl
  | cons thread threads ih =>
    rw [List.eraseP_cons]
    change _ = (thread.block.headerSignature :: idsOf (threads.map VerifierThread.block)).erase id
    rw [List.erase_cons]
    cases thread.block.headerSignature == id with
    | true => rfl
    | false => exact congrArg (thread.block.headerSignature :: ·) ih

/-- The controller when a thread has ended and what waited for its block was taken. -/
def popped (controller : ChainController σ) (id : Text) : ChainController σ :=
  { controller with
    threads := controller.threads.eraseP fun thread => thread.block.headerSignature == id
    blocksProcessing := controller.blocksProcessing.erase id
    blocksPending := controller.blocksPending.erase id }

/-- When a thread ends, only what waited for its block was taken. -/
theorem Tended.pop (tended : controller.Tended known)
    (processed : newBlock.headerSignature ∈ controller.blocksProcessing) :
    (controller.popped newBlock.headerSignature).Released known
      (controller.pendingOn newBlock.headerSignature) := by
  have lists (id : Text) : (controller.popped newBlock.headerSignature).pendingOn id =
      if id = newBlock.headerSignature then [] else controller.pendingOn id :=
    pendingOn_erase rfl
  have other {id : Text} {block : Block} (listed : block ∈ controller.pendingOn id) :
      block.headerSignature ≠ newBlock.headerSignature := by
    intro same
    have waiting := (tended.listed id block listed).2.2.2
    rw [same] at waiting
    exact waiting processed
  have remains {id : Text} {block : Block} (listed : block ∈ controller.pendingOn id) :
      block.headerSignature ∈ (controller.popped newBlock.headerSignature).blocksPending ∧
        block.headerSignature ∉
          (controller.popped newBlock.headerSignature).blocksProcessing := by
    obtain ⟨_, _, key, apart⟩ := tended.listed id block listed
    exact ⟨AList.mem_erase.mpr ⟨other listed, key⟩,
      fun still => apart (Finset.mem_of_mem_erase still)⟩
  constructor
  case once =>
    rw [popped, ids_eraseP]
    exact tended.once.erase _
  case processing =>
    intro id
    rw [popped, ids_eraseP, Finset.mem_erase, tended.once.mem_erase_iff, tended.processing]
  case listed =>
    intro id block listed
    rw [lists] at listed
    split at listed
    · exact absurd listed List.not_mem_nil
    · obtain ⟨held, follows, _⟩ := tended.listed id block listed
      exact ⟨held, follows, remains listed⟩
  case distinct =>
    intro id
    rw [lists]
    split
    · exact List.nodup_nil
    · exact tended.distinct id
  case waits =>
    intro id key
    obtain ⟨different, key⟩ := AList.mem_erase.mp key
    rcases tended.waits id key with still | ⟨block, same, listed⟩ | impossible
    · exact .inl (Finset.mem_erase.mpr ⟨different, still⟩)
    · right
      by_cases direct : block.previousBlockId = newBlock.headerSignature
      · right
        rw [direct] at listed
        exact List.mem_map.mpr ⟨block, listed, same⟩
      · left
        refine ⟨block, same, ?_⟩
        rw [lists, if_neg direct]
        exact listed
    · exact absurd impossible List.not_mem_nil
  case free =>
    intro block listed
    obtain ⟨held, follows, _⟩ := tended.listed _ block listed
    refine ⟨held, (remains listed).1, (remains listed).2, ?_⟩
    rw [lists, if_pos follows]
    exact List.not_mem_nil
  case apart => exact tended.distinct _

/-- A block whose thread has ended may be verified again, and what was taken wait for it. -/
theorem Released.verifyAgain (released : controller.Released known descendants)
    (held : known.Holds newBlock)
    (done : newBlock.headerSignature ∉ controller.blocksProcessing)
    (taken : newBlock.headerSignature ∉ controller.blocksPending)
    (follow : ∀ block ∈ descendants, block.previousBlockId = newBlock.headerSignature) :
    (controller.verifyBlockAgain newBlock descendants).Tended known := by
  unfold verifyBlockAgain
  apply Released.submit
  have lists (id : Text) : ({ controller with
      blocksPending := controller.blocksPending.insert newBlock.headerSignature descendants
      }).pendingOn id =
        if id = newBlock.headerSignature then descendants else controller.pendingOn id :=
    pendingOn_insert rfl
  constructor
  case once => exact released.once
  case processing => exact released.processing
  case listed =>
    intro id block listed
    rw [lists] at listed
    split at listed
    · rename_i same
      obtain ⟨known', key, apart, _⟩ := released.free block listed
      exact ⟨known', (follow block listed).trans same.symm,
        (AList.mem_insert _).mpr (.inr key), apart⟩
    · obtain ⟨known', follows, key, apart⟩ := released.listed id block listed
      exact ⟨known', follows, (AList.mem_insert _).mpr (.inr key), apart⟩
  case distinct =>
    intro id
    rw [lists]
    split
    · exact released.apart
    · exact released.distinct id
  case waits =>
    intro id key
    rcases (AList.mem_insert _).mp key with same | key
    · exact .inr (.inr (List.mem_map.mpr ⟨newBlock, List.mem_singleton_self _, same.symm⟩))
    · rcases released.waits id key with processed | ⟨block, same, listed⟩ | isTaken
      · exact .inl processed
      · right; left
        refine ⟨block, same, ?_⟩
        rw [lists, if_neg]
        · exact listed
        · intro direct
          rw [direct, pendingOn_of_notMem taken] at listed
          exact List.not_mem_nil listed
      · right; left
        obtain ⟨block, listed, same⟩ := List.mem_map.mp isTaken
        refine ⟨block, same, ?_⟩
        rw [lists, if_pos (follow block listed)]
        exact listed
  case free =>
    intro block listed
    obtain rfl := List.mem_singleton.mp listed
    refine ⟨held, (AList.mem_insert _).mpr (.inl rfl), done, ?_⟩
    rw [lists, if_neg (ne_previous held)]
    exact fun waiting => taken (released.listed _ _ waiting).2.2.1
  case apart => exact List.nodup_singleton _

/-- A sum over the keys of a dictionary without one of them. -/
theorem sum_keys_erase {α β : Type} [DecidableEq α] (dict : AList fun _ : α => β) (size : α → ℕ)
    {key : α} (nothing : key ∉ dict → size key = 0) :
    ((dict.erase key).keys.map size).sum + size key = (dict.keys.map size).sum := by
  rw [AList.keys_erase]
  by_cases present : key ∈ dict
  · rw [← List.sum_map_erase size (AList.mem_keys.mp present), add_comm]
  · rw [List.erase_of_not_mem fun listed => present (AList.mem_keys.mpr listed), nothing present,
      add_zero]

/-- Taking one more entry makes fewer blocks wait. -/
theorem waiting_erase (id : Text) :
    ({ controller with blocksPending := controller.blocksPending.erase id }).waiting +
      (controller.pendingOn id).length = controller.waiting := by
  have lists {other : Text}
      (listed : other ∈ (controller.blocksPending.erase id).keys) :
      (({ controller with
        blocksPending := controller.blocksPending.erase id }).pendingOn other).length =
          (controller.pendingOn other).length := by
    have different := (AList.mem_erase.mp (AList.mem_keys.mpr listed)).1
    rw [@pendingOn_erase σ controller _ id other rfl, if_neg different]
  unfold waiting
  dsimp only
  rw [List.map_congr_left fun other listed => lists listed]
  apply sum_keys_erase controller.blocksPending fun other => (controller.pendingOn other).length
  intro missing
  rw [pendingOn_of_notMem missing]
  rfl

/-- Dropping what was taken, and all that waits for it in turn, leaves no block forgotten. -/
theorem Released.drop {passes : ℕ} (released : controller.Released known descendants)
    (enough : controller.waiting + descendants.length ≤ passes) :
    (dropDescendants passes controller descendants).Tended known := by
  induction passes generalizing controller descendants with
  | zero =>
    obtain rfl := List.eq_nil_of_length_eq_zero (show descendants.length = 0 by omega)
    exact released
  | succ passes ih =>
    cases descendants with
    | nil => exact released
    | cons pendingBlock rest =>
      rw [dropDescendants]
      have lists (id : Text) : ({ controller with
          statuses := controller.statuses.insert pendingBlock.headerSignature .invalid
          blocksPending := controller.blocksPending.erase
            pendingBlock.headerSignature }).pendingOn id =
          if id = pendingBlock.headerSignature then [] else controller.pendingOn id :=
        pendingOn_erase rfl
      obtain ⟨held, isKey, unprocessed, unlisted⟩ := released.free pendingBlock List.mem_cons_self
      have apart := List.nodup_cons.mp released.apart
      have other {id : Text} {block : Block} (listed : block ∈ controller.pendingOn id) :
          block.headerSignature ≠ pendingBlock.headerSignature := by
        intro same
        obtain ⟨held', follows, _⟩ := released.listed id block listed
        rw [held'.eq held same] at listed follows
        rw [← follows] at listed
        exact unlisted listed
      apply ih
      · constructor
        case once => exact released.once
        case processing => exact released.processing
        case listed =>
          intro id block listed
          rw [lists] at listed
          split at listed
          · exact absurd listed List.not_mem_nil
          · obtain ⟨held', follows, key, unprocessed'⟩ := released.listed id block listed
            exact ⟨held', follows, AList.mem_erase.mpr ⟨other listed, key⟩, unprocessed'⟩
        case distinct =>
          intro id
          rw [lists]
          split
          · exact List.nodup_nil
          · exact released.distinct id
        case waits =>
          intro id key
          obtain ⟨different, key⟩ := AList.mem_erase.mp key
          rcases released.waits id key with processed | ⟨block, same, listed⟩ | taken
          · exact .inl processed
          · right
            by_cases direct : block.previousBlockId = pendingBlock.headerSignature
            · right
              rw [direct] at listed
              exact List.mem_map.mpr ⟨block,
                List.mem_append_left _ (List.mem_reverse.mpr listed), same⟩
            · left
              refine ⟨block, same, ?_⟩
              rw [lists, if_neg direct]
              exact listed
          · obtain ⟨block, listed, same⟩ := List.mem_map.mp taken
            rcases List.mem_cons.mp listed with rfl | later
            · exact absurd same.symm different
            · exact .inr (.inr (List.mem_map.mpr ⟨block, List.mem_append_right _ later, same⟩))
        case free =>
          intro block listed
          rcases List.mem_append.mp listed with waited | later
          · have waited := List.mem_reverse.mp waited
            obtain ⟨held', follows, key, unprocessed'⟩ := released.listed _ block waited
            refine ⟨held', AList.mem_erase.mpr ⟨other waited, key⟩, unprocessed', ?_⟩
            rw [lists, if_pos follows]
            exact List.not_mem_nil
          · obtain ⟨held', key, unprocessed', unlisted'⟩ :=
              released.free block (List.mem_cons_of_mem _ later)
            refine ⟨held', AList.mem_erase.mpr ⟨?_, key⟩, unprocessed', ?_⟩
            · intro same
              rw [held'.eq held same] at later
              exact apart.1 later
            · rw [lists]
              split
              · exact List.not_mem_nil
              · exact unlisted'
        case apart =>
          refine List.nodup_append.mpr ⟨List.nodup_reverse.mpr (released.distinct _), apart.2, ?_⟩
          intro block waited block' later same
          subst same
          obtain ⟨_, follows, _⟩ := released.listed _ block (List.mem_reverse.mp waited)
          obtain ⟨_, _, _, unlisted'⟩ := released.free block (List.mem_cons_of_mem _ later)
          rw [follows] at unlisted'
          exact unlisted' (List.mem_reverse.mp waited)
      · have fewer := @waiting_erase σ { controller with
          statuses := controller.statuses.insert pendingBlock.headerSignature .invalid }
          pendingBlock.headerSignature
        have total : ({ controller with
            statuses := controller.statuses.insert pendingBlock.headerSignature .invalid
            blocksPending := controller.blocksPending.erase
              pendingBlock.headerSignature }).waiting +
                (controller.pendingOn pendingBlock.headerSignature).length =
                  controller.waiting := fewer
        rw [List.length_append, List.length_reverse]
        rw [List.length_cons] at enough
        omega

/-! ## The store -/

/-- The blocks of a line are known. -/
theorem holds_of_line {head block : Block} (held : known.Holds head)
    (listed : block ∈ known.forest.line head) : known.Holds block := by
  unfold Lib.Forest.line at listed
  generalize known.forest.depth head = more at listed
  induction more generalizing head with
  | zero => exact List.mem_singleton.mp listed ▸ held
  | succ more ih =>
    unfold Lib.Forest.lineFrom at listed
    split at listed
    · rename_i prev child
      rcases List.mem_cons.mp listed with rfl | later
      · exact held
      · exact ih (PoW.BlockCache.holds_of_find child) later
    · exact List.mem_singleton.mp listed ▸ held

/-- A block is on its own line. -/
theorem mem_line (block : Block) : block ∈ known.forest.line block := by
  unfold Lib.Forest.line
  cases known.forest.depth block with
  | zero => exact List.mem_singleton_self _
  | succ more =>
    unfold Lib.Forest.lineFrom
    split
    · exact List.mem_cons_self
    · exact List.mem_singleton_self _

/-- Elements of a branch stand on it once. -/
theorem nodup_of_branch {root block : Block} {branch : List Block}
    (above : known.forest.Branch root block branch) : branch.Nodup := by
  induction above with
  | nil => exact List.nodup_nil
  | @cons block prev rest child below ih =>
    refine List.nodup_cons.mpr ⟨fun listed => ?_, ih⟩
    obtain ⟨_, _, _, above', _⟩ := below.of_mem listed
    have deeper := above'.depth_le
    have older := known.forest.older child
    omega

/-- The store holds the line of the chain head. -/
structure Sound (store : ChainStore σ) (known : PoW.BlockCache) (controller : ChainController σ) :
    Prop where
  /-- The store holds the line of the chain head, and nothing else. -/
  line : ∀ id block, store.get controller.blockStore id = some block ↔
    block.headerSignature = id ∧
      ∃ head, controller.chainHead = some head ∧ block ∈ known.forest.line head
  /-- The chain head is known. -/
  head : ∀ head, controller.chainHead = some head → known.Holds head
  /-- There are threads only when there is a chain head, and each read one. -/
  threads : ∀ thread ∈ controller.threads, known.Holds thread.block ∧
    controller.chainHead.isSome = true ∧
      ∀ reading, thread.reading = some reading → ∃ head, reading = some head ∧ known.Holds head

/-- When the head moves along two branches, the store moves with it. -/
theorem line_update {head newBlock root : Block} {newChain currentChain : List Block}
    {blockStore : σ}
    (line : ∀ id block, store.get blockStore id = some block ↔
      block.headerSignature = id ∧ block ∈ known.forest.line head)
    (held : known.Holds newBlock) (held' : known.Holds head)
    (above : known.forest.Branch root newBlock newChain)
    (above' : known.forest.Branch root head currentChain)
    (apart : ∀ block ∈ newChain, block ∉ currentChain) (id : Text) (block : Block) :
    store.get (store.updateChain blockStore newChain currentChain) id = some block ↔
      block.headerSignature = id ∧ block ∈ known.forest.line newBlock := by
  have heldNew : ∀ other ∈ newChain, known.Holds other := fun other listed =>
    holds_of_line held (by rw [above.line_eq]; exact List.mem_append_left _ listed)
  have heldCur : ∀ other ∈ currentChain, known.Holds other := fun other listed =>
    holds_of_line held' (by rw [above'.line_eq]; exact List.mem_append_left _ listed)
  rw [store.get_updateChain
    (fun other listed other' listed' same => apart other listed
      ((heldNew other listed).eq (heldCur other' listed') same ▸ listed'))
    (ids_nodup heldNew (nodup_of_branch above)), above.line_eq, List.mem_append]
  cases found : newChain.find? fun other : Block => other.headerSignature == id with
  | some other =>
    have listed := List.mem_of_find?_eq_some found
    have named : other.headerSignature = id := by simpa using List.find?_some found
    dsimp only
    constructor
    · rintro ⟨rfl⟩
      exact ⟨named, .inl listed⟩
    · rintro ⟨same, onLine⟩
      have heldBlock : known.Holds block := by
        apply holds_of_line held
        rw [above.line_eq]
        exact List.mem_append.mpr onLine
      rw [(heldNew other listed).eq heldBlock (named.trans same.symm)]
  | none =>
    have missing : ∀ other ∈ newChain, other.headerSignature ≠ id := by
      intro other listed
      simpa using List.find?_eq_none.mp found other listed
    dsimp only
    split
    · rename_i gone
      obtain ⟨old, listed, named⟩ := gone
      refine ⟨fun impossible => (nomatch impossible), ?_⟩
      rintro ⟨same, new | below⟩
      · exact absurd same (missing block new)
      · have heldBlock : known.Holds block := by
          apply holds_of_line held
          rw [above.line_eq]
          exact List.mem_append_right _ below
        rw [← (heldCur old listed).eq heldBlock (named.trans same.symm)] at below
        exact absurd below (above'.notMem_line listed)
    · rename_i stays
      rw [line, above'.line_eq, List.mem_append]
      constructor
      · rintro ⟨same, old | below⟩
        · exact absurd ⟨block, old, same⟩ stays
        · exact ⟨same, .inr below⟩
      · rintro ⟨same, new | below⟩
        · exact absurd same (missing block new)
        · exact ⟨same, .inr below⟩

/-- What a verification hands to its callback. -/
theorem processBlockVerification_ok {verifier : Verifier} {block head : Block}
    (sub : Subcache verifier.cache known) (held : known.Holds block) (held' : known.Holds head) :
    (verifier.processBlockVerification block (some head)).2.block = block ∧
      (verifier.processBlockVerification block (some head)).2.chainHead = some head ∧
        ((verifier.processBlockVerification block (some head)).1 = true →
          verifier.compareForks head block = .ok true ∧
          ∃ root, known.forest.Branch root block
              (verifier.processBlockVerification block (some head)).2.newChain ∧
            known.forest.Branch root head
              (verifier.processBlockVerification block (some head)).2.currentChain ∧
              ∀ other ∈ (verifier.processBlockVerification block (some head)).2.newChain,
                other ∉ (verifier.processBlockVerification block (some head)).2.currentChain) := by
  unfold Verifier.processBlockVerification
  dsimp only
  cases found : forkDiff verifier.cache head block with
  | error fault =>
    cases fault with
    | blockValidationAborted marked => exact ⟨rfl, rfl, fun impossible => nomatch impossible⟩
    | keyError => exact ⟨rfl, rfl, fun impossible => nomatch impossible⟩
  | ok both =>
    obtain ⟨newChain, currentChain⟩ := both
    refine ⟨rfl, rfl, fun commits => ⟨?_, forkDiff_ok sub held held' found⟩⟩
    have decided : verifier.commits head block newChain currentChain = true :=
      (Bool.and_eq_true_iff.mp commits).2
    unfold Verifier.commits at decided
    split at decided
    · assumption
    · cases decided

/-! ## Steps keep both -/

/-- Submitting known blocks leaves the store as it is. -/
theorem Sound.submit (sound : controller.Sound store known)
    (held : ∀ block ∈ blocks, known.Holds block)
    (started : blocks ≠ [] → controller.chainHead.isSome = true) :
    (controller.submitBlocksForVerification blocks).Sound store known where
  line := sound.line
  head := sound.head
  threads thread listed := by
    rcases List.mem_append.mp listed with old | new
    · exact sound.threads thread old
    · obtain ⟨block, submitted, rfl⟩ := List.mem_map.mp new
      exact ⟨held block submitted, started (List.ne_nil_of_mem submitted),
        fun _ impossible => nomatch impossible⟩

/-- What waits and the statuses do not concern the store. -/
theorem Sound.of_eq {other : ChainController σ} (sound : controller.Sound store known)
    (sameHead : other.chainHead = controller.chainHead)
    (sameStore : other.blockStore = controller.blockStore)
    (fewer : other.threads ⊆ controller.threads) : other.Sound store known where
  line id block := by rw [sameStore, sameHead, sound.line]
  head := by
    rw [sameHead]
    exact sound.head
  threads thread listed := by
    rw [sameHead]
    exact sound.threads thread (fewer listed)

/-- Dropping leaves the head, the store and the threads. -/
theorem dropDescendants_leaves {passes : ℕ} :
    (dropDescendants passes controller descendants).chainHead = controller.chainHead ∧
      (dropDescendants passes controller descendants).blockStore = controller.blockStore ∧
        (dropDescendants passes controller descendants).threads = controller.threads := by
  induction passes generalizing controller descendants with
  | zero => exact ⟨rfl, rfl, rfl⟩
  | succ passes ih =>
    cases descendants with
    | nil => exact ⟨rfl, rfl, rfl⟩
    | cons pendingBlock rest => exact ih

/-- The callback of a thread that has ended, by what the thread read and what waited. -/
theorem onBlockValidated_eq {result : BlockValidationResult} {head chainHead : Block}
    {acquired commitNewBlock : Bool}
    (processed : result.block.headerSignature ∈ controller.blocksProcessing)
    (read : result.chainHead = some head) (isHead : controller.chainHead = some chainHead) :
    onBlockValidated store { controller with
        threads := controller.threads.eraseP fun thread =>
          thread.block.headerSignature == result.block.headerSignature }
        acquired commitNewBlock result =
      let popped := controller.popped result.block.headerSignature
      let descendantBlocks := controller.pendingOn result.block.headerSignature
      if head.headerSignature ≠ chainHead.headerSignature then
        popped.chainChangedOnValidation result.block descendantBlocks
      else if commitNewBlock then
        if acquired then
          submitBlocksForVerification { popped with
            chainHead := some result.block
            blockStore :=
              store.updateChain popped.blockStore result.newChain result.currentChain }
            descendantBlocks
        else popped.verifyBlockAgain result.block descendantBlocks
      else if popped.statuses.lookup result.block.headerSignature = some .invalid then
        popped.dropDescendants (popped.waiting + descendantBlocks.length) descendantBlocks.reverse
      else popped.submitBlocksForVerification descendantBlocks := by
  unfold onBlockValidated
  dsimp only
  rw [if_neg (not_not.mpr processed)]
  split
  · rename_i first second isFirst isSecond
    rw [read] at isFirst
    rw [isHead] at isSecond
    cases isFirst
    cases isSecond
    rfl
  · rename_i other
    exact absurd isHead (other head chainHead read)

/-- The callback of a thread that verified a block against a known head. -/
theorem onBlockValidated_kept {result : BlockValidationResult} {head : Block}
    {acquired commitNewBlock : Bool} (sound : controller.Sound store known)
    (released : (controller.popped result.block.headerSignature).Released known
      (controller.pendingOn result.block.headerSignature))
    (processed : result.block.headerSignature ∈ controller.blocksProcessing)
    (held : known.Holds result.block) (started : controller.chainHead.isSome = true)
    (read : result.chainHead = some head) (held' : known.Holds head)
    (follow : ∀ block ∈ controller.pendingOn result.block.headerSignature,
      block.previousBlockId = result.block.headerSignature)
    (branches : commitNewBlock = true → ∃ root,
      known.forest.Branch root result.block result.newChain ∧
        known.forest.Branch root head result.currentChain ∧
          ∀ other ∈ result.newChain, other ∉ result.currentChain) :
    (onBlockValidated store { controller with
        threads := controller.threads.eraseP fun thread =>
          thread.block.headerSignature == result.block.headerSignature }
        acquired commitNewBlock result).Sound store known ∧
      (onBlockValidated store { controller with
        threads := controller.threads.eraseP fun thread =>
          thread.block.headerSignature == result.block.headerSignature }
        acquired commitNewBlock result).Tended known := by
  obtain ⟨chainHead, isHead⟩ := Option.isSome_iff_exists.mp started
  have soundPopped : (controller.popped result.block.headerSignature).Sound store known :=
    sound.of_eq rfl rfl (List.eraseP_subset)
  have heldTaken : ∀ block ∈ controller.pendingOn result.block.headerSignature,
      known.Holds block := fun block listed => (released.free block listed).1
  have done : result.block.headerSignature ∉
      (controller.popped result.block.headerSignature).blocksProcessing :=
    Finset.notMem_erase _ _
  have gone : result.block.headerSignature ∉
      (controller.popped result.block.headerSignature).blocksPending :=
    fun listed => (AList.mem_erase.mp listed).1 rfl
  have isHead' : (controller.popped result.block.headerSignature).chainHead.isSome = true := started
  have again (waiting : List Block)
      (released : (controller.popped result.block.headerSignature).Released known waiting)
      (follow : ∀ block ∈ waiting, block.previousBlockId = result.block.headerSignature) :
      ((controller.popped result.block.headerSignature).verifyBlockAgain result.block
        waiting).Sound store known ∧
      ((controller.popped result.block.headerSignature).verifyBlockAgain result.block
        waiting).Tended known := by
    refine ⟨?_, released.verifyAgain held done gone follow⟩
    refine Sound.submit (soundPopped.of_eq rfl rfl (List.Subset.refl _)) ?_ fun _ => started
    intro block listed
    obtain rfl := List.mem_singleton.mp listed
    exact held
  have submitted :
      ((controller.popped result.block.headerSignature).submitBlocksForVerification
        (controller.pendingOn result.block.headerSignature)).Sound store known ∧
      ((controller.popped result.block.headerSignature).submitBlocksForVerification
        (controller.pendingOn result.block.headerSignature)).Tended known :=
    ⟨soundPopped.submit heldTaken fun _ => started, released.submit⟩
  rw [onBlockValidated_eq processed read isHead]
  dsimp only
  split
  · -- the head has changed
    unfold chainChangedOnValidation
    by_cases none : controller.pendingOn result.block.headerSignature = []
    · rw [if_pos none]
      refine again [] ?_ fun _ impossible => absurd impossible List.not_mem_nil
      rw [none] at released
      exact released
    · rw [if_neg none]
      exact submitted
  · rename_i same
    rw [not_not] at same
    obtain rfl := held'.eq (sound.head chainHead isHead) same
    split
    · rename_i commits
      obtain ⟨root, above, above', apart⟩ := branches commits
      split
      · -- the head moves
        refine ⟨Sound.submit ?_ heldTaken fun _ => rfl, ?_⟩
        · constructor
          case line =>
            intro id block
            have line : ∀ id block, store.get controller.blockStore id = some block ↔
                block.headerSignature = id ∧ block ∈ known.forest.line head := by
              intro id block
              rw [sound.line]
              simp [isHead]
            refine (line_update line held held' above above' apart id block).trans ?_
            simp
          case head =>
            intro other isOther
            cases isOther
            exact held
          case threads =>
            intro thread listed
            obtain ⟨heldThread, _, reads⟩ := soundPopped.threads thread listed
            exact ⟨heldThread, rfl, reads⟩
        · apply Released.submit
          exact ⟨released.once, released.processing, released.listed, released.distinct,
            released.waits, released.free, released.apart⟩
      · exact again _ released follow
    · split
      · -- the block is invalid, and so is what waits for it
        have reversed : (controller.popped result.block.headerSignature).Released known
            (controller.pendingOn result.block.headerSignature).reverse :=
          ⟨released.once, released.processing, released.listed, released.distinct,
            fun id key => by
              have waits := released.waits id key
              simpa [idsOf] using waits,
            fun block listed => released.free block (List.mem_reverse.mp listed),
            List.nodup_reverse.mpr released.apart⟩
        refine ⟨?_, reversed.drop (by rw [List.length_reverse])⟩
        obtain ⟨sameHead, sameStore, sameThreads⟩ := @dropDescendants_leaves σ
          (controller.popped result.block.headerSignature)
          (controller.pendingOn result.block.headerSignature).reverse
          ((controller.popped result.block.headerSignature).waiting +
            (controller.pendingOn result.block.headerSignature).length)
        exact soundPopped.of_eq sameHead sameStore (by rw [sameThreads]; exact List.Subset.refl _)
      · exact submitted

/-- Setting the first block keeps both. -/
theorem setGenesis_kept {block : Block} {valid : Bool}
    (unnamed : known.find nullBlockIdentifier = none) (sound : controller.Sound store known)
    (tended : controller.Tended known) (held : known.Holds block)
    (headless : controller.chainHead = none) :
    (controller.setGenesis store valid block).Sound store known ∧
      (controller.setGenesis store valid block).Tended known := by
  unfold setGenesis
  split
  · rename_i first
    split
    · exact ⟨sound, tended⟩
    · split
      · have alone : known.forest.parent block = none := by
          change known.find block.previousBlockId = none
          rw [first, unnamed]
        have line : known.forest.line block = [block] := by
          unfold Lib.Forest.line
          cases known.forest.depth block with
          | zero => rfl
          | succ more =>
            unfold Lib.Forest.lineFrom
            rw [alone]
        have empty (id : Text) : store.get controller.blockStore id = none := by
          cases found : store.get controller.blockStore id with
          | none => rfl
          | some other =>
            obtain ⟨_, head, isHead, _⟩ := (sound.line id other).mp found
            rw [headless] at isHead
            cases isHead
        have apart : ∀ other ∈ [block], ∀ other' ∈ ([] : List Block),
            other.headerSignature ≠ other'.headerSignature :=
          fun _ _ _ impossible => absurd impossible List.not_mem_nil
        have once : ([block].map fun other : Block => other.headerSignature).Nodup :=
          List.nodup_singleton _
        refine ⟨⟨?_, ?_, ?_⟩, tended.once, tended.processing, tended.listed, tended.distinct,
          tended.waits, tended.free, tended.apart⟩
        · intro id other
          dsimp only
          rw [store.get_updateChain apart once, empty]
          simp only [Option.some.injEq, exists_eq_left', line, List.mem_singleton]
          by_cases named : block.headerSignature = id
          · have itself : [block].find? (fun other => other.headerSignature == id) =
                some block := by simp [named]
            rw [itself]
            constructor
            · rintro ⟨rfl⟩
              exact ⟨named, rfl⟩
            · rintro ⟨_, rfl⟩
              rfl
          · have missing : [block].find? (fun other => other.headerSignature == id) = none := by
              simp [named]
            rw [missing]
            simp only [List.not_mem_nil, false_and, exists_false, if_false]
            constructor
            · exact fun impossible => absurd impossible (Option.some_ne_none _).symm
            · rintro ⟨same, rfl⟩
              exact absurd same named
        · intro head isHead
          cases isHead
          exact held
        · intro thread listed
          have started := (sound.threads thread listed).2.1
          rw [headless] at started
          cases started
      · exact ⟨sound, tended⟩
  · exact ⟨sound, tended⟩

/-- A block comes for which nothing waits. -/
def register (controller : ChainController σ) (block : Block) : ChainController σ :=
  { controller with
    blockCache := controller.blockCache.insert block.headerSignature block
    blocksPending := controller.blocksPending.insert block.headerSignature [] }

/-- A block comes that waits for its predecessor. -/
def await (controller : ChainController σ) (block : Block) : ChainController σ :=
  let received := controller.register block
  let pendingBlocks := received.pendingOn block.previousBlockId
  { received with
    blocksPending := received.blocksPending.insert block.previousBlockId
      (if block ∈ pendingBlocks then pendingBlocks else pendingBlocks ++ [block]) }

/-- Nothing waits for a block that was not pending. -/
theorem pendingOn_register {block : Block}
    (unknown : block.headerSignature ∉ controller.blocksPending) (id : Text) :
    (controller.register block).pendingOn id = controller.pendingOn id := by
  rw [@pendingOn_insert σ controller [] (controller.register block) block.headerSignature id rfl]
  split
  · rename_i same
    rw [same, pendingOn_of_notMem unknown]
  · rfl

/-- A block that is not pending does not wait. -/
theorem Tended.unlisted {block : Block} (tended : controller.Tended known)
    (unknown : block.headerSignature ∉ controller.blocksPending) (id : Text) :
    block ∉ controller.pendingOn id :=
  fun waiting => unknown (tended.listed id block waiting).2.2.1

/-- A block that waits for its predecessor is tended to. -/
theorem Tended.await {block : Block} (tended : controller.Tended known)
    (held : known.Holds block) (fresh : block.headerSignature ∉ controller.blocksProcessing ∧
      block.headerSignature ∉ controller.blocksPending)
    (awaited : block.previousBlockId ∈ controller.blocksProcessing ∨
      block.previousBlockId ∈ (controller.register block).blocksPending) :
    (controller.await block).Tended known := by
  have lists (id : Text) : (controller.await block).pendingOn id =
      if id = block.previousBlockId then controller.pendingOn block.previousBlockId ++ [block]
      else controller.pendingOn id := by
    rw [pendingOn_insert rfl, pendingOn_register fresh.2, pendingOn_register fresh.2,
      if_neg (tended.unlisted fresh.2 _)]
  have more {id : Text} {other : Block} (listed : other ∈ controller.pendingOn id) :
      other ∈ (controller.await block).pendingOn id := by
    rw [lists]
    split
    · rename_i same
      rw [same] at listed
      exact List.mem_append_left _ listed
    · exact listed
  have old {id : Text} (key : id ∈ controller.blocksPending) :
      id ∈ (controller.await block).blocksPending :=
    (AList.mem_insert _).mpr (.inr ((AList.mem_insert _).mpr (.inr key)))
  have waits {id : Text} (key : id ∈ controller.blocksPending) :
      id ∈ controller.blocksProcessing ∨ ∃ other : Block, other.headerSignature = id ∧
        other ∈ controller.pendingOn other.previousBlockId := by
    rcases tended.waits id key with processed | waits | impossible
    · exact .inl processed
    · exact .inr waits
    · exact absurd impossible List.not_mem_nil
  constructor
  case once => exact tended.once
  case processing => exact tended.processing
  case listed =>
    intro id other listed
    rw [lists] at listed
    split at listed
    · rename_i same
      rcases List.mem_append.mp listed with before | added
      · obtain ⟨held', follows, key, apart⟩ := tended.listed _ other before
        exact ⟨held', follows.trans same.symm, old key, apart⟩
      · obtain rfl := List.mem_singleton.mp added
        exact ⟨held, same.symm, (AList.mem_insert _).mpr
          (.inr ((AList.mem_insert _).mpr (.inl rfl))), fresh.1⟩
    · obtain ⟨held', follows, key, apart⟩ := tended.listed id other listed
      exact ⟨held', follows, old key, apart⟩
  case distinct =>
    intro id
    rw [lists]
    split
    · refine List.nodup_append.mpr ⟨tended.distinct _, List.nodup_singleton _, ?_⟩
      intro other before other' added same
      subst same
      obtain rfl := List.mem_singleton.mp added
      exact tended.unlisted fresh.2 _ before
    · exact tended.distinct id
  case waits =>
    intro id key
    rcases (AList.mem_insert _).mp key with rfl | key
    · rcases awaited with processed | key
      · exact .inl processed
      · rcases (AList.mem_insert _).mp key with same | key
        · exact absurd same (ne_previous held)
        · rcases waits key with processed | ⟨other, same, listed⟩
          · exact .inl processed
          · exact .inr (.inl ⟨other, same, more listed⟩)
    · rcases (AList.mem_insert _).mp key with rfl | key
      · refine .inr (.inl ⟨block, rfl, ?_⟩)
        rw [lists, if_pos rfl]
        exact List.mem_append_right _ (List.mem_singleton_self _)
      · rcases waits key with processed | ⟨other, same, listed⟩
        · exact .inl processed
        · exact .inr (.inl ⟨other, same, more listed⟩)
  case free => exact fun _ impossible => absurd impossible List.not_mem_nil
  case apart => exact List.nodup_nil

/-- A block for which nothing waits may be submitted. -/
theorem Tended.register {block : Block} (tended : controller.Tended known)
    (held : known.Holds block) (fresh : block.headerSignature ∉ controller.blocksProcessing ∧
      block.headerSignature ∉ controller.blocksPending) :
    (controller.register block).Released known [block] := by
  constructor
  case once => exact tended.once
  case processing => exact tended.processing
  case listed =>
    intro id other listed
    rw [pendingOn_register fresh.2] at listed
    obtain ⟨held', follows, key, apart⟩ := tended.listed id other listed
    exact ⟨held', follows, (AList.mem_insert _).mpr (.inr key), apart⟩
  case distinct =>
    intro id
    rw [pendingOn_register fresh.2]
    exact tended.distinct id
  case waits =>
    intro id key
    rcases (AList.mem_insert _).mp key with rfl | key
    · exact .inr (.inr (List.mem_singleton_self _))
    · rcases tended.waits id key with processed | ⟨other, same, listed⟩ | impossible
      · exact .inl processed
      · refine .inr (.inl ⟨other, same, ?_⟩)
        rw [pendingOn_register fresh.2]
        exact listed
      · exact absurd impossible List.not_mem_nil
  case free =>
    intro other listed
    obtain rfl := List.mem_singleton.mp listed
    refine ⟨held, (AList.mem_insert _).mpr (.inl rfl), fresh.1, ?_⟩
    rw [pendingOn_register fresh.2]
    exact tended.unlisted fresh.2 _
  case apart => exact List.nodup_singleton _

/-- Receiving a block keeps both. -/
theorem onBlockReceived_kept {block : Block} {valid : Bool}
    (unnamed : known.find nullBlockIdentifier = none) (sound : controller.Sound store known)
    (tended : controller.Tended known) (held : known.Holds block) :
    (controller.onBlockReceived store valid block).Sound store known ∧
      (controller.onBlockReceived store valid block).Tended known := by
  unfold onBlockReceived
  split
  · exact ⟨sound, tended⟩
  · rename_i new
    have fresh : block.headerSignature ∉ controller.blocksProcessing ∧
        block.headerSignature ∉ controller.blocksPending := by
      unfold hasBlock at new
      simp only [Bool.or_eq_true, decide_eq_true_eq, not_or] at new
      exact ⟨new.1.2, new.2⟩
    split
    · rename_i headless
      exact setGenesis_kept unnamed sound tended held headless
    · rename_i headed
      rw [if_neg fresh.1]
      dsimp only
      have registered : (controller.register block).Sound store known :=
        sound.of_eq rfl rfl (List.Subset.refl _)
      split
      · rename_i awaited
        exact ⟨registered.of_eq rfl rfl (List.Subset.refl _), tended.await held fresh awaited⟩
      · have heldOnly : ∀ other ∈ [block], known.Holds other := by
          intro other listed
          obtain rfl := List.mem_singleton.mp listed
          exact held
        exact ⟨Sound.submit registered heldOnly (fun _ => Option.isSome_iff_ne_none.mpr headed),
          Released.submit (tended.register held fresh)⟩

/-- Every step keeps both. -/
theorem Steps.kept {before after : ChainController σ} {event : Event}
    (unnamed : known.find nullBlockIdentifier = none) (step : Steps store known before event after)
    (sound : before.Sound store known) (tended : before.Tended known) :
    after.Sound store known ∧ after.Tended known := by
  obtain ⟨rfl, sensible⟩ := step
  cases event with
  | received block valid => exact onBlockReceived_kept unnamed sound tended sensible
  | started id =>
    have blocks : ((before.start store id).threads.map VerifierThread.block) =
        before.threads.map VerifierThread.block := by
      unfold start
      rw [List.map_map]
      apply List.map_congr_left
      intro thread _
      dsimp only [Function.comp_apply]
      split <;> rfl
    constructor
    · refine ⟨sound.line, sound.head, ?_⟩
      intro thread listed
      obtain ⟨old, isOld, rfl⟩ := List.mem_map.mp listed
      obtain ⟨held, started, reads⟩ := sound.threads old isOld
      split
      · refine ⟨held, started, ?_⟩
        intro reading isReading
        cases isReading
        obtain ⟨chainHead, isHead⟩ := Option.isSome_iff_exists.mp started
        have stored := (sound.line _ chainHead).mpr ⟨rfl, chainHead, isHead, mem_line chainHead⟩
        obtain ⟨head, found⟩ := Option.isSome_iff_exists.mp (store.chainHead_isSome stored)
        refine ⟨head, found, ?_⟩
        obtain ⟨_, other, isOther, onLine⟩ := (sound.line _ head).mp (store.get_chainHead found)
        exact holds_of_line (sound.head other isOther) onLine
      · exact ⟨held, started, reads⟩
    · refine ⟨?_, ?_, tended.listed, tended.distinct, tended.waits, tended.free, tended.apart⟩
      · change (idsOf ((before.start store id).threads.map VerifierThread.block)).Nodup
        rw [blocks]
        exact tended.once
      · intro other
        change other ∈ before.blocksProcessing ↔
          other ∈ idsOf ((before.start store id).threads.map VerifierThread.block)
        rw [blocks]
        exact tended.processing other
  | verified id verifier acquired =>
    change (before.verify store id verifier acquired).Sound store known ∧
      (before.verify store id verifier acquired).Tended known
    unfold verify
    split
    · rename_i block reading found
      have listed := List.mem_of_find?_eq_some found
      have named : block.headerSignature = id := by simpa using List.find?_some found
      subst named
      obtain ⟨held, started, reads⟩ := sound.threads _ listed
      obtain ⟨head, rfl, held'⟩ := reads reading rfl
      have processed : block.headerSignature ∈ before.blocksProcessing :=
        (tended.processing _).mpr
          (List.mem_map.mpr ⟨block, List.mem_map.mpr ⟨_, listed, rfl⟩, rfl⟩)
      obtain ⟨own, read, branches⟩ := processBlockVerification_ok sensible held held'
      generalize verifier.processBlockVerification block (some head) = outcome
        at own read branches ⊢
      obtain ⟨commitNewBlock, result⟩ := outcome
      dsimp only at own read branches ⊢
      subst own
      have assigned : (before.assign result.statuses).Tended known :=
        ⟨tended.once, tended.processing, tended.listed, tended.distinct, tended.waits, tended.free,
          tended.apart⟩
      exact @onBlockValidated_kept σ store (before.assign result.statuses) known result head
        acquired commitNewBlock (sound.of_eq rfl rfl (List.Subset.refl _))
        (Tended.pop assigned processed) processed held started read held'
        (fun other waiting => (tended.listed _ other waiting).2.1)
        fun commits => (branches commits).2
    · exact ⟨sound, tended⟩
  | purged ids =>
    exact ⟨sound.of_eq rfl rfl (List.Subset.refl _), tended.once, tended.processing, tended.listed,
      tended.distinct, tended.waits, tended.free, tended.apart⟩

/-- In every run both are kept. -/
theorem kept_run {start finish : ChainController σ}
    {steps : List (Transition (ChainController σ) Event)}
    (run : Run (Steps store known) start steps finish)
    (unnamed : known.find nullBlockIdentifier = none) (sound : start.Sound store known)
    (tended : start.Tended known) : finish.Sound store known ∧ finish.Tended known := by
  refine @Run.invariant _ _ _ _ _ _ (fun _ => True)
    (fun controller => controller.Sound store known ∧ controller.Tended known) ⟨sound, tended⟩ ?_
    run fun _ _ => trivial
  intro before label after kept step _
  exact step.kept unnamed kept.1 kept.2

/-- The store holds the line of its chain head, or nothing. -/
def Consistent (store : ChainStore σ) (known : PoW.BlockCache) (blockStore : σ) : Prop :=
  (∀ head, store.chainHead blockStore = some head → known.Holds head) ∧
    ∀ id block, store.get blockStore id = some block ↔ block.headerSignature = id ∧
      ∃ head, store.chainHead blockStore = some head ∧ block ∈ known.forest.line head

/-- Nothing is forgotten at first. -/
theorem init_kept {blockStore : σ} (consistent : Consistent store known blockStore)
    (chainId : Option Text) : (init store blockStore chainId).Sound store known ∧
      (init store blockStore chainId).Tended known := by
  refine ⟨⟨consistent.2, consistent.1, fun _ impossible => absurd impossible List.not_mem_nil⟩, ?_⟩
  exact ⟨List.nodup_nil, fun id => by simp [init, idsOf],
    fun _ _ impossible => absurd impossible List.not_mem_nil, fun _ => List.nodup_nil,
    fun _ impossible => absurd impossible (AList.notMem_empty _),
    fun _ impossible => absurd impossible List.not_mem_nil, List.nodup_nil⟩

/-- However the events of a run interleave, the block store holds the line of the chain head, and
nothing else. -/
theorem store_line {blockStore : σ} {chainId : Option Text} {finish : ChainController σ}
    {steps : List (Transition (ChainController σ) Event)}
    (run : Run (Steps store known) (init store blockStore chainId) steps finish)
    (unnamed : known.find nullBlockIdentifier = none)
    (consistent : Consistent store known blockStore) (id : Text) (block : Block) :
    store.get finish.blockStore id = some block ↔ block.headerSignature = id ∧
      ∃ head, finish.chainHead = some head ∧ block ∈ known.forest.line head :=
  (kept_run run unnamed (init_kept consistent chainId).1 (init_kept consistent chainId).2).1.line id
    block

/-- A block that waits does so, through others, for a block that is processed. -/
theorem Tended.awaits (tended : controller.Tended known)
    (heldThreads : ∀ thread ∈ controller.threads, known.Holds thread.block) {id : Text}
    {block : Block} (waiting : block ∈ controller.pendingOn id) :
    ∃ thread ∈ controller.threads, ∃ branch, branch ≠ [] ∧
      known.forest.Branch thread.block block branch := by
  induction depth : known.forest.depth block using Nat.strong_induction_on
    generalizing id block with
  | _ depth ih =>
    obtain ⟨held, follows, _⟩ := tended.listed id block waiting
    have key : id ∈ controller.blocksPending := by
      by_contra missing
      rw [pendingOn_of_notMem missing] at waiting
      exact List.not_mem_nil waiting
    have child {other : Block} (held' : known.Holds other) (same : other.headerSignature = id) :
        known.forest.parent block = some other := by
      change known.find block.previousBlockId = some other
      rw [follows, ← same]
      exact held'
    rcases tended.waits id key with processed | ⟨other, same, listed⟩ | impossible
    · obtain ⟨other, isThread, same⟩ := List.mem_map.mp ((tended.processing id).mp processed)
      obtain ⟨thread, listed, rfl⟩ := List.mem_map.mp isThread
      exact ⟨thread, listed, [block], List.cons_ne_nil _ _,
        .cons (child (heldThreads thread listed) same) .nil⟩
    · have above := child (tended.listed _ other listed).1 same
      have older := known.forest.older above
      obtain ⟨thread, isThread, branch, _, below⟩ := ih _ (by omega) listed rfl
      exact ⟨thread, isThread, block :: branch, List.cons_ne_nil _ _, .cons above below⟩
    · exact absurd impossible List.not_mem_nil

/-- However the events of a run interleave, each block that is processed has one thread, and each
block that waits does so, through others, for a block that has a thread: none is forgotten. -/
theorem waiting_awaits {blockStore : σ} {chainId : Option Text} {finish : ChainController σ}
    {steps : List (Transition (ChainController σ) Event)}
    (run : Run (Steps store known) (init store blockStore chainId) steps finish)
    (unnamed : known.find nullBlockIdentifier = none)
    (consistent : Consistent store known blockStore) :
    (idsOf (finish.threads.map VerifierThread.block)).Nodup ∧
      (∀ id, id ∈ finish.blocksProcessing ↔
        id ∈ idsOf (finish.threads.map VerifierThread.block)) ∧
        ∀ id, ∀ block ∈ finish.pendingOn id, block.headerSignature ∉ finish.blocksProcessing ∧
          ∃ thread ∈ finish.threads, ∃ branch, branch ≠ [] ∧
            known.forest.Branch thread.block block branch := by
  obtain ⟨sound, tended⟩ :=
    kept_run run unnamed (init_kept consistent chainId).1 (init_kept consistent chainId).2
  refine ⟨tended.once, tended.processing, fun id block waiting => ?_⟩
  exact ⟨(tended.listed id block waiting).2.2.2,
    tended.awaits (fun thread listed => (sound.threads thread listed).1) waiting⟩

end Invariants

/-! ## The work of the chain head -/

section Work

variable {store : ChainStore σ} {controller : ChainController σ} {node : PoW.Node}

/-- In a step `compare_forks` decides, and finds both heads. -/
def Judged (node : PoW.Node) (taken : Transition (ChainController σ) Event) : Prop :=
  match taken.label with
  | .verified id verifier _ => ∃ now clock,
    (∀ cur new, verifier.compareForks cur new =
      ({ node with cache := verifier.cache } : PoW.Node).compareForks now clock cur new) ∧
    ∀ thread ∈ taken.before.threads, thread.block.headerSignature = id → ∀ head,
      thread.reading = some (some head) →
        verifier.cache.Holds thread.block ∧ verifier.cache.Holds head
  | _ => True

/-- A branch in a cache is one in a cache that finds more. -/
theorem branch_mono {cache : PoW.BlockCache} (sub : Subcache cache node.cache) {root block : Block}
    {branch : List Block} (above : cache.forest.Branch root block branch) :
    node.cache.forest.Branch root block branch := by
  induction above with
  | nil => exact .nil
  | cons child _ ih => exact .cons (sub _ _ child) ih

/-- A head that `compare_forks` chooses has no less work, also when the cache has lost blocks. -/
theorem compareForks_total {cache : PoW.BlockCache} (sub : Subcache cache node.cache)
    (nonNegative : PoW.NonNegativeBlocks node) {cur new : Block} (held : cache.Holds cur)
    (held' : cache.Holds new) {now : PoW.Instant} {clock : Block → PoW.Instant}
    (won : ({ node with cache := cache } : PoW.Node).compareForks now clock cur new = .ok true) :
    node.total cur ≤ node.total new := by
  have nonNegative' : PoW.NonNegativeBlocks { node with cache := cache } :=
    fun block known => nonNegative block (sub _ _ known)
  by_cases pow : PoW.IsPow cur
  · obtain ⟨ancestor, curBranch, newBranch, met, outcome⟩ := PoW.compareForks_work pow held held'
      (nonNegative'.weighable ⟨cur, held⟩ ⟨new, held'⟩) won
    rw [PoW.total_eq (branch_mono sub met.cur), PoW.total_eq (branch_mono sub met.new)]
    apply add_le_add_left
    rcases outcome with more | ⟨same, _⟩
    · exact more.le
    · exact same.le
  · obtain ⟨_, switch | compared⟩ := PoW.compareForks_true won
    · rw [PoW.total_switch (sub _ _ held) switch.2]
      exact le_add_of_nonneg_left (PoW.work_nonneg node new)
    · exact absurd compared.1 pow

/-- The chain head after a callback. -/
theorem onBlockValidated_chainHead {result : BlockValidationResult} {head chainHead : Block}
    {acquired commitNewBlock : Bool}
    (processed : result.block.headerSignature ∈ controller.blocksProcessing)
    (read : result.chainHead = some head) (isHead : controller.chainHead = some chainHead) :
    (onBlockValidated store { controller with
        threads := controller.threads.eraseP fun thread =>
          thread.block.headerSignature == result.block.headerSignature }
        acquired commitNewBlock result).chainHead = some chainHead ∨
      commitNewBlock = true ∧ head.headerSignature = chainHead.headerSignature ∧
        (onBlockValidated store { controller with
          threads := controller.threads.eraseP fun thread =>
            thread.block.headerSignature == result.block.headerSignature }
          acquired commitNewBlock result).chainHead = some result.block := by
  rw [onBlockValidated_eq processed read isHead]
  dsimp only
  split
  · left
    unfold chainChangedOnValidation
    split <;> exact isHead
  · rename_i same
    split
    · rename_i commits
      split
      · exact .inr ⟨commits, not_not.mp same, rfl⟩
      · exact .inl isHead
    · left
      split
      · exact dropDescendants_leaves.1.trans isHead
      · exact isHead

/-- A step in which `compare_forks` decides takes no work from the chain head. -/
theorem Steps.total_le {before after : ChainController σ} {event : Event}
    (nonNegative : PoW.NonNegativeBlocks node) (step : Steps store node.cache before event after)
    (judged : Judged node ⟨before, event, after⟩) (sound : before.Sound store node.cache)
    (tended : before.Tended node.cache) {head : Block} (isHead : before.chainHead = some head) :
    ∃ head', after.chainHead = some head' ∧ node.total head ≤ node.total head' := by
  obtain ⟨rfl, sensible⟩ := step
  cases event with
  | received block valid =>
    refine ⟨head, ?_, le_rfl⟩
    change (before.onBlockReceived store valid block).chainHead = some head
    unfold onBlockReceived
    split
    · exact isHead
    · rw [if_neg (by rw [isHead]; exact Option.some_ne_none _)]
      split
      · exact isHead
      · dsimp only
        split <;> exact isHead
  | started id => exact ⟨head, isHead, le_rfl⟩
  | purged ids => exact ⟨head, isHead, le_rfl⟩
  | verified id verifier acquired =>
    obtain ⟨now, clock, decides, finds⟩ := judged
    change ∃ head', (before.verify store id verifier acquired).chainHead = some head' ∧ _
    unfold verify
    split
    · rename_i block reading found
      have listed := List.mem_of_find?_eq_some found
      have named : block.headerSignature = id := by simpa using List.find?_some found
      subst named
      obtain ⟨held, _, reads⟩ := sound.threads _ listed
      obtain ⟨readHead, rfl, held'⟩ := reads reading rfl
      have processed : block.headerSignature ∈ before.blocksProcessing :=
        (tended.processing _).mpr
          (List.mem_map.mpr ⟨block, List.mem_map.mpr ⟨_, listed, rfl⟩, rfl⟩)
      obtain ⟨inCache, inCache'⟩ := finds _ listed rfl readHead rfl
      obtain ⟨own, read, branches⟩ := processBlockVerification_ok sensible held held'
      generalize verifier.processBlockVerification block (some readHead) = outcome
        at own read branches ⊢
      obtain ⟨commitNewBlock, result⟩ := outcome
      dsimp only at own read branches ⊢
      subst own
      rcases @onBlockValidated_chainHead σ store (before.assign result.statuses) result readHead
        head acquired commitNewBlock processed read isHead with stays | ⟨commits, same, moves⟩
      · exact ⟨head, stays, le_rfl⟩
      · obtain rfl := held'.eq (sound.head head isHead) same
        refine ⟨result.block, moves, ?_⟩
        have won := (branches commits).1
        rw [decides] at won
        exact compareForks_total sensible nonNegative inCache' inCache won
    · exact ⟨head, isHead, le_rfl⟩

/-- However the events of a run interleave, and whatever the cache loses, the work of the chain head
never falls where `compare_forks` decides and no block has a negative difficulty. -/
theorem head_total_le {blockStore : σ} {chainId : Option Text} {middle finish : ChainController σ}
    {earlier later : List (Transition (ChainController σ) Event)}
    (run : Run (Steps store node.cache) (init store blockStore chainId) earlier middle)
    (rest : Run (Steps store node.cache) middle later finish)
    (unnamed : node.cache.find nullBlockIdentifier = none)
    (consistent : Consistent store node.cache blockStore)
    (nonNegative : PoW.NonNegativeBlocks node) (judged : ∀ taken ∈ later, Judged node taken)
    {head : Block} (isHead : middle.chainHead = some head) :
    ∃ head', finish.chainHead = some head' ∧ node.total head ≤ node.total head' := by
  obtain ⟨sound, tended⟩ :=
    kept_run run unnamed (init_kept consistent chainId).1 (init_kept consistent chainId).2
  have kept := @Run.invariant _ _ _ _ _ _ (Judged node) (fun controller =>
    controller.Sound store node.cache ∧ controller.Tended node.cache ∧
      ∃ head', controller.chainHead = some head' ∧ node.total head ≤ node.total head')
    ⟨sound, tended, head, isHead, le_rfl⟩ ?_ rest judged
  · exact kept.2.2
  · rintro before label after ⟨sound', tended', head', isHead', most⟩ step judged'
    obtain ⟨soundAfter, tendedAfter⟩ := step.kept unnamed sound' tended'
    obtain ⟨next, isNext, more⟩ := step.total_le nonNegative judged' sound' tended' isHead'
    exact ⟨soundAfter, tendedAfter, next, isNext, most.trans more⟩

end Work

/-! ## A sample -/

/-- A block store as the list of its blocks, the chain head first. -/
def listStore : ChainStore (List Block) where
  get blocks id := blocks.find? fun block => block.headerSignature == id
  chainHead blocks := blocks.head?
  updateChain blocks new old := new ++ blocks.filter fun block =>
    !old.any fun other => other.headerSignature == block.headerSignature
  get_chainHead := by
    intro blocks block first
    cases blocks with
    | nil => cases first
    | cons other blocks =>
      cases first
      simp
  chainHead_isSome := by
    intro blocks id block found
    cases blocks with
    | nil => cases found
    | cons other blocks => rfl
  get_updateChain := by
    intro blocks new old id _ _
    rw [List.find?_append]
    cases new.find? fun block => block.headerSignature == id with
    | some block => rfl
    | none =>
      rw [Option.none_or, List.find?_filter]
      dsimp only
      split
      · rename_i gone
        obtain ⟨other, listed, named⟩ := gone
        rw [List.find?_eq_none]
        intro block _ both
        rw [decide_eq_true_eq, Bool.not_eq_true', beq_iff_eq] at both
        have apart := List.any_eq_false.mp both.1 other listed
        exact apart (beq_iff_eq.mpr (named.trans both.2.symm))
      · rename_i stays
        apply congrArg (fun test => List.find? test blocks)
        funext block
        by_cases named : block.headerSignature = id
        · have kept : (old.any fun other => other.headerSignature == block.headerSignature) =
              false := by
            rw [List.any_eq_false]
            intro other listed same
            exact stays ⟨other, listed, (beq_iff_eq.mp same).trans named⟩
          rw [kept]
          simp [named]
        · simp [named]

/-- A verification in which all blocks are valid and `compare_forks` decides. -/
def sampleVerifier : Verifier where
  cache := PoW.forkNode.cache
  validateBlock _ := .valid
  compareForks := PoW.forkNode.compareForks PoW.sampleClock fun _ => PoW.sampleClock
  changes _ _ := true

/-- Two blocks come on the chain head and wait for the first one. -/
def sampleArrivals : List Event :=
  [.received PoW.rootBlock true, .received PoW.midBlock true, .received PoW.shortHead true]

/-- The blocks are verified one after the other, and a fork after them. -/
def sampleEvents : List Event :=
  [.started "r".toList, .verified "r".toList sampleVerifier true,
    .started "x".toList, .verified "x".toList sampleVerifier true,
    .received PoW.sideBlock true, .started "a".toList, .started "e".toList,
    .verified "a".toList sampleVerifier true, .verified "e".toList sampleVerifier true]

/-- The controller of the first block. -/
def sampleInit : ChainController (List Block) := init listStore [PoW.genesisBlock] none

/-- The controller when the blocks have come. -/
def sampleMiddle : ChainController (List Block) := sampleArrivals.foldl (next listStore) sampleInit

/-- The controller at the end. -/
def sampleFinish : ChainController (List Block) := sampleEvents.foldl (next listStore) sampleMiddle

/-- The first block is the chain of the store. -/
theorem sample_consistent : Consistent listStore PoW.forkNode.cache [PoW.genesisBlock] := by
  have line : PoW.forkNode.cache.forest.line PoW.genesisBlock = [PoW.genesisBlock] := by
    decide
  have held : PoW.forkNode.cache.Holds PoW.genesisBlock := by decide
  constructor
  · intro head isHead
    cases isHead
    exact held
  · intro id block
    have get : listStore.get [PoW.genesisBlock] id =
      [PoW.genesisBlock].find? fun other => other.headerSignature == id := rfl
    have only : (∃ head, listStore.chainHead [PoW.genesisBlock] = some head ∧
        block ∈ PoW.forkNode.cache.forest.line head) ↔ block = PoW.genesisBlock := by
      simp [listStore, line]
    rw [get, only, List.find?_singleton]
    split
    · rename_i named
      constructor
      · rintro ⟨rfl⟩
        exact ⟨beq_iff_eq.mp named, rfl⟩
      · rintro ⟨_, rfl⟩
        rfl
    · rename_i other
      constructor
      · exact fun impossible => nomatch impossible
      · rintro ⟨named, rfl⟩
        exact absurd (beq_iff_eq.mpr named) other

/-- The arrivals make a run. -/
theorem sampleArrivals_run : Run (Steps listStore PoW.forkNode.cache) sampleInit
    (Run.along (next listStore) sampleInit sampleArrivals) sampleMiddle := by
  apply Run.of_along
  intro taken listed
  refine ⟨Run.mem_along listed, ?_⟩
  simp only [Run.along, sampleArrivals, List.mem_cons, List.not_mem_nil, or_false] at listed
  rcases listed with rfl | rfl | rfl <;> decide

/-- So do the verifications. -/
theorem sampleEvents_run : Run (Steps listStore PoW.forkNode.cache) sampleMiddle
    (Run.along (next listStore) sampleMiddle sampleEvents) sampleFinish := by
  apply Run.of_along
  intro taken listed
  refine ⟨Run.mem_along listed, ?_⟩
  simp only [Run.along, sampleEvents, List.mem_cons, List.not_mem_nil, or_false] at listed
  rcases listed with rfl | rfl | rfl | rfl | rfl | rfl | rfl | rfl | rfl
  · trivial
  · exact fun _ _ found => found
  · trivial
  · exact fun _ _ found => found
  · decide
  · trivial
  · trivial
  · exact fun _ _ found => found
  · exact fun _ _ found => found

/-- There is no block of the null identifier. -/
theorem sample_unnamed : PoW.forkNode.cache.find nullBlockIdentifier = none := by decide

/-- In the sample the chain head moves, and the store holds its line. -/
theorem store_line_sample :
    sampleFinish.chainHead = some PoW.shortHead ∧
      (listStore.get sampleFinish.blockStore "x".toList = some PoW.midBlock ↔
        PoW.midBlock.headerSignature = "x".toList ∧ ∃ head, sampleFinish.chainHead = some head ∧
          PoW.midBlock ∈ PoW.forkNode.cache.forest.line head) :=
  ⟨by decide +kernel, store_line (sampleArrivals_run.append sampleEvents_run) sample_unnamed
    sample_consistent _ _⟩

/-- In the sample a block waits for one that waits for the first one. -/
theorem waiting_awaits_sample :
    PoW.shortHead ∈ sampleMiddle.pendingOn "x".toList ∧
      ∃ thread ∈ sampleMiddle.threads, ∃ branch, branch ≠ [] ∧
        PoW.forkNode.cache.forest.Branch thread.block PoW.shortHead branch := by
  have waits : PoW.shortHead ∈ sampleMiddle.pendingOn "x".toList := by decide
  exact ⟨waits, ((waiting_awaits sampleArrivals_run sample_unnamed sample_consistent).2.2 _ _
    waits).2⟩

/-- In the sample the work of the chain head does not fall. -/
theorem head_total_le_sample :
    ∃ head, sampleFinish.chainHead = some head ∧
      PoW.forkNode.total PoW.genesisBlock ≤ PoW.forkNode.total head := by
  have finds : ∀ taken ∈ Run.along (next listStore) sampleMiddle sampleEvents,
      ∀ thread ∈ taken.before.threads, PoW.forkNode.cache.Holds thread.block ∧
        ∀ head ∈ thread.reading.join.toList, PoW.forkNode.cache.Holds head := by
    decide +kernel
  have judged : ∀ taken ∈ Run.along (next listStore) sampleMiddle sampleEvents,
      Judged PoW.forkNode taken := by
    intro taken listed
    have labels : taken.label ∈ sampleEvents := by
      simp only [Run.along, sampleEvents, List.mem_cons, List.not_mem_nil, or_false] at listed ⊢
      rcases listed with rfl | rfl | rfl | rfl | rfl | rfl | rfl | rfl | rfl <;> simp
    have found := finds taken listed
    obtain ⟨before, label, after⟩ := taken
    have known {verifier : Verifier} (same : verifier = sampleVerifier) (id : Text) :
        ∃ now clock, (∀ cur new, verifier.compareForks cur new =
          ({ PoW.forkNode with cache := verifier.cache } : PoW.Node).compareForks now clock cur
            new) ∧ ∀ thread ∈ before.threads, thread.block.headerSignature = id → ∀ head,
              thread.reading = some (some head) →
                verifier.cache.Holds thread.block ∧ verifier.cache.Holds head := by
      subst same
      refine ⟨PoW.sampleClock, fun _ => PoW.sampleClock, fun _ _ => rfl, ?_⟩
      intro thread isThread _ head read
      have both := found thread isThread
      rw [read] at both
      exact ⟨both.1, both.2 head (List.mem_singleton_self _)⟩
    cases label with
    | verified id verifier acquired =>
      simp only [sampleEvents, List.mem_cons, List.not_mem_nil, or_false, reduceCtorEq, false_or,
        Event.verified.injEq] at labels
      rcases labels with ⟨_, same, _⟩ | ⟨_, same, _⟩ | ⟨_, same, _⟩ | ⟨_, same, _⟩ <;>
        exact known same id
    | received block valid => trivial
    | started id => trivial
    | purged ids => trivial
  have isHead : sampleMiddle.chainHead = some PoW.genesisBlock := by decide
  exact head_total_le sampleArrivals_run sampleEvents_run sample_unnamed sample_consistent
    PoW.forkNode_nonNegative judged isHead

end ChainController

end Creditcoin.Validator
