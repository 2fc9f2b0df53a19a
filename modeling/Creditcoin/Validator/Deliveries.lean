import Creditcoin.Lib.Run
import Creditcoin.Validator.Completer
import Mathlib.Logic.Relation

/-!
# What the completer hands on

Whatever comes in whatever order, and whatever the caches lose, the completer changes in three ways
only: it keeps what it holds, while entries of what waits and what is requested change; it hands on
a block that has what it needs; or it hands on a batch that has what it needs. So each thing is
handed on after the things that it needs.
-/

namespace Creditcoin.Validator

open Lib (Run Transition)

/-- What is sent is a request. -/
def Sent.IsRequest : Sent → Prop
  | .blockRequest _ | .batchRequest _ | .transactionsRequest _ => True
  | .block _ | .batch _ => False

namespace Completer

/-- What is needed. -/
inductive Need where
  | transaction (id : Text)
  | batch (id : Text)
  | block (id : Text)
  deriving DecidableEq

/-- The identifier of what is needed. -/
def Need.id : Need → Text
  | .transaction id | .batch id | .block id => id

/-- What an arrival needs: a batch the dependencies of its transactions, a block its predecessor and
the batches that do not come with it. -/
def Needs : Arrival → Need → Prop
  | .batch batch, .transaction id => id ∈ dependenciesOf batch
  | .block block, .block id => id = block.previousBlockId
  | .block block, .batch id => id ∈ block.batchIds ∧ id ∉ heldIds block
  | _, _ => False

/-- What an arrival gives: a batch itself and its transactions, a block itself. -/
def Gives : Arrival → Need → Prop
  | .batch batch, .transaction id => id ∈ txnIds batch
  | .batch batch, .batch id => id = batch.headerSignature
  | .block block, .block id => id = block.headerSignature
  | _, _ => False

/-- A block comes with too few batches, or with those of its header in some order. -/
def WellFormed : Arrival → Prop
  | .batch _ => True
  | .block block =>
    block.batches.length < block.batchIds.length ∨ (heldIds block).Perm block.batchIds

variable {chain : ChainView} {came : Arrival → Prop} {completer before after : Completer}

/-- What the completer has: what it holds, and what the chain has. -/
def Has (chain : ChainView) (completer : Completer) : Need → Prop
  | .transaction id => id ∈ completer.seenTxns ∨ chain.hasTransaction id
  | .batch id => id ∈ completer.batchCache
  | .block id => completer.cached chain id ∨ chain.hasBlock id

/-- An arrival waits for a key. -/
def On (completer : Completer) : Arrival → Text → Prop
  | .batch batch, key => batch ∈ completer.batchesOn key
  | .block block, key => block ∈ completer.blocksOn key

/-- A key is the identifier of something that an arrival needs. -/
def Wants (arrival : Arrival) (key : Text) : Prop := ∃ need, Needs arrival need ∧ need.id = key

/-- What waits has come and waits for what it needs, and batches are held under their own
signatures. -/
structure Waits (came : Arrival → Prop) (completer : Completer) : Prop where
  keyed : ∀ {id batch}, completer.batchCache.lookup id = some batch → batch.headerSignature = id
  came : ∀ {arrival key}, completer.On arrival key → came arrival ∧ Wants arrival key

/-- What is held stays, only what has come waits, for what it needs, and nothing is handed on. -/
structure Kept (came : Arrival → Prop) (before after : Completer) : Prop where
  batchCache : after.batchCache = before.batchCache
  blockCache : after.blockCache = before.blockCache
  seenTxns : after.seenTxns = before.seenTxns
  only : ∀ {arrival key}, after.On arrival key →
    before.On arrival key ∨ came arrival ∧ Wants arrival key
  sent : ∃ requests, after.sent = before.sent ++ requests ∧ ∀ message ∈ requests, message.IsRequest

/-- What waits has come. -/
theorem Kept.waits (kept : Kept came before after) (waits : before.Waits came) :
    after.Waits came :=
  ⟨fun known => waits.keyed (kept.batchCache ▸ known),
    fun waiting => (kept.only waiting).elim waits.came id⟩

/-- Only what is requested changes. -/
theorem Kept.requests (requested : Finset Text) :
    Kept came completer { completer with requested := requested } := by
  refine ⟨rfl, rfl, rfl, fun {arrival _} waiting => .inl ?_, [], (List.append_nil _).symm,
    fun _ impossible => absurd impossible List.not_mem_nil⟩
  cases arrival <;> exact waiting

/-- A block is complete with some batches: it is well formed, what it needs is there, and the
batches are those of its header in its order, from the block or the cache. -/
structure Completes (chain : ChainView) (completer : Completer) (block : GossipBlock)
    (batches : List Batch) : Prop where
  fresh : ¬completer.cached chain block.headerSignature
  wellFormed : WellFormed (.block block)
  supplied : ∀ need, Needs (.block block) need → completer.Has chain need
  ordered : batches.map Batch.headerSignature = block.batchIds
  held : ∀ batch ∈ batches, batch ∈ block.batches ∨
    completer.batchCache.lookup batch.headerSignature = some batch

/-- A change of the completer. -/
inductive Move (chain : ChainView) (came : Arrival → Prop) (before : Completer) :
    Completer → Prop where
  /-- What is held stays. -/
  | keep {next} (kept : Kept came before next) : Move chain came before next
  /-- A block is handed on with the batches of its header. -/
  | block {block batches} (listed : came (.block block))
      (completes : Completes chain before block batches) :
      Move chain came before (before.deliverBlock (withBatches block batches))
  /-- A batch is handed on. -/
  | batch {batch} (listed : came (.batch batch)) (fresh : batch.headerSignature ∉ before.batchCache)
      (supplied : ∀ need, Needs (.batch batch) need → before.Has chain need) :
      Move chain came before (before.deliverBatch batch)

/-- Changes of the completer. -/
abbrev Moves (chain : ChainView) (came : Arrival → Prop) : Completer → Completer → Prop :=
  Relation.ReflTransGen (Move chain came)

/-- What waits has come, after any changes. -/
theorem Moves.waits (moves : Moves chain came before after) (waits : before.Waits came) :
    after.Waits came := by
  induction moves with
  | refl => exact waits
  | tail _ move ih =>
    cases move with
    | keep kept => exact kept.waits ih
    | block =>
      refine ⟨ih.keyed, fun {arrival key} waiting => @Waits.came _ _ ih arrival key ?_⟩
      cases arrival <;> exact waiting
    | @batch batch =>
      refine ⟨fun {id other} known => ?_, fun {arrival key} waiting =>
        @Waits.came _ _ ih arrival key ?_⟩
      · by_cases same : id = batch.headerSignature
        · subst same
          rw [deliverBatch, send, addSeenTxns, AList.lookup_insert, Option.some_inj] at known
          rw [known]
        · rw [deliverBatch, send, addSeenTxns, AList.lookup_insert_ne same] at known
          exact ih.keyed known
      · cases arrival <;> exact waiting

/-! ## What waits -/

/-- A value at the end of a list. -/
theorem mem_appendNew {α : Type} [DecidableEq α] {values : List α} {value other : α} :
    other ∈ appendNew values value ↔ other ∈ values ∨ other = value := by
  rw [appendNew]
  split
  case isTrue listed =>
    exact ⟨Or.inl, fun either => either.elim id fun same => same ▸ listed⟩
  case isFalse => simp

/-- What waits after one more block does. -/
theorem on_awaitBlock {key key' : Text} {block : GossipBlock} {arrival : Arrival} :
    (completer.awaitBlock key block).On arrival key' ↔
      completer.On arrival key' ∨ key' = key ∧ arrival = .block block := by
  cases arrival with
  | batch batch => simp [On, batchesOn, awaitBlock]
  | block other =>
    by_cases same : key' = key
    · subst same
      rw [On, blocksOn, awaitBlock, AList.lookup_insert, Option.getD_some, mem_appendNew]
      simp [On]
    · rw [On, blocksOn, awaitBlock, AList.lookup_insert_ne same]
      simp [On, blocksOn, same]

/-- What waits after one more batch does. -/
theorem on_awaitBatch {key key' : Text} {batch : Batch} {arrival : Arrival} :
    (completer.awaitBatch key batch).On arrival key' ↔
      completer.On arrival key' ∨ key' = key ∧ arrival = .batch batch := by
  cases arrival with
  | block block => simp [On, blocksOn, awaitBatch]
  | batch other =>
    by_cases same : key' = key
    · subst same
      rw [On, batchesOn, awaitBatch, AList.lookup_insert, Option.getD_some, mem_appendNew]
      simp [On]
    · rw [On, batchesOn, awaitBatch, AList.lookup_insert_ne same]
      simp [On, batchesOn, same]

/-- No block waits for a key any more. -/
theorem on_eraseBlocks {key key' : Text} {arrival : Arrival} :
    On { completer with incompleteBlocks := completer.incompleteBlocks.erase key } arrival key' ↔
      completer.On arrival key' ∧ (key' ≠ key ∨ ∃ batch, arrival = .batch batch) := by
  cases arrival with
  | batch batch => simp [On, batchesOn]
  | block other =>
    by_cases same : key' = key
    · subst same
      simp [On, blocksOn]
    · simp [On, blocksOn, AList.lookup_erase_ne same, same]

/-- No batch waits for a key any more. -/
theorem on_eraseBatches {key key' : Text} {arrival : Arrival} :
    On { completer with incompleteBatches := completer.incompleteBatches.erase key } arrival key' ↔
      completer.On arrival key' ∧ (key' ≠ key ∨ ∃ block, arrival = .block block) := by
  cases arrival with
  | block block => simp [On, blocksOn]
  | batch other =>
    by_cases same : key' = key
    · subst same
      simp [On, batchesOn]
    · simp [On, batchesOn, AList.lookup_erase_ne same, same]

/-- No block waits for a key any more. -/
theorem Kept.eraseBlocks (key : Text) : Kept came completer
    { completer with incompleteBlocks := completer.incompleteBlocks.erase key } :=
  ⟨rfl, rfl, rfl, fun waiting => .inl (on_eraseBlocks.mp waiting).1, [], (List.append_nil _).symm,
    fun _ impossible => absurd impossible List.not_mem_nil⟩

/-- No batch waits for a key any more. -/
theorem Kept.eraseBatches (key : Text) : Kept came completer
    { completer with incompleteBatches := completer.incompleteBatches.erase key } :=
  ⟨rfl, rfl, rfl, fun waiting => .inl (on_eraseBatches.mp waiting).1, [], (List.append_nil _).symm,
    fun _ impossible => absurd impossible List.not_mem_nil⟩

/-- An arrival may wait for more: what is held stays, and more is requested. -/
structure Waited (arrival : Arrival) (before after : Completer) : Prop where
  batchCache : after.batchCache = before.batchCache
  blockCache : after.blockCache = before.blockCache
  seenTxns : after.seenTxns = before.seenTxns
  more : ∀ {other key}, before.On other key → after.On other key
  only : ∀ {other key}, after.On other key →
    before.On other key ∨ other = arrival ∧ Wants arrival key
  keys : ∀ key ∈ before.incompleteBatches, key ∈ after.incompleteBatches
  requested : before.requested ⊆ after.requested
  sent : ∃ requests, after.sent = before.sent ++ requests ∧ ∀ message ∈ requests, message.IsRequest

variable {arrival : Arrival}

/-- Nothing changes. -/
theorem Waited.refl : Waited arrival completer completer :=
  ⟨rfl, rfl, rfl, id, Or.inl, fun _ => id, subset_rfl, [], (List.append_nil _).symm,
    fun _ impossible => absurd impossible List.not_mem_nil⟩

/-- One change after another. -/
theorem Waited.trans {middle : Completer} (waited : Waited arrival before middle)
    (waited' : Waited arrival middle after) : Waited arrival before after := by
  obtain ⟨requests, sent, asks⟩ := waited.sent
  obtain ⟨requests', sent', asks'⟩ := waited'.sent
  refine ⟨waited'.batchCache.trans waited.batchCache, waited'.blockCache.trans waited.blockCache,
    waited'.seenTxns.trans waited.seenTxns, waited'.more ∘ waited.more,
    fun waiting => (waited'.only waiting).elim waited.only Or.inr,
    fun key listed => waited'.keys key (waited.keys key listed),
    waited.requested.trans waited'.requested, requests ++ requests', ?_, ?_⟩
  · rw [sent', sent, List.append_assoc]
  · exact fun message listed => (List.mem_append.mp listed).elim (asks message) (asks' message)

/-- An arrival that came waits. -/
theorem Waited.kept (waited : Waited arrival before after) (listed : came arrival) :
    Kept came before after :=
  ⟨waited.batchCache, waited.blockCache, waited.seenTxns,
    fun waiting => (waited.only waiting).imp_right fun found => by
      rw [found.1]
      exact ⟨listed, found.2⟩, waited.sent⟩

/-- A block waits for a key. -/
theorem Waited.awaitBlock {key : Text} {block : GossipBlock} (wants : Wants (.block block) key) :
    Waited (.block block) completer (completer.awaitBlock key block) := by
  refine ⟨rfl, rfl, rfl, fun waiting => on_awaitBlock.mpr (.inl waiting), fun waiting => ?_,
    fun _ => id, subset_rfl, [], (List.append_nil _).symm,
    fun _ impossible => absurd impossible List.not_mem_nil⟩
  refine (on_awaitBlock.mp waiting).imp_right fun found => ⟨found.2, ?_⟩
  rw [found.1]
  exact wants

/-- A batch waits for a key. -/
theorem Waited.awaitBatch {key : Text} {batch : Batch} (wants : Wants (.batch batch) key) :
    Waited (.batch batch) completer (completer.awaitBatch key batch) := by
  refine ⟨rfl, rfl, rfl, fun waiting => on_awaitBatch.mpr (.inl waiting), fun waiting => ?_,
    fun _ listed => (AList.mem_insert _).mpr (.inr listed), subset_rfl, [],
    (List.append_nil _).symm, fun _ impossible => absurd impossible List.not_mem_nil⟩
  refine (on_awaitBatch.mp waiting).imp_right fun found => ⟨found.2, ?_⟩
  rw [found.1]
  exact wants

/-- A key is requested. -/
theorem Waited.request (key : Text) : Waited arrival completer (completer.request key) := by
  refine ⟨rfl, rfl, rfl, fun {other _} waiting => ?_, fun {other _} waiting => .inl ?_, fun _ => id,
    Finset.subset_insert _ _, [], (List.append_nil _).symm,
    fun _ impossible => absurd impossible List.not_mem_nil⟩ <;>
  cases other <;> exact waiting

/-- A request is sent. -/
theorem Waited.send {message : Sent} (asks : message.IsRequest) :
    Waited arrival completer (completer.send message) := by
  refine ⟨rfl, rfl, rfl, fun {other _} waiting => ?_, fun {other _} waiting => .inl ?_, fun _ => id,
    subset_rfl, [message], rfl, fun _ listed => List.mem_singleton.mp listed ▸ asks⟩ <;>
  cases other <;> exact waiting

/-! ## Blocks -/

/-- A block waits for what it lacks: its predecessor or a batch. -/
def Lacks (chain : ChainView) (completer : Completer) (arrival : Arrival) (key : Text) : Prop :=
  ∃ need, Needs arrival need ∧ need.id = key ∧ ¬completer.Has chain need

/-- The loop over the batch identifiers of a block: nothing happens when no batch is missing,
otherwise the block waits for a missing one, which is requested. -/
theorem buildFrom_cases {block : GossipBlock} {building : Bool} {batchIds : List Text}
    (listed : ∀ id ∈ batchIds, id ∈ block.batchIds) :
    Waited (.block block) completer (buildFrom block batchIds building completer).1 ∧
      ((buildFrom block batchIds building completer).2 = true → building = true ∧
        (buildFrom block batchIds building completer).1 = completer ∧
        ∀ id ∈ batchIds, id ∈ completer.batchCache ∨ id ∈ heldIds block) ∧
      ((buildFrom block batchIds building completer).2 = false → building = false ∨
        ∃ id ∈ batchIds, id ∉ completer.batchCache ∧ id ∉ heldIds block ∧
          (buildFrom block batchIds building completer).1.On (.block block) id ∧
          id ∈ (buildFrom block batchIds building completer).1.requested) := by
  induction batchIds generalizing completer building with
  | nil => exact ⟨.refl, fun built => ⟨built, rfl, fun _ none => absurd none List.not_mem_nil⟩,
      fun unbuilt => .inl unbuilt⟩
  | cons batchId rest ih =>
    rw [List.forall_mem_cons] at listed
    rw [buildFrom]
    split
    case isTrue missing =>
      have wants : Wants (.block block) batchId := ⟨.batch batchId, ⟨listed.1, missing.2⟩, rfl⟩
      have waits : (completer.awaitBlock batchId block).On (.block block) batchId :=
        on_awaitBlock.mpr (.inr ⟨rfl, rfl⟩)
      dsimp only
      split
      case isTrue known =>
        exact ⟨.awaitBlock wants, fun built => absurd built Bool.false_ne_true, fun _ => .inr ⟨batchId, List.mem_cons_self, missing.1,
          missing.2,
          waits, known⟩⟩
      case isFalse =>
        obtain ⟨waited, built, -⟩ := @ih
          (((completer.awaitBlock batchId block).request batchId).send (.batchRequest batchId))
          false listed.2
        have asked : Waited (.block block) completer
            (((completer.awaitBlock batchId block).request batchId).send (.batchRequest batchId)) :=
          ((Waited.awaitBlock wants).trans (.request _)).trans (.send trivial)
        refine ⟨asked.trans waited,
          fun impossible => absurd (built impossible).1 Bool.false_ne_true, fun _ => .inr
            ⟨batchId, List.mem_cons_self, missing.1, missing.2, waited.more waits,
            waited.requested (Finset.mem_insert_self _ _)⟩⟩
    case isFalse present =>
      obtain ⟨waited, built, unbuilt⟩ := @ih completer building listed.2
      refine ⟨waited, fun all => ⟨(built all).1, (built all).2.1, ?_⟩, fun some => ?_⟩
      · rw [List.forall_mem_cons]
        exact ⟨by tauto, (built all).2.2⟩
      · refine (unbuilt some).imp_right fun missing => ?_
        obtain ⟨id, listed, missing⟩ := missing
        exact ⟨id, List.mem_cons_of_mem _ listed, missing⟩

/-- The batches of a header, from the cache or the block. -/
theorem finalizeBatchList_ok {block : GossipBlock} {batchIds : List Text}
    (keyed : ∀ {id batch}, completer.batchCache.lookup id = some batch →
      batch.headerSignature = id)
    (present : ∀ id ∈ batchIds, id ∈ completer.batchCache ∨ id ∈ heldIds block) :
    ∃ batches, completer.finalizeBatchList block batchIds = some batches ∧
      batches.map Batch.headerSignature = batchIds ∧ ∀ batch ∈ batches, batch ∈ block.batches ∨
        completer.batchCache.lookup batch.headerSignature = some batch := by
  induction batchIds with
  | nil => exact ⟨[], rfl, rfl, fun _ none => absurd none List.not_mem_nil⟩
  | cons batchId rest ih =>
    rw [List.forall_mem_cons] at present
    obtain ⟨batches, found, ordered, held⟩ := ih present.2
    rw [finalizeBatchList, found]
    cases known : completer.batchCache.lookup batchId with
    | some batch =>
      have same := keyed known
      refine ⟨batch :: batches, rfl, by rw [List.map_cons, same, ordered], ?_⟩
      exact List.forall_mem_cons.mpr ⟨.inr (same ▸ known), held⟩
    | none =>
      have listed : batchId ∈ heldIds block :=
        present.1.resolve_left (AList.lookup_eq_none.mp known)
      obtain ⟨other, member, same⟩ := List.mem_map.mp listed
      cases search : block.batches.reverse.find? fun batch => batch.headerSignature == batchId with
      | none =>
        have absent := List.find?_eq_none.mp search other (List.mem_reverse.mpr member)
        exact absurd (beq_iff_eq.mpr same) absent
      | some batch =>
        have found := List.find?_some search
        have same : batch.headerSignature = batchId := eq_of_beq found
        refine ⟨batch :: batches, by simp, by rw [List.map_cons, same, ordered], ?_⟩
        refine List.forall_mem_cons.mpr ⟨.inl ?_, held⟩
        exact List.mem_reverse.mp (List.mem_of_find?_eq_some search)

/-- A block with the batches of its header is complete. -/
theorem complete_ok {block : GossipBlock} (waits : completer.Waits came)
    (fresh : ¬completer.cached chain block.headerSignature)
    (wellFormed : WellFormed (.block block))
    (prev : completer.Has chain (.block block.previousBlockId))
    (present : ∀ id ∈ block.batchIds, id ∈ completer.batchCache ∨ id ∈ heldIds block) :
    ∃ batches, Completes chain completer block batches ∧
      completer.complete block =
        (completer.unrequest block.headerSignature, some (withBatches block batches)) := by
  obtain ⟨batches, found, ordered, held⟩ := finalizeBatchList_ok waits.keyed present
  refine ⟨batches, ⟨fresh, wellFormed, fun need needed => ?_, ordered, held⟩,
    by rw [complete, found]⟩
  cases need with
  | transaction id => exact needed.elim
  | batch id => exact (present id needed.1).resolve_right needed.2
  | block id =>
    obtain rfl : id = block.previousBlockId := needed
    exact prev

/-- `_complete_block` in all its cases: a block that is not completed is cached, or malformed, or
waits for something that it lacks and that is requested. -/
theorem completeBlock_cases {block : GossipBlock} (waits : completer.Waits came) :
    (∃ batches, Completes chain completer block batches ∧ completer.completeBlock chain block =
      (completer.unrequest block.headerSignature, some (withBatches block batches))) ∨
    ∃ waiting, completer.completeBlock chain block = (waiting, none) ∧
      Waited (.block block) completer waiting ∧
        (completer.cached chain block.headerSignature ∨ ¬WellFormed (.block block) ∨
          ∃ key, waiting.On (.block block) key ∧ key ∈ waiting.requested ∧
            Lacks chain completer (.block block) key) := by
  rw [completeBlock]
  split
  case isTrue known => exact .inr ⟨completer, rfl, .refl, .inl known⟩
  case isFalse fresh =>
  split
  case isTrue missing =>
    have waiting : (completer.awaitBlock block.previousBlockId block).On (.block block)
        block.previousBlockId :=
      on_awaitBlock.mpr (.inr ⟨rfl, rfl⟩)
    have wants : Wants (.block block) block.previousBlockId :=
      ⟨.block block.previousBlockId, rfl, rfl⟩
    have lacks : Lacks chain completer (.block block) block.previousBlockId :=
      ⟨.block block.previousBlockId, rfl, rfl, fun has => has.elim missing.1 missing.2⟩
    dsimp only
    split
    case isTrue known =>
      exact .inr ⟨_, rfl, .awaitBlock wants, .inr (.inr ⟨_, waiting, known, lacks⟩)⟩
    case isFalse =>
      exact .inr ⟨_, rfl, ((Waited.awaitBlock wants).trans (.request _)).trans (.send trivial),
        .inr (.inr ⟨_, waiting, Finset.mem_insert_self _ _, lacks⟩)⟩
  case isFalse present =>
  have prev : completer.Has chain (.block block.previousBlockId) := by
    rw [Has]
    tauto
  split
  case isTrue extra =>
    refine .inr ⟨completer, rfl, .refl, .inr (.inl fun wellFormed => ?_)⟩
    rcases wellFormed with fewer | perm
    · omega
    · have same := perm.length_eq
      rw [heldIds, List.length_map] at same
      omega
  case isFalse enough =>
  split
  case isTrue fewer =>
    obtain ⟨waited, built, unbuilt⟩ :=
      @buildFrom_cases completer block true block.batchIds fun _ => id
    generalize buildFrom block block.batchIds true completer = outcome at waited built unbuilt ⊢
    obtain ⟨built', building⟩ := outcome
    cases building with
    | true =>
      obtain ⟨-, rfl, all⟩ := built rfl
      obtain ⟨batches, completes, same⟩ :=
        complete_ok waits fresh (.inl (by omega)) prev all
      exact .inl ⟨batches, completes, same⟩
    | false =>
      obtain ⟨id, listed, uncached, unheld, waiting, known⟩ :=
        (unbuilt rfl).resolve_left Bool.noConfusion
      exact .inr ⟨built', rfl, waited, .inr (.inr ⟨id, waiting, known, .batch id,
        ⟨listed, unheld⟩, rfl, uncached⟩)⟩
  case isFalse same =>
  split
  case isTrue ordered =>
    refine .inl ⟨block.batches, ⟨fresh, .inr (ordered ▸ List.Perm.refl _), fun need needed => ?_,
      ordered, fun _ listed => .inl listed⟩, rfl⟩
    cases need with
    | transaction id => exact needed.elim
    | batch id => exact absurd (ordered ▸ needed.1) needed.2
    | block id =>
      obtain rfl : id = block.previousBlockId := needed
      exact prev
  case isFalse =>
  split
  case isTrue perm =>
    obtain ⟨batches, completes, same⟩ := complete_ok waits fresh (.inr perm) prev
      fun id listed => .inr (perm.mem_iff.mpr listed)
    exact .inl ⟨batches, completes, same⟩
  case isFalse unlike =>
    refine .inr ⟨completer, rfl, .refl, .inr (.inl fun wellFormed => ?_)⟩
    rcases wellFormed with fewer | perm
    · omega
    · exact unlike perm

/-- A complete block is handed on. -/
theorem Completes.moves {block : GossipBlock} {batches : List Batch}
    (completes : Completes chain completer block batches) (listed : came (.block block)) :
    Moves chain came completer
      ((completer.unrequest block.headerSignature).deliverBlock (withBatches block batches)) :=
  (Relation.ReflTransGen.single (.keep (.requests _))).tail (.block listed
    ⟨completes.fresh, completes.wellFormed, completes.supplied, completes.ordered, completes.held⟩)

/-- Blocks that came are handed on when they are complete. -/
theorem completeBlocks_moves {blocks : List GossipBlock} (waits : completer.Waits came)
    (listed : ∀ block ∈ blocks, came (.block block)) :
    Moves chain came completer (completer.completeBlocks chain blocks).1 := by
  induction blocks generalizing completer with
  | nil => exact .refl
  | cons block rest ih =>
    rw [List.forall_mem_cons] at listed
    rw [completeBlocks]
    obtain ⟨batches, completes, same⟩ | ⟨waiting, same, waited, -⟩ :=
      @completeBlock_cases chain came completer block waits
    · rw [same]
      have moves := completes.moves listed.1
      exact moves.trans (ih (Moves.waits moves waits) listed.2)
    · rw [same]
      have kept := waited.kept listed.1
      exact .head (.keep kept) (ih (kept.waits waits) listed.2)

/-- Blocks that wait are handed on when they are complete. -/
theorem completeKeys_moves {passes : Nat} {keys : List Text} (waits : completer.Waits came) :
    Moves chain came completer (completer.completeKeys chain passes keys) := by
  induction passes generalizing completer keys with
  | zero => exact .refl
  | succ passes ih =>
    cases keys with
    | nil => exact .refl
    | cons key rest =>
      rw [completeKeys]
      split
      case h_1 => exact ih waits
      case h_2 blocks found =>
        have listed : ∀ block ∈ blocks, came (.block block) := fun block listed =>
          (@Waits.came _ _ waits (.block block) key (by rwa [On, blocksOn, found])).1
        have moves := (@completeBlocks_moves chain came completer blocks waits listed).tail
          (.keep (.eraseBlocks key))
        exact moves.trans (ih (Moves.waits moves waits))

/-- A block that came is handed on when it is complete, and what waited for it. -/
theorem addBlock_moves {block : GossipBlock} (waits : completer.Waits came)
    (listed : came (.block block)) :
    Moves chain came completer (completer.addBlock chain block) := by
  rw [addBlock]
  obtain ⟨batches, completes, same⟩ | ⟨waiting, same, waited, -⟩ :=
    @completeBlock_cases chain came completer block waits
  · rw [same]
    have moves := completes.moves listed
    exact moves.trans (completeKeys_moves (Moves.waits moves waits))
  · rw [same]
    exact .single (.keep (waited.kept listed))

/-! ## Batches -/

/-- The loop over the dependencies of a batch: nothing happens when none is missing, otherwise the
batch waits for a missing one, which is requested. -/
theorem checkDependencies_cases {batch : Batch} {dependencies missing : List Text} {valid : Bool}
    (listed : ∀ id ∈ dependencies, id ∈ dependenciesOf batch) :
    Waited (.batch batch) completer
        (checkDependencies chain batch dependencies missing valid completer).1 ∧
      ((checkDependencies chain batch dependencies missing valid completer).2.2 = true →
        valid = true ∧
          (checkDependencies chain batch dependencies missing valid completer).1 = completer ∧
            ∀ id ∈ dependencies, completer.Has chain (.transaction id)) ∧
      ((checkDependencies chain batch dependencies missing valid completer).2.2 = false →
        valid = false ∨ ∃ id ∈ dependencies, ¬completer.Has chain (.transaction id) ∧
          (checkDependencies chain batch dependencies missing valid completer).1.On (.batch batch)
            id ∧
          id ∈
            (checkDependencies chain batch dependencies missing valid completer).1.requested) := by
  induction dependencies generalizing completer missing valid with
  | nil => exact ⟨.refl, fun all => ⟨all, rfl, fun _ none => absurd none List.not_mem_nil⟩,
      fun some => .inl some⟩
  | cons dependency rest ih =>
    rw [List.forall_mem_cons] at listed
    rw [checkDependencies]
    split
    case isTrue lacking =>
      have wants : Wants (.batch batch) dependency := ⟨.transaction dependency, listed.1, rfl⟩
      have lacks : ¬completer.Has chain (.transaction dependency) := fun has =>
        has.elim lacking.1 lacking.2
      split
      case isTrue known =>
        have waits : (completer.awaitBatch dependency batch).On (.batch batch) dependency :=
          on_awaitBatch.mpr (.inr ⟨rfl, rfl⟩)
        obtain ⟨waited, all, -⟩ := @ih (completer.awaitBatch dependency batch) missing false
          listed.2
        exact ⟨(Waited.awaitBatch wants).trans waited,
          fun impossible => absurd (all impossible).1 Bool.false_ne_true, fun _ => .inr
            ⟨dependency, List.mem_cons_self, lacks, waited.more waits, waited.requested known⟩⟩
      case isFalse =>
        have waits : ((completer.request dependency).awaitBatch dependency batch).On (.batch batch)
            dependency :=
          on_awaitBatch.mpr (.inr ⟨rfl, rfl⟩)
        obtain ⟨waited, all, -⟩ := @ih ((completer.request dependency).awaitBatch dependency batch)
          (missing ++ [dependency]) false listed.2
        have asked : Waited (.batch batch) completer
            ((completer.request dependency).awaitBatch dependency batch) :=
          (Waited.request _).trans (.awaitBatch wants)
        exact ⟨asked.trans waited, fun impossible => absurd (all impossible).1 Bool.false_ne_true,
          fun _ => .inr ⟨dependency, List.mem_cons_self, lacks, waited.more waits,
            waited.requested (Finset.mem_insert_self _ _)⟩⟩
    case isFalse present =>
      obtain ⟨waited, all, some⟩ := @ih completer missing valid listed.2
      refine ⟨waited, fun every => ⟨(all every).1, (all every).2.1, ?_⟩, fun lacking => ?_⟩
      · rw [List.forall_mem_cons, Has]
        exact ⟨by tauto, (all every).2.2⟩
      · refine (some lacking).imp_right fun found => ?_
        obtain ⟨id, listed, found⟩ := found
        exact ⟨id, List.mem_cons_of_mem _ listed, found⟩

/-- `_complete_batch` in both cases: a batch that is not complete waits for something that it lacks
and that is requested. -/
theorem completeBatch_cases (chain : ChainView) (completer : Completer) (batch : Batch) :
    (completer.completeBatch chain batch = (completer, true) ∧
      ∀ need, Needs (.batch batch) need → completer.Has chain need) ∨
    ∃ waiting, completer.completeBatch chain batch = (waiting, false) ∧
      Waited (.batch batch) completer waiting ∧
        ∃ key, waiting.On (.batch batch) key ∧ key ∈ waiting.requested ∧
          Lacks chain completer (.batch batch) key := by
  obtain ⟨waited, all, some⟩ :=
    @checkDependencies_cases chain completer batch (dependenciesOf batch) [] true fun _ => id
  rw [completeBatch]
  generalize checkDependencies chain batch (dependenciesOf batch) [] true completer = outcome
    at waited all some
  obtain ⟨checked, missing, valid⟩ := outcome
  cases valid with
  | true =>
    obtain ⟨-, rfl, has⟩ := all rfl
    refine .inl ⟨rfl, fun need needed => ?_⟩
    cases need with
    | transaction id => exact has id needed
    | batch id => exact needed.elim
    | block id => exact needed.elim
  | false =>
    obtain ⟨id, listed, lacks, waiting, known⟩ := (some rfl).resolve_left Bool.noConfusion
    exact .inr ⟨_, rfl, waited.trans (.send trivial), id, waiting, known, .transaction id, listed,
      rfl, lacks⟩

/-- What a call leaves, whether it returns or raises. -/
def outcome : Except Completer Completer → Completer
  | .ok completer | .error completer => completer

/-- What each step of a loop may do, the loop may do. -/
theorem outcome_foldlM {α : Type} {step : Completer → α → Except Completer Completer}
    {values : List α} (waits : completer.Waits came)
    (each : ∀ value ∈ values, ∀ before : Completer, before.Waits came →
      Moves chain came before (outcome (step before value))) :
    Moves chain came completer (outcome (values.foldlM step completer)) := by
  induction values generalizing completer with
  | nil => exact .refl
  | cons value rest ih =>
    rw [List.forall_mem_cons] at each
    have moves := each.1 completer waits
    rw [List.foldlM_cons]
    cases result : step completer value with
    | ok next =>
      rw [result] at moves
      exact moves.trans (ih (Moves.waits moves waits) each.2)
    | error left =>
      rw [result] at moves
      exact moves

/-- Batches that wait are handed on when they are complete. -/
theorem processTxn_moves {addBatch : Completer → Batch → Except Completer Completer} {key : Text}
    (waits : completer.Waits came)
    (adds : ∀ batch, came (.batch batch) → ∀ before : Completer, before.Waits came →
      Moves chain came before (outcome (addBatch before batch))) :
    Moves chain came completer (outcome (processTxn addBatch completer key)) := by
  rw [processTxn]
  split
  case isFalse => exact .refl
  case isTrue =>
    have kept : Kept came completer (completer.unrequest key) := .requests _
    have waits' := kept.waits waits
    refine .head (.keep kept) ?_
    generalize completer.unrequest key = known at waits' ⊢
    rw [processIncompleteBatches]
    cases found : known.incompleteBatches.lookup key with
    | none => exact .refl
    | some batches =>
      have listed : ∀ batch ∈ batches, came (.batch batch) := fun batch listed =>
        (@Waits.came _ _ waits' (.batch batch) key (by rwa [On, batchesOn, found])).1
      have moves := @outcome_foldlM chain came known _ addBatch batches waits'
        fun batch member => adds batch (listed batch member)
      dsimp only
      cases result : batches.foldlM addBatch known with
      | error left =>
        rw [result] at moves
        exact moves
      | ok added =>
        rw [result] at moves
        rw [outcome] at moves
        change Moves chain came known (outcome (if key ∈ added.incompleteBatches then
          .ok { added with incompleteBatches := added.incompleteBatches.erase key }
          else .error added))
        split
        · exact moves.tail (.keep (.eraseBatches key))
        · exact moves

/-- A batch that came is handed on when it is complete, and what waited for it, whether the call
returns or raises. -/
theorem addBatch_moves {limit : Nat} {batch : Batch} (waits : completer.Waits came)
    (listed : came (.batch batch)) :
    Moves chain came completer (outcome (addBatch chain limit completer batch)) := by
  induction limit generalizing completer batch with
  | zero => exact .refl
  | succ limit ih =>
    rw [addBatch]
    split
    case isTrue => exact .refl
    case isFalse fresh =>
    obtain ⟨same, supplied⟩ | ⟨waiting, same, waited, -⟩ :=
      completeBatch_cases chain completer batch
    · rw [same]
      have handed : Moves chain came completer (completer.deliverBatch batch) :=
        .single (.batch listed fresh supplied)
      have moves : Moves chain came completer
          (((completer.deliverBatch batch).processIncompleteBlocks chain
            batch.headerSignature).unrequest batch.headerSignature) :=
        (handed.trans (completeKeys_moves (Moves.waits handed waits))).tail (.keep (.requests _))
      refine moves.trans (outcome_foldlM (Moves.waits moves waits) fun key _ before waits => ?_)
      exact processTxn_moves waits fun other came' before waits => ih waits came'
    · rw [same]
      exact .single (.keep (waited.kept listed))

/-- An arrival is handed on when it is complete, and what waited for it. -/
theorem add_moves {limit : Nat} (waits : completer.Waits came) (listed : came arrival) :
    Moves chain came completer (outcome (completer.add chain limit arrival)) := by
  cases arrival with
  | block block => exact addBlock_moves waits listed
  | batch batch => exact addBatch_moves waits listed

/-! ## What is sent -/

/-- Something was handed on. -/
def SentIn (earlier : List Sent) : Need → Prop
  | .transaction id => ∃ batch, .batch batch ∈ earlier ∧ id ∈ txnIds batch
  | .batch id => ∃ batch, .batch batch ∈ earlier ∧ batch.headerSignature = id
  | .block id => ∃ block, .block block ∈ earlier ∧ block.headerSignature = id

/-- What the chain has. -/
def Base (chain : ChainView) : Need → Prop
  | .transaction id => chain.hasTransaction id
  | .batch _ => False
  | .block id => id = nullBlockIdentifier ∨ chain.stored id ∨ chain.hasBlock id

/-- Something is rightly sent after what was sent earlier: a batch after what it depends on, a block
with the batches of its header after its predecessor and the batches that did not come with it. -/
def Justified (came : Arrival → Prop) (base : Need → Prop) (earlier : List Sent) : Sent → Prop
  | .batch batch => came (.batch batch) ∧
      ∀ need, Needs (.batch batch) need → base need ∨ SentIn earlier need
  | .block block => block.batches.map Batch.headerSignature = block.batchIds ∧
      ∃ received, came (.block received) ∧ block = withBatches received block.batches ∧
        (∀ batch ∈ block.batches, batch ∈ received.batches ∨ .batch batch ∈ earlier) ∧
          ∀ need, Needs (.block received) need → base need ∨ SentIn earlier need
  | .blockRequest _ | .batchRequest _ | .transactionsRequest _ => True

/-- All is rightly sent after what was sent earlier. -/
def Orderly (came : Arrival → Prop) (base : Need → Prop) (sent : List Sent) : Prop :=
  ∀ earlier message later, sent = earlier ++ message :: later → Justified came base earlier message

variable {base base' : Need → Prop} {came' : Arrival → Prop} {sent : List Sent}

/-- More may be sent when more has come. -/
theorem Orderly.mono (orderly : Orderly came base sent)
    (more : ∀ arrival, came arrival → came' arrival) (more' : ∀ need, base need → base' need) :
    Orderly came' base' sent := by
  intro earlier message later parts
  have justified := orderly earlier message later parts
  cases message with
  | batch batch =>
    exact ⟨more _ justified.1, fun need needed => (justified.2 need needed).imp_left (more' need)⟩
  | block block =>
    obtain ⟨ordered, received, listed, same, held, supplied⟩ := justified
    exact ⟨ordered, received, more _ listed, same, held,
      fun need needed => (supplied need needed).imp_left (more' need)⟩
  | blockRequest | batchRequest | transactionsRequest => trivial

/-- One more message is sent. -/
theorem Orderly.send {message : Sent} (orderly : Orderly came base sent)
    (justified : Justified came base sent message) : Orderly came base (sent ++ [message]) := by
  intro earlier message' later parts
  rcases List.eq_nil_or_concat later with rfl | ⟨later, last, rfl⟩
  · obtain ⟨rfl, same⟩ := List.append_inj' parts rfl
    obtain rfl := List.singleton_inj.mp same
    exact justified
  · rw [List.concat_eq_append, ← List.cons_append, ← List.append_assoc] at parts
    obtain ⟨rfl, -⟩ := List.append_inj' parts rfl
    exact orderly _ _ _ rfl

/-- Requests are sent. -/
theorem Orderly.ask {requests : List Sent} (orderly : Orderly came base sent)
    (asks : ∀ message ∈ requests, message.IsRequest) : Orderly came base (sent ++ requests) := by
  induction requests generalizing sent with
  | nil => rwa [List.append_nil]
  | cons message requests ih =>
    rw [List.forall_mem_cons] at asks
    have justified : Justified came base sent message := by
      cases message with
      | batch | block => exact asks.1.elim
      | blockRequest | batchRequest | transactionsRequest => trivial
    rw [List.append_cons]
    exact ih (orderly.send justified) asks.2

/-- What was sent stays sent. -/
theorem SentIn.append {need : Need} {later : List Sent} (sentIn : SentIn sent need) :
    SentIn (sent ++ later) need := by
  cases need <;> exact sentIn.imp fun _ found => ⟨List.mem_append_left _ found.1, found.2⟩

/-- What is held was sent, in order. -/
structure HandedOn (came : Arrival → Prop) (base : Need → Prop) (completer : Completer) :
    Prop where
  waits : completer.Waits came
  batch : ∀ {id batch}, completer.batchCache.lookup id = some batch → .batch batch ∈ completer.sent
  block : ∀ id ∈ completer.blockCache,
    id = nullBlockIdentifier ∨ SentIn completer.sent (.block id)
  txn : ∀ id ∈ completer.seenTxns, SentIn completer.sent (.transaction id)
  orderly : Orderly came base completer.sent

/-- What the completer has was sent, or the chain has it. -/
theorem HandedOn.has {need : Need} (handed : completer.HandedOn came base)
    (known : ∀ need, Base chain need → base need) (has : completer.Has chain need) :
    base need ∨ SentIn completer.sent need := by
  cases need with
  | transaction id =>
    rcases has with seen | has
    · exact .inr (handed.txn id seen)
    · exact .inl (known (.transaction id) has)
  | batch id =>
    obtain ⟨batch, found⟩ := Option.isSome_iff_exists.mp (AList.lookup_isSome.mpr has)
    exact .inr ⟨batch, handed.batch found, handed.waits.keyed found⟩
  | block id =>
    rcases has with found | has
    · rw [cached, Bool.or_eq_true, decide_eq_true_eq] at found
      rcases found with listed | stored
      · exact (handed.block id listed).imp_left fun null => known (.block id) (.inl null)
      · exact .inl (known (.block id) (.inr (.inl stored)))
    · exact .inl (known (.block id) (.inr (.inr has)))

/-- The transactions that are seen after a batch is handed on. -/
theorem mem_seenTxns_deliverBatch {batch : Batch} {id : Text} :
    id ∈ (completer.deliverBatch batch).seenTxns ↔
      id ∈ completer.seenTxns ∨ id ∈ txnIds batch := by
  rw [deliverBatch, send, addSeenTxns]
  generalize completer.seenTxns = seen
  generalize txnIds batch = ids
  induction ids generalizing seen with
  | nil => simp
  | cons first ids ih =>
    rw [List.foldl_cons, ih, AList.mem_insert, List.mem_cons]
    tauto

/-- Every change keeps the order. -/
theorem Move.handedOn (move : Move chain came before after) (handed : before.HandedOn came base)
    (known : ∀ need, Base chain need → base need) : after.HandedOn came base := by
  have waits := Moves.waits (.single move) handed.waits
  cases move with
  | keep kept =>
    obtain ⟨requests, sent, asks⟩ := kept.sent
    refine ⟨waits, fun found => ?_, fun id listed => ?_, fun id seen => ?_, ?_⟩ <;> rw [sent]
    · exact List.mem_append_left _ (handed.batch (kept.batchCache ▸ found))
    · exact (handed.block id (kept.blockCache ▸ listed)).imp_right SentIn.append
    · exact (handed.txn id (kept.seenTxns ▸ seen)).append
    · exact handed.orderly.ask asks
  | @block block batches listed completes =>
    refine ⟨waits, fun found => List.mem_append_left _ (handed.batch found), fun id member => ?_,
      fun id seen => (handed.txn id seen).append, ?_⟩
    · rcases (AList.mem_insert _).mp member with rfl | earlier
      · exact .inr ⟨_, List.mem_append_right _ (List.mem_singleton_self _), rfl⟩
      · exact (handed.block id earlier).imp_right SentIn.append
    · refine handed.orderly.send ⟨completes.ordered, block, listed, rfl, fun batch member => ?_,
        fun need needed => handed.has known (completes.supplied need needed)⟩
      exact (completes.held batch member).imp_right handed.batch
  | @batch batch listed fresh supplied =>
    refine ⟨waits, fun {id other} found => ?_,
      fun id member => (handed.block id member).imp_right SentIn.append, fun id seen => ?_, ?_⟩
    · by_cases same : id = batch.headerSignature
      · subst same
        rw [deliverBatch, send, addSeenTxns, AList.lookup_insert, Option.some_inj] at found
        exact List.mem_append_right _ (List.mem_singleton.mpr (congrArg Sent.batch found.symm))
      · rw [deliverBatch, send, addSeenTxns, AList.lookup_insert_ne same] at found
        exact List.mem_append_left _ (handed.batch found)
    · rcases mem_seenTxns_deliverBatch.mp seen with earlier | own
      · exact (handed.txn id earlier).append
      · exact ⟨batch, List.mem_append_right _ (List.mem_singleton_self _), own⟩
    · exact handed.orderly.send ⟨listed, fun need needed => handed.has known (supplied need needed)⟩

/-- All changes keep the order. -/
theorem Moves.handedOn (moves : Moves chain came before after)
    (handed : before.HandedOn came base) (known : ∀ need, Base chain need → base need) :
    after.HandedOn came base := by
  induction moves with
  | refl => exact handed
  | tail _ move ih => exact move.handedOn ih known

/-! ## Runs -/

/-- What happens to the completer. -/
inductive Event where
  /-- Something comes, while the chain is in some state. -/
  | added (chain : ChainView) (limit : Nat) (arrival : Arrival)
  /-- The caches lose entries. -/
  | purged (batches blocks txns batchKeys blockKeys requested : List Text)

/-- Entries are lost. -/
def purge {α : Type} (dict : Dict α) (keys : List Text) : Dict α :=
  keys.foldl (fun dict key => dict.erase key) dict

/-- The completer after an event. -/
def next (completer : Completer) : Event → Completer
  | .added chain limit arrival => outcome (completer.add chain limit arrival)
  | .purged batches blocks txns batchKeys blockKeys requested =>
    { completer with
      batchCache := purge completer.batchCache batches
      blockCache := purge completer.blockCache blocks
      seenTxns := purge completer.seenTxns txns
      incompleteBatches := purge completer.incompleteBatches batchKeys
      incompleteBlocks := purge completer.incompleteBlocks blockKeys
      requested := completer.requested \ requested.toFinset }

/-- A step of the completer. -/
def Steps (before : Completer) (event : Event) (after : Completer) : Prop :=
  after = before.next event

/-- What is found after a purge was there. -/
theorem lookup_purge {α : Type} {dict : Dict α} {keys : List Text} {key : Text} {value : α}
    (found : (purge dict keys).lookup key = some value) : dict.lookup key = some value := by
  induction keys generalizing dict with
  | nil => exact found
  | cons first keys ih =>
    have found := @ih (dict.erase first) found
    by_cases same : key = first
    · subst same
      rw [AList.lookup_erase] at found
      cases found
    · rwa [AList.lookup_erase_ne same] at found

/-- What is left after a purge was there. -/
theorem mem_purge {α : Type} {dict : Dict α} {keys : List Text} {key : Text}
    (left : key ∈ purge dict keys) : key ∈ dict := by
  obtain ⟨value, found⟩ := Option.isSome_iff_exists.mp (AList.lookup_isSome.mpr left)
  exact AList.lookup_isSome.mp (lookup_purge found ▸ rfl)

/-- What has come in a run. -/
def CameIn (steps : List (Transition Completer Event)) (arrival : Arrival) : Prop :=
  ∃ taken ∈ steps, ∃ chain limit, taken.label = .added chain limit arrival

/-- What the chain has had in a run when something came. -/
def HadIn (steps : List (Transition Completer Event)) (need : Need) : Prop :=
  ∃ taken ∈ steps, ∃ chain limit arrival,
    taken.label = .added chain limit arrival ∧ Base chain need

/-- The first completer has handed on nothing. -/
theorem handedOn_init : init.HandedOn came base := by
  refine ⟨⟨fun found => ?_, fun {arrival key} waiting => ?_⟩, fun found => ?_, fun id listed => ?_,
    fun id seen => ?_, fun earlier message later parts => absurd parts.symm (by simp [init])⟩
  · cases found
  · cases arrival <;> exact absurd waiting List.not_mem_nil
  · cases found
  · rcases (AList.mem_insert _).mp listed with null | impossible
    · exact .inl null
    · exact absurd impossible (AList.notMem_empty _)
  · exact absurd seen (AList.notMem_empty _)

/-- Every run keeps the order. -/
theorem handedOn_run {steps : List (Transition Completer Event)} {finish : Completer}
    (run : Run Steps init steps finish) : finish.HandedOn (CameIn steps) (HadIn steps) := by
  induction run with
  | nil => exact handedOn_init
  | @snoc steps middle event finish run step ih =>
    have more : ∀ arrival, CameIn steps arrival →
        CameIn (steps ++ [⟨middle, event, finish⟩]) arrival := fun arrival came =>
      came.imp fun taken found => ⟨List.mem_append_left _ found.1, found.2⟩
    have more' : ∀ need, HadIn steps need → HadIn (steps ++ [⟨middle, event, finish⟩]) need :=
      fun need had => had.imp fun taken found => ⟨List.mem_append_left _ found.1, found.2⟩
    have handed : middle.HandedOn (CameIn (steps ++ [⟨middle, event, finish⟩]))
        (HadIn (steps ++ [⟨middle, event, finish⟩])) :=
      ⟨⟨ih.waits.keyed, fun waiting => (ih.waits.came waiting).imp_left (more _)⟩, ih.batch,
        ih.block, ih.txn, ih.orderly.mono more more'⟩
    have final : (⟨middle, event, finish⟩ : Transition Completer Event) ∈
        steps ++ [⟨middle, event, finish⟩] :=
      List.mem_append_right _ (List.mem_singleton_self _)
    rw [Steps] at step
    cases event with
    | added chain limit arrival =>
      rw [step] at handed final ⊢
      exact Moves.handedOn (add_moves handed.waits ⟨_, final, chain, limit, rfl⟩) handed
        fun need based => ⟨_, final, chain, limit, arrival, rfl, based⟩
    | purged batches blocks txns batchKeys blockKeys requested =>
      rw [step] at handed final ⊢
      refine ⟨⟨fun found => handed.waits.keyed (lookup_purge found),
        fun {arrival key} waiting => ?_⟩,
        fun found => handed.batch (lookup_purge found),
        fun id listed => handed.block id (mem_purge listed),
        fun id seen => handed.txn id (mem_purge seen), handed.orderly⟩
      refine @Waits.came _ _ handed.waits arrival key ?_
      cases arrival with
      | batch batch =>
        rw [On, batchesOn, next] at waiting
        cases found : (purge middle.incompleteBatches batchKeys).lookup key with
        | none => rw [found] at waiting; exact absurd waiting List.not_mem_nil
        | some batches =>
          rw [found] at waiting
          rw [On, batchesOn, lookup_purge found]
          exact waiting
      | block block =>
        rw [On, blocksOn, next] at waiting
        cases found : (purge middle.incompleteBlocks blockKeys).lookup key with
        | none => rw [found] at waiting; exact absurd waiting List.not_mem_nil
        | some blocks =>
          rw [found] at waiting
          rw [On, blocksOn, lookup_purge found]
          exact waiting

/-- However things come and whatever the caches lose, a batch is handed on after batches with all
transactions that it depends on, and a block, with the batches of its header in their order, after
its predecessor, but for what the chain had; whether calls return or raise. -/
theorem sent_orderly {steps : List (Transition Completer Event)} {finish : Completer}
    (run : Run Steps init steps finish) {earlier later : List Sent} {message : Sent}
    (parts : finish.sent = earlier ++ message :: later) :
    Justified (CameIn steps) (HadIn steps) earlier message :=
  (handedOn_run run).orderly earlier message later parts

/-- A batch of one transaction. -/
def sampleBatch (id txn : Text) (dependencies : List Text) : Batch :=
  ⟨id, [], [⟨txn, dependencies, []⟩]⟩

/-- A block of two batches that come apart from it. -/
def sampleBlock (batches : List Batch) : GossipBlock :=
  { headerSignature := ['k'], blockNum := 0, previousBlockId := nullBlockIdentifier,
    signerPublicKey := [], stateRootHash := [], batches := batches, batchIds := [['b'], ['c']] }

/-- A chain without blocks. -/
def emptyChain : ChainView := ⟨fun _ => false, fun _ => false, fun _ => false⟩

/-- A block comes, then the batch that depends on the other one, then the other one. -/
def sampleArrivals : List Arrival :=
  [.block (sampleBlock []), .batch (sampleBatch ['c'] ['u'] [['t']]),
    .batch (sampleBatch ['b'] ['t'] [])]

/-- The arrivals one after another. -/
def sampleEvents : List Event := sampleArrivals.map (.added emptyChain 4)

/-- In the sample the block is handed on last, with both batches. -/
theorem sent_orderly_sample :
    ∃ earlier batches, (sampleEvents.foldl next init).sent =
      earlier ++ [.block (sampleBlock batches)] ∧
        Justified (CameIn (Run.along next init sampleEvents))
          (HadIn (Run.along next init sampleEvents)) earlier (.block (sampleBlock batches)) := by
  have run : Run Steps init (Run.along next init sampleEvents) (sampleEvents.foldl next init) :=
    Run.of_along fun _ listed => Run.mem_along listed
  have parts : (sampleEvents.foldl next init).sent =
      [.batchRequest ['b'], .batchRequest ['c'], .transactionsRequest [['t']],
        .batch (sampleBatch ['b'] ['t'] []), .batch (sampleBatch ['c'] ['u'] [['t']])] ++
      [.block (sampleBlock [sampleBatch ['b'] ['t'] [], sampleBatch ['c'] ['u'] [['t']]])] := by
    decide
  exact ⟨_, _, parts, sent_orderly run parts⟩

end Completer

end Creditcoin.Validator
