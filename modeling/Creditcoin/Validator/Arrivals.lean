import Creditcoin.Lib.Closure
import Creditcoin.Validator.Deliveries

/-!
# What arrivals lead to

While the caches lose nothing, every arrival that is not handed on waits for something that it
needs, that is not there, and that is requested. So what is handed on is exactly what can be had
from all that has come, in whatever order it came.
-/

namespace Creditcoin.Validator.Completer

open Lib (Available)

variable {chain : ChainView} {came : Arrival → Prop} {completer before after : Completer}
  {arrival : Arrival} {keys keys' : Need → Prop} {excused excused' : Arrival → Prop}

/-- What an arrival names. -/
def names : Arrival → List Need
  | .batch batch => .batch batch.headerSignature ::
      ((txnIds batch).map .transaction ++ (dependenciesOf batch).map .transaction)
  | .block block => .block block.headerSignature :: .block block.previousBlockId ::
      block.batchIds.map .batch

/-- Signatures of arrivals are those of one thing: of a transaction, a batch or a block; a batch has
its own signature, and a transaction is in one batch. -/
structure Signed (came : Arrival → Prop) : Prop where
  kind : ∀ {arrival arrival'}, came arrival → came arrival' → ∀ need ∈ names arrival,
    ∀ need' ∈ names arrival', need.id = need'.id → need = need'
  batch : ∀ {batch batch'}, came (.batch batch) → came (.batch batch') →
    batch.headerSignature = batch'.headerSignature → batch = batch'
  transaction : ∀ {batch batch' id}, came (.batch batch) → came (.batch batch') →
    id ∈ txnIds batch → id ∈ txnIds batch' → batch = batch'

/-- What an arrival needs it names. -/
theorem mem_names_of_needs {need : Need} (needs : Needs arrival need) : need ∈ names arrival := by
  cases arrival with
  | batch batch =>
    cases need with
    | transaction id =>
      exact List.mem_cons_of_mem _ (List.mem_append_right _ (List.mem_map_of_mem needs))
    | batch id => exact needs.elim
    | block id => exact needs.elim
  | block block =>
    cases need with
    | transaction id => exact needs.elim
    | batch id =>
      exact List.mem_cons_of_mem _ (List.mem_cons_of_mem _ (List.mem_map_of_mem needs.1))
    | block id =>
      obtain rfl : id = block.previousBlockId := needs
      exact List.mem_cons_of_mem _ List.mem_cons_self

/-- What an arrival gives it names. -/
theorem mem_names_of_gives {need : Need} (gives : Gives arrival need) : need ∈ names arrival := by
  cases arrival with
  | batch batch =>
    cases need with
    | transaction id =>
      exact List.mem_cons_of_mem _ (List.mem_append_left _ (List.mem_map_of_mem gives))
    | batch id =>
      obtain rfl : id = batch.headerSignature := gives
      exact List.mem_cons_self
    | block id => exact gives.elim
  | block block =>
    cases need with
    | transaction id => exact gives.elim
    | batch id => exact gives.elim
    | block id =>
      obtain rfl : id = block.headerSignature := gives
      exact List.mem_cons_self

/-! ## What is held -/

/-- The completer holds something. -/
def Held (chain : ChainView) (completer : Completer) : Need → Prop
  | .transaction id => id ∈ completer.seenTxns
  | .batch id => id ∈ completer.batchCache
  | .block id => completer.cached chain id

/-- What is held is there. -/
theorem Held.has {need : Need} (held : completer.Held chain need) : completer.Has chain need := by
  cases need with
  | transaction => exact .inl held
  | batch => exact held
  | block => exact .inl held

/-- An arrival as something that is needed. -/
def own : Arrival → Need
  | .batch batch => .batch batch.headerSignature
  | .block block => .block block.headerSignature

/-- An arrival is handed on, or something in its place. -/
def Done (chain : ChainView) (completer : Completer) (arrival : Arrival) : Prop :=
  completer.Held chain (own arrival)

/-- The block cache after a block is handed on. -/
theorem held_deliverBlock {block : GossipBlock} {need : Need} :
    (completer.deliverBlock block).Held chain need ↔
      completer.Held chain need ∨ need = .block block.headerSignature := by
  cases need with
  | transaction id => simp [Held, deliverBlock, send]
  | batch id => simp [Held, deliverBlock, send]
  | block id =>
    simp only [Held, cached, deliverBlock, send, Bool.or_eq_true, decide_eq_true_eq,
      AList.mem_insert, Need.block.injEq]
    tauto

/-- The caches after a batch is handed on. -/
theorem held_deliverBatch {batch : Batch} {need : Need} :
    (completer.deliverBatch batch).Held chain need ↔
      completer.Held chain need ∨ Gives (.batch batch) need := by
  cases need with
  | transaction id => exact mem_seenTxns_deliverBatch
  | batch id =>
    simp only [Held, Gives, deliverBatch, send, addSeenTxns, AList.mem_insert]
    tauto
  | block id => exact (or_false _).to_iff.symm

/-- What the chain knows apart from what it stores. -/
def Known (chain : ChainView) : Need → Prop
  | .transaction id => chain.hasTransaction id
  | .batch _ => False
  | .block id => chain.hasBlock id

/-- The completer has what it holds and what the chain knows. -/
theorem has_iff {need : Need} :
    completer.Has chain need ↔ completer.Held chain need ∨ Known chain need := by
  cases need with
  | transaction => exact Iff.rfl
  | batch => exact (or_false _).to_iff.symm
  | block => exact Iff.rfl

/-- What is held stays. -/
theorem Kept.held {need : Need} (kept : Kept came before after) :
    after.Held chain need ↔ before.Held chain need := by
  cases need with
  | transaction => rw [Held, Held, kept.seenTxns]
  | batch => rw [Held, Held, kept.batchCache]
  | block => rw [Held, Held, cached, cached, kept.blockCache]

/-- What is held stays. -/
theorem Moves.held {need : Need} (moves : Moves chain came before after)
    (held : before.Held chain need) : after.Held chain need := by
  induction moves with
  | refl => exact held
  | tail _ move ih =>
    cases move with
    | keep kept => exact kept.held.mpr ih
    | block => exact held_deliverBlock.mpr (.inl ih)
    | batch => exact held_deliverBatch.mpr (.inl ih)

/-- What can be had from what has come. -/
abbrev Had (chain : ChainView) (came : Arrival → Prop) : Need → Prop :=
  Available (fun arrival => came arrival ∧ WellFormed arrival) Needs Gives (Base chain)

/-- What a message hands on. -/
def Sent.handsOn : Sent → Option Need
  | .block block => some (.block block.headerSignature)
  | .batch batch => some (.batch batch.headerSignature)
  | .blockRequest _ | .batchRequest _ | .transactionsRequest _ => none

/-- What is held has come and can be had; it is what was sent, and nothing was sent twice. -/
structure Sound (chain : ChainView) (came : Arrival → Prop) (completer : Completer) : Prop where
  waits : completer.Waits came
  batch : ∀ {id batch}, completer.batchCache.lookup id = some batch →
    came (.batch batch) ∧ ∀ need, Needs (.batch batch) need → Had chain came need
  seen : ∀ {id}, id ∈ completer.seenTxns → ∃ batch,
    completer.batchCache.lookup batch.headerSignature = some batch ∧ id ∈ txnIds batch
  txns : ∀ {id batch}, completer.batchCache.lookup id = some batch →
    ∀ key ∈ txnIds batch, key ∈ completer.seenTxns
  block : ∀ {id}, id ∈ completer.blockCache → id ≠ nullBlockIdentifier → ¬chain.stored id ∧
    ∃ block, came (.block block) ∧ block.headerSignature = id ∧ WellFormed (.block block) ∧
      ∀ need, Needs (.block block) need → Had chain came need
  null : nullBlockIdentifier ∈ completer.blockCache
  sentBatch : ∀ {batch}, .batch batch ∈ completer.sent ↔
    completer.batchCache.lookup batch.headerSignature = some batch
  sentBlock : ∀ {id}, SentIn completer.sent (.block id) ↔
    id ∈ completer.blockCache ∧ id ≠ nullBlockIdentifier
  once : (completer.sent.filterMap Sent.handsOn).Nodup

/-- What the completer has can be had. -/
theorem Sound.had {need : Need} (sound : completer.Sound chain came)
    (has : completer.Has chain need) : Had chain came need := by
  cases need with
  | transaction id =>
    rcases has with seen | has
    · obtain ⟨batch, found, own⟩ := sound.seen seen
      obtain ⟨listed, supplied⟩ := sound.batch found
      exact .given ⟨listed, trivial⟩ supplied own
    · exact .base has
  | batch id =>
    obtain ⟨batch, found⟩ := Option.isSome_iff_exists.mp (AList.lookup_isSome.mpr has)
    obtain ⟨listed, supplied⟩ := sound.batch found
    exact .given ⟨listed, trivial⟩ supplied (sound.waits.keyed found).symm
  | block id =>
    rcases has with found | has
    · rw [cached, Bool.or_eq_true, decide_eq_true_eq] at found
      rcases found with listed | stored
      · by_cases null : id = nullBlockIdentifier
        · exact .base (.inl null)
        · obtain ⟨-, block, listed, named, wellFormed, supplied⟩ := sound.block listed null
          exact .given ⟨listed, wellFormed⟩ supplied named.symm
      · exact .base (.inr (.inl stored))
    · exact .base (.inr (.inr has))

/-- Requests hand on nothing. -/
theorem filterMap_handsOn {requests : List Sent} (asks : ∀ message ∈ requests, message.IsRequest) :
    requests.filterMap Sent.handsOn = [] := by
  refine List.filterMap_eq_nil_iff.mpr fun message listed => ?_
  have ask := asks message listed
  cases message with
  | block | batch => exact ask.elim
  | blockRequest | batchRequest | transactionsRequest => rfl

/-- Every change keeps what is held sound. -/
theorem Move.sound (move : Move chain came before after) (sound : before.Sound chain came) :
    after.Sound chain came := by
  have waits := Moves.waits (.single move) sound.waits
  cases move with
  | keep kept =>
    obtain ⟨requests, sent, asks⟩ := kept.sent
    refine ⟨waits, ?_, ?_, ?_, ?_, ?_, ?_, ?_, ?_⟩
    · rw [kept.batchCache]
      exact sound.batch
    · rw [kept.batchCache, kept.seenTxns]
      exact sound.seen
    · rw [kept.batchCache, kept.seenTxns]
      exact sound.txns
    · rw [kept.blockCache]
      exact sound.block
    · rw [kept.blockCache]
      exact sound.null
    · intro batch
      rw [kept.batchCache, sent, List.mem_append,
        or_iff_left fun listed => asks (.batch batch) listed]
      exact sound.sentBatch
    · intro id
      rw [kept.blockCache, ← sound.sentBlock, SentIn, SentIn, sent]
      refine exists_congr fun block => and_congr_left fun _ => ?_
      rw [List.mem_append, or_iff_left fun listed => asks (.block block) listed]
    · rw [sent, List.filterMap_append, filterMap_handsOn asks, List.append_nil]
      exact sound.once
  | @block block batches listed completes =>
    have fresh : block.headerSignature ∉ before.blockCache ∧
        ¬chain.stored block.headerSignature := by
      have fresh := completes.fresh
      rw [cached, Bool.or_eq_true, decide_eq_true_eq] at fresh
      tauto
    have named : block.headerSignature ≠ nullBlockIdentifier := fun same =>
      fresh.1 (same ▸ sound.null)
    refine ⟨waits, sound.batch, sound.seen, sound.txns, fun {id} member other => ?_,
      (AList.mem_insert _).mpr (.inr sound.null), fun {batch} => ?_, fun {id} => ?_, ?_⟩
    · rcases (AList.mem_insert _).mp member with rfl | earlier
      · exact ⟨fresh.2, block, listed, rfl, completes.wellFormed,
          fun need needed => sound.had (completes.supplied need needed)⟩
      · exact sound.block earlier other
    · have earlier := @Sound.sentBatch _ _ _ sound batch
      simpa [deliverBlock, send] using earlier
    · have earlier := @Sound.sentBlock _ _ _ sound id
      simp only [SentIn, deliverBlock, send, List.mem_append, List.mem_singleton, AList.mem_insert]
        at earlier ⊢
      constructor
      · rintro ⟨other, member | same, rfl⟩
        · have found := earlier.mp ⟨other, member, rfl⟩
          exact ⟨.inr found.1, found.2⟩
        · obtain rfl := Sent.block.inj same
          exact ⟨.inl rfl, named⟩
      · rintro ⟨rfl | member, other⟩
        · exact ⟨_, .inr rfl, rfl⟩
        · obtain ⟨other', found, same⟩ := earlier.mpr ⟨member, other⟩
          exact ⟨other', .inl found, same⟩
    · rw [deliverBlock, send, List.filterMap_append, List.nodup_append]
      refine ⟨sound.once, List.nodup_singleton _, fun need found other found' same => ?_⟩
      obtain rfl : other = .block block.headerSignature := List.mem_singleton.mp found'
      subst same
      obtain ⟨message, sent, hands⟩ := List.mem_filterMap.mp found
      cases message with
      | block other =>
        have same : other.headerSignature = block.headerSignature := by
          simpa [Sent.handsOn] using hands
        exact fresh.1 (sound.sentBlock.mp ⟨other, sent, same⟩).1
      | batch => exact absurd hands (by simp [Sent.handsOn])
      | blockRequest | batchRequest | transactionsRequest => cases hands
  | @batch batch listed fresh supplied =>
    have lookup : ∀ {id other}, (before.deliverBatch batch).batchCache.lookup id = some other →
        other = batch ∧ id = batch.headerSignature ∨ before.batchCache.lookup id = some other := by
      intro id other found
      by_cases same : id = batch.headerSignature
      · subst same
        rw [deliverBatch, send, addSeenTxns, AList.lookup_insert, Option.some_inj] at found
        exact .inl ⟨found.symm, rfl⟩
      · rw [deliverBatch, send, addSeenTxns, AList.lookup_insert_ne same] at found
        exact .inr found
    have earlier : ∀ {id other}, before.batchCache.lookup id = some other →
        (before.deliverBatch batch).batchCache.lookup id = some other := by
      intro id other found
      have differs : id ≠ batch.headerSignature := fun same =>
        fresh (AList.lookup_isSome.mp (by rw [← same, found]; rfl))
      rwa [deliverBatch, send, addSeenTxns, AList.lookup_insert_ne differs]
    have own : (before.deliverBatch batch).batchCache.lookup batch.headerSignature = some batch :=
      AList.lookup_insert _
    refine ⟨waits, fun found => ?_, fun {id} seen => ?_, fun found key member => ?_, sound.block,
      sound.null, fun {other} => ?_, fun {id} => ?_, ?_⟩
    · rcases lookup found with ⟨rfl, -⟩ | found
      · exact ⟨listed, fun need needed => sound.had (supplied need needed)⟩
      · exact sound.batch found
    · rcases mem_seenTxns_deliverBatch.mp seen with before | member
      · obtain ⟨other, found, member⟩ := sound.seen before
        exact ⟨other, earlier found, member⟩
      · exact ⟨batch, own, member⟩
    · refine mem_seenTxns_deliverBatch.mpr ?_
      rcases lookup found with ⟨rfl, -⟩ | found
      · exact .inr member
      · exact .inl (sound.txns found key member)
    · rw [deliverBatch, send, List.mem_append, List.mem_singleton]
      constructor
      · rintro (sent | same)
        · exact earlier (sound.sentBatch.mp sent)
        · rw [Sent.batch.inj same]
          exact own
      · intro found
        rcases lookup found with ⟨rfl, -⟩ | found
        · exact .inr rfl
        · exact .inl (sound.sentBatch.mpr found)
    · have before := @Sound.sentBlock _ _ _ sound id
      simpa [SentIn, deliverBatch, send, addSeenTxns] using before
    · rw [deliverBatch, send, List.filterMap_append, List.nodup_append]
      refine ⟨sound.once, List.nodup_singleton _, fun need found other found' same => ?_⟩
      obtain rfl : other = .batch batch.headerSignature := List.mem_singleton.mp found'
      subst same
      obtain ⟨message, sent, hands⟩ := List.mem_filterMap.mp found
      cases message with
      | batch other =>
        have same : other.headerSignature = batch.headerSignature := by
          simpa [Sent.handsOn] using hands
        have known := sound.sentBatch.mp sent
        rw [same] at known
        exact fresh (AList.lookup_isSome.mp (by rw [known]; rfl))
      | block other => exact absurd hands (by simp [Sent.handsOn])
      | blockRequest | batchRequest | transactionsRequest => cases hands

/-- All changes keep what is held sound. -/
theorem Moves.sound (moves : Moves chain came before after) (sound : before.Sound chain came) :
    after.Sound chain came := by
  induction moves with
  | refl => exact sound
  | tail _ move ih => exact move.sound ih

/-! ## What waits -/

/-- Every arrival, but for excused ones, is done or malformed or waits for something that it needs:
for one of some keys, or for what is not there and is requested. -/
def Tends (chain : ChainView) (came : Arrival → Prop) (completer : Completer) (keys : Need → Prop)
    (excused : Arrival → Prop) : Prop :=
  ∀ arrival, came arrival → ¬completer.Done chain arrival → WellFormed arrival →
    ¬excused arrival → ∃ need, Needs arrival need ∧ completer.On arrival need.id ∧
      (keys need ∨ ¬completer.Has chain need ∧ need.id ∈ completer.requested)

/-- More keys and more excuses. -/
theorem Tends.mono (tends : Tends chain came completer keys excused)
    (more : ∀ need, keys need → keys' need)
    (more' : ∀ arrival, excused arrival → excused' arrival) :
    Tends chain came completer keys' excused' := by
  intro arrival listed undone wellFormed unexcused
  obtain ⟨need, needs, waiting, known⟩ :=
    tends arrival listed undone wellFormed fun is => unexcused (more' arrival is)
  exact ⟨need, needs, waiting, known.imp_left (more need)⟩

/-- What is done needs no excuse. -/
theorem Tends.done
    (tends : Tends chain came completer keys fun other => excused other ∨ other = arrival)
    (done : completer.Done chain arrival ∨ ¬WellFormed arrival) :
    Tends chain came completer keys excused := by
  intro other listed undone wellFormed unexcused
  refine tends other listed undone wellFormed fun either => ?_
  rcases either with is | rfl
  · exact unexcused is
  · exact done.elim undone fun malformed => malformed wellFormed

/-- An arrival that waits for what it lacks needs no excuse. -/
theorem Tends.waited
    (tends : Tends chain came before keys fun other => excused other ∨ other = arrival)
    (waited : Waited arrival before after)
    (outcome : before.Done chain arrival ∨ ¬WellFormed arrival ∨ ∃ key, after.On arrival key ∧
      key ∈ after.requested ∧ Lacks chain before arrival key) :
    Tends chain came after keys excused := by
  have held : ∀ need, after.Held chain need ↔ before.Held chain need := fun need =>
    (@Waited.kept (fun _ => True) before after arrival waited trivial).held
  have has : ∀ need, after.Has chain need ↔ before.Has chain need := fun need => by
    rw [has_iff, has_iff, held]
  have done : ∀ other, after.Done chain other ↔ before.Done chain other := fun other => held _
  intro other listed undone wellFormed unexcused
  by_cases own : other = arrival
  · subst own
    rcases outcome with is | malformed | ⟨key, waiting, known, need, needs, rfl, lacks⟩
    · exact absurd ((done other).mpr is) undone
    · exact absurd wellFormed malformed
    · exact ⟨need, needs, waiting, .inr ⟨fun is => lacks ((has need).mp is), known⟩⟩
  · obtain ⟨need, needs, waiting, known⟩ := tends other listed
      (fun is => undone ((done other).mpr is)) wellFormed
      fun either => either.elim unexcused own
    exact ⟨need, needs, waited.more waiting, known.imp_right fun lacks =>
      ⟨fun is => lacks.1 ((has need).mp is), waited.requested lacks.2⟩⟩

/-- When something is handed on, what waits for it waits for a key. -/
theorem Tends.handedOn {given : Arrival}
    (tends : Tends chain came before keys excused)
    (on : ∀ {other key}, before.On other key → after.On other key)
    (held : ∀ need, after.Held chain need ↔ before.Held chain need ∨ Gives given need)
    (requested : ∀ need, ¬Gives given need → ∀ other, came other → Needs other need →
      need.id ∈ before.requested → need.id ∈ after.requested) :
    Tends chain came after (fun need => keys need ∨ Gives given need) excused := by
  intro other listed undone wellFormed unexcused
  have undone' : ¬before.Done chain other := fun done => undone ((held _).mpr (.inl done))
  obtain ⟨need, needs, waiting, known⟩ := tends other listed undone' wellFormed unexcused
  refine ⟨need, needs, on waiting, ?_⟩
  by_cases gives : Gives given need
  · exact .inl (.inr gives)
  · refine known.imp Or.inl fun lacks => ⟨fun has => ?_, ?_⟩
    · rw [has_iff, held, or_iff_left gives, ← has_iff] at has
      exact lacks.1 has
    · exact requested need gives other listed needs lacks.2

/-- What is there need not be requested. -/
theorem Tends.unrequest {need : Need} {other : Arrival} (signed : Signed came)
    (tends : Tends chain came completer keys excused) (listed : came other)
    (named : need ∈ names other) (has : completer.Has chain need) :
    Tends chain came (completer.unrequest need.id) keys excused := by
  intro arrival listed' undone wellFormed unexcused
  obtain ⟨need', needs, waiting, known⟩ := tends arrival listed' (fun done => undone (by
    cases arrival <;> exact done)) wellFormed unexcused
  refine ⟨need', needs, by cases arrival <;> exact waiting, known.imp_right fun lacks => ?_⟩
  have differs : need'.id ≠ need.id := fun same => by
    rw [signed.kind listed' listed need' (mem_names_of_needs needs) need named same] at lacks
    exact lacks.1 has
  exact ⟨lacks.1, Finset.mem_erase.mpr ⟨differs, lacks.2⟩⟩

/-! ## Blocks -/

/-- What `add_batch` does with a batch below the recursion limit: it returns, and what waited for
something that is held now is looked at again. -/
def Tending (chain : ChainView) (came : Arrival → Prop) (height : Batch → Nat) (limit : Nat)
    (add : Completer → Batch → Except Completer Completer) : Prop :=
  ∀ completer batch keys excused, completer.Sound chain came → came (.batch batch) →
    height batch < limit → (∀ need, keys need → ∃ id, need = .transaction id) →
      Tends chain came completer keys (fun other => excused other ∨ other = .batch batch) →
        ∃ after, add completer batch = .ok after ∧ Moves chain came completer after ∧
          Tends chain came after keys excused ∧ ∀ key ∈ completer.incompleteBatches,
            key ∈ completer.seenTxns → key ∈ after.incompleteBatches

variable {height : Batch → Nat} {limit : Nat} {add : Completer → Batch → Except Completer Completer}

/-- Batches that waited are added again. -/
theorem Tending.foldlM {batches : List Batch} (tending : Tending chain came height limit add)
    (sound : completer.Sound chain came) (listed : ∀ batch ∈ batches, came (.batch batch))
    (low : ∀ batch ∈ batches, height batch < limit)
    (ambient : ∀ need, keys need → ∃ id, need = .transaction id)
    (tends : Tends chain came completer keys fun other =>
      excused other ∨ ∃ batch ∈ batches, other = .batch batch) :
    ∃ after, batches.foldlM add completer = .ok after ∧ Moves chain came completer after ∧
      Tends chain came after keys excused ∧ ∀ key ∈ completer.incompleteBatches,
        key ∈ completer.seenTxns → key ∈ after.incompleteBatches := by
  induction batches generalizing completer with
  | nil =>
    exact ⟨completer, rfl, .refl, tends.mono (fun _ => id) fun other either =>
      either.elim id (by simp), fun _ waiting _ => waiting⟩
  | cons batch rest ih =>
    rw [List.forall_mem_cons] at listed low
    obtain ⟨middle, added, moves, tends, kept⟩ := tending completer batch keys
      (fun other => excused other ∨ ∃ batch ∈ rest, other = .batch batch) sound listed.1 low.1
      ambient (tends.mono (fun _ => id) fun other either => by
        rw [List.exists_mem_cons_iff] at either
        rcases either with is | own | later
        · exact .inl (.inl is)
        · exact .inr own
        · exact .inl (.inr later))
    obtain ⟨after, rest', moves', tends', kept'⟩ := ih (Moves.sound moves sound) listed.2
      low.2 tends
    refine ⟨after, ?_, moves.trans moves', tends', fun key waiting seen => ?_⟩
    · rw [List.foldlM_cons, added]
      exact rest'
    · exact kept' key (kept key waiting seen)
        (@Moves.held chain came completer middle (.transaction key) moves seen)

/-- After the batches are added again that wait for a transaction that is seen, nothing waits for
it. -/
theorem Tending.processTxn {key : Text} {own : Batch}
    (tending : Tending chain came height limit add)
    (signed : Signed came) (sound : completer.Sound chain came) (listed : came (.batch own))
    (member : key ∈ txnIds own) (seen : key ∈ completer.seenTxns)
    (low : ∀ batch, came (.batch batch) → key ∈ dependenciesOf batch → height batch < limit)
    (ambient : ∀ need, keys need → ∃ id, need = .transaction id)
    (tends : Tends chain came completer (fun need => keys need ∨ need = .transaction key) excused) :
    ∃ after, processTxn add completer key = .ok after ∧ Moves chain came completer after ∧
      Tends chain came after keys excused ∧ ∀ key' ∈ completer.incompleteBatches,
        key' ∈ completer.seenTxns → key' ≠ key → key' ∈ after.incompleteBatches := by
  have named : Need.transaction key ∈ names (.batch own) :=
    List.mem_cons_of_mem _ (List.mem_append_left _ (List.mem_map_of_mem member))
  rw [Completer.processTxn]
  split
  case isFalse absent =>
    refine ⟨completer, rfl, .refl, ?_, fun _ waiting _ _ => waiting⟩
    intro other came' undone wellFormed unexcused
    obtain ⟨need, needs, on, known⟩ := tends other came' undone wellFormed unexcused
    refine ⟨need, needs, on, known.imp_left fun either => either.resolve_right ?_⟩
    rintro rfl
    cases other with
    | block block => exact needs
    | batch batch =>
      have on : batch ∈ completer.batchesOn key := on
      rw [batchesOn, AList.lookup_eq_none.mpr absent] at on
      exact List.not_mem_nil on
  case isTrue present =>
    obtain ⟨batches, found⟩ := Option.isSome_iff_exists.mp (AList.lookup_isSome.mpr present)
    have waiting : ∀ batch ∈ batches, completer.On (.batch batch) key := fun batch listed => by
      rwa [On, batchesOn, found]
    -- Apart from those to be added again, nothing waits for the key alone.
    have apart : Tends chain came (completer.unrequest key)
        (fun need => keys need ∧ need ≠ .transaction key)
        fun other => excused other ∨ ∃ batch ∈ batches, other = .batch batch := by
      intro other came' undone wellFormed unexcused
      obtain ⟨need, needs, on, known⟩ := tends.unrequest signed listed named (.inl seen) other came'
        undone wellFormed fun is => unexcused (.inl is)
      refine ⟨need, needs, on, known.imp_left fun either => ?_⟩
      have differs : need ≠ .transaction key := by
        rintro rfl
        cases other with
        | block block => exact needs
        | batch batch =>
          refine unexcused (.inr ⟨batch, ?_, rfl⟩)
          have on : batch ∈ completer.batchesOn key := on
          rwa [batchesOn, found] at on
      exact ⟨either.resolve_right differs, differs⟩
    have unrequested : Moves chain came completer (completer.unrequest key) :=
      .single (.keep (.requests _))
    have wanted : ∀ batch ∈ batches, came (.batch batch) ∧ key ∈ dependenciesOf batch := by
      intro batch member
      obtain ⟨came', need, needs, same⟩ := sound.waits.came (waiting batch member)
      obtain rfl :=
        signed.kind came' listed need (mem_names_of_needs needs) (.transaction key) named same
      exact ⟨came', needs⟩
    obtain ⟨added, looped, moves, tends', kept⟩ := tending.foldlM
      (Moves.sound unrequested sound) (fun batch member => (wanted batch member).1)
      (fun batch member => low batch (wanted batch member).1 (wanted batch member).2)
      (fun need is => ambient need is.1) apart
    refine ⟨{ added with incompleteBatches := added.incompleteBatches.erase key }, ?_,
      (unrequested.trans moves).tail (.keep (.eraseBatches key)), ?_, ?_⟩
    · rw [processIncompleteBatches]
      have found : (completer.unrequest key).incompleteBatches.lookup key = some batches := found
      rw [found]
      dsimp only
      rw [looped]
      exact if_pos (kept key present seen)
    · intro other came' undone wellFormed unexcused
      obtain ⟨need, needs, on, known⟩ := tends' other came' (fun is => undone (by
        cases other <;> exact is)) wellFormed unexcused
      refine ⟨need, needs, on_eraseBatches.mpr ⟨on, ?_⟩, ?_⟩
      · cases other with
        | block block => exact .inr ⟨block, rfl⟩
        | batch batch =>
          refine .inl fun same => ?_
          obtain rfl := signed.kind came' listed need (mem_names_of_needs needs)
            (.transaction key) named same
          rcases known with ⟨-, differs⟩ | ⟨lacks, -⟩
          · exact differs rfl
          · exact lacks (.inl (@Moves.held chain came completer added (.transaction key)
              (unrequested.trans moves) seen))
      · refine known.imp And.left fun lacks => ⟨fun has => lacks.1 ?_, lacks.2⟩
        rw [has_iff] at has ⊢
        exact has.imp_left fun is => by cases need <;> exact is
    · intro key' waiting' seen' differs
      exact (AList.mem_erase).mpr ⟨differs, kept key' waiting' seen'⟩

/-- The completer after some arrivals. -/
def addAll (chain : ChainView) (limit : Nat) (completer : Completer) (arrivals : List Arrival) :
    Except Completer Completer :=
  arrivals.foldlM (fun completer => completer.add chain limit) completer

/-- The first completer is sound. -/
theorem sound_init : init.Sound chain came := by
  have null : ∀ id, id ∈ init.blockCache ↔ id = nullBlockIdentifier := fun id => by
    rw [init, AList.mem_insert]
    exact or_iff_left (AList.notMem_empty _)
  refine ⟨⟨fun found => ?_, fun {arrival key} waiting => ?_⟩, fun found => ?_, fun seen => ?_,
    fun found => ?_, fun member other => absurd ((null _).mp member) other, (null _).mpr rfl,
    ⟨fun sent => ?_, fun found => ?_⟩, fun {id} => ?_, List.nodup_nil⟩
  · cases found
  · cases arrival <;> exact absurd waiting List.not_mem_nil
  · cases found
  · exact absurd seen (AList.notMem_empty _)
  · cases found
  · exact absurd sent List.not_mem_nil
  · cases found
  · rw [null]
    exact ⟨fun sent => sent.elim fun _ found => absurd found.1 List.not_mem_nil,
      fun impossible => absurd impossible.1 impossible.2⟩

/-- An arrival that has what it needs is handed on. -/
theorem Tends.handsOn (tends : Tends chain came completer (fun _ => False) fun _ => False)
    (listed : came arrival) (wellFormed : WellFormed arrival)
    (supplied : ∀ need, Needs arrival need → completer.Has chain need) :
    completer.Done chain arrival := by
  by_contra undone
  obtain ⟨need, needs, -, impossible | lacks⟩ := tends arrival listed undone wellFormed id
  · exact impossible
  · exact lacks.1 (supplied need needs)

/-- A batch of a signature that is held is held. -/
theorem Sound.lookup {batch : Batch} (sound : completer.Sound chain came) (signed : Signed came)
    (listed : came (.batch batch)) (held : batch.headerSignature ∈ completer.batchCache) :
    completer.batchCache.lookup batch.headerSignature = some batch := by
  obtain ⟨other, found⟩ := Option.isSome_iff_exists.mp (AList.lookup_isSome.mpr held)
  rw [found, signed.batch listed (sound.batch found).1 (sound.waits.keyed found).symm]

end Creditcoin.Validator.Completer
