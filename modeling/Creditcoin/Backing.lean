import Creditcoin.Parties

/-!
# What backs a deal

A deal is made of an offer, which names two orders. All three are deleted then, and none comes back:
orders are placed under keys of nonces, and an offer needs its orders. So an order backs one deal at
most, whatever number of offers name it, and no deal is made twice.
-/

namespace Creditcoin

open Lib

/-- A property of the steps of a run holds once at most. -/
def OnceIn (steps : List ChainStep) (holds : ChainStep → Prop) : Prop :=
  ∀ earlier taken later, steps = earlier ++ taken :: later → holds taken →
    ∀ other ∈ earlier, ¬ holds other

/-- A step makes a deal of an offer that names an order. -/
def Backs (sha : Sha512) (orderId : Text) (taken : ChainStep) : Prop :=
  ∃ env signer offerId expiration, Succeeds sha taken env signer (.addDealOrder offerId expiration) ∧
    ((offerAt taken.before.context offerId).askOrder = orderId ∨
      (offerAt taken.before.context offerId).bidOrder = orderId)

/-- A step makes the deal order of a key. -/
def Makes (sha : Sha512) (dealOrderId : Text) (taken : ChainStep) : Prop :=
  ∃ env signer offerId expiration, Succeeds sha taken env signer (.addDealOrder offerId expiration) ∧
    sha.makeAddress .dealOrder offerId = dealOrderId

/-- Every order of a run backs one deal at most, and every deal is made once. -/
structure BacksOnce (sha : Sha512) (steps : List ChainStep) : Prop where
  /-- An order backs one deal. -/
  orders : ∀ orderId, sha.IsOrder orderId → OnceIn steps (Backs sha orderId)
  /-- A deal is made once. -/
  deals : ∀ dealOrderId, OnceIn steps (Makes sha dealOrderId)

/-- What has backed a deal is gone for good. -/
structure Backed (sha : Sha512) (steps : List ChainStep) (state : State) : Prop where
  /-- Orders are placed under keys of nonces. -/
  placed : ∀ key, sha.IsOrder key → state.get key ≠ [] → Placed sha steps key
  /-- Offers are made of orders that were placed. -/
  offered : ∀ key, sha.kindOf key = some .offer → state.get key ≠ [] →
    Offered sha steps key (offerAt state key).askOrder (offerAt state key).bidOrder
  /-- An order that backed a deal is gone. -/
  gone : ∀ taken ∈ steps, ∀ orderId, sha.IsOrder orderId → Backs sha orderId taken →
    state.get orderId = [] ∧ Placed sha steps orderId
  /-- The orders of a deal have backed it. -/
  dealt : ∀ offerId, Dealt sha steps offerId → ∃ askOrderId bidOrderId,
    Offered sha steps offerId askOrderId bidOrderId ∧ ∃ taken ∈ steps, Backs sha bidOrderId taken

section Backing

variable {sha : Sha512} {env : Env} {signer : Text} {state after : State} {command : Command}
  {key : Text} {tip : UInt64} {steps later : List ChainStep} {chain : Chain} {taken : ChainStep}

/-- An order is under a key of a nonce. -/
theorem Executed.backed_placed (around : Surroundings sha env signer state command)
    (executed : Executed sha env signer state command after)
    (grows : Grows sha steps later env command) (backed : Backed sha steps state)
    (isOrder : sha.IsOrder key) (remains : after.get key ≠ []) : Placed sha later key := by
  rcases executed.order_after around isOrder remains with same | ⟨⟨kind, rfl⟩, _⟩
  · exact (backed.placed key isOrder (same ▸ remains)).mono grows.within
  · exact grows.placed kind

/-- An offer is made of orders that were placed. -/
theorem Executed.backed_offered (around : Surroundings sha env signer state command)
    (executed : Executed sha env signer state command after)
    (grows : Grows sha steps later env command) (backed : Backed sha steps state)
    (found : sha.kindOf key = some .offer) (remains : after.get key ≠ []) :
    Offered sha later key (offerAt after key).askOrder (offerAt after key).bidOrder := by
  rcases executed.offer_after around found remains with
    same | ⟨askOrderId, bidOrderId, _, rfl, made, ask, bid, askPresent, bidPresent, _⟩
  · rw [offerAt, same]
    exact (backed.offered key found (same ▸ remains)).mono grows.within
  · have shapes := executed.kept around.kept around.live around.isId around.lists around.named
    have content : OfferContent sha (offerAt after key) := shapes.content remains found
    have askOrder : sha.IsOrder askOrderId := ask ▸ content.ask
    have bidOrder : sha.IsOrder bidOrderId := bid ▸ content.bid
    have length : askOrderId.length = 70 := by
      rcases askOrder with kind | kind
      · exact around.kept.key_length askPresent kind (by decide)
      · exact around.kept.key_length askPresent kind (by decide)
    rw [ask, bid]
    exact ⟨made, grows.hashed List.mem_cons_self, length, askOrder, bidOrder,
      (backed.placed _ askOrder askPresent).mono grows.within,
      (backed.placed _ bidOrder bidPresent).mono grows.within⟩

/-- An order that was used stays away. -/
theorem Executed.placed_gone (around : Surroundings sha env signer state command)
    (executed : Executed sha env signer state command after)
    (grows : Grows sha steps later env command) (isOrder : sha.IsOrder key)
    (placed : Placed sha steps key) (gone : state.get key = []) : after.get key = [] := by
  by_contra remains
  exact remains ((executed.order_same around grows isOrder placed remains).trans gone)

/-- `AddDealOrder` names an offer and its orders, and deletes all three. -/
theorem Executed.deals {offerId : Text} {expiration : UInt64}
    (executed : Executed sha env signer state (.addDealOrder offerId expiration) after) :
    state.get offerId ≠ [] ∧ state.get (offerAt state offerId).askOrder ≠ [] ∧
      state.get (offerAt state offerId).bidOrder ≠ [] ∧
      after.get (offerAt state offerId).askOrder = [] ∧
      after.get (offerAt state offerId).bidOrder = [] := by
  cases executed with
  | addDealOrder fresh present unexpired bidPresent bidOwner askPresent feeRead covers =>
    refine ⟨present, askPresent, bidPresent, ?_, ?_⟩
    · simp [Store.get_erase]
    · simp [Store.get_erase]

/-- A step that backs deals with an order deletes the order. -/
theorem Backs.deletes {orderId : Text} (backs : Backs sha orderId taken)
    (step : Chain.Step sha taken.before taken.label taken.after) :
    taken.before.context.get orderId ≠ [] ∧ taken.after.context.get orderId = [] := by
  obtain ⟨env, signer, offerId, expiration, succeeds, names⟩ := backs
  obtain ⟨_, askPresent, bidPresent, askGone, bidGone⟩ := (succeeds.executed step).2.deals
  rcases names with rfl | rfl
  · exact ⟨askPresent, askGone⟩
  · exact ⟨bidPresent, bidGone⟩

/-- A command keeps what has backed a deal away. -/
theorem Executed.backed (succeeds : Succeeds sha taken env signer command)
    (step : Chain.Step sha taken.before taken.label taken.after)
    (around : Surroundings sha env signer taken.before.context command)
    (executed : Executed sha env signer taken.before.context command taken.after.context)
    (grows : Grows sha steps (steps ++ [taken]) env command)
    (backed : Backed sha steps taken.before.context) :
    Backed sha (steps ++ [taken]) taken.after.context := by
  have within : steps ⊆ steps ++ [taken] := grows.within
  have last : taken ∈ steps ++ [taken] := List.mem_append_right _ List.mem_cons_self
  refine ⟨fun key isOrder remains => executed.backed_placed around grows backed isOrder remains,
    fun key found remains => executed.backed_offered around grows backed found remains, ?_, ?_⟩
  · intro other listed orderId isOrder backs
    rcases List.mem_append.mp listed with before | last
    · obtain ⟨gone, placed⟩ := backed.gone other before orderId isOrder backs
      exact ⟨executed.placed_gone around grows isOrder placed gone, placed.mono within⟩
    · obtain rfl := List.mem_singleton.mp last
      obtain ⟨present, gone⟩ := backs.deletes step
      exact ⟨gone, (backed.placed orderId isOrder present).mono within⟩
  · intro offerId dealt
    rcases (grows.dealt offerId).mp dealt with before | ⟨expiration, rfl⟩
    · obtain ⟨askOrderId, bidOrderId, offered, other, listed, backs⟩ := backed.dealt offerId before
      exact ⟨askOrderId, bidOrderId, offered.mono within, other, within listed, backs⟩
    · exact ⟨_, _, (backed.offered offerId around.named executed.deals.1).mono within, taken, last,
        env, signer, offerId, expiration, succeeds, .inr rfl⟩

/-- What has backed a deal stays away in a longer history without a command. -/
theorem Backed.idle (backed : Backed sha steps state)
    (idle : ∀ env signer command, ¬ Succeeds sha taken env signer command) :
    Backed sha (steps ++ [taken]) state := by
  have within : steps ⊆ steps ++ [taken] := List.subset_append_left steps [taken]
  refine ⟨fun key isOrder present => (backed.placed key isOrder present).mono within,
    fun key found present => (backed.offered key found present).mono within, ?_, ?_⟩
  · intro other listed orderId isOrder backs
    rcases List.mem_append.mp listed with before | last
    · exact (backed.gone other before orderId isOrder backs).imp_right fun placed =>
        placed.mono within
    · obtain rfl := List.mem_singleton.mp last
      obtain ⟨_, _, _, _, succeeds, _⟩ := backs
      exact absurd succeeds (idle _ _ _)
  · intro offerId dealt
    rcases dealt_append.mp dealt with before | ⟨_, _, _, succeeds⟩
    · obtain ⟨askOrderId, bidOrderId, offered, other, listed, backs⟩ := backed.dealt offerId before
      exact ⟨askOrderId, bidOrderId, offered.mono within, other, within listed, backs⟩
    · exact absurd succeeds (idle _ _ _)

/-- In a run with distinct nonces what has backed a deal is gone. -/
theorem ChainRun.backed (run : ChainRun sha tip steps chain)
    (guarded : ∀ taken ∈ steps, NamesOffers sha taken) (separate : Separate sha steps) :
    Backed sha steps chain.context := by
  induction run with
  | nil =>
    refine ⟨fun _ _ present => absurd rfl present, fun _ _ present => absurd rfl present,
      fun _ listed => absurd listed List.not_mem_nil, ?_⟩
    rintro offerId ⟨_, listed, _⟩
    exact absurd listed List.not_mem_nil
  | snoc reached next ih =>
    rename_i steps before label after
    have allowed : ∀ taken ∈ steps, NamesOffers sha taken :=
      fun taken listed => guarded taken (List.mem_append_left _ listed)
    have backed := ih allowed separate.start
    cases next.did with
    | executed serves succeeds effect committed tip housekept =>
      have kept := ChainRun.kept reached allowed
      exact effect.backed succeeds next (succeeds.around serves kept (guarded _ (by simp)))
        (separate.grows succeeds serves.live) backed
    | rejected same idle =>
      obtain rfl : after = before := same
      exact backed.idle idle
    | committed committed context housekept idle =>
      change after.context = before.context at context
      rw [context]
      exact backed.idle idle

/-- An offer is made of one pair of orders. -/
theorem Offered.bid_eq {askOrderId bidOrderId askOrderId' bidOrderId' : Text}
    (offered : Offered sha steps key askOrderId bidOrderId)
    (other : Offered sha steps key askOrderId' bidOrderId') (separate : Separate sha steps) :
    bidOrderId = bidOrderId' := by
  have same : askOrderId ++ bidOrderId = askOrderId' ++ bidOrderId' :=
    separate.messages _ offered.hashed _ other.hashed
      (sha.makeAddress_injective (offered.made.symm.trans other.made))
  exact (List.append_inj same (offered.length.trans other.length.symm)).2

/-- In a run with distinct nonces an order backs one deal at most and a deal is made once, when the
deal orders are made of offers. -/
theorem orders_back_once (run : ChainRun sha tip steps chain) (separate : Separate sha steps)
    (guarded : ∀ taken ∈ steps, NamesOffers sha taken) : BacksOnce sha steps := by
  constructor
  · rintro orderId isOrder earlier taken later rfl backs other listed backed
    obtain ⟨reached, step, _⟩ := Run.split run
    have history := ChainRun.backed reached
      (fun other shown => guarded other (List.mem_append_left _ shown)) separate.start
    exact (backs.deletes step).1 (history.gone other listed orderId isOrder backed).1
  · rintro dealOrderId earlier taken later rfl
      ⟨env, signer, offerId, expiration, succeeds, rfl⟩ other listed
      ⟨env', signer', offerId', expiration', succeeds', same⟩
    obtain ⟨reached, step, _⟩ := Run.split run
    have history := ChainRun.backed reached
      (fun other shown => guarded other (List.mem_append_left _ shown)) separate.start
    have shorter : Separate sha (earlier ++ [taken]) :=
      Separate.start (List.append_cons earlier taken later ▸ separate)
    obtain ⟨serves, executed⟩ := succeeds.executed step
    obtain ⟨present, _, bidPresent, _⟩ := executed.deals
    have dealt : Dealt sha earlier offerId' := ⟨other, listed, env', signer', expiration', succeeds'⟩
    have equal : offerId = offerId' :=
      (shorter.grows succeeds serves.live).message _ List.mem_cons_self _ dealt.hashed
        (sha.makeAddress_injective same.symm)
    subst equal
    have named : sha.kindOf offerId = some .offer := guarded taken (by simp) _ _ _ succeeds
    obtain ⟨askOrderId, bidOrderId, offered, backing, shown, backs⟩ := history.dealt offerId dealt
    have bid := offered.bid_eq (history.offered offerId named present) separate.start
    exact bidPresent (bid ▸ (history.gone backing shown bidOrderId offered.bidOrder backs).1)

end Backing

/-! ## Deals of the sample loan -/

/-- The orders of the sample loan back one deal. -/
theorem orders_back_once_sample :
    let reached := ((Chain.empty 2).plays sample sampleNode loanSold).context
    reached.get sampleDeal ≠ [] ∧
      BacksOnce sample ((Chain.empty 2).steps sample sampleNode loanSold) := by
  obtain ⟨-, ⟨present, -⟩, -⟩ := loanSold_run
  exact ⟨present, orders_back_once Chain.steps_run loanSold_separate fun taken listed =>
    (Chain.checks_ordinary loanSold_checks taken listed).1⟩

/-- The digests of the messages that are hashed besides when a deal is made again. -/
def remadeDigests : List (Text × Nat × Nat) :=
  [("ethereum".toList ++
      hexText 70 0x8a1a041000b31e5bd21e78c301ef3f370c36bbcb8822f57960fc2b2518d0a8f1fccb62 ++
      hexText 70 0x8a1a042000693b43b65ee5e1032ca3bfd40520c4f2b39802733018ed6ae7eb13ff1e3e,
      0xa84d2a9333ca9c31271a56cf4929e00f5b0a3e5c9633570b908a4777484fd92f,
      0x015d7cd4296798475077e736a5b36fe08ec68bc8782ba77e96b7bd662168b60d),
    (hexText 70 0x8a1a0410007cd4296798475077e736a5b36fe08ec68bc8782ba77e96b7bd662168b60d,
      0xa6b54192ee99cfb844b3b070ff2a924da0422f3d58685087b79ae99aa4c7c094,
      0x8576b1bb3b5be9b932578de7dad580cd8849fa91ce661cd73eabe939a895f7fe),
    ("ethereum".toList ++
      hexText 70 0x8a1a045000b1bb3b5be9b932578de7dad580cd8849fa91ce661cd73eabe939a895f7fe ++
      hexText 70 0x8a1a0440004430d5ba1e9fd318d3ed8263074e999e2b2e811bc51c5e2dfea4e2f32e58,
      0x27e9f1dd18512abef766b760cdd0a149b4daff8065ec50442e31b9e9a06a31ac,
      0x822cc78cf83ee7b8607b70fcf5a36e9e0bfd3fe0176ac8c4b6b4c6d49cf9687a),
    (hexText 70 0x8a1a041000c78cf83ee7b8607b70fcf5a36e9e0bfd3fe0176ac8c4b6b4c6d49cf9687a,
      0x623bafc38110ba48ab6e8c027b44738adb7d1a67c3996fe9e80715e9bf193efc,
      0x3020b5471be404085331d4e8e92eb91be9195f04238c77f98142d7e1501d452a),
    ("20".toList,
      0xdfa5d1cefd0efdf5f52b765120da72c5706eb1dd113234cfdf31e31f9cd02833,
      0x66f6a8f7230f29ea42d83acfe02743dc2504cda07c30f6e84bf9b1ca35966266)]

/-- The digests of a table, and those of the sample loan for any other message. -/
def remadeDigest (message : Text) : Text :=
  match remadeDigests.find? fun entry => entry.1 == message with
  | some (_, high, low) => hexText 64 high ++ hexText 64 low
  | none => sampleDigest message

/-- A digest has sixty-four bytes. -/
theorem remadeDigest_length (message : Text) : (remadeDigest message).length = 128 := by
  unfold remadeDigest
  split
  · simp [hexText]
  · exact sample.digest_length message

/-- A digest is in hexadecimal digits. -/
theorem remadeDigest_isHex (message : Text) : Text.isHex (remadeDigest message) = true := by
  unfold remadeDigest
  split
  · rw [Text.isHex, List.all_append, Bool.and_eq_true]
    exact ⟨hexText_isHex 64 _, hexText_isHex 64 _⟩
  · exact sample.digest_isHex message

/-- The namespace is that of the sample digests. -/
theorem remadeDigest_namespace : (remadeDigest "CREDITCOIN".toList).take 6 = "8a1a04".toList := by
  decide +kernel

/-- SHA-512 on the messages of the sample loan and of a deal that is made again. -/
def remadeSha : Sha512 where
  digest := remadeDigest
  digest_length := remadeDigest_length
  digest_isHex := remadeDigest_isHex
  digest_namespace := remadeDigest_namespace

/-- The address that names the address of the collector and the transfer of the loan as orders. -/
def lendingAddress : Text :=
  remadeSha.makeAddress .addr ("ethereum".toList ++ sampleAddress "0x3" ++ sampleTransfer "1")

/-- The investor registers an address that names two records. -/
def registerNames (nonce : String) (first second : Text) : Turn :=
  .submit investorKey nonce.toList (call "RegisterAddress"
    [("p1", "ethereum".toList), ("p2", first), ("p3", second)])

/-- The investor makes a deal of an address that names another address and a transfer as its orders,
has the deal order deleted by another such address, and registers what was deleted again. -/
def deletesDeal : List Turn :=
  let made := remadeSha.makeAddress .dealOrder lendingAddress
  let bid := sample.makeAddress .bidOrder "14".toList
  dealMade ++ [registerNames "12" (sampleAddress "0x3") (sampleTransfer "1"),
    request investorKey "13" "AddDealOrder" lendingAddress "100".toList,
    order investorKey "14" "AddBidOrder" "0x1", registerNames "15" made bid,
    request investorKey "16" "AddDealOrder"
      (remadeSha.makeAddress .addr ("ethereum".toList ++ made ++ bid)) "100".toList,
    register collectorKey "17" "0x3", transfer investorKey "18" "0" sampleDeal "1",
    registerNames "19" (sampleAddress "0x3") (sampleTransfer "1")]

/-- The investor makes the deal of the address again. -/
def remakesDeal : Turn := request investorKey "20" "AddDealOrder" lendingAddress "100".toList

/-- The investor makes a deal of the address. -/
def makesDeal : Turn := request investorKey "13" "AddDealOrder" lendingAddress "100".toList

/-- The chain before the deal is made. -/
def makingChain : Chain := (Chain.empty 1).plays remadeSha sampleNode (deletesDeal.take 12)

/-- The chain before the deal is made again. -/
def remakingChain : Chain := (Chain.empty 1).plays remadeSha sampleNode deletesDeal

/-- The run of the deal that is made again: both commands are accepted. -/
theorem deletesDeal_run :
    makingChain.accepts remadeSha sampleNode makesDeal =
        some (remadeSha.id investorKey, .addDealOrder lendingAddress 100) ∧
      remakingChain.accepts remadeSha sampleNode remakesDeal =
        some (remadeSha.id investorKey, .addDealOrder lendingAddress 100) ∧
      Turn.differ remadeSha (deletesDeal ++ [remakesDeal]) = true := by
  decide +kernel

/-- A deal can be made twice. -/
theorem deal_made_twice :
    ¬ ∀ (sha : Sha512) (tip : UInt64) (steps : List ChainStep) (chain : Chain),
      ChainRun sha tip steps chain → Separate sha steps → BacksOnce sha steps := by
  intro claim
  obtain ⟨makes, remakes, differ⟩ := deletesDeal_run
  have separate : Separate remadeSha
      ((Chain.empty 1).steps remadeSha sampleNode (deletesDeal ++ [remakesDeal])) :=
    Chain.steps_separate differ
  have earlier : ⟨makingChain, makingChain.event sampleNode makesDeal,
      makingChain.play remadeSha sampleNode makesDeal⟩ ∈
      (Chain.empty 1).steps remadeSha sampleNode deletesDeal := by
    have rest : deletesDeal.drop 12 = makesDeal :: deletesDeal.drop 13 := rfl
    exact Chain.step_mem rest
  have once := claim remadeSha 1 _ _ Chain.steps_run separate
  exact once.deals (remadeSha.makeAddress .dealOrder lendingAddress) _ _ [] Chain.steps_append
    ⟨_, _, _, _, Chain.accepts_succeeds remakes, rfl⟩ _ earlier
    ⟨_, _, _, _, Chain.accepts_succeeds makes, rfl⟩

end Creditcoin
