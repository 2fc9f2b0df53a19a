import Creditcoin.Locks

/-!
# Records that never come back

Orders are kept under keys made of nonces, offers under keys made of their orders and deals
under keys made of their offers. As long as no two nonces are the same and no two of the hashed
messages collide, a key that has lost its record is never written again. So whatever a record
names stays what it was when the record was written, or is gone for good.
-/

namespace Creditcoin

open Lib

/-! ## Hashed messages -/

/-- The messages besides the nonce of which a command makes keys that name records. -/
def Command.hashed : Command → List Text
  | .addOffer askOrderId bidOrderId _ => [askOrderId ++ bidOrderId]
  | .addDealOrder offerId _ => [offerId]
  | _ => []

/-- The messages of which an event makes keys. -/
def Event.hashed : Event → List Text
  | .transaction env payload =>
    env.nonce :: match payload.command with
      | .ok command => command.hashed
      | .error _ => []
  | .commit => []

/-- The messages of which a run makes keys. -/
def hashedIn (steps : List ChainStep) : List Text := steps.flatMap fun taken => taken.label.hashed

/-- No two transactions have the same nonce, and no two messages the same identifier. -/
structure Separate (sha : Sha512) (steps : List ChainStep) : Prop where
  /-- Nonces tell transactions apart. -/
  nonces : DistinctNonces steps
  /-- Identifiers tell messages apart. -/
  messages : ∀ left ∈ hashedIn steps, ∀ right ∈ hashedIn steps, sha.id left = sha.id right →
    left = right

/-- A repayment order of a step is placed for a deal order. -/
def NamesDeals (sha : Sha512) (taken : ChainStep) : Prop :=
  ∀ env signer dealOrderId addressId amount expiration,
    Succeeds sha taken env signer (.addRepaymentOrder dealOrderId addressId amount expiration) →
    sha.kindOf dealOrderId = some .dealOrder

/-! ## Keys that were used -/

/-- A key is made of a nonce of the run. -/
def Placed (sha : Sha512) (steps : List ChainStep) (key : Text) : Prop :=
  ∃ taken ∈ steps, ∃ nonce kind, taken.label.nonce = some nonce ∧ key = sha.makeAddress kind nonce

/-- A deal order was made of an offer. -/
def Dealt (sha : Sha512) (steps : List ChainStep) (offerId : Text) : Prop :=
  ∃ taken ∈ steps, ∃ env signer expiration,
    Succeeds sha taken env signer (.addDealOrder offerId expiration)

/-- A key is made of two orders of the run. -/
structure Offered (sha : Sha512) (steps : List ChainStep) (key askOrderId bidOrderId : Text) :
    Prop where
  /-- The key is made of the keys of the orders. -/
  made : key = sha.makeAddress .offer (askOrderId ++ bidOrderId)
  /-- The keys were hashed. -/
  hashed : askOrderId ++ bidOrderId ∈ hashedIn steps
  /-- The key of the ask order has seventy characters. -/
  length : askOrderId.length = 70
  /-- The ask order is an order. -/
  askOrder : sha.IsOrder askOrderId
  /-- The bid order is an order. -/
  bidOrder : sha.IsOrder bidOrderId
  /-- The ask order was placed. -/
  askPlaced : Placed sha steps askOrderId
  /-- The bid order was placed. -/
  bidPlaced : Placed sha steps bidOrderId

/-- The key of an order, repayment order or deal order that was used. -/
def Spent (sha : Sha512) (steps : List ChainStep) (key : Text) : Prop :=
  (sha.IsOrder key ∨ sha.kindOf key = some .repaymentOrder) ∧ Placed sha steps key ∨
    ∃ offerId, Dealt sha steps offerId ∧ key = sha.makeAddress .dealOrder offerId

/-- A record names an owner, or was deleted for good. -/
def Owned (sha : Sha512) (steps : List ChainStep) (state : State) (addressId owner : Text) : Prop :=
  ownerOf state addressId = owner ∨ state.get addressId = [] ∧ Spent sha steps addressId

/-- How the history grows with a command that succeeds. -/
structure Grows (sha : Sha512) (steps later : List ChainStep) (env : Env) (command : Command) :
    Prop where
  /-- The history stays. -/
  within : steps ⊆ later
  /-- The nonce makes keys that are not there. -/
  nonce : ∀ kind, ¬ Placed sha steps (sha.makeAddress kind env.guid)
  /-- The nonce is used afterwards. -/
  placed : ∀ kind, Placed sha later (sha.makeAddress kind env.guid)
  /-- The messages collide with none before. -/
  message : ∀ left ∈ command.hashed, ∀ right ∈ hashedIn steps, sha.id left = sha.id right →
    left = right
  /-- The messages are hashed afterwards. -/
  hashed : command.hashed ⊆ hashedIn later
  /-- Only `AddDealOrder` makes deals. -/
  dealt : ∀ offerId, Dealt sha later offerId ↔
    Dealt sha steps offerId ∨ ∃ expiration, command = .addDealOrder offerId expiration

section Keys

variable {sha : Sha512} {env : Env} {signer : Text} {state after : State} {command : Command}
  {key : Text} {tip : UInt64} {steps later : List ChainStep} {chain : Chain} {taken : ChainStep}

/-- A longer run makes more keys. -/
theorem hashedIn_mono (within : steps ⊆ later) : hashedIn steps ⊆ hashedIn later := by
  intro message hashed
  obtain ⟨taken, listed, member⟩ := List.mem_flatMap.mp hashed
  exact List.mem_flatMap.mpr ⟨taken, within listed, member⟩

/-- A key that was made stays one. -/
theorem Placed.mono (placed : Placed sha steps key) (within : steps ⊆ later) :
    Placed sha later key := by
  obtain ⟨taken, listed, made⟩ := placed
  exact ⟨taken, within listed, made⟩

/-- A deal that was made stays one. -/
theorem Dealt.mono (dealt : Dealt sha steps key) (within : steps ⊆ later) :
    Dealt sha later key := by
  obtain ⟨taken, listed, made⟩ := dealt
  exact ⟨taken, within listed, made⟩

/-- An offer of two orders stays one. -/
theorem Offered.mono {askOrderId bidOrderId : Text}
    (offered : Offered sha steps key askOrderId bidOrderId) (within : steps ⊆ later) :
    Offered sha later key askOrderId bidOrderId where
  made := offered.made
  hashed := hashedIn_mono within offered.hashed
  length := offered.length
  askOrder := offered.askOrder
  bidOrder := offered.bidOrder
  askPlaced := offered.askPlaced.mono within
  bidPlaced := offered.bidPlaced.mono within

/-- A key that was used stays one. -/
theorem Spent.mono (spent : Spent sha steps key) (within : steps ⊆ later) :
    Spent sha later key := by
  rcases spent with ⟨kind, placed⟩ | ⟨offerId, dealt, made⟩
  · exact .inl ⟨kind, placed.mono within⟩
  · exact .inr ⟨offerId, dealt.mono within, made⟩

/-- A record that was deleted for good stays so in a longer history. -/
theorem Owned.mono {owner : Text} (owned : Owned sha steps state key owner)
    (within : steps ⊆ later) : Owned sha later state key owner :=
  owned.imp_right fun gone => ⟨gone.1, gone.2.mono within⟩

/-- The start of a run is separate. -/
theorem Separate.start (separate : Separate sha (steps ++ later)) : Separate sha steps where
  nonces := by
    have whole := separate.nonces
    rw [DistinctNonces, List.filterMap_append] at whole
    exact (List.nodup_append.mp whole).1
  messages left leftHashed right rightHashed :=
    separate.messages left (hashedIn_mono (List.subset_append_left steps later) leftHashed)
      right (hashedIn_mono (List.subset_append_left steps later) rightHashed)

/-- The nonce of a key was hashed. -/
theorem nonce_hashed {nonce : Text} (listed : taken ∈ steps)
    (named : taken.label.nonce = some nonce) : nonce ∈ hashedIn steps := by
  apply List.mem_flatMap.mpr
  refine ⟨taken, listed, ?_⟩
  cases label : taken.label with
  | transaction env payload =>
    rw [label] at named
    obtain rfl := Option.some.inj named
    exact List.mem_cons_self
  | commit =>
    rw [label] at named
    cases named

/-- A successful command hashes its messages. -/
theorem Succeeds.hashed (succeeds : Succeeds sha taken env signer command) :
    taken.label.hashed = env.nonce :: command.hashed ∧ taken.label.nonce = some env.nonce := by
  obtain ⟨payload, _, label, read, _⟩ := succeeds.ran
  rw [label, Event.hashed, read]
  exact ⟨rfl, rfl⟩

/-- The keys of a live transaction are made of its nonce. -/
theorem Env.Live.guid (live : env.Live) : env.guid = env.nonce := by
  rw [Env.guid, live.transitioning]
  rfl

/-- A step that makes no deal leaves the deals that were made. -/
theorem dealt_append {offerId : Text} : Dealt sha (steps ++ [taken]) offerId ↔
    Dealt sha steps offerId ∨ ∃ env signer expiration,
      Succeeds sha taken env signer (.addDealOrder offerId expiration) := by
  constructor
  · rintro ⟨other, listed, made⟩
    rcases List.mem_append.mp listed with before | last
    · exact .inl ⟨other, before, made⟩
    · obtain rfl := List.mem_singleton.mp last
      exact .inr made
  · rintro (dealt | made)
    · exact dealt.mono (List.subset_append_left steps [taken])
    · exact ⟨taken, List.mem_append_right _ List.mem_cons_self, made⟩

/-- A successful command at the end of a separate run makes new keys. -/
theorem Separate.grows (separate : Separate sha (steps ++ [taken]))
    (succeeds : Succeeds sha taken env signer command) (live : env.Live) :
    Grows sha steps (steps ++ [taken]) env command := by
  obtain ⟨hashed, named⟩ := succeeds.hashed
  have within : steps ⊆ steps ++ [taken] := List.subset_append_left steps [taken]
  have member : taken ∈ steps ++ [taken] := List.mem_append_right _ List.mem_cons_self
  have last (message : Text) (hashing : message ∈ env.nonce :: command.hashed) :
      message ∈ hashedIn (steps ++ [taken]) :=
    List.mem_flatMap.mpr ⟨taken, member, hashed ▸ hashing⟩
  refine ⟨within, ?_, ?_, ?_, ?_, ?_⟩
  · rintro kind ⟨other, listed, nonce, kind', made, same⟩
    have kinds := congrArg sha.kindOf same
    rw [sha.kindOf_makeAddress, sha.kindOf_makeAddress, Option.some.injEq] at kinds
    subst kinds
    rw [live.guid] at same
    have equal : env.nonce = nonce :=
      separate.messages _ (last _ List.mem_cons_self) _
        (hashedIn_mono within (nonce_hashed listed made)) (sha.makeAddress_injective same)
    have distinct := separate.nonces
    rw [DistinctNonces, List.filterMap_append, List.nodup_append] at distinct
    refine distinct.2.2 nonce (List.mem_filterMap.mpr ⟨other, listed, made⟩) nonce ?_ rfl
    exact List.mem_filterMap.mpr ⟨taken, List.mem_cons_self, equal ▸ named⟩
  · intro kind
    exact ⟨taken, member, env.nonce, kind, named, by rw [live.guid]⟩
  · intro left hashing right earlier same
    exact separate.messages _ (last _ (List.mem_cons_of_mem _ hashing)) _
      (hashedIn_mono within earlier) same
  · intro message hashing
    exact last _ (List.mem_cons_of_mem _ hashing)
  · intro offerId
    rw [dealt_append]
    constructor
    · rintro (dealt | ⟨_, _, expiration, made⟩)
      · exact .inl dealt
      · exact .inr ⟨expiration, (succeeds.unique made).2.2⟩
    · rintro (dealt | ⟨expiration, rfl⟩)
      · exact .inl dealt
      · exact .inr ⟨env, signer, expiration, succeeds⟩

/-- The messages of a command that succeeded were hashed. -/
theorem Dealt.hashed {offerId : Text} (dealt : Dealt sha steps offerId) :
    offerId ∈ hashedIn steps := by
  obtain ⟨taken, listed, env, signer, expiration, succeeds⟩ := dealt
  apply List.mem_flatMap.mpr
  refine ⟨taken, listed, ?_⟩
  rw [succeeds.hashed.1]
  exact List.mem_cons_of_mem _ List.mem_cons_self

/-- A run whose messages have identifiers of their own is separate. -/
theorem separate_of_nodup (nonces : DistinctNonces steps)
    (identifiers : ((hashedIn steps).dedup.map sha.id).Nodup) : Separate sha steps where
  nonces := nonces
  messages _ leftHashed _ rightHashed same :=
    List.inj_on_of_nodup_map identifiers (List.mem_dedup.mpr leftHashed)
      (List.mem_dedup.mpr rightHashed) same

end Keys

/-! ## Scripts -/

/-- The messages of which a turn makes keys. -/
def Turn.hashed : Turn → List Text
  | .submit _ nonce payload =>
    nonce :: match payload.command with
      | .ok command => command.hashed
      | .error _ => []
  | .commit => []

/-- The messages of a script. -/
theorem Chain.steps_hashed {sha : Sha512} {node : Env} {chain : Chain} {script : List Turn} :
    hashedIn (chain.steps sha node script) = script.flatMap Turn.hashed := by
  induction script generalizing chain with
  | nil => rfl
  | cons turn script ih =>
    rw [Chain.steps, hashedIn, List.flatMap_cons, List.flatMap_cons]
    change _ ++ hashedIn _ = _
    rw [ih]
    cases turn with
    | submit signerPublicKey nonce payload => rfl
    | commit => rfl

/-- Whether the nonces of a script and the identifiers of its messages differ. -/
def Turn.differ (sha : Sha512) (script : List Turn) : Bool :=
  decide (script.filterMap Turn.nonce).Nodup &&
    decide ((script.flatMap Turn.hashed).dedup.map sha.id).Nodup

/-- A script is separate when its nonces and the identifiers of its messages differ. -/
theorem Chain.steps_separate {sha : Sha512} {node : Env} {chain : Chain} {script : List Turn}
    (differ : Turn.differ sha script = true) : Separate sha (chain.steps sha node script) := by
  rw [Turn.differ, Bool.and_eq_true, decide_eq_true_iff, decide_eq_true_iff] at differ
  apply separate_of_nodup
  · rw [DistinctNonces, Chain.steps_nonces]
    exact differ.1
  · rw [Chain.steps_hashed]
    exact differ.2

end Creditcoin
