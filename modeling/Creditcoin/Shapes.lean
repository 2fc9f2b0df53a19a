import Creditcoin.Chain

/-!
# Shapes of records

A command reads a record as the type it expects, whatever the key. What keeps the kinds apart
is their content: every kind fills its own field numbers, numerals are no keys, owners are
identifiers of sixty digits. `Kept` says that every record of a state has the shape of its
kind, and the lemmas after it say which kinds the checks of a command leave.
-/

namespace Creditcoin

open Lib.Wire

/-! ## Contents -/

/-- A text is a numeral that stands for some amount. -/
def HasAmount (text : Text) : Prop := ∃ amount, IsAmount text amount

/-- A text is an identifier. -/
def Sha512.IsId (sha : Sha512) (text : Text) : Prop := ∃ message, text = sha.id message

/-- Only some text fields of a record are filled. -/
def FillsOnly (numbers : List Nat) (data : Text) : Prop :=
  ∀ number, textAt number (decode data) ≠ [] → number ∈ numbers

/-- The text fields a kind fills. Records of other keys are plain texts, which fill only fields
whose tags are digits. -/
def fieldsOf : Option Kind → List Nat
  | some .wallet => [1]
  | some .addr => [1, 2, 3, 4]
  | some .transfer => [1, 2, 3, 4, 5, 6, 7, 9]
  | some .askOrder => [1, 2, 3, 4, 5, 6, 8, 9]
  | some .bidOrder => [1, 2, 3, 4, 5, 6, 8, 9]
  | some .dealOrder => [1, 2, 3, 4, 5, 6, 7, 9, 10, 11, 12, 13]
  | some .repaymentOrder => [1, 2, 3, 4, 6, 7, 8, 9, 10, 11, 12]
  | some .offer => [1, 2, 3, 5, 6]
  | some .fee => [1, 2]
  | some .erc20 => [6, 8, 12]
  | some .processedBlock => [6, 8, 12]
  | none => [6, 8, 12]

/-- A key of an order a transfer may pay for. -/
def Sha512.IsPayable (sha : Sha512) (key : Text) : Prop :=
  sha.kindOf key = some .dealOrder ∨ sha.kindOf key = some .repaymentOrder

/-- A key of an ask or a bid order. -/
def Sha512.IsOrder (sha : Sha512) (key : Text) : Prop :=
  sha.kindOf key = some .askOrder ∨ sha.kindOf key = some .bidOrder

/-- A key a command may write: one of a kind, seventy characters long unless it is a wallet's,
or a serialized wallet. -/
def Sha512.IsKey (sha : Sha512) (key : Text) : Prop :=
  (∃ kind, sha.kindOf key = some kind ∧ (kind ≠ .wallet → key.length = 70)) ∨
    key.head? = some '\n'

/-- The contents of a transfer. -/
structure TransferContent (sha : Sha512) (transfer : Transfer) : Prop where
  /-- The order is a deal or a repayment order. -/
  order : sha.IsPayable transfer.order
  /-- The block is a numeral. -/
  block : HasAmount transfer.block
  /-- The registrant is an identifier. -/
  owner : sha.IsId transfer.sighash

/-- The contents of an ask or a bid order. -/
structure OrderContent (sha : Sha512) (order : Order) : Prop where
  /-- The address is a key. -/
  address : sha.IsKey order.address
  /-- The amount is a numeral. -/
  amount : HasAmount order.amount
  /-- The interest is a numeral. -/
  interest : HasAmount order.interest
  /-- The fee is a numeral. -/
  fee : HasAmount order.fee
  /-- The block is a numeral. -/
  block : HasAmount order.block
  /-- The party is an identifier. -/
  owner : sha.IsId order.sighash

/-- The contents of a deal order. -/
structure DealContent (sha : Sha512) (deal : DealOrder) : Prop where
  /-- The address of the fundraiser is a key. -/
  target : sha.IsKey deal.dstAddress
  /-- The amount is a numeral. -/
  amount : HasAmount deal.amount
  /-- The fee is a numeral. -/
  fee : HasAmount deal.fee
  /-- The block is a numeral. -/
  block : HasAmount deal.block
  /-- The block is short. -/
  blockLength : deal.block.length ≤ 20
  /-- The loan transfer is a key of seventy characters. -/
  loan : deal.loanTransfer = [] ∨ deal.loanTransfer.length = 70
  /-- The fundraiser is an identifier. -/
  owner : sha.IsId deal.sighash

/-- The contents of a repayment order under a key. -/
structure RepaymentContent (sha : Sha512) (key : Text) (order : RepaymentOrder) : Prop where
  /-- The amount is a numeral. -/
  amount : HasAmount order.amount
  /-- The block is a numeral. -/
  block : HasAmount order.block
  /-- The deal is a deal or a repayment order. -/
  deal : sha.IsPayable order.deal
  /-- The deal is another record. -/
  other : order.deal ≠ key
  /-- The transfer is a key of seventy characters. -/
  transfer : order.transfer = [] ∨ order.transfer.length = 70
  /-- The collector is an identifier. -/
  owner : sha.IsId order.sighash

/-- The contents of an offer. -/
structure OfferContent (sha : Sha512) (offer : Offer) : Prop where
  /-- The ask order is an order. -/
  ask : sha.IsOrder offer.askOrder
  /-- The bid order is an order. -/
  bid : sha.IsOrder offer.bidOrder
  /-- The block is a numeral. -/
  block : HasAmount offer.block

/-- The contents of a fee record. -/
structure FeeContent (sha : Sha512) (fee : Fee) : Prop where
  /-- The payer is an identifier. -/
  owner : sha.IsId fee.sighash
  /-- The block is a numeral. -/
  block : HasAmount fee.block

/-- What the fields of a record of a kind hold. -/
def Content (sha : Sha512) (key data : Text) : Option Kind → Prop
  | some .wallet => HasAmount (Wallet.parseFromString data).amount
  | some .addr => sha.IsId (Address.parseFromString data).sighash
  | some .transfer => TransferContent sha (Transfer.parseFromString data)
  | some .askOrder => OrderContent sha (Order.parseFromString data)
  | some .bidOrder => OrderContent sha (Order.parseFromString data)
  | some .dealOrder => DealContent sha (DealOrder.parseFromString data)
  | some .repaymentOrder => RepaymentContent sha key (RepaymentOrder.parseFromString data)
  | some .offer => OfferContent sha (Offer.parseFromString data)
  | some .fee => FeeContent sha (Fee.parseFromString data)
  | some .erc20 => True
  | some .processedBlock => True
  | none => True

/-- A record has the shape of its kind. -/
structure Shape (sha : Sha512) (key data : Text) : Prop where
  /-- The key is one a command may write. -/
  isKey : sha.IsKey key
  /-- Only the fields of the kind are filled. -/
  fields : FillsOnly (fieldsOf (sha.kindOf key)) data
  /-- The fields hold what they should. -/
  content : Content sha key data (sha.kindOf key)

/-- Every record of a state has the shape of its kind. -/
def Kept (sha : Sha512) (state : State) : Prop :=
  ∀ key ∈ state, Shape sha key (state.get key)

/-! ## Facts about the contents -/

section Facts

variable {sha : Sha512} {state : State} {key data : Text}

/-- An identifier has sixty characters. -/
theorem Sha512.IsId.length {text : Text} (isId : sha.IsId text) : text.length = 60 := by
  obtain ⟨message, rfl⟩ := isId
  exact sha.id_length message

/-- An identifier is not empty. -/
theorem Sha512.IsId.ne_nil {text : Text} (isId : sha.IsId text) : text ≠ [] := by
  obtain ⟨message, rfl⟩ := isId
  exact sha.id_ne_nil message

/-- An identifier is a hexadecimal text. -/
theorem Sha512.IsId.isHex {text : Text} (isId : sha.IsId text) : Text.isHex text = true := by
  obtain ⟨message, rfl⟩ := isId
  exact sha.id_isHex message

/-- A payable key is no numeral. -/
theorem Sha512.IsPayable.cppInt (payable : sha.IsPayable key) : cppInt key = none := by
  rcases payable with kind | kind
  · exact sha.cppInt_of_kindOf kind
  · exact sha.cppInt_of_kindOf kind

/-- An order key is no numeral. -/
theorem Sha512.IsOrder.cppInt (isOrder : sha.IsOrder key) : cppInt key = none := by
  rcases isOrder with kind | kind
  · exact sha.cppInt_of_kindOf kind
  · exact sha.cppInt_of_kindOf kind

/-- A key is no numeral. -/
theorem Sha512.IsKey.cppInt (isKey : sha.IsKey key) : cppInt key = none := by
  rcases isKey with ⟨kind, found, _⟩ | head
  · exact sha.cppInt_of_kindOf found
  · cases read : Creditcoin.cppInt key with
    | none => rfl
    | some value =>
      cases key with
      | nil => cases head
      | cons c rest =>
        obtain rfl := Option.some.inj head
        exact absurd (cppInt_chars read '\n' List.mem_cons_self) (by decide)

/-- The empty text is no key. -/
theorem Sha512.IsKey.ne_nil (isKey : sha.IsKey key) : key ≠ [] := by
  rintro rfl
  have none := isKey.cppInt
  cases none

/-- A numeral is no key. -/
theorem HasAmount.not_isKey {text : Text} (numeral : HasAmount text) : ¬ sha.IsKey text := by
  intro isKey
  obtain ⟨amount, read, _⟩ := numeral
  rw [isKey.cppInt] at read
  cases read

/-- The head of the chain is an amount. -/
theorem hasAmount_toText {value : Int} (nonneg : 0 ≤ value) : HasAmount (toText value) :=
  ⟨value, cppInt_toText value, nonneg⟩

/-- A text of digits fills only fields whose tags are digits. -/
theorem fillsOnly_of_numerals (numerals : ∀ c ∈ data, Text.isNumeralChar c = true) :
    FillsOnly [6, 8, 12] data := by
  intro number filled
  obtain ⟨c, listed, code⟩ :=
    textAt_decode_tag (fun c listed => Text.isNumeralChar_small (numerals c listed)) filled
  have tag := Text.isNumeralChar_tag (numerals c listed) code
  simp only [List.mem_cons, List.not_mem_nil, or_false]
  exact tag

/-- A new message fills only the fields of its type. -/
theorem fillsOnly_new {schema : Schema} {slots : List Slot} (fits : schema.Fits slots)
    {numbers : List Nat} (inside : ∀ number ∈ schema.texts, number ∈ numbers) :
    FillsOnly numbers (schema.write slots schema.noUnknown) := by
  intro number filled
  by_cases known : number ∈ schema.texts
  · exact inside number known
  · rw [fits.textAt_write_unread _ known] at filled
    exact absurd rfl filled

/-- A field a type does not read survives reading and writing. -/
theorem textAt_rewritten {schema : Schema} {slots : List Slot} (fits : schema.Fits slots)
    {number : Nat} (unread : number ∉ schema.texts) :
    textAt number (decode (schema.write slots (schema.unknown data))) =
      textAt number (decode data) := by
  rw [fits.textAt_write_unread _ unread, Schema.textAt_unknown unread]

/-- A message read and written again fills the fields of its type besides those filled before. -/
theorem fillsOnly_rewritten {schema : Schema} {slots : List Slot} (fits : schema.Fits slots)
    {numbers : List Nat} (before : FillsOnly numbers data)
    (inside : ∀ number ∈ schema.texts, number ∈ numbers) :
    FillsOnly numbers (schema.write slots (schema.unknown data)) := by
  intro number filled
  by_cases known : number ∈ schema.texts
  · exact inside number known
  · rw [textAt_rewritten fits known] at filled
    exact before number filled

/-- An empty state has no records. -/
theorem Kept.empty : Kept sha ∅ := fun _ present => absurd present (AList.notMem_empty _)

/-- A record that is not empty has the shape of its kind. -/
theorem Kept.shape (kept : Kept sha state) (present : state.get key ≠ []) :
    Shape sha key (state.get key) :=
  kept key (Lib.Store.mem_of_get present)

/-- Writing a shaped record keeps the shapes. -/
theorem Kept.set (kept : Kept sha state) (shape : Shape sha key data) :
    Kept sha (state.set key data) := by
  intro other listed
  by_cases same : other = key
  · subst same
    rw [Lib.Store.get_set_self]
    exact shape
  · rw [Lib.Store.get_set_ne _ same]
    exact kept other ((Lib.Store.mem_set.mp listed).resolve_left same)

/-- Writing another record first makes no difference. -/
theorem Kept.set_twice {first : Text} (kept : Kept sha state) (shape : Shape sha key data) :
    Kept sha ((state.set key first).set key data) := by
  intro other listed
  by_cases same : other = key
  · subst same
    rw [Lib.Store.get_set_self]
    exact shape
  · rw [Lib.Store.get_set_ne _ same, Lib.Store.get_set_ne _ same]
    have first := (Lib.Store.mem_set.mp listed).resolve_left same
    exact kept other ((Lib.Store.mem_set.mp first).resolve_left same)

/-- Erasing a record keeps the shapes. -/
theorem Kept.erase (kept : Kept sha state) : Kept sha (state.erase key) := by
  intro other listed
  obtain ⟨different, listed⟩ := Lib.Store.mem_erase.mp listed
  rw [Lib.Store.get_erase, if_neg different]
  exact kept other listed

end Facts

/-! ## What the checks of a command leave -/

section Kinds

variable {sha : Sha512} {state : State} {signer : Text}

/-- A filled field is one of the kind. -/
theorem Kept.field (kept : Kept sha state) {key : Text} (present : state.get key ≠ [])
    {number : Nat} (filled : textAt number (decode (state.get key)) ≠ []) :
    number ∈ fieldsOf (sha.kindOf key) :=
  (kept.shape present).fields number filled

/-- The content of a record of a known kind. -/
theorem Kept.content (kept : Kept sha state) {key : Text} (present : state.get key ≠ [])
    {kind : Kind} (found : sha.kindOf key = some kind) :
    Content sha key (state.get key) (some kind) :=
  found ▸ (kept.shape present).content

/-- The key of a record that is no wallet has seventy characters. -/
theorem Kept.key_length (kept : Kept sha state) {key : Text} (present : state.get key ≠ [])
    {kind : Kind} (found : sha.kindOf key = some kind) (other : kind ≠ .wallet) :
    key.length = 70 := by
  rcases (kept.shape present).isKey with ⟨kind', found', length⟩ | head
  · rw [found, Option.some.injEq] at found'
    subst found'
    exact length other
  · obtain ⟨rest, rfl⟩ := sha.kindOf_eq_some.mp found
    rw [Sha512.space, sha.namespacePrefix_eq] at head
    cases head

/-- The kinds that fill all of some fields. -/
def kindsWith (numbers : List Nat) : List (Option Kind) :=
  (none :: Kind.all.map some).filter fun kind => numbers.all fun number =>
    (fieldsOf kind).contains number

/-- A record that fills some fields is of a kind that fills them. -/
theorem Kept.kind_mem (kept : Kept sha state) {key : Text} (present : state.get key ≠ [])
    {numbers : List Nat}
    (filled : ∀ number ∈ numbers, textAt number (decode (state.get key)) ≠ []) :
    sha.kindOf key ∈ kindsWith numbers := by
  rw [kindsWith, List.mem_filter, List.all_eq_true]
  refine ⟨?_, fun number listed => ?_⟩
  · cases kind : sha.kindOf key with
    | none => exact List.mem_cons_self
    | some found =>
      exact List.mem_cons_of_mem _ (List.mem_map.mpr ⟨found, found.mem_all, rfl⟩)
  · rw [List.contains_iff_mem]
    exact kept.field present (filled number listed)

/-- The owner a record names under number 4 is no key, unless of a wallet. -/
theorem Kept.kind_of_id (kept : Kept sha state) {key : Text} (present : state.get key ≠ [])
    (isId : sha.IsId key) : sha.kindOf key = some .wallet := by
  rcases (kept.shape present).isKey with ⟨kind, found, length⟩ | head
  · by_cases wallet : kind = .wallet
    · rw [found, wallet]
    · have long := length wallet
      rw [isId.length] at long
      cases long
  · have hex := isId.isHex
    cases key with
    | nil => cases head
    | cons c rest =>
      obtain rfl := Option.some.inj head
      rw [Text.isHex, List.all_cons, Bool.and_eq_true] at hex
      exact absurd hex.1 (by decide)

/-- A record that names an order under number 4, and more than an address does, is a transfer. -/
theorem Kept.transfer_of_order (kept : Kept sha state) {transferId : Text}
    (present : state.get transferId ≠ [])
    (orderPresent : state.get (transferAt state transferId).order ≠ [])
    (noAddress : sha.kindOf transferId ≠ some .addr) :
    sha.kindOf transferId = some .transfer := by
  have isKey := (kept.shape orderPresent).isKey
  have member : sha.kindOf transferId ∈ kindsWith [4] := by
    apply kept.kind_mem present
    intro number listed
    rw [List.mem_singleton] at listed
    subst listed
    exact isKey.ne_nil
  have numeral (amount : HasAmount (transferAt state transferId).order) : False :=
    amount.not_isKey isKey
  rw [show kindsWith [4] = [some .addr, some .transfer, some .askOrder, some .bidOrder,
    some .dealOrder, some .repaymentOrder] by decide] at member
  simp only [List.mem_cons, List.not_mem_nil, or_false] at member
  rcases member with kind | kind | kind | kind | kind | kind
  · exact absurd kind noAddress
  · exact kind
  · have content : OrderContent sha _ := kept.content present kind
    exact (numeral content.interest).elim
  · have content : OrderContent sha _ := kept.content present kind
    exact (numeral content.interest).elim
  · have content : DealContent sha _ := kept.content present kind
    exact (numeral content.amount).elim
  · have content : RepaymentContent sha _ _ := kept.content present kind
    exact (numeral content.amount).elim

/-- A record that names an order and a registrant is a transfer. -/
theorem Kept.transfer_of_registrant (kept : Kept sha state) {transferId : Text}
    (present : state.get transferId ≠ [])
    (orderPresent : state.get (transferAt state transferId).order ≠ [])
    (registrant : (transferAt state transferId).sighash ≠ []) :
    sha.kindOf transferId = some .transfer := by
  refine kept.transfer_of_order present orderPresent fun kind => ?_
  have nine : 9 ∈ fieldsOf (sha.kindOf transferId) := kept.field present registrant
  rw [kind] at nine
  exact absurd nine (by decide)

/-- The order of a transfer is a deal or a repayment order. -/
theorem Kept.transfer_payable (kept : Kept sha state) {transferId : Text}
    (present : state.get transferId ≠ []) (kind : sha.kindOf transferId = some .transfer) :
    sha.IsPayable (transferAt state transferId).order := by
  have content : TransferContent sha _ := kept.content present kind
  exact content.order

/-- A deal or repayment order without a loan transfer is a deal. -/
theorem Kept.deal_of_pending (kept : Kept sha state) {dealOrderId : Text}
    (present : state.get dealOrderId ≠ []) (payable : sha.IsPayable dealOrderId)
    (pending : (dealAt state dealOrderId).loanTransfer = []) :
    sha.kindOf dealOrderId = some .dealOrder := by
  rcases payable with kind | kind
  · exact kind
  · have content : RepaymentContent sha _ _ := kept.content present kind
    exact absurd pending content.owner.ne_nil

/-- A deal or repayment order whose collector is an identifier is a repayment order. -/
theorem Kept.repayment_of_collector (kept : Kept sha state) {orderId : Text}
    (present : state.get orderId ≠ []) (payable : sha.IsPayable orderId)
    (collector : sha.IsId (repaymentAt state orderId).sighash) :
    sha.kindOf orderId = some .repaymentOrder := by
  rcases payable with kind | kind
  · have content : DealContent sha _ := kept.content present kind
    have length : (dealAt state orderId).loanTransfer.length = 60 := collector.length
    rcases content.loan with none | long
    · exact absurd none collector.ne_nil
    · change (dealAt state orderId).loanTransfer.length = 70 at long
      omega
  · exact kind

/-- A record that names a fundraiser is a deal. -/
theorem Kept.deal_of_owner (kept : Kept sha state) {dealOrderId : Text}
    (present : state.get dealOrderId ≠ []) (owner : (dealAt state dealOrderId).sighash ≠ []) :
    sha.kindOf dealOrderId = some .dealOrder := by
  have member : sha.kindOf dealOrderId ∈ kindsWith [13] := by
    apply kept.kind_mem present
    intro number listed
    rw [List.mem_singleton] at listed
    subst listed
    exact owner
  rw [show kindsWith [13] = [some .dealOrder] by decide, List.mem_singleton] at member
  exact member

/-- The deal of a repayment order under `AddRepaymentOrder` is a deal or a repayment order. -/
theorem Kept.payable_of_completed (kept : Kept sha state) {dealOrderId : Text}
    (completed : (dealAt state dealOrderId).loanTransfer ≠ []) : sha.IsPayable dealOrderId := by
  have present : state.get dealOrderId ≠ [] := by
    intro missing
    rw [dealAt, missing] at completed
    exact completed rfl
  have member : sha.kindOf dealOrderId ∈ kindsWith [10] := by
    apply kept.kind_mem present
    intro number listed
    rw [List.mem_singleton] at listed
    subst listed
    exact completed
  rw [show kindsWith [10] = [some .dealOrder, some .repaymentOrder] by decide] at member
  simp only [List.mem_cons, List.not_mem_nil, or_false] at member
  exact member

/-- A record that names a target and a deal is a repayment order. -/
theorem Kept.repayment_of_deal (kept : Kept sha state) {orderId : Text}
    (present : state.get orderId ≠ [])
    (targetPresent : state.get (repaymentAt state orderId).dstAddress ≠ [])
    (dealPresent : state.get (repaymentAt state orderId).deal ≠ []) :
    sha.kindOf orderId = some .repaymentOrder := by
  have isKey := (kept.shape dealPresent).isKey
  have member : sha.kindOf orderId ∈ kindsWith [3, 7] := by
    apply kept.kind_mem present
    intro number listed
    simp only [List.mem_cons, List.not_mem_nil, or_false] at listed
    rcases listed with rfl | rfl
    · exact (kept.shape targetPresent).isKey.ne_nil
    · exact isKey.ne_nil
  have numeral (amount : HasAmount (repaymentAt state orderId).deal) : False :=
    amount.not_isKey isKey
  rw [show kindsWith [3, 7] = [some .transfer, some .dealOrder, some .repaymentOrder] by decide]
    at member
  simp only [List.mem_cons, List.not_mem_nil, or_false] at member
  rcases member with kind | kind | kind
  · have content : TransferContent sha _ := kept.content present kind
    exact (numeral content.block).elim
  · have content : DealContent sha _ := kept.content present kind
    exact (numeral content.fee).elim
  · exact kind

/-- The party of an order record with a numeral interest. -/
theorem Kept.order_of_party (kept : Kept sha state) {orderId : Text}
    (present : state.get orderId ≠ []) (party : sha.IsId (orderAt state orderId).sighash)
    (interest : HasAmount (orderAt state orderId).interest) : sha.IsOrder orderId := by
  have member : sha.kindOf orderId ∈ kindsWith [9] := by
    apply kept.kind_mem present
    intro number listed
    rw [List.mem_singleton] at listed
    subst listed
    exact party.ne_nil
  rw [show kindsWith [9] = [some .transfer, some .askOrder, some .bidOrder, some .dealOrder,
    some .repaymentOrder] by decide] at member
  simp only [List.mem_cons, List.not_mem_nil, or_false] at member
  rcases member with kind | kind | kind | kind | kind
  · have content : TransferContent sha _ := kept.content present kind
    obtain ⟨amount, read, _⟩ := interest
    have refused : cppInt (orderAt state orderId).interest = none := content.order.cppInt
    rw [read] at refused
    cases refused
  · exact .inl kind
  · exact .inr kind
  · have content : DealContent sha _ := kept.content present kind
    have short : (orderAt state orderId).sighash.length ≤ 20 := content.blockLength
    rw [party.length] at short
    omega
  · have content : RepaymentContent sha _ _ := kept.content present kind
    have length : (orderAt state orderId).sighash.length = 60 := party.length
    rcases content.transfer with none | long
    · exact absurd none party.ne_nil
    · change (orderAt state orderId).sighash.length = 70 at long
      omega

/-- A record with an address, numeral terms and a maturity is an order. -/
theorem Kept.order_of_terms (kept : Kept sha state) {orderId : Text}
    (present : state.get orderId ≠ [])
    (addressPresent : state.get (orderAt state orderId).address ≠ [])
    (amount : HasAmount (orderAt state orderId).amount)
    (interest : HasAmount (orderAt state orderId).interest)
    (maturity : (orderAt state orderId).maturity ≠ []) : sha.IsOrder orderId := by
  have member : sha.kindOf orderId ∈ kindsWith [2, 5] := by
    apply kept.kind_mem present
    intro number listed
    simp only [List.mem_cons, List.not_mem_nil, or_false] at listed
    rcases listed with rfl | rfl
    · exact (kept.shape addressPresent).isKey.ne_nil
    · exact maturity
  rw [show kindsWith [2, 5] = [some .transfer, some .askOrder, some .bidOrder, some .dealOrder,
    some .offer] by decide] at member
  simp only [List.mem_cons, List.not_mem_nil, or_false] at member
  rcases member with kind | kind | kind | kind | kind
  · have content : TransferContent sha _ := kept.content present kind
    obtain ⟨value, read, _⟩ := interest
    have refused : cppInt (orderAt state orderId).interest = none := content.order.cppInt
    rw [read] at refused
    cases refused
  · exact .inl kind
  · exact .inr kind
  · have content : DealContent sha _ := kept.content present kind
    exact absurd content.target amount.not_isKey
  · have content : OfferContent sha _ := kept.content present kind
    obtain ⟨value, read, _⟩ := amount
    have refused : cppInt (orderAt state orderId).amount = none := content.bid.cppInt
    rw [read] at refused
    cases refused

end Kinds

end Creditcoin
