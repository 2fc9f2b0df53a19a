import Creditcoin.Namespace
import Creditcoin.Lib.Schema

/-!
# Messages

The records of the state are protocol buffer messages. A message keeps the fields its type
does not know and writes them back behind its own, so reading a record as the wrong type and
writing it again loses nothing. Every type is given by the numbers of its fields; reading
after writing is the identity.
-/

namespace Creditcoin

open Lib.Wire

/-! ## Wallet -/

/-- Field numbers of `Wallet`. -/
def walletSchema : Schema := ⟨[1], []⟩

/-- The balance of one owner. -/
structure Wallet where
  /-- The balance, in credo, as decimal text. -/
  amount : Text := []
  /-- Fields of other types. -/
  unknown : walletSchema.Unknown := walletSchema.noUnknown
deriving DecidableEq

namespace Wallet

/-- The message by field number. -/
def slots (message : Wallet) : List Slot :=
  [.text 1 message.amount]

/-- `SerializeToString`. -/
def serializeToString (message : Wallet) : Text :=
  walletSchema.write message.slots message.unknown

/-- `ParseFromString` into a new message. -/
def parseFromString (data : Text) : Wallet where
  amount := textAt 1 (decode data)
  unknown := walletSchema.unknown data

/-- The slots are the fields of the type. -/
theorem fits (message : Wallet) : walletSchema.Fits message.slots :=
  ⟨rfl, rfl, by decide, by decide, by decide, by decide⟩

/-- A written message is read back. -/
@[simp] theorem parse_serialize (message : Wallet) :
    parseFromString message.serializeToString = message := by
  have texts {number : Nat} {value : Text} (member : .text number value ∈ message.slots) :=
    message.fits.textAt_write message.unknown member
  have others := message.fits.unknown_write message.unknown
  cases message
  simp only [parseFromString, serializeToString, mk.injEq]
  exact ⟨texts (by simp [slots]), others⟩

/-- A wallet with an amount starts with the tag of the amount. -/
theorem serialize_head {message : Wallet} (filled : message.amount ≠ []) :
    message.serializeToString.head? = some '\n' := by
  have first : message.slots.flatMap Slot.fields = [⟨1, .text message.amount⟩] := by
    simp [slots, Slot.fields, optText, filled]
  rw [serializeToString, Schema.write, first]
  rfl

end Wallet

/-! ## Address -/

/-- Field numbers of `Address`. -/
def addressSchema : Schema := ⟨[1, 2, 3, 4], []⟩

/-- An owner's address on another blockchain. -/
structure Address where
  /-- The blockchain. -/
  blockchain : Text := []
  /-- The address itself. -/
  value : Text := []
  /-- The network of the blockchain. -/
  network : Text := []
  /-- The owner. -/
  sighash : Text := []
  /-- Fields of other types. -/
  unknown : addressSchema.Unknown := addressSchema.noUnknown
deriving DecidableEq

namespace Address

/-- The message by field number. -/
def slots (message : Address) : List Slot :=
  [.text 1 message.blockchain, .text 2 message.value, .text 3 message.network,
    .text 4 message.sighash]

/-- `SerializeToString`. -/
def serializeToString (message : Address) : Text :=
  addressSchema.write message.slots message.unknown

/-- `ParseFromString` into a new message. -/
def parseFromString (data : Text) : Address where
  blockchain := textAt 1 (decode data)
  value := textAt 2 (decode data)
  network := textAt 3 (decode data)
  sighash := textAt 4 (decode data)
  unknown := addressSchema.unknown data

/-- The slots are the fields of the type. -/
theorem fits (message : Address) : addressSchema.Fits message.slots :=
  ⟨rfl, rfl, by decide, by decide, by decide, by decide⟩

/-- A written message is read back. -/
@[simp] theorem parse_serialize (message : Address) :
    parseFromString message.serializeToString = message := by
  have texts {number : Nat} {value : Text} (member : .text number value ∈ message.slots) :=
    message.fits.textAt_write message.unknown member
  have others := message.fits.unknown_write message.unknown
  cases message
  simp only [parseFromString, serializeToString, mk.injEq]
  exact ⟨texts (by simp [slots]), texts (by simp [slots]), texts (by simp [slots]),
    texts (by simp [slots]), others⟩

end Address

/-! ## Transfer -/

/-- Field numbers of `Transfer`. -/
def transferSchema : Schema := ⟨[1, 2, 3, 4, 5, 6, 7, 9], [8]⟩

/-- A payment on another blockchain. -/
structure Transfer where
  /-- The blockchain. -/
  blockchain : Text := []
  /-- Key of the paying address. -/
  srcAddress : Text := []
  /-- Key of the paid address. -/
  dstAddress : Text := []
  /-- Key of the order paid for. -/
  order : Text := []
  /-- The amount paid. -/
  amount : Text := []
  /-- The transaction on the blockchain. -/
  tx : Text := []
  /-- The head at registration. -/
  block : Text := []
  /-- Whether an order consumed the payment. -/
  processed : Bool := false
  /-- Who registered it. -/
  sighash : Text := []
  /-- Fields of other types. -/
  unknown : transferSchema.Unknown := transferSchema.noUnknown
deriving DecidableEq

namespace Transfer

/-- The message by field number. -/
def slots (message : Transfer) : List Slot :=
  [.text 1 message.blockchain, .text 2 message.srcAddress, .text 3 message.dstAddress,
    .text 4 message.order, .text 5 message.amount, .text 6 message.tx, .text 7 message.block,
    .varint 8 (if message.processed then 1 else 0), .text 9 message.sighash]

/-- `SerializeToString`. -/
def serializeToString (message : Transfer) : Text :=
  transferSchema.write message.slots message.unknown

/-- `ParseFromString` into a new message. -/
def parseFromString (data : Text) : Transfer where
  blockchain := textAt 1 (decode data)
  srcAddress := textAt 2 (decode data)
  dstAddress := textAt 3 (decode data)
  order := textAt 4 (decode data)
  amount := textAt 5 (decode data)
  tx := textAt 6 (decode data)
  block := textAt 7 (decode data)
  processed := varintAt 8 (decode data) != 0
  sighash := textAt 9 (decode data)
  unknown := transferSchema.unknown data

/-- The slots are the fields of the type. -/
theorem fits (message : Transfer) : transferSchema.Fits message.slots :=
  ⟨rfl, rfl, by decide, by decide, by decide, by decide⟩

/-- A written message is read back. -/
@[simp] theorem parse_serialize (message : Transfer) :
    parseFromString message.serializeToString = message := by
  have texts {number : Nat} {value : Text} (member : .text number value ∈ message.slots) :=
    message.fits.textAt_write message.unknown member
  have flag : varintAt 8 (decode message.serializeToString) = if message.processed then 1 else 0 :=
    message.fits.varintAt_write message.unknown (by simp [slots])
  have others := message.fits.unknown_write message.unknown
  cases message
  simp only [parseFromString, serializeToString, mk.injEq]
  refine ⟨texts (by simp [slots]), texts (by simp [slots]), texts (by simp [slots]),
    texts (by simp [slots]), texts (by simp [slots]), texts (by simp [slots]),
    texts (by simp [slots]), ?_, texts (by simp [slots]), others⟩
  change (varintAt 8 (decode (serializeToString _)) != 0) = _
  rw [flag]
  rename_i processed _ _
  cases processed <;> rfl

end Transfer

/-! ## Order -/

/-- Field numbers of `Order`. -/
def orderSchema : Schema := ⟨[1, 2, 3, 4, 5, 6, 8, 9], [7]⟩

/-- `AskOrder` and `BidOrder`, which have the same fields. -/
structure Order where
  /-- The blockchain. -/
  blockchain : Text := []
  /-- Key of the party's address. -/
  address : Text := []
  /-- The principal. -/
  amount : Text := []
  /-- The interest per tick. -/
  interest : Text := []
  /-- The length of a tick in blocks. -/
  maturity : Text := []
  /-- The fee for the investor. -/
  fee : Text := []
  /-- Blocks the order stays valid. -/
  expiration : UInt64 := 0
  /-- The head at creation. -/
  block : Text := []
  /-- The party. -/
  sighash : Text := []
  /-- Fields of other types. -/
  unknown : orderSchema.Unknown := orderSchema.noUnknown
deriving DecidableEq

namespace Order

/-- The message by field number. -/
def slots (message : Order) : List Slot :=
  [.text 1 message.blockchain, .text 2 message.address, .text 3 message.amount,
    .text 4 message.interest, .text 5 message.maturity, .text 6 message.fee,
    .varint 7 message.expiration, .text 8 message.block, .text 9 message.sighash]

/-- `SerializeToString`. -/
def serializeToString (message : Order) : Text :=
  orderSchema.write message.slots message.unknown

/-- `ParseFromString` into a new message. -/
def parseFromString (data : Text) : Order where
  blockchain := textAt 1 (decode data)
  address := textAt 2 (decode data)
  amount := textAt 3 (decode data)
  interest := textAt 4 (decode data)
  maturity := textAt 5 (decode data)
  fee := textAt 6 (decode data)
  expiration := varintAt 7 (decode data)
  block := textAt 8 (decode data)
  sighash := textAt 9 (decode data)
  unknown := orderSchema.unknown data

/-- The slots are the fields of the type. -/
theorem fits (message : Order) : orderSchema.Fits message.slots :=
  ⟨rfl, rfl, by decide, by decide, by decide, by decide⟩

/-- A written message is read back. -/
@[simp] theorem parse_serialize (message : Order) :
    parseFromString message.serializeToString = message := by
  have texts {number : Nat} {value : Text} (member : .text number value ∈ message.slots) :=
    message.fits.textAt_write message.unknown member
  have numbers {number : Nat} {value : UInt64} (member : .varint number value ∈ message.slots) :=
    message.fits.varintAt_write message.unknown member
  have others := message.fits.unknown_write message.unknown
  cases message
  simp only [parseFromString, serializeToString, mk.injEq]
  exact ⟨texts (by simp [slots]), texts (by simp [slots]), texts (by simp [slots]),
    texts (by simp [slots]), texts (by simp [slots]), texts (by simp [slots]),
    numbers (by simp [slots]), texts (by simp [slots]), texts (by simp [slots]), others⟩

end Order

/-- The order of an investor. -/
abbrev AskOrder : Type := Order

/-- The order of a fundraiser. -/
abbrev BidOrder : Type := Order

/-! ## Offer -/

/-- Field numbers of `Offer`. -/
def offerSchema : Schema := ⟨[1, 2, 3, 5, 6], [4]⟩

/-- An offer of an ask order to a bid order. -/
structure Offer where
  /-- The blockchain. -/
  blockchain : Text := []
  /-- Key of the ask order. -/
  askOrder : Text := []
  /-- Key of the bid order. -/
  bidOrder : Text := []
  /-- Blocks the offer stays valid. -/
  expiration : UInt64 := 0
  /-- The head at creation. -/
  block : Text := []
  /-- The investor. -/
  sighash : Text := []
  /-- Fields of other types. -/
  unknown : offerSchema.Unknown := offerSchema.noUnknown
deriving DecidableEq

namespace Offer

/-- The message by field number. -/
def slots (message : Offer) : List Slot :=
  [.text 1 message.blockchain, .text 2 message.askOrder, .text 3 message.bidOrder,
    .varint 4 message.expiration, .text 5 message.block, .text 6 message.sighash]

/-- `SerializeToString`. -/
def serializeToString (message : Offer) : Text :=
  offerSchema.write message.slots message.unknown

/-- `ParseFromString` into a new message. -/
def parseFromString (data : Text) : Offer where
  blockchain := textAt 1 (decode data)
  askOrder := textAt 2 (decode data)
  bidOrder := textAt 3 (decode data)
  expiration := varintAt 4 (decode data)
  block := textAt 5 (decode data)
  sighash := textAt 6 (decode data)
  unknown := offerSchema.unknown data

/-- The slots are the fields of the type. -/
theorem fits (message : Offer) : offerSchema.Fits message.slots :=
  ⟨rfl, rfl, by decide, by decide, by decide, by decide⟩

/-- A written message is read back. -/
@[simp] theorem parse_serialize (message : Offer) :
    parseFromString message.serializeToString = message := by
  have texts {number : Nat} {value : Text} (member : .text number value ∈ message.slots) :=
    message.fits.textAt_write message.unknown member
  have numbers {number : Nat} {value : UInt64} (member : .varint number value ∈ message.slots) :=
    message.fits.varintAt_write message.unknown member
  have others := message.fits.unknown_write message.unknown
  cases message
  simp only [parseFromString, serializeToString, mk.injEq]
  exact ⟨texts (by simp [slots]), texts (by simp [slots]), texts (by simp [slots]),
    numbers (by simp [slots]), texts (by simp [slots]), texts (by simp [slots]), others⟩

end Offer

/-! ## DealOrder -/

/-- Field numbers of `DealOrder`. -/
def dealOrderSchema : Schema := ⟨[1, 2, 3, 4, 5, 6, 7, 9, 10, 11, 12, 13], [8]⟩

/-- A loan. -/
structure DealOrder where
  /-- The blockchain. -/
  blockchain : Text := []
  /-- Key of the investor's address. -/
  srcAddress : Text := []
  /-- Key of the fundraiser's address. -/
  dstAddress : Text := []
  /-- The principal. -/
  amount : Text := []
  /-- The interest per tick. -/
  interest : Text := []
  /-- The length of a tick in blocks. -/
  maturity : Text := []
  /-- The fee for the investor. -/
  fee : Text := []
  /-- Blocks the deal waits for its loan. -/
  expiration : UInt64 := 0
  /-- The head at creation or completion. -/
  block : Text := []
  /-- Key of the transfer that paid the loan out. -/
  loanTransfer : Text := []
  /-- Key of the transfer that closed the deal. -/
  repaymentTransfer : Text := []
  /-- Who locked the deal. -/
  lock : Text := []
  /-- The fundraiser. -/
  sighash : Text := []
  /-- Fields of other types. -/
  unknown : dealOrderSchema.Unknown := dealOrderSchema.noUnknown
deriving DecidableEq

namespace DealOrder

/-- The message by field number. -/
def slots (message : DealOrder) : List Slot :=
  [.text 1 message.blockchain, .text 2 message.srcAddress, .text 3 message.dstAddress,
    .text 4 message.amount, .text 5 message.interest, .text 6 message.maturity,
    .text 7 message.fee, .varint 8 message.expiration, .text 9 message.block,
    .text 10 message.loanTransfer, .text 11 message.repaymentTransfer, .text 12 message.lock,
    .text 13 message.sighash]

/-- `SerializeToString`. -/
def serializeToString (message : DealOrder) : Text :=
  dealOrderSchema.write message.slots message.unknown

/-- `ParseFromString` into a new message. -/
def parseFromString (data : Text) : DealOrder where
  blockchain := textAt 1 (decode data)
  srcAddress := textAt 2 (decode data)
  dstAddress := textAt 3 (decode data)
  amount := textAt 4 (decode data)
  interest := textAt 5 (decode data)
  maturity := textAt 6 (decode data)
  fee := textAt 7 (decode data)
  expiration := varintAt 8 (decode data)
  block := textAt 9 (decode data)
  loanTransfer := textAt 10 (decode data)
  repaymentTransfer := textAt 11 (decode data)
  lock := textAt 12 (decode data)
  sighash := textAt 13 (decode data)
  unknown := dealOrderSchema.unknown data

/-- The slots are the fields of the type. -/
theorem fits (message : DealOrder) : dealOrderSchema.Fits message.slots :=
  ⟨rfl, rfl, by decide, by decide, by decide, by decide⟩

/-- A written message is read back. -/
@[simp] theorem parse_serialize (message : DealOrder) :
    parseFromString message.serializeToString = message := by
  have texts {number : Nat} {value : Text} (member : .text number value ∈ message.slots) :=
    message.fits.textAt_write message.unknown member
  have numbers {number : Nat} {value : UInt64} (member : .varint number value ∈ message.slots) :=
    message.fits.varintAt_write message.unknown member
  have others := message.fits.unknown_write message.unknown
  cases message
  simp only [parseFromString, serializeToString, mk.injEq]
  exact ⟨texts (by simp [slots]), texts (by simp [slots]), texts (by simp [slots]),
    texts (by simp [slots]), texts (by simp [slots]), texts (by simp [slots]),
    texts (by simp [slots]), numbers (by simp [slots]), texts (by simp [slots]),
    texts (by simp [slots]), texts (by simp [slots]), texts (by simp [slots]),
    texts (by simp [slots]), others⟩

end DealOrder

/-! ## RepaymentOrder -/

/-- Field numbers of `RepaymentOrder`. -/
def repaymentOrderSchema : Schema := ⟨[1, 2, 3, 4, 6, 7, 8, 9, 10], [5]⟩

/-- An order to buy a loan from its investor. -/
structure RepaymentOrder where
  /-- The blockchain. -/
  blockchain : Text := []
  /-- Key of the collector's address. -/
  srcAddress : Text := []
  /-- Key of the investor's address. -/
  dstAddress : Text := []
  /-- The price. -/
  amount : Text := []
  /-- Blocks the order stays valid. -/
  expiration : UInt64 := 0
  /-- The head at creation. -/
  block : Text := []
  /-- Key of the deal. -/
  deal : Text := []
  /-- The investor who accepted. -/
  previousOwner : Text := []
  /-- Key of the transfer that paid the price. -/
  transfer : Text := []
  /-- The collector. -/
  sighash : Text := []
  /-- Fields of other types. -/
  unknown : repaymentOrderSchema.Unknown := repaymentOrderSchema.noUnknown
deriving DecidableEq

namespace RepaymentOrder

/-- The message by field number. -/
def slots (message : RepaymentOrder) : List Slot :=
  [.text 1 message.blockchain, .text 2 message.srcAddress, .text 3 message.dstAddress,
    .text 4 message.amount, .varint 5 message.expiration, .text 6 message.block,
    .text 7 message.deal, .text 8 message.previousOwner, .text 9 message.transfer,
    .text 10 message.sighash]

/-- `SerializeToString`. -/
def serializeToString (message : RepaymentOrder) : Text :=
  repaymentOrderSchema.write message.slots message.unknown

/-- `ParseFromString` into a new message. -/
def parseFromString (data : Text) : RepaymentOrder where
  blockchain := textAt 1 (decode data)
  srcAddress := textAt 2 (decode data)
  dstAddress := textAt 3 (decode data)
  amount := textAt 4 (decode data)
  expiration := varintAt 5 (decode data)
  block := textAt 6 (decode data)
  deal := textAt 7 (decode data)
  previousOwner := textAt 8 (decode data)
  transfer := textAt 9 (decode data)
  sighash := textAt 10 (decode data)
  unknown := repaymentOrderSchema.unknown data

/-- The slots are the fields of the type. -/
theorem fits (message : RepaymentOrder) : repaymentOrderSchema.Fits message.slots :=
  ⟨rfl, rfl, by decide, by decide, by decide, by decide⟩

/-- A written message is read back. -/
@[simp] theorem parse_serialize (message : RepaymentOrder) :
    parseFromString message.serializeToString = message := by
  have texts {number : Nat} {value : Text} (member : .text number value ∈ message.slots) :=
    message.fits.textAt_write message.unknown member
  have numbers {number : Nat} {value : UInt64} (member : .varint number value ∈ message.slots) :=
    message.fits.varintAt_write message.unknown member
  have others := message.fits.unknown_write message.unknown
  cases message
  simp only [parseFromString, serializeToString, mk.injEq]
  exact ⟨texts (by simp [slots]), texts (by simp [slots]), texts (by simp [slots]),
    texts (by simp [slots]), numbers (by simp [slots]), texts (by simp [slots]),
    texts (by simp [slots]), texts (by simp [slots]), texts (by simp [slots]),
    texts (by simp [slots]), others⟩

end RepaymentOrder

/-! ## Fee -/

/-- Field numbers of `Fee`. -/
def feeSchema : Schema := ⟨[1, 2], []⟩

/-- A refundable transaction fee. -/
structure Fee where
  /-- Who paid it. -/
  sighash : Text := []
  /-- The head when it was paid. -/
  block : Text := []
  /-- Fields of other types. -/
  unknown : feeSchema.Unknown := feeSchema.noUnknown
deriving DecidableEq

namespace Fee

/-- The message by field number. -/
def slots (message : Fee) : List Slot :=
  [.text 1 message.sighash, .text 2 message.block]

/-- `SerializeToString`. -/
def serializeToString (message : Fee) : Text :=
  feeSchema.write message.slots message.unknown

/-- `ParseFromString` into a new message. -/
def parseFromString (data : Text) : Fee where
  sighash := textAt 1 (decode data)
  block := textAt 2 (decode data)
  unknown := feeSchema.unknown data

/-- The slots are the fields of the type. -/
theorem fits (message : Fee) : feeSchema.Fits message.slots :=
  ⟨rfl, rfl, by decide, by decide, by decide, by decide⟩

/-- A written message is read back. -/
@[simp] theorem parse_serialize (message : Fee) :
    parseFromString message.serializeToString = message := by
  have texts {number : Nat} {value : Text} (member : .text number value ∈ message.slots) :=
    message.fits.textAt_write message.unknown member
  have others := message.fits.unknown_write message.unknown
  cases message
  simp only [parseFromString, serializeToString, mk.injEq]
  exact ⟨texts (by simp [slots]), texts (by simp [slots]), others⟩

end Fee

end Creditcoin
