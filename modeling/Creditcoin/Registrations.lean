import Creditcoin.Admission
import Creditcoin.Changes
import Creditcoin.Script

/-!
# Keys of registrations

The key of an address hashes its blockchain, its lower-cased value and its network, one after
another with nothing between them, and the key of a transfer does so with the identifier of the
payment. Registrations of different things have different keys exactly when the joined texts
differ; where they agree, the first registration stands in the way of the other.
-/

namespace Creditcoin

open Lib

/-- What is registered: an address or a payment on a network of a blockchain, in lower case. -/
structure Registration where
  /-- The blockchain. -/
  blockchain : Text
  /-- The address or the identifier of the payment. -/
  value : Text
  /-- The network. -/
  network : Text
deriving DecidableEq

namespace Registration

/-- What is hashed for the key. -/
def joined (registration : Registration) : Text :=
  registration.blockchain ++ registration.value ++ registration.network

/-- The key that `RegisterAddress` uses. -/
def addressKey (sha : Sha512) (registration : Registration) : Text :=
  sha.makeAddress .addr registration.joined

/-- The key that `RegisterTransfer` uses. -/
def transferKey (sha : Sha512) (registration : Registration) : Text :=
  sha.makeAddress .transfer registration.joined

end Registration

/-- After one registration another one finds nothing in its way that was not there before. -/
structure RegistrationsApart (sha : Sha512) (left right : Registration) : Prop where
  /-- The keys of the addresses differ. -/
  addressKeys : left.addressKey sha ≠ right.addressKey sha
  /-- The keys of the transfers differ. -/
  transferKeys : left.transferKey sha ≠ right.transferKey sha
  /-- Once the one address is registered, the other one still can be. -/
  address {env env' : Env} {signer signer' : Text} {state after : State} {payload : Json}
    {balance : Int} {address address' : Text} (live : env.Live)
    (signed : env.sighash sha = .ok signer)
    (executed : Executed sha env signer state
      (.registerAddress left.blockchain address left.network) after)
    (value : address.toLower = left.value) (free : state.get (right.addressKey sha) = [])
    (live' : env'.Live) (signed' : env'.sighash sha = .ok signer') (admits : env'.Admits)
    (read : payload.command = .ok (.registerAddress right.blockchain address' right.network))
    (value' : address'.toLower = right.value) (funds : Covers sha after signer' txFee balance) :
    Accepts sha env' after payload
  /-- Once the one payment is registered, there is no transfer in the place of the other one. -/
  transfer {env : Env} {signer : Text} {state after : State} {gain : Int}
    {orderId source target principal : Text} (live : env.Live)
    (signed : env.sighash sha = .ok signer)
    (executed : Executed sha env signer state (.registerTransfer gain orderId left.value) after)
    (pays : Pays sha state orderId gain source target principal)
    (blockchain : (addressAt state source).blockchain = left.blockchain)
    (network : (addressAt state source).network = left.network)
    (free : state.get (right.transferKey sha) = []) : after.get (right.transferKey sha) = []

section Registrations

variable {sha : Sha512} {env : Env} {signer : Text} {state after : State}

/-- Keys of one kind differ exactly when what is hashed differs, as long as it does not collide. -/
theorem makeAddress_ne_iff {kind : Kind} {left right : Text}
    (separate : sha.id left = sha.id right → left = right) :
    sha.makeAddress kind left ≠ sha.makeAddress kind right ↔ left ≠ right := by
  constructor
  · rintro differ rfl
    exact differ rfl
  · intro differ same
    exact differ (separate (sha.makeAddress_injective same))

/-- After an address was registered, its key holds it and other keys of addresses are left. -/
theorem Executed.address_added {blockchain address network key : Text}
    (executed : Executed sha env signer state (.registerAddress blockchain address network) after)
    (found : sha.kindOf key = some .addr) :
    after.get key =
      if key = Registration.addressKey sha ⟨blockchain, address.toLower, network⟩ then
        { blockchain := blockchain, value := address, network := network,
          sighash := signer : Address }.serializeToString
      else state.get key := by
  cases executed with
  | registerAddress covers fresh =>
    exact get_setAll_at [] found (by simp) (by simp)

/-- The ends of a transfer are determined by its order. -/
theorem Pays.unique {gain : Int} {orderId source source' target target' principal principal' : Text}
    (pays : Pays sha state orderId gain source target principal)
    (other : Pays sha state orderId gain source' target' principal') :
    source = source' ∧ target = target' ∧ principal = principal' := by
  have ends := pays.ends
  rw [other.ends, Except.ok.injEq, Prod.mk.injEq, Prod.mk.injEq] at ends
  exact ⟨ends.1.symm, ends.2.1.symm, ends.2.2.symm⟩

/-- The key under which a payment from an address is registered. -/
def paymentId (sha : Sha512) (state : State) (source blockchainTxId : Text) : Text :=
  Registration.transferKey sha ⟨(addressAt state source).blockchain, blockchainTxId,
    (addressAt state source).network⟩

/-- Registering a transfer leaves the records of other kinds than the written ones. -/
theorem Executed.transfer_leaves {gain : Int} {orderId blockchainTxId key : Text} {kind : Kind}
    (executed : Executed sha env signer state (.registerTransfer gain orderId blockchainTxId) after)
    (found : sha.kindOf key = some kind) (other : kind ∉ [Kind.transfer, .fee, .wallet]) :
    after.get key = state.get key := by
  have apart : kind ≠ .transfer ∧ kind ≠ .fee ∧ kind ≠ .wallet := by
    simpa only [List.mem_cons, List.not_mem_nil, or_false, not_or] using other
  obtain ⟨transfer, fee, wallet⟩ := apart
  cases executed with
  | registerTransfer =>
    exact get_setAll_apart found (by simp [transfer.symm, fee.symm, wallet.symm])

/-- After a transfer was registered, its key holds it with the number that was paid, and other keys
of transfers are left. -/
theorem Executed.transfer_added {gain : Int}
    {orderId blockchainTxId source target principal key : Text}
    (executed : Executed sha env signer state (.registerTransfer gain orderId blockchainTxId) after)
    (pays : Pays sha state orderId gain source target principal)
    (found : sha.kindOf key = some .transfer) :
    ∃ amount, (addressAt state source).sighash = signer ∧
      (if blockchainTxId = "0".toList then amount = "0".toList
        else ∃ value, IsAmount principal value ∧ amount = toText (value + gain)) ∧
      after.get key =
        if key = paymentId sha state source blockchainTxId then
          { blockchain := (addressAt state source).blockchain, srcAddress := source,
            dstAddress := target, order := orderId, amount := amount, tx := blockchainTxId,
            block := toText env.head, sighash := signer : Transfer }.serializeToString
        else state.get key := by
  cases executed with
  | registerTransfer covers order pays' sourcePresent targetPresent owner blockchain network fresh
      paid =>
    obtain ⟨rfl, rfl, rfl⟩ := pays.unique pays'
    refine ⟨_, owner, ?_, get_setAll_at [] found (by simp) (by simp)⟩
    split at paid
    · rename_i zero
      rw [if_pos zero]
      exact paid
    · rename_i real
      rw [if_neg real]
      obtain ⟨value, read, same, _⟩ := paid
      exact ⟨value, read, same⟩

/-- A record that names an owner is not empty. -/
theorem address_ne_nil {address : Address} (owned : address.sighash ≠ []) :
    address.serializeToString ≠ [] := by
  intro empty
  have read := Address.parse_serialize address
  rw [empty] at read
  exact owned (congrArg Address.sighash read).symm

/-- A record that names its registrant is not empty. -/
theorem transfer_ne_nil {transfer : Transfer} (owned : transfer.sighash ≠ []) :
    transfer.serializeToString ≠ [] := by
  intro empty
  have read := Transfer.parse_serialize transfer
  rw [empty] at read
  exact owned (congrArg Transfer.sighash read).symm

/-- Different registrations keep apart exactly when their joined texts differ. -/
theorem registrations_apart_iff {left right : Registration}
    (separate : sha.id left.joined = sha.id right.joined → left.joined = right.joined) :
    RegistrationsApart sha left right ↔ left.joined ≠ right.joined := by
  constructor
  · intro apart
    exact (makeAddress_ne_iff separate).mp apart.addressKeys
  · intro differ
    have addressKeys : left.addressKey sha ≠ right.addressKey sha :=
      (makeAddress_ne_iff separate).mpr differ
    have transferKeys : left.transferKey sha ≠ right.transferKey sha :=
      (makeAddress_ne_iff separate).mpr differ
    refine ⟨addressKeys, transferKeys, ?_, ?_⟩
    · intro env env' signer signer' state after payload balance address address' live signed
        executed value free live' signed' admits read value' funds
      have kind : sha.kindOf (right.addressKey sha) = some .addr := sha.kindOf_makeAddress .addr _
      have fresh := executed.address_added kind
      rw [value, if_neg addressKeys.symm, free] at fresh
      rw [Registration.addressKey, Registration.joined, ← value'] at fresh
      exact (settles_iff live' signed' admits read rfl).mpr ⟨_, .registerAddress funds fresh⟩
    · intro env signer state after gain orderId source target principal live signed executed pays
        blockchain network free
      have kind : sha.kindOf (right.transferKey sha) = some .transfer :=
        sha.kindOf_makeAddress .transfer _
      obtain ⟨_, _, _, fresh⟩ := executed.transfer_added pays kind
      rw [paymentId, blockchain, network, if_neg transferKeys.symm, free] at fresh
      exact fresh

/-- Two addresses of the sample loan keep apart. -/
theorem registrations_apart_sample :
    RegistrationsApart sample ⟨"ethereum".toList, "0x1".toList, "rinkeby".toList⟩
      ⟨"ethereum".toList, "0x2".toList, "rinkeby".toList⟩ :=
  (registrations_apart_iff (by decide)).mpr (by decide)

/-- Different addresses can have the same key. -/
theorem registrations_collide : ¬ ∀ (sha : Sha512) (left right : Registration),
    (sha.id left.joined = sha.id right.joined → left.joined = right.joined) → left ≠ right →
      RegistrationsApart sha left right := by
  intro apart
  have keys := (apart sample ⟨"ethereum".toList, "0x1".toList, "rinkeby".toList⟩
    ⟨"ethereum0".toList, "x1".toList, "rinkeby".toList⟩ (fun _ => rfl) (by decide)).addressKeys
  exact keys rfl

end Registrations

end Creditcoin
