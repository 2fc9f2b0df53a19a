import Creditcoin.Changes

/-!
# Balances

The balance of an owner is what the text in the owner's wallet stands for. A write of a wallet
changes the balance of its owner and no other one.
-/

namespace Creditcoin

open Lib

/-- The amount a text stands for, zero when it is no literal. -/
def amountOf (text : Text) : Int := (cppInt text).getD 0

/-- The balance of an owner. -/
def balanceOf (sha : Sha512) (state : State) (owner : Text) : Int :=
  amountOf (walletOf sha state owner).amount

section Balances

variable {sha : Sha512} {env : Env} {signer owner : Text} {state after : State}

/-- The amount of a literal. -/
theorem IsAmount.amountOf {text : Text} {amount : Int} (read : IsAmount text amount) :
    amountOf text = amount := by
  rw [Creditcoin.amountOf, read.1]
  rfl

/-- The amount of a printed number. -/
@[simp] theorem amountOf_toText (amount : Int) : amountOf (toText amount) = amount := by
  rw [amountOf, cppInt_toText]
  rfl

/-- A wallet that is left keeps its balance. -/
theorem balanceOf_same
    (same : after.get (sha.walletId owner) = state.get (sha.walletId owner)) :
    balanceOf sha after owner = balanceOf sha state owner := by
  rw [balanceOf, walletOf, same, balanceOf, walletOf]

/-- A written wallet has the balance of its text. -/
theorem balanceOf_written {wallet : Wallet}
    (written : after.get (sha.walletId owner) = wallet.serializeToString) :
    balanceOf sha after owner = amountOf wallet.amount := by
  rw [balanceOf, walletOf, written, Wallet.parse_serialize]

/-- The balance that covers a cost. -/
theorem Covers.balanceOf {cost balance : Int} (covers : Covers sha state signer cost balance) :
    balanceOf sha state signer = balance := by
  rw [Creditcoin.balanceOf, amountOf, covers.read]
  rfl

/-- A credited wallet has its amount more. -/
theorem Credited.amountOf {amountString : Text} {amount : Int} {wallet : Wallet}
    (printed : cppInt amountString = some amount)
    (credited : Credited (state.get (sha.walletId owner)) amountString amount wallet) :
    amountOf wallet.amount = Creditcoin.balanceOf sha state owner + amount := by
  rw [Creditcoin.balanceOf, walletOf]
  cases credited with
  | created missing =>
    have empty : Creditcoin.amountOf
        (Wallet.parseFromString (state.get (sha.walletId owner))).amount = 0 := by
      rw [missing]
      rfl
    rw [empty, Creditcoin.amountOf, printed, Int.zero_add]
    rfl
  | raised present read nonneg =>
    rw [amountOf_toText, Creditcoin.amountOf, read]
    rfl

/-- A credit raises the balance of its owner. -/
theorem balanceOf_credit {payee amountString : Text} {amount : Int} {wallet : Wallet}
    (printed : cppInt amountString = some amount)
    (credited : Credited (state.get (sha.walletId payee)) amountString amount wallet) :
    balanceOf sha (state.set (sha.walletId payee) wallet.serializeToString) owner =
      balanceOf sha state owner + if payee = owner then amount else 0 := by
  by_cases same : payee = owner
  · subst same
    rw [if_pos rfl, ← credited.amountOf printed]
    exact balanceOf_written (Store.get_set_self _ _ _)
  · have apart : sha.walletId owner ≠ sha.walletId payee :=
      fun equal => same (sha.walletId_injective equal).symm
    rw [if_neg same, Int.add_zero]
    exact balanceOf_same (Store.get_set_ne _ apart _)

/-- A write of another kind leaves the balances. -/
theorem balanceOf_set_apart {key value : Text} (apart : sha.kindOf key ≠ some .wallet) :
    balanceOf sha (state.set key value) owner = balanceOf sha state owner := by
  apply balanceOf_same
  apply Store.get_set_ne
  exact sha.ne_of_kindOf_ne fun same => apart (same ▸ sha.kindOf_walletId owner)

/-- A deletion of another kind leaves the balances. -/
theorem balanceOf_erase_apart {key : Text} (apart : sha.kindOf key ≠ some .wallet) :
    balanceOf sha (state.erase key) owner = balanceOf sha state owner := by
  apply balanceOf_same
  apply get_erase_of_kind sha
  rw [sha.kindOf_walletId]
  exact fun same => apart same.symm

/-- A written wallet has the balance it was given, and the others keep theirs. -/
theorem balanceOf_walletEntry {written : State} {payee : Text} {balance : Int} :
    balanceOf sha (state.set (sha.walletId payee) (walletEntry sha written payee balance).2) owner =
      if payee = owner then balance else balanceOf sha state owner := by
  by_cases same : payee = owner
  · subst same
    rw [if_pos rfl, walletEntry, balanceOf_written (Store.get_set_self _ _ _), amountOf_toText]
  · have apart : sha.walletId owner ≠ sha.walletId payee :=
      fun equal => same (sha.walletId_injective equal).symm
    rw [if_neg same]
    exact balanceOf_same (Store.get_set_ne _ apart _)

end Balances

end Creditcoin
