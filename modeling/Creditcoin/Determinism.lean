import Creditcoin.Awards
import Creditcoin.Listings

/-!
# Housekeeping on two nodes

Two nodes that execute one `Housekeeping` differ in what their listings answer, since these come
from the head of the node's own chain. They write the same when the same records are due in both
listings.
-/

namespace Creditcoin

open Lib

/-- An environment whose listings are those of another node. -/
def Env.listing (env : Env)
    (getStatesByPrefix : Text → Except Exception (List (List (Text × Text)))) : Env :=
  { env with getStatesByPrefix := getStatesByPrefix }

/-- An environment on another node, for a block that may be another one. -/
def Env.elsewhere (env : Env)
    (getStatesByPrefix : Text → Except Exception (List (List (Text × Text))))
    (blockSignature : Text) : Env :=
  { env with getStatesByPrefix := getStatesByPrefix, blockSignature := blockSignature }

section Nodes

variable {sha : Sha512} {env : Env} {memory after : Memory} {blockIdx last : Int}
  {lists : Text → Except Exception (List (List (Text × Text)))} {signature : Text}

/-- Another node does not replay either. -/
theorem Env.Live.elsewhere (live : env.Live) : (env.elsewhere lists signature).Live :=
  ⟨live.transitioning, live.replaying, live.tip⟩

/-- A node with other listings does not replay either. -/
theorem Env.Live.listing (live : env.Live) : (env.listing lists).Live := live.elsewhere

/-- Another node settles a record the same way. -/
theorem settle_elsewhere (live : env.Live) {record : Kind × Text × Text} {before later : Memory} :
    settle sha record env before = .ok ((), later) ↔
      settle sha record (env.elsewhere lists signature) before = .ok ((), later) := by
  obtain ⟨kind, address, protobuf⟩ := record
  by_cases deal : kind = .dealOrder
  · subst deal
    rw [settle_deal_ok live, settle_deal_ok live.elsewhere]
  by_cases fee : kind = .fee
  · subst fee
    rw [settle_fee_ok live, settle_fee_ok live.elsewhere]
  rw [settle_ok live deal fee, settle_ok live.elsewhere deal fee]

/-- Another node awards the same blocks. -/
theorem awards_elsewhere (live : env.Live) {newFormula : Bool} {blocks : List (Int × Text)} :
    awards sha newFormula blocks env memory = .ok ((), after) ↔
      awards sha newFormula blocks (env.elsewhere lists signature) memory = .ok ((), after) := by
  apply Exec.forEach_congr_ok
  intro block before later
  rw [award_ok live, award_ok live.elsewhere]
  exact Iff.rfl

/-- Another node fetches the same signers. -/
theorem rewards_listing {lastBlockIdx : Int} {blocks : List (Int × Text)} :
    env.Rewards last lastBlockIdx blocks ↔ (env.listing lists).Rewards last lastBlockIdx blocks := by
  constructor
  · intro fetched
    cases fetched with
    | built building fetched => exact .built building fetched
    | validated validating fetched => exact .validated validating fetched
  · intro fetched
    cases fetched with
    | built building fetched => exact .built building fetched
    | validated validating fetched => exact .validated validating fetched

/-- Another node knows the same gateway signer. -/
theorem verifyGatewaySigner_elsewhere (live : env.Live) :
    verifyGatewaySigner sha env memory = .ok ((), after) ↔
      verifyGatewaySigner sha (env.elsewhere lists signature) memory = .ok ((), after) := by
  simp only [verifyGatewaySigner, Exec.bind_ok, Exec.asks_ok, live.transitioning,
    live.elsewhere.transitioning, Bool.false_eq_true, if_false, getSighash_ok, Exec.asksExcept_ok,
    Exec.failIf_ok, existsAndEq, true_and, and_assoc]
  exact Iff.rfl

end Nodes

/-! ## A sample housekeeping -/

/-- A sample node whose gateway signer is the investor. -/
def keeperNode : Env :=
  { sampleNode with settings := [("sawtooth.gateway.sighash".toList, sample.id investorKey)] }

end Creditcoin
