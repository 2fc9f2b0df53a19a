import Creditcoin.Changes
import Creditcoin.Script

/-!
# Listings

The six listings of `Housekeeping` amount to one loop over the records that are due, in the order
in which they are listed. The listings answer from the head of the node's chain, everything else
comes from the context of the transaction, so two nodes write the same only when the same records
are due in what they list.
-/

namespace Creditcoin

open Lib

/-! ## Due records -/

/-- The kinds `Housekeeping` lists, in order. -/
def sweptKinds : List Kind := [.askOrder, .bidOrder, .offer, .dealOrder, .repaymentOrder, .fee]

/-- The records a listing hands to its callback, none when it does not answer. -/
def Env.listed (env : Env) (start : Text) : List (Text × Text) :=
  match env.getStatesByPrefix start with
  | .ok pages => pages.flatten
  | .error _ => []

/-- The callback of the listing of a kind. -/
def expire (sha : Sha512) (blockIdx : Int) : Kind → Text → Text → App Unit
  | .askOrder => expireOrder blockIdx
  | .bidOrder => expireOrder blockIdx
  | .offer => expireOffer blockIdx
  | .dealOrder => expireDealOrder sha blockIdx
  | .repaymentOrder => expireRepaymentOrder blockIdx
  | .fee => refundFee sha blockIdx
  | _ => fun _ _ => pure ()

/-- The block of a record can be read by the callback of its kind. -/
def Readable (value : Text) : Kind → Prop
  | .askOrder => ∃ start, IsAmount (Order.parseFromString value).block start
  | .bidOrder => ∃ start, IsAmount (Order.parseFromString value).block start
  | .offer => ∃ start, IsAmount (Offer.parseFromString value).block start
  | .dealOrder => ∃ start, IsAmount (DealOrder.parseFromString value).block start
  | .repaymentOrder => ∃ start, IsAmount (RepaymentOrder.parseFromString value).block start
  | .fee => ∃ start, cppInt (Fee.parseFromString value).block = some start
  | _ => True

/-- What the callback of a kind does to a due record. -/
def settle (sha : Sha512) (record : Kind × Text × Text) : App Unit :=
  match record with
  | (.dealOrder, address, protobuf) => do
    refundDealOrder sha (DealOrder.parseFromString protobuf)
    deleteState address
  | (.fee, address, protobuf) => do
    let walletId := sha.walletId (Fee.parseFromString protobuf).sighash
    let stateData ← getState walletId
    Exec.failIf (stateData = [])
      (.invalidTransaction ("Existing state expected ".toList ++ walletId))
    let wallet := Wallet.parseFromString stateData
    let balance ← Exec.lift (getBigint wallet.amount false)
    setStatePointer walletId { wallet with amount := toText (balance + txFee) }.serializeToString
    deleteState address
  | (_, address, _) => deleteState address

/-- Expiry is decided by reading the block. -/
instance (expiration : UInt64) (block : Text) (height : Int) :
    Decidable (Expired expiration block height) :=
  decidable_of_iff
    ((cppInt block).any fun start =>
      decide (0 ≤ start ∧ (expiration.toNat : Int) < height - start)) (by
    unfold Expired IsAmount
    cases cppInt block with
    | none => simp
    | some start => simp)

/-- Whether a record is due is decided by its fields. -/
instance (env : Env) (blockIdx : Int) (value : Text) :
    (kind : Kind) → Decidable (Due env blockIdx value kind)
  | .askOrder => inferInstanceAs (Decidable (Expired _ _ _))
  | .bidOrder => inferInstanceAs (Decidable (Expired _ _ _))
  | .offer => inferInstanceAs (Decidable (Expired _ _ _))
  | .dealOrder => inferInstanceAs (Decidable (_ ∧ Expired _ _ _ ∧ _))
  | .repaymentOrder => inferInstanceAs (Decidable (Expired _ _ _ ∧ _))
  | .fee =>
    decidable_of_iff
      ((cppInt (Fee.parseFromString value).block).any fun start =>
        decide (yearOfBlocks < blockIdx - start)) (by
      unfold Due
      cases cppInt (Fee.parseFromString value).block with
      | none => simp
      | some start => simp)
  | .wallet => inferInstanceAs (Decidable False)
  | .addr => inferInstanceAs (Decidable False)
  | .transfer => inferInstanceAs (Decidable False)
  | .erc20 => inferInstanceAs (Decidable False)
  | .processedBlock => inferInstanceAs (Decidable False)

/-- The due records, in the order in which they are listed. -/
def dueRecords (sha : Sha512) (env : Env) (blockIdx : Int) : List (Kind × Text × Text) :=
  sweptKinds.flatMap fun kind =>
    ((env.listed (sha.space kind)).filter fun entry => Due env blockIdx entry.2 kind).map
      (Prod.mk kind)

/-- Every listing answers, with records whose blocks can be read. -/
def Env.Legible (sha : Sha512) (env : Env) : Prop :=
  ∀ kind ∈ sweptKinds, (∃ pages, env.getStatesByPrefix (sha.space kind) = .ok pages) ∧
    ∀ entry ∈ env.listed (sha.space kind), Readable entry.2 kind

section Sweep

variable {sha : Sha512} {env : Env} {memory after : Memory} {blockIdx : Int}
  {address protobuf : Text} {result : Unit}

/-- A callback that reads a block and then acts on some heights acts on due records only. -/
theorem actsWhen_ok {read : Except Exception Int} {reads acts : Int → Prop} [DecidablePred acts]
    {due : Prop} [Decidable due] {act : App Unit} (found : ∀ start, read = .ok start ↔ reads start)
    (dues : due ↔ ∃ start, reads start ∧ acts start) :
    (do let start ← Exec.lift read
        if acts start then act else pure ()) env memory = .ok (result, after) ↔
      (∃ start, reads start) ∧
        if due then act env memory = .ok (result, after) else after = memory := by
  simp only [Exec.bind_ok, Exec.lift_ok, Exec.ite_ok, Exec.pure_ok, existsAndEq, true_and, and_assoc]
  cases got : read with
  | error failure =>
    have none : ¬ ∃ start, reads start := by
      rintro ⟨start, held⟩
      rw [(found start).mpr held] at got
      cases got
    simp [none]
  | ok start =>
    have unique (other : Int) : reads other ↔ start = other := by
      rw [← found other, got, Except.ok.injEq]
    have same : due ↔ acts start := by
      rw [dues]
      simp only [unique, exists_eq_left']
    simp only [unique, exists_eq', true_and, Except.ok.injEq, exists_eq_left', same]
    by_cases holds : acts start
    · simp [holds]
    · simp [holds]

/-- A callback acts on due records only. -/
theorem expire_ok (settled : blockIdx < env.head - confirmationCount) {kind : Kind}
    (swept : kind ∈ sweptKinds) :
    expire sha blockIdx kind address protobuf env memory = .ok (result, after) ↔
      Readable protobuf kind ∧ if Due env blockIdx protobuf kind then
        settle sha (kind, address, protobuf) env memory = .ok (result, after)
        else after = memory := by
  have block (text : Text) (start : Int) : getBigint text false = .ok start ↔ IsAmount text start :=
    getBigint_ok
  cases kind with
  | askOrder => exact actsWhen_ok (block _) Iff.rfl
  | bidOrder => exact actsWhen_ok (block _) Iff.rfl
  | offer => exact actsWhen_ok (block _) Iff.rfl
  | dealOrder =>
    refine actsWhen_ok (block _) ?_
    simp only [Due, settled, true_and, Expired, ← and_assoc, exists_and_right]
  | repaymentOrder =>
    refine actsWhen_ok (block _) ?_
    simp only [Due, Expired, ← and_assoc, exists_and_right]
  | fee => exact actsWhen_ok (fun start => makeCppInt_ok) Iff.rfl
  | _ => simp [sweptKinds] at swept

/-- The listing of a kind settles the due records of the kind. -/
theorem filter_expire_ok (live : env.Live) (settled : blockIdx < env.head - confirmationCount)
    {kind : Kind} (swept : kind ∈ sweptKinds) :
    filter (sha.space kind) (expire sha blockIdx kind) env memory = .ok ((), after) ↔
      ((∃ pages, env.getStatesByPrefix (sha.space kind) = .ok pages) ∧
        ∀ entry ∈ env.listed (sha.space kind), Readable entry.2 kind) ∧
      Exec.forEach (((env.listed (sha.space kind)).filter fun entry =>
        Due env blockIdx entry.2 kind).map (Prod.mk kind)) (settle sha) env memory =
          .ok ((), after) := by
  have acts (values : List (Text × Text)) :
      Exec.forEach values (fun entry => expire sha blockIdx kind entry.1 entry.2) env memory =
        .ok ((), after) ↔
      (∀ entry ∈ values, Readable entry.2 kind) ∧
        Exec.forEach (values.filter fun entry => Due env blockIdx entry.2 kind)
          (fun entry => settle sha (kind, entry)) env memory = .ok ((), after) := by
    apply Exec.forEach_filter_ok
    intro entry _ before later
    simpa only [decide_eq_true_eq] using expire_ok settled swept
  rw [filter_ok live, Exec.forEach_map, Env.listed]
  cases answer : env.getStatesByPrefix (sha.space kind) with
  | error failure => simp
  | ok pages => simp only [Except.ok.injEq, exists_eq_left', exists_eq', true_and, acts]

/-- The listings settle the due records. -/
theorem sweep_ok (live : env.Live) (settled : blockIdx < env.head - confirmationCount) :
    sweep sha blockIdx env memory = .ok ((), after) ↔
      env.Legible sha ∧
        Exec.forEach (dueRecords sha env blockIdx) (settle sha) env memory = .ok ((), after) := by
  have listings (kinds : List Kind) (swept : ∀ kind ∈ kinds, kind ∈ sweptKinds) :
      Exec.forEach kinds (fun kind => filter (sha.space kind) (expire sha blockIdx kind))
        env memory = .ok ((), after) ↔
      (∀ kind ∈ kinds, (∃ pages, env.getStatesByPrefix (sha.space kind) = .ok pages) ∧
        ∀ entry ∈ env.listed (sha.space kind), Readable entry.2 kind) ∧
      Exec.forEach (kinds.flatMap fun kind => ((env.listed (sha.space kind)).filter fun entry =>
        Due env blockIdx entry.2 kind).map (Prod.mk kind)) (settle sha) env memory =
          .ok ((), after) := by
    induction kinds generalizing memory with
    | nil => simp
    | cons kind kinds ih =>
      have others : ∀ other ∈ kinds, other ∈ sweptKinds :=
        fun other listed => swept other (List.mem_cons_of_mem _ listed)
      simp only [Exec.forEach_cons_ok, filter_expire_ok live settled (swept kind List.mem_cons_self),
        ih others, List.flatMap_cons, Exec.forEach_append_ok, List.forall_mem_cons]
      constructor
      · rintro ⟨middle, ⟨legible, ran⟩, legibles, later⟩
        exact ⟨⟨legible, legibles⟩, middle, ran, later⟩
      · rintro ⟨⟨legible, legibles⟩, middle, ran, later⟩
        exact ⟨middle, ⟨legible, ran⟩, legibles, later⟩
  have whole := listings sweptKinds fun _ listed => listed
  rw [Env.Legible, dueRecords, ← whole]
  simp only [sweep, Exec.bind_ok, sweptKinds, Exec.forEach_cons_ok, Exec.forEach_nil_ok, expire,
    exists_eq_right', Unique.exists_iff, PUnit.default_eq_unit]

/-- A due deal order is refunded and deleted. -/
theorem settle_deal_ok (live : env.Live) :
    settle sha (.dealOrder, address, protobuf) env memory = .ok (result, after) ↔
      ∃ balance fee, Covers sha memory.state (DealOrder.parseFromString protobuf).sighash 0 balance ∧
        IsAmount (DealOrder.parseFromString protobuf).fee fee ∧
        after = { memory with state := (memory.state.setAll
          [walletEntry sha memory.state (DealOrder.parseFromString protobuf).sighash
            (balance + fee)]).erase address } := by
  simp only [settle, Exec.bind_ok, refundDealOrder_ok live, deleteState_ok live, existsAndEq,
    exists_const, true_and, and_assoc]

/-- A due fee record is deleted, and the raised wallet is written as a key. -/
theorem settle_fee_ok (live : env.Live) :
    settle sha (.fee, address, protobuf) env memory = .ok (result, after) ↔
      ∃ balance, Covers sha memory.state (Fee.parseFromString protobuf).sighash 0 balance ∧
        after = { memory with state := (memory.state.set
          (walletEntry sha memory.state (Fee.parseFromString protobuf).sighash
            (balance + txFee)).2
          (sha.walletId (Fee.parseFromString protobuf).sighash)).erase address } := by
  simp only [settle, Exec.bind_ok, getState_ok live, Exec.failIf_ok, Exec.lift_ok, getBigint_ok,
    setStatePointer_ok live, deleteState_ok live, existsAndEq, exists_const, true_and, and_assoc]
  constructor
  · rintro ⟨present, balance, read, rfl⟩
    exact ⟨balance, ⟨present, read.1, read.2, read.2⟩, rfl⟩
  · rintro ⟨balance, covers, rfl⟩
    exact ⟨covers.present, balance, ⟨covers.read, covers.nonneg⟩, rfl⟩

/-- A due record of another kind is deleted. -/
theorem settle_ok (live : env.Live) {kind : Kind} (noDeal : kind ≠ .dealOrder)
    (noFee : kind ≠ .fee) :
    settle sha (kind, address, protobuf) env memory = .ok (result, after) ↔
      after = { memory with state := memory.state.erase address } := by
  cases kind with
  | dealOrder => exact absurd rfl noDeal
  | fee => exact absurd rfl noFee
  | _ => exact deleteState_ok live

/-- Listings without records change nothing. -/
theorem sweep_bare (live : env.Live) (settled : blockIdx < env.head - confirmationCount)
    (bare : ∀ start, ∃ pages, env.getStatesByPrefix start = .ok pages ∧ pages.flatten = []) :
    sweep sha blockIdx env memory = .ok ((), memory) := by
  have empty (start : Text) : env.listed start = [] := by
    obtain ⟨pages, answer, none⟩ := bare start
    simp only [Env.listed, answer, none]
  have none : dueRecords sha env blockIdx = [] := by
    simp [dueRecords, empty]
  rw [sweep_ok live settled, none]
  refine ⟨fun kind _ => ⟨?_, fun entry listed => ?_⟩, Exec.forEach_nil_ok.mpr rfl⟩
  · obtain ⟨pages, answer, _⟩ := bare (sha.space kind)
    exact ⟨pages, answer⟩
  · rw [empty] at listed
    cases listed

end Sweep

end Creditcoin
