import Creditcoin.Text
import Mathlib.Data.List.Lex
import Mathlib.Data.List.Sort
import Mathlib.Data.List.TakeWhile
import Mathlib.Data.Char

/-!
# The state tree

The state of a block is a tree: a node has a value or not, and branches named by tokens of two
digits of an address. The leaves under a node are yielded in address order of a chosen direction.
With a start address they are yielded from the leaf with that address on, and not at all when there
is none.
-/

namespace Creditcoin.Validator

/-- `TOKEN_SIZE`. -/
def tokenSize : Nat := 2

/-- What `_get_by_hash` finds: a node has its value, the tokens of its branches, and what is found
behind a branch. -/
inductive Node where
  /-- Nothing is found. -/
  | missing
  /-- A node of the tree. -/
  | node (v : Option Text) (tokens : List Text) (child : Text → Node)

namespace Node

/-- The tokens of the branches of a node. -/
def tokens : Node → List Text
  | .missing => []
  | .node _ tokens _ => tokens

/-- The node behind a branch. -/
def child : Node → Text → Node
  | .missing => fun _ => .missing
  | .node _ _ child => child

end Node

/-! ## Address order -/

/-- Addresses come in this order. -/
def Before (reverse : Bool) (left right : Text) : Prop :=
  if reverse then right < left else left < right

/-- `sorted(tokens, reverse=reverse)`. -/
def sortTokens (reverse : Bool) (tokens : List Text) : List Text :=
  if reverse then tokens.insertionSort (· ≥ ·) else tokens.insertionSort (· ≤ ·)

/-- The order is strict. -/
theorem before_irrefl {reverse : Bool} {address : Text} : ¬ Before reverse address address := by
  cases reverse
  · exact lt_irrefl address
  · exact lt_irrefl address

/-- Texts of one length are ordered as all their continuations. -/
theorem append_lt_append {left right : Text} (same : left.length = right.length)
    (less : left < right) (first second : Text) : left ++ first < right ++ second := by
  induction left generalizing right with
  | nil =>
    obtain rfl := List.length_eq_zero_iff.mp same.symm
    exact absurd less (lt_irrefl _)
  | cons c left ih =>
    cases right with
    | nil => cases same
    | cons d right =>
      rw [List.cons_append, List.cons_append, List.cons_lt_cons_iff]
      rcases List.cons_lt_cons_iff.mp less with lower | ⟨rfl, after⟩
      · exact .inl lower
      · exact .inr ⟨rfl, ih (Nat.succ.inj same) after⟩

/-- Behind one path, the order of texts is that of their addresses. -/
theorem append_lt_iff {path left right : Text} : path ++ left < path ++ right ↔ left < right := by
  induction path with
  | nil => rfl
  | cons c path ih =>
    rw [List.cons_append, List.cons_append, List.cons_lt_cons_iff]
    constructor
    · rintro (less | ⟨_, less⟩)
      · exact absurd less (lt_irrefl c)
      · exact ih.mp less
    · intro less
      exact .inr ⟨rfl, ih.mpr less⟩

/-- Addresses behind two branches are ordered as the branches. -/
theorem before_of_tokens {reverse : Bool} {path left right : Text}
    (same : left.length = right.length) (ordered : Before reverse left right)
    {first second : Text} (leads : path ++ left <+: first) (leads' : path ++ right <+: second) :
    Before reverse first second := by
  obtain ⟨after, rfl⟩ := leads
  obtain ⟨after', rfl⟩ := leads'
  cases reverse
  · simp only [Before, Bool.false_eq_true, if_false, List.append_assoc] at ordered ⊢
    exact append_lt_iff.mpr (append_lt_append same ordered _ _)
  · simp only [Before, if_true, List.append_assoc] at ordered ⊢
    exact append_lt_iff.mpr (append_lt_append same.symm ordered _ _)

/-- Sorting keeps the tokens. -/
theorem mem_sortTokens {reverse : Bool} {tokens : List Text} {token : Text} :
    token ∈ sortTokens reverse tokens ↔ token ∈ tokens := by
  unfold sortTokens
  split <;> exact (List.perm_insertionSort _ tokens).mem_iff

/-- Different tokens are sorted strictly. -/
theorem sortTokens_pairwise (reverse : Bool) {tokens : List Text} (distinct : tokens.Nodup) :
    (sortTokens reverse tokens).Pairwise (Before reverse) := by
  cases reverse
  · have kept : (tokens.insertionSort (· ≤ ·)).Nodup :=
      (List.perm_insertionSort _ tokens).nodup_iff.mpr distinct
    have sorted := List.pairwise_insertionSort (· ≤ ·) tokens
    exact (sorted.and kept).imp fun ordered => lt_of_le_of_ne ordered.1 ordered.2
  · have kept : (tokens.insertionSort (· ≥ ·)).Nodup :=
      (List.perm_insertionSort _ tokens).nodup_iff.mpr distinct
    have sorted := List.pairwise_insertionSort (· ≥ ·) tokens
    exact (sorted.and kept).imp fun ordered => lt_of_le_of_ne ordered.1 (Ne.symm ordered.2)

/-! ## Leaves -/

namespace Node

/-- The addresses and the values of a node and the nodes under it. -/
def values : Node → Text → List (Text × Text)
  | .missing, _ => []
  | .node v tokens child, path =>
    (v.map fun value => (path, value)).toList ++
      tokens.flatMap fun token => (child token).values (path ++ token)

/-- `_yield_iter_leaves`. -/
def yieldIterLeaves (reverse : Bool) : Node → Text → Text → List (Text × Text)
  | .missing, _, _ => []
  | .node (some value) _ _, path, _ => [(path, value)]
  | .node none tokens child, path, start =>
    let visit := fun subPath => (child subPath).yieldIterLeaves reverse (path ++ subPath) []
    if start = [] then (sortTokens reverse tokens).flatMap visit
    else
      -- The first loop skips the branches before the one that leads to the start.
      match (sortTokens reverse tokens).dropWhile fun subPath =>
        decide (path ++ subPath ≠ start.take (path ++ subPath).length) with
      | [] => []
      | subPath :: subPaths =>
        match (child subPath).yieldIterLeaves reverse (path ++ subPath) start with
        | [] => []
        | leaf :: leaves => leaf :: leaves ++ subPaths.flatMap visit

/-- The branches of a node are named by different tokens, each of two digits, and lead to nodes for
which the same holds. -/
def Regular : Node → Prop
  | .missing => False
  | .node _ tokens child =>
    tokens.Nodup ∧ ∀ token ∈ tokens,
      token.length = tokenSize ∧ token.isHex = true ∧ (child token).Regular

/-- The address of a value continues the path of the node. -/
theorem values_path {node : Node} {path : Text} {entry : Text × Text}
    (listed : entry ∈ node.values path) : path <+: entry.1 := by
  induction node generalizing path with
  | missing => cases listed
  | node v tokens child ih =>
    rw [values, List.mem_append] at listed
    rcases listed with own | under
    · cases v with
      | none => cases own
      | some value =>
        obtain rfl := List.mem_singleton.mp own
        exact List.prefix_rfl
    · obtain ⟨token, _, listed⟩ := List.mem_flatMap.mp under
      exact (List.prefix_append _ _).trans (ih token listed)

variable {reverse : Bool} {size : Nat}

/-- When the values have addresses of one length, the leaves are all values. -/
theorem mem_yieldIterLeaves {node : Node} {path : Text} (regular : node.Regular)
    (full : ∀ entry ∈ node.values path, entry.1.length = size) (entry : Text × Text) :
    entry ∈ node.yieldIterLeaves reverse path [] ↔ entry ∈ node.values path := by
  induction node generalizing path with
  | missing => cases regular
  | node v tokens child ih =>
    obtain ⟨_, branches⟩ := regular
    cases v with
    | none =>
      simp only [yieldIterLeaves, if_true, values, Option.map_none, Option.toList_none,
        List.nil_append, List.mem_flatMap, mem_sortTokens] at full ⊢
      constructor
      · rintro ⟨token, listed, yielded⟩
        have under := fun other found => full other ⟨token, listed, found⟩
        exact ⟨token, listed, (ih token (branches token listed).2.2 under).mp yielded⟩
      · rintro ⟨token, listed, found⟩
        have under := fun other found => full other ⟨token, listed, found⟩
        exact ⟨token, listed, (ih token (branches token listed).2.2 under).mpr found⟩
    | some value =>
      -- A value under this one would have a longer address.
      have own : path.length = size := full (path, value) (by simp [values])
      have alone : ∀ token ∈ tokens, ∀ other, other ∉ (child token).values (path ++ token) := by
        intro token listed other found
        have long := (values_path found).length_le
        have same : other.1.length = size := by
          apply full
          rw [values, List.mem_append]
          exact .inr (List.mem_flatMap.mpr ⟨token, listed, found⟩)
        have two := (branches token listed).1
        rw [List.length_append] at long
        simp only [tokenSize] at two
        omega
      simp only [yieldIterLeaves, values, Option.map_some, Option.toList_some, List.mem_append,
        List.mem_singleton, List.mem_flatMap]
      constructor
      · exact .inl
      · rintro (same | ⟨token, listed, found⟩)
        · exact same
        · exact absurd found (alone token listed entry)

/-- The address of a leaf continues the path of the node. -/
theorem yieldIterLeaves_path {node : Node} {path : Text} {entry : Text × Text}
    (yielded : entry ∈ node.yieldIterLeaves reverse path []) : path <+: entry.1 := by
  induction node generalizing path with
  | missing => cases yielded
  | node v tokens child ih =>
    cases v with
    | none =>
      simp only [yieldIterLeaves, if_true] at yielded
      obtain ⟨token, _, yielded⟩ := List.mem_flatMap.mp yielded
      exact (List.prefix_append _ _).trans (ih token yielded)
    | some value =>
      obtain rfl := List.mem_singleton.mp yielded
      exact List.prefix_rfl

/-- Leaves are yielded in address order. -/
theorem yieldIterLeaves_pairwise {node : Node} {path : Text} (regular : node.Regular) :
    (node.yieldIterLeaves reverse path []).Pairwise fun earlier later =>
      Before reverse earlier.1 later.1 := by
  induction node generalizing path with
  | missing => cases regular
  | node v tokens child ih =>
    obtain ⟨distinct, branches⟩ := regular
    cases v with
    | none =>
      simp only [yieldIterLeaves, if_true]
      rw [List.pairwise_flatMap]
      constructor
      · intro token listed
        exact ih token (branches token (mem_sortTokens.mp listed)).2.2
      · have sorted := sortTokens_pairwise reverse distinct
        apply List.Pairwise.imp_of_mem _ sorted
        intro left right listed listed' ordered entry yielded entry' yielded'
        have same : left.length = right.length := by
          rw [(branches left (mem_sortTokens.mp listed)).1,
            (branches right (mem_sortTokens.mp listed')).1]
        exact before_of_tokens same ordered (yieldIterLeaves_path yielded)
          (yieldIterLeaves_path yielded')
    | some value => exact List.pairwise_singleton _ _

/-- Of two branches of one length, an address continues one. -/
theorem token_eq {path left right start : Text} (same : left.length = right.length)
    (leads : path ++ left <+: start) (leads' : path ++ right <+: start) : left = right := by
  have same' : (path ++ left).length = (path ++ right).length := by
    rw [List.length_append, List.length_append, same]
  have equal := (List.prefix_of_prefix_length_le leads leads' same'.le).eq_of_length same'
  exact List.append_cancel_left equal

/-- With the address of a leaf as the start, the leaves before it are left out. -/
theorem yieldIterLeaves_start {node : Node} {path start : Text} (regular : node.Regular)
    (given : start ≠ [])
    (listed : ∃ entry ∈ node.yieldIterLeaves reverse path [], entry.1 = start) :
    node.yieldIterLeaves reverse path start =
      (node.yieldIterLeaves reverse path []).dropWhile fun entry => decide (entry.1 ≠ start) := by
  induction node generalizing path with
  | missing => cases regular
  | node v tokens child ih =>
    obtain ⟨distinct, branches⟩ := regular
    cases v with
    | some value =>
      obtain ⟨entry, yielded, rfl⟩ := listed
      obtain rfl := List.mem_singleton.mp yielded
      simp [yieldIterLeaves]
    | none =>
      obtain ⟨entry, yielded, named⟩ := listed
      simp only [yieldIterLeaves, if_true] at yielded
      obtain ⟨token, member, yielded⟩ := List.mem_flatMap.mp yielded
      have sorted := sortTokens_pairwise reverse distinct
      obtain ⟨before, after, split⟩ := List.append_of_mem member
      have leads : path ++ token <+: start := named ▸ yieldIterLeaves_path yielded
      have same : ∀ other ∈ before, other.length = token.length := by
        intro other earlier
        have kept : other ∈ sortTokens reverse tokens :=
          split ▸ List.mem_append_left _ earlier
        rw [(branches other (mem_sortTokens.mp kept)).1,
          (branches token (mem_sortTokens.mp member)).1]
      have apart : ∀ other ∈ before, ¬ path ++ other <+: start := by
        intro other earlier leads'
        rw [split, List.pairwise_append] at sorted
        have ordered := sorted.2.2 other earlier token List.mem_cons_self
        rw [token_eq (same other earlier) leads' leads] at ordered
        exact before_irrefl ordered
      have under := ih token (branches token (mem_sortTokens.mp member)).2.2 ⟨entry, yielded, named⟩
      have skipped : (sortTokens reverse tokens).dropWhile (fun subPath =>
          decide (path ++ subPath ≠ start.take (path ++ subPath).length)) = token :: after := by
        rw [split, List.dropWhile_append_of_pos, List.dropWhile_cons_of_neg]
        · simp only [decide_eq_true_eq, not_not]
          exact List.prefix_iff_eq_take.mp leads
        · intro other earlier
          rw [decide_eq_true_eq]
          intro cut
          exact apart other earlier (List.prefix_iff_eq_take.mpr cut)
      have dropped : ((sortTokens reverse tokens).flatMap fun subPath =>
          (child subPath).yieldIterLeaves reverse (path ++ subPath) []).dropWhile
            (fun entry => decide (entry.1 ≠ start)) =
          ((child token).yieldIterLeaves reverse (path ++ token) []).dropWhile
            (fun entry => decide (entry.1 ≠ start)) ++
          after.flatMap fun subPath =>
            (child subPath).yieldIterLeaves reverse (path ++ subPath) [] := by
        rw [split, List.flatMap_append, List.dropWhile_append_of_pos, List.flatMap_cons,
          List.dropWhile_append, if_neg]
        · rw [List.isEmpty_iff, List.dropWhile_eq_nil_iff]
          intro all
          exact of_decide_eq_true (all entry yielded) named
        · intro other found
          obtain ⟨subPath, earlier, found⟩ := List.mem_flatMap.mp found
          rw [decide_eq_true_eq]
          intro equal
          exact apart subPath earlier (equal ▸ yieldIterLeaves_path found)
      simp only [yieldIterLeaves, if_neg given, if_true, skipped, dropped, under]
      cases rest : ((child token).yieldIterLeaves reverse (path ++ token) []).dropWhile
          (fun entry => decide (entry.1 ≠ start)) with
      | nil =>
        rw [List.dropWhile_eq_nil_iff] at rest
        exact absurd named (of_decide_eq_true (rest entry yielded))
      | cons leaf leaves => rfl

end Node

/-! ## Nodes by address -/

/-- `_tokenize_address`. -/
def tokenizeAddress : Text → List Text
  | [] => []
  | [last] => [[last]]
  | first :: second :: rest => [first, second] :: tokenizeAddress rest

/-- The node behind a branch, when there is the branch. -/
def Node.descend (node : Node) (token : Text) : Option Node :=
  if token ∈ node.tokens then some (node.child token) else none

/-- `_get_by_addr`. -/
def Node.getByAddr (node : Node) (address : Text) : Option Node :=
  (tokenizeAddress address).foldlM Node.descend node

/-- The tokens of an address are the address. -/
theorem tokenizeAddress_flatten (address : Text) : (tokenizeAddress address).flatten = address := by
  induction address using tokenizeAddress.induct with
  | case1 => rfl
  | case2 last => rfl
  | case3 first second rest ih => simp [tokenizeAddress, ih]

/-- An address of even length has tokens of two digits. -/
theorem tokenizeAddress_length {address : Text} (even : address.length % 2 = 0) :
    ∀ token ∈ tokenizeAddress address, token.length = tokenSize := by
  induction address using tokenizeAddress.induct with
  | case1 => simp [tokenizeAddress]
  | case2 last => simp at even
  | case3 first second rest ih =>
    intro token listed
    rcases List.mem_cons.mp listed with rfl | later
    · rfl
    · apply ih _ token later
      simp only [List.length_cons] at even
      omega

/-- What is found behind tokens has the values whose addresses continue them. -/
theorem descend_values {tokens : List Text} (two : ∀ token ∈ tokens, token.length = tokenSize)
    {node : Node} (regular : node.Regular) (path : Text) :
    match tokens.foldlM Node.descend node with
    | some found => found.Regular ∧ ∀ entry, entry ∈ found.values (path ++ tokens.flatten) ↔
        entry ∈ node.values path ∧ path ++ tokens.flatten <+: entry.1
    | none => ∀ entry ∈ node.values path, ¬ path ++ tokens.flatten <+: entry.1 := by
  induction tokens generalizing node path with
  | nil =>
    simp only [List.foldlM_nil, List.flatten_nil, List.append_nil]
    exact ⟨regular, fun entry => ⟨fun listed => ⟨listed, Node.values_path listed⟩, And.left⟩⟩
  | cons token tokens ih =>
    cases node with
    | missing => cases regular
    | node v branches child =>
      obtain ⟨_, each⟩ := regular
      have long := two token List.mem_cons_self
      -- The values that continue the token are those behind its branch.
      have behind : ∀ entry : Text × Text, path ++ (token :: tokens).flatten <+: entry.1 →
          (entry ∈ Node.values (.node v branches child) path ↔
            token ∈ branches ∧ entry ∈ (child token).values (path ++ token)) := by
        intro entry leads
        have leads' : path ++ token <+: entry.1 := by
          apply List.IsPrefix.trans _ leads
          rw [List.flatten_cons, ← List.append_assoc]
          exact List.prefix_append _ _
        rw [Node.values, List.mem_append, List.mem_flatMap]
        constructor
        · rintro (own | ⟨other, listed, found⟩)
          · cases v with
            | none => cases own
            | some value =>
              obtain rfl := List.mem_singleton.mp own
              have short := leads'.length_le
              rw [List.length_append, long] at short
              simp only [tokenSize] at short
              omega
          · have same : other.length = token.length := by rw [(each other listed).1, long]
            obtain rfl := Node.token_eq same (Node.values_path found) leads'
            exact ⟨listed, found⟩
        · rintro ⟨listed, found⟩
          exact .inr ⟨token, listed, found⟩
      rw [List.foldlM_cons]
      by_cases listed : token ∈ branches
      · have step : Node.descend (.node v branches child) token = some (child token) :=
          if_pos listed
        rw [step, Option.bind_eq_bind, Option.bind_some]
        have rest := ih (fun other member => two other (List.mem_cons_of_mem _ member))
          (each token listed).2.2 (path ++ token)
        have whole : path ++ token ++ tokens.flatten = path ++ (token :: tokens).flatten := by
          rw [List.flatten_cons, List.append_assoc]
        rw [whole] at rest
        split at rest
        · refine ⟨rest.1, ?_⟩
          intro entry
          rw [rest.2]
          constructor
          · rintro ⟨found, leads⟩
            exact ⟨(behind entry leads).mpr ⟨listed, found⟩, leads⟩
          · rintro ⟨found, leads⟩
            exact ⟨((behind entry leads).mp found).2, leads⟩
        · intro entry found leads
          exact rest entry ((behind entry leads).mp found).2 leads
      · have step : Node.descend (.node v branches child) token = none := if_neg listed
        rw [step, Option.bind_eq_bind, Option.bind_none]
        intro entry found leads
        exact listed ((behind entry leads).mp found).1

end Creditcoin.Validator
