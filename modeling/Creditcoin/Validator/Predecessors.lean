import Creditcoin.Lib.Accesses
import Creditcoin.Lib.Trie
import Creditcoin.Validator.Merkle
import Mathlib.Data.Finset.Option

/-!
# The predecessor tree

The parallel scheduler keeps a tree of the addresses that the transactions of its schedule read and
write, by tokens of two digits. A transaction waits for the transactions that the tree finds for its
inputs and its outputs: the nearest writer at or above an address, the writers below it, and for an
output the readers at, above and below it. The tree is a table of readers and writers by address.
-/

namespace Creditcoin.Validator

open Lib (Trie)
open Lib.Accesses (Marks Table Overlaps)

/-- The readers and the writer of a node of which nothing is known. -/
def unmarked : Marks Text := ⟨[], none⟩

/-- `PredecessorTreeNode`: the readers, the writer and the children by token. -/
abbrev PredecessorTreeNode : Type := Trie Text (Marks Text)

/-- `PredecessorTree`, as its root. -/
structure PredecessorTree where
  /-- `_root`. -/
  root : PredecessorTreeNode
  /-- The children of every node are a dictionary. -/
  distinct : root.Distinct

/-- What the descent from a node to an address finds, after the nearest writer above. The readers
that count are those of a read or a write. -/
def findFrom (readersOf : Marks Text → Finset Text) :
    PredecessorTreeNode → Option Text → List Text → Finset Text
  | node, enclosingWriter, [] =>
    enclosingWriter.toFinset ∪
      Trie.gather (fun marks => readersOf marks ∪ marks.writer.toFinset)
        (Trie.sizes node.children) (node.children.map Prod.snd) ∅
  | node, enclosingWriter, token :: tokens =>
    match node.child token with
    | none => enclosingWriter.toFinset
    | some below =>
      readersOf below.value ∪
        findFrom readersOf below (below.value.writer <|> enclosingWriter) tokens

namespace PredecessorTree

/-- `PredecessorTree.__init__`. -/
def init : PredecessorTree := ⟨.node unmarked [], Trie.distinct_fresh unmarked⟩

/-- The readers and the writer of every address. -/
def table (tree : PredecessorTree) : Table Text Text := tree.root.label unmarked

/-- The node with one reader more. -/
def withReader (reader : Text) (node : PredecessorTreeNode) : PredecessorTreeNode :=
  .node { node.value with readers := node.value.readers ++ [reader] } node.children

/-- A node that was just written. -/
def written (writer : Text) : PredecessorTreeNode := .node ⟨[], some writer⟩ []

/-- One reader more leaves the children. -/
theorem withReader_distinct {reader : Text} (node : PredecessorTreeNode)
    (distinct : node.Distinct) :
    (withReader reader node).Distinct := by
  intro path below found
  cases path with
  | nil =>
    cases found
    exact distinct [] node rfl
  | cons token path => exact distinct (token :: path) below found

/-- A node that was just written has no children. -/
theorem written_distinct (writer : Text) : (written writer).Distinct := by
  intro path below found
  cases path with
  | nil =>
    cases found
    exact List.nodup_nil
  | cons token path => cases found

/-- `add_reader`. -/
def addReader (tree : PredecessorTree) (address reader : Text) : PredecessorTree where
  root := Trie.alter unmarked (withReader reader) (tokenizeAddress address) tree.root
  distinct := tree.distinct.alter withReader_distinct _

/-- `set_writer`. -/
def setWriter (tree : PredecessorTree) (address writer : Text) : PredecessorTree where
  root := Trie.alter unmarked (fun _ => written writer) (tokenizeAddress address) tree.root
  distinct := tree.distinct.alter (fun _ _ => written_distinct writer) _

/-- `find_write_predecessors`. -/
def findWritePredecessors (tree : PredecessorTree) (address : Text) : Finset Text :=
  tree.root.value.readers.toFinset ∪
    findFrom (fun marks => marks.readers.toFinset) tree.root tree.root.value.writer
      (tokenizeAddress address)

/-- `find_read_predecessors`. -/
def findReadPredecessors (tree : PredecessorTree) (address : Text) : Finset Text :=
  findFrom (fun _ => ∅) tree.root tree.root.value.writer (tokenizeAddress address)

end PredecessorTree

/-! ## Writers on the way -/

section Encloses

variable {κ τ : Type} {table : Table κ τ} {path : List κ} {key : κ} {name : τ}

/-- The nearest writer at or above a longer path. -/
theorem encloses_append_singleton :
    table.Encloses (path ++ [key]) name ↔
      (table (path ++ [key])).writer = some name ∨
        (table (path ++ [key])).writer = none ∧ table.Encloses path name := by
  have shorter {outer : List κ} (leads : outer <+: path ++ [key]) :
      outer = path ++ [key] ∨ outer <+: path := by
    rw [List.prefix_concat_iff] at leads
    exact leads
  have longer : ¬ path ++ [key] <+: path := by
    intro leads
    have bound := leads.length_le
    rw [List.length_append, List.length_singleton] at bound
    omega
  constructor
  · rintro ⟨outer, leads, written, nearest⟩
    rcases shorter leads with rfl | above
    · exact .inl written
    · refine .inr ⟨?_, outer, above, written, fun inner forth back =>
        nearest inner forth (back.trans (List.prefix_append _ _))⟩
      by_contra marked
      have same := nearest _ leads List.prefix_rfl marked
      rw [same] at longer
      exact longer above
  · rintro (written | ⟨clear, outer, leads, written, nearest⟩)
    · exact ⟨_, List.prefix_rfl, written, fun inner forth back _ =>
        back.eq_of_length_le forth.length_le⟩
    · refine ⟨outer, leads.trans (List.prefix_append _ _), written, ?_⟩
      intro inner forth back marked
      rcases shorter back with rfl | above
      · exact absurd clear marked
      · exact nearest inner forth above marked

/-- Where no address on the way is written, the nearest writer stays. -/
theorem encloses_append_of_clear {rest : List κ}
    (clear : ∀ later, later ≠ [] → later <+: rest → (table (path ++ later)).writer = none) :
    table.Encloses (path ++ rest) name ↔ table.Encloses path name := by
  induction rest using List.reverseRecOn with
  | nil => rw [List.append_nil]
  | append_singleton rest key ih =>
    have unwritten := clear (rest ++ [key]) (by simp) List.prefix_rfl
    rw [← List.append_assoc] at unwritten
    rw [← List.append_assoc, encloses_append_singleton, unwritten,
      ih fun later some leads => clear later some (leads.trans (List.prefix_append _ _))]
    simp

/-- A path that goes on from the start of another one, and leads to it or from it, goes on with the
same key. -/
theorem goes_on {other tokens : List κ} (leads : path <+: other) (different : other ≠ path)
    (overlap : Overlaps other (path ++ key :: tokens)) : path ++ [key] <+: other := by
  obtain ⟨rest, rfl⟩ := leads
  cases rest with
  | nil => exact absurd (List.append_nil path) different
  | cons first rest =>
    have same : first = key := by
      rcases overlap with down | up
      · exact (List.cons_prefix_cons.mp ((List.prefix_append_right_inj path).mp down)).1
      · exact (List.cons_prefix_cons.mp ((List.prefix_append_right_inj path).mp up)).1.symm
    subst same
    exact (List.prefix_append_right_inj path).mpr
      (List.cons_prefix_cons.mpr ⟨rfl, List.nil_prefix⟩)

end Encloses

/-! ## What is found -/

section Finds

variable {tree : PredecessorTree} {readersOf : Marks Text → Finset Text} {member : Text}

/-- What a descent finds below a node. -/
theorem mem_findFrom (nothing : readersOf unmarked = ∅) {node : PredecessorTreeNode}
    {path tokens : List Text} {enclosingWriter : Option Text}
    (reached : tree.root.get? path = some node)
    (encloses : ∀ name, enclosingWriter = some name ↔ tree.table.Encloses path name) :
    member ∈ findFrom readersOf node enclosingWriter tokens ↔
      tree.table.Encloses (path ++ tokens) member ∨
        (∃ inner, path ++ tokens <+: inner ∧ inner ≠ path ++ tokens ∧
          (tree.table inner).writer = some member) ∨
        ∃ other, path <+: other ∧ other ≠ path ∧ Overlaps other (path ++ tokens) ∧
          member ∈ readersOf (tree.table other) := by
  induction tokens generalizing node path enclosingWriter with
  | nil =>
    have labels (rest : List Text) : tree.table (path ++ rest) = node.label unmarked rest :=
      Trie.label_append reached rest
    have distinct : node.Distinct := by
      intro rest below found
      apply tree.distinct (path ++ rest)
      rw [Trie.get?_append, reached]
      exact found
    have children : ∀ below ∈ node.children.map Prod.snd, below.Distinct := by
      intro below listed
      obtain ⟨⟨token, below'⟩, entry, rfl⟩ := List.mem_map.mp listed
      exact distinct.child ((Trie.lookup_eq_some_iff (distinct [] node rfl)).mpr entry)
    have fresh : readersOf unmarked ∪ unmarked.writer.toFinset = (∅ : Finset Text) := by
      rw [nothing]
      rfl
    rw [findFrom, Finset.mem_union, Option.mem_toFinset, Option.mem_def, encloses, List.append_nil,
      @Trie.mem_gather _ _ _ _ _ (fun marks => readersOf marks ∪ marks.writer.toFinset) unmarked
        fresh _ _ _ (Trie.total_values _).le children]
    rw [@Trie.mem_children _ _ _ _ (fun marks => readersOf marks ∪ marks.writer.toFinset)
      unmarked _ distinct fresh]
    simp only [Finset.notMem_empty, false_or, ← labels, Finset.mem_union, Option.mem_toFinset,
      Option.mem_def]
    apply or_congr_right
    constructor
    · rintro ⟨key, rest, reader | writer⟩
      · exact .inr ⟨path ++ key :: rest, List.prefix_append _ _, by simp,
          .inr (List.prefix_append _ _), reader⟩
      · exact .inl ⟨path ++ key :: rest, List.prefix_append _ _, by simp, writer⟩
    · have further {inner : List Text} (leads : path <+: inner) (different : inner ≠ path) :
          ∃ key rest, inner = path ++ key :: rest := by
        obtain ⟨rest, rfl⟩ := leads
        cases rest with
        | nil => exact absurd (List.append_nil path) different
        | cons key rest => exact ⟨key, rest, rfl⟩
      rintro (⟨inner, leads, different, writer⟩ | ⟨other, leads, different, _, reader⟩)
      · obtain ⟨key, rest, rfl⟩ := further leads different
        exact ⟨key, rest, .inr writer⟩
      · obtain ⟨key, rest, rfl⟩ := further leads different
        exact ⟨key, rest, .inl reader⟩
  | cons token tokens ih =>
    have step : tree.root.get? (path ++ [token]) = node.child token := by
      rw [Trie.get?_append, reached, Option.bind_some, Trie.get?]
      cases node.child token <;> rfl
    have longer (rest : List Text) : path ++ token :: rest = path ++ [token] ++ rest := by simp
    unfold findFrom
    cases next : node.child token with
    | none =>
      -- nothing is known of the addresses from here on
      rw [next] at step
      have beyond {other : List Text} (leads : path ++ [token] <+: other) :
          tree.table other = unmarked := by
        obtain ⟨rest, rfl⟩ := leads
        exact Trie.label_of_missing step
      have clear : ∀ later, later ≠ [] → later <+: token :: tokens →
          (tree.table (path ++ later)).writer = none := by
        intro later some leads
        cases later with
        | nil => exact absurd rfl some
        | cons first later =>
          obtain ⟨rfl, _⟩ := List.cons_prefix_cons.mp leads
          rw [longer later, beyond (List.prefix_append _ _)]
          rfl
      rw [encloses_append_of_clear clear]
      change member ∈ enclosingWriter.toFinset ↔ _
      rw [Option.mem_toFinset, Option.mem_def, encloses]
      constructor
      · exact .inl
      · rintro (found | ⟨inner, leads, _, writer⟩ | ⟨other, leads, different, overlap, reader⟩)
        · exact found
        · rw [longer tokens] at leads
          rw [beyond ((List.prefix_append _ _).trans leads)] at writer
          cases writer
        · rw [beyond (goes_on leads different overlap), nothing] at reader
          exact absurd reader (Finset.notMem_empty member)
    | some below =>
      rw [next] at step
      have own : tree.table (path ++ [token]) = below.value := Trie.label_of_get? step
      have encloses' : ∀ name, (below.value.writer <|> enclosingWriter) = some name ↔
          tree.table.Encloses (path ++ [token]) name := by
        intro name
        rw [encloses_append_singleton, own, ← encloses]
        cases below.value.writer <;> simp
      change member ∈ readersOf below.value ∪ _ ↔ _
      rw [Finset.mem_union, ih step encloses', longer tokens, ← own]
      constructor
      · rintro (reader | found | inner | ⟨other, leads, different, overlap, reader⟩)
        · exact .inr (.inr ⟨path ++ [token], List.prefix_append _ _, by simp,
            .inl (List.prefix_append _ _), reader⟩)
        · exact .inl found
        · exact .inr (.inl inner)
        · refine .inr (.inr ⟨other, (List.prefix_append _ _).trans leads, ?_, overlap, reader⟩)
          rintro rfl
          have bound := leads.length_le
          rw [List.length_append, List.length_singleton] at bound
          omega
      · rintro (found | inner | ⟨other, leads, different, overlap, reader⟩)
        · exact .inr (.inl found)
        · exact .inr (.inr (.inl inner))
        · by_cases same : other = path ++ [token]
          · subst same
            exact .inl reader
          · rw [← longer tokens] at overlap
            have leads' := goes_on leads different overlap
            rw [longer tokens] at overlap
            exact .inr (.inr (.inr ⟨other, leads', same, overlap, reader⟩))

namespace PredecessorTree

/-- At the root the nearest writer is that of the root. -/
theorem encloses_nil (tree : PredecessorTree) (name : Text) :
    tree.root.value.writer = some name ↔ tree.table.Encloses [] name := by
  constructor
  · intro written
    exact ⟨[], List.prefix_rfl, written, fun inner _ back _ => List.prefix_nil.mp back⟩
  · rintro ⟨outer, leads, written, _⟩
    obtain rfl := List.prefix_nil.mp leads
    exact written

/-- A write is preceded by what the table finds for a write. -/
theorem mem_findWritePredecessors {address : Text} :
    member ∈ tree.findWritePredecessors address ↔
      tree.table.Precedes true (tokenizeAddress address) member := by
  rw [findWritePredecessors, Finset.mem_union,
    @mem_findFrom _ _ _ rfl _ [] _ _ rfl tree.encloses_nil, List.nil_append]
  have root : tree.root.value = tree.table [] := rfl
  simp only [List.mem_toFinset, root, Table.Precedes, true_and]
  constructor
  · rintro (reader | found | inner | ⟨other, _, _, overlap, reader⟩)
    · exact .inr (.inr ⟨[], .inl List.nil_prefix, reader⟩)
    · exact .inl found
    · exact .inr (.inl inner)
    · exact .inr (.inr ⟨other, overlap, reader⟩)
  · rintro (found | inner | ⟨other, overlap, reader⟩)
    · exact .inr (.inl found)
    · exact .inr (.inr (.inl inner))
    · by_cases same : other = []
      · subst same
        exact .inl reader
      · exact .inr (.inr (.inr ⟨other, List.nil_prefix, same, overlap, reader⟩))

/-- A read is preceded by what the table finds for a read. -/
theorem mem_findReadPredecessors {address : Text} :
    member ∈ tree.findReadPredecessors address ↔
      tree.table.Precedes false (tokenizeAddress address) member := by
  rw [findReadPredecessors, @mem_findFrom _ _ _ rfl _ [] _ _ rfl tree.encloses_nil, List.nil_append]
  simp [Table.Precedes]

/-- Nothing is known at first. -/
theorem table_init : init.table = fun _ => ⟨[], none⟩ := by
  funext path
  exact Trie.label_fresh unmarked path

/-- A reader is added to the table. -/
theorem table_addReader (tree : PredecessorTree) (address reader : Text) :
    (tree.addReader address reader).table =
      Table.read reader tree.table (tokenizeAddress address) := by
  funext other
  change Trie.label _ _ _ = if other = tokenizeAddress address then _ else _
  by_cases leads : tokenizeAddress address <+: other
  · obtain ⟨rest, rfl⟩ := leads
    let relabel (marks : Table Text Text) (path : List Text) : Marks Text :=
      if path = [] then { marks [] with readers := (marks []).readers ++ [reader] } else marks path
    have relabels (node : PredecessorTreeNode) (path : List Text) :
        (withReader reader node).label unmarked path = relabel (node.label unmarked) path := by
      cases path with
      | nil => rfl
      | cons token path => rfl
    refine (Trie.label_alter_of_prefix relabel relabels _ rest tree.root).trans ?_
    unfold relabel
    by_cases here : rest = []
    · subst here
      simp only [if_true, List.append_nil]
      rfl
    · rw [if_neg here, if_neg (by simpa using here)]
      rfl
  · have different : other ≠ tokenizeAddress address := by
      rintro rfl
      exact leads List.prefix_rfl
    rw [if_neg different]
    exact Trie.label_alter_of_not_prefix leads tree.root

/-- A writer is set in the table. -/
theorem table_setWriter (tree : PredecessorTree) (address writer : Text) :
    (tree.setWriter address writer).table =
      Table.write writer tree.table (tokenizeAddress address) := by
  funext other
  change Trie.label _ _ _ = if other = tokenizeAddress address then _ else _
  by_cases leads : tokenizeAddress address <+: other
  · obtain ⟨rest, rfl⟩ := leads
    let relabel (_ : Table Text Text) (path : List Text) : Marks Text :=
      if path = [] then ⟨[], some writer⟩ else unmarked
    have relabels (node : PredecessorTreeNode) (path : List Text) :
        (written writer).label unmarked path = relabel (node.label unmarked) path := by
      cases path with
      | nil => rfl
      | cons token path => rfl
    refine (Trie.label_alter_of_prefix relabel relabels _ rest tree.root).trans ?_
    unfold relabel
    by_cases here : rest = []
    · subst here
      simp
    · rw [if_neg here, if_neg (by simpa using here), if_pos (List.prefix_append _ _)]
      rfl
  · have different : other ≠ tokenizeAddress address := by
      rintro rfl
      exact leads List.prefix_rfl
    rw [if_neg different, if_neg leads]
    exact Trie.label_alter_of_not_prefix leads tree.root

end PredecessorTree

end Finds

end Creditcoin.Validator
