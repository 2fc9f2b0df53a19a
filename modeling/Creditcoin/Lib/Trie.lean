import Mathlib.Algebra.Ring.Nat
import Mathlib.Data.Finset.Union
import Mathlib.Data.List.Infix

/-!
# Tries

A node of a trie has a value and a dictionary of the nodes below it, by key. A node is named by the
keys on the way to it, so a trie is a table of values by path, with a fresh value for the paths that
have no node. An alteration of the node at a path makes the nodes on the way that are missing. The
nodes below some nodes are visited breadth first.
-/

namespace Lib

/-- A node with its value and the nodes below it. -/
inductive Trie (κ ν : Type) where
  /-- A node. -/
  | node (value : ν) (children : List (κ × Trie κ ν))

namespace Trie

variable {κ ν τ : Type}

/-- The value of a node. -/
def value : Trie κ ν → ν
  | .node value _ => value

/-- The dictionary of a node. -/
def children : Trie κ ν → List (κ × Trie κ ν)
  | .node _ children => children

mutual

/-- The number of nodes of a trie. -/
def size : Trie κ ν → Nat
  | .node _ children => 1 + sizes children

/-- The number of nodes of the tries of a dictionary. -/
def sizes : List (κ × Trie κ ν) → Nat
  | [] => 0
  | (_, trie) :: rest => size trie + sizes rest

end

variable [DecidableEq κ]

/-- `children[key] = trie` of a dictionary: the value of a key that is present is replaced. -/
def put (key : κ) (trie : Trie κ ν) : List (κ × Trie κ ν) → List (κ × Trie κ ν)
  | [] => [(key, trie)]
  | (other, found) :: rest =>
    if other = key then (key, trie) :: rest else (other, found) :: put key trie rest

/-- The node below a node, if there is one. -/
def child (trie : Trie κ ν) (key : κ) : Option (Trie κ ν) := trie.children.lookup key

/-- The node at a path, if there is one. -/
def get? : Trie κ ν → List κ → Option (Trie κ ν)
  | trie, [] => some trie
  | trie, key :: path => (trie.child key).bind fun below => below.get? path

/-- Change the node at a path, where the nodes that are missing are made with a fresh value. -/
def alter (fresh : ν) (change : Trie κ ν → Trie κ ν) : List κ → Trie κ ν → Trie κ ν
  | [], trie => change trie
  | key :: path, trie =>
    .node trie.value (put key
      (alter fresh change path ((trie.child key).getD (.node fresh []))) trie.children)

/-- The value at a path, where a path without a node has the fresh value. -/
def label (fresh : ν) (trie : Trie κ ν) (path : List κ) : ν :=
  ((trie.get? path).map value).getD fresh

/-- Every dictionary of a trie has each key once. -/
def Distinct (trie : Trie κ ν) : Prop :=
  ∀ path below, trie.get? path = some below → (below.children.map Prod.fst).Nodup

/-! ## Dictionaries -/

/-- A key that is put is found, every other key as before. -/
theorem lookup_put (key other : κ) (trie : Trie κ ν) (entries : List (κ × Trie κ ν)) :
    (put key trie entries).lookup other =
      if other = key then some trie else entries.lookup other := by
  induction entries with
  | nil =>
    by_cases same : other = key
    · simp [put, same]
    · simp [put, same, List.lookup_cons, beq_false_of_ne same]
  | cons entry rest ih =>
    obtain ⟨known, found⟩ := entry
    unfold put
    by_cases replaced : known = key
    · subst replaced
      by_cases same : other = known
      · simp [same]
      · simp [same, List.lookup_cons, beq_false_of_ne same]
    · rw [if_neg replaced]
      by_cases first : other = known
      · subst first
        rw [if_neg replaced, List.lookup_cons_self, List.lookup_cons_self]
      · simp only [List.lookup_cons, beq_false_of_ne first]
        exact ih

/-- The keys after one is put. -/
theorem mem_keys_put {key other : κ} {trie : Trie κ ν} {entries : List (κ × Trie κ ν)} :
    other ∈ (put key trie entries).map Prod.fst ↔ other = key ∨ other ∈ entries.map Prod.fst := by
  induction entries with
  | nil => simp [put]
  | cons entry rest ih =>
    obtain ⟨known, found⟩ := entry
    unfold put
    by_cases replaced : known = key
    · subst replaced
      simp
    · rw [if_neg replaced, List.map_cons, List.mem_cons, ih, List.map_cons, List.mem_cons]
      exact or_left_comm

/-- Putting a key keeps the keys of a dictionary distinct. -/
theorem nodup_put {key : κ} {trie : Trie κ ν} {entries : List (κ × Trie κ ν)}
    (distinct : (entries.map Prod.fst).Nodup) : ((put key trie entries).map Prod.fst).Nodup := by
  induction entries with
  | nil => simp [put]
  | cons entry rest ih =>
    obtain ⟨known, found⟩ := entry
    rw [List.map_cons, List.nodup_cons] at distinct
    unfold put
    by_cases replaced : known = key
    · subst replaced
      rw [if_pos rfl, List.map_cons, List.nodup_cons]
      exact distinct
    · rw [if_neg replaced, List.map_cons, List.nodup_cons, mem_keys_put]
      exact ⟨not_or.mpr ⟨replaced, distinct.1⟩, ih distinct.2⟩

/-- In a dictionary with distinct keys, the entries are what is found. -/
theorem lookup_eq_some_iff {key : κ} {trie : Trie κ ν} {entries : List (κ × Trie κ ν)}
    (distinct : (entries.map Prod.fst).Nodup) :
    entries.lookup key = some trie ↔ (key, trie) ∈ entries := by
  induction entries with
  | nil => simp
  | cons entry rest ih =>
    obtain ⟨known, found⟩ := entry
    rw [List.map_cons, List.nodup_cons] at distinct
    by_cases first : key = known
    · subst first
      rw [List.lookup_cons_self, List.mem_cons]
      constructor
      · intro same
        cases same
        exact .inl rfl
      · rintro (same | later)
        · cases same
          rfl
        · exact absurd (List.mem_map_of_mem later) distinct.1
    · simp only [List.lookup_cons, beq_false_of_ne first, List.mem_cons, Prod.mk.injEq, first, false_and,
        false_or]
      exact ih distinct.2

/-! ## Paths -/

/-- The node at a path that goes on is found from the node where it goes on. -/
theorem get?_append (trie : Trie κ ν) (path rest : List κ) :
    trie.get? (path ++ rest) = (trie.get? path).bind fun below => below.get? rest := by
  induction path generalizing trie with
  | nil => rfl
  | cons key path ih =>
    rw [List.cons_append, get?, get?]
    cases trie.child key with
    | none => rfl
    | some below => exact ih below

/-- A path through a node that is missing has the fresh value. -/
theorem label_of_missing {fresh : ν} {trie : Trie κ ν} {path rest : List κ}
    (missing : trie.get? path = none) : trie.label fresh (path ++ rest) = fresh := by
  rw [label, get?_append, missing]
  rfl

/-- The value at a path that goes on is that of the node where it goes on. -/
theorem label_append {fresh : ν} {trie below : Trie κ ν} {path : List κ}
    (found : trie.get? path = some below) (rest : List κ) :
    trie.label fresh (path ++ rest) = below.label fresh rest := by
  rw [label, get?_append, found]
  rfl

/-- The value of a node is the value at the end of its path. -/
theorem label_of_get? {fresh : ν} {trie below : Trie κ ν} {path : List κ}
    (found : trie.get? path = some below) : trie.label fresh path = below.value := by
  rw [label, found]
  rfl

/-- A fresh node has fresh values alone. -/
theorem label_fresh (fresh : ν) (path : List κ) :
    (node fresh [] : Trie κ ν).label fresh path = fresh := by
  cases path with
  | nil => rfl
  | cons key path => rfl

/-- The value behind the first key of a path. -/
theorem label_cons (fresh : ν) (trie : Trie κ ν) (key : κ) (path : List κ) :
    trie.label fresh (key :: path) =
      ((trie.child key).getD (.node fresh [])).label fresh path := by
  rw [label, get?]
  cases trie.child key with
  | none =>
    rw [Option.getD_none, label_fresh]
    rfl
  | some below => rfl

/-- The nodes below the root of an altered trie. -/
theorem child_alter (fresh : ν) (change : Trie κ ν → Trie κ ν) (key : κ) (path : List κ)
    (trie : Trie κ ν) (other : κ) :
    (alter fresh change (key :: path) trie).child other =
      if other = key then
        some (alter fresh change path ((trie.child key).getD (.node fresh [])))
      else trie.child other :=
  lookup_put key other _ _

/-- Outside the path of an alteration the values are as before. -/
theorem label_alter_of_not_prefix {fresh : ν} {change : Trie κ ν → Trie κ ν} {path other : List κ}
    (apart : ¬ path <+: other) (trie : Trie κ ν) :
    (alter fresh change path trie).label fresh other = trie.label fresh other := by
  induction path generalizing trie other with
  | nil => exact absurd List.nil_prefix apart
  | cons key path ih =>
    cases other with
    | nil => rfl
    | cons first other =>
      rw [label_cons, label_cons, child_alter]
      by_cases same : first = key
      · subst same
        rw [if_pos rfl, Option.getD_some]
        exact ih (fun leads => apart (List.cons_prefix_cons.mpr ⟨rfl, leads⟩)) _
      · rw [if_neg same]

/-- From the path of an alteration on the values are those of the changed node. -/
theorem label_alter_of_prefix {fresh : ν} {change : Trie κ ν → Trie κ ν}
    (relabel : (List κ → ν) → List κ → ν)
    (changes : ∀ trie rest, (change trie).label fresh rest = relabel (trie.label fresh) rest)
    (path rest : List κ) (trie : Trie κ ν) :
    (alter fresh change path trie).label fresh (path ++ rest) =
      relabel (fun later => trie.label fresh (path ++ later)) rest := by
  induction path generalizing trie with
  | nil => exact changes trie rest
  | cons key path ih =>
    rw [List.cons_append, label_cons, child_alter, if_pos rfl, Option.getD_some, ih]
    simp only [List.cons_append, label_cons]

/-- A fresh node has distinct keys. -/
theorem distinct_fresh (fresh : ν) : (node fresh [] : Trie κ ν).Distinct := by
  intro path below found
  cases path with
  | nil =>
    cases found
    exact List.nodup_nil
  | cons key path => cases found

/-- The nodes below a node with distinct keys have distinct keys. -/
theorem Distinct.child {trie below : Trie κ ν} {key : κ} (distinct : trie.Distinct)
    (found : trie.child key = some below) : below.Distinct := by
  intro path deeper reached
  apply distinct (key :: path)
  rw [get?, found]
  exact reached

/-- A change that keeps keys distinct does so at every path. -/
theorem Distinct.alter {fresh : ν} {change : Trie κ ν → Trie κ ν}
    (keeps : ∀ trie : Trie κ ν, trie.Distinct → (change trie).Distinct) (path : List κ)
    {trie : Trie κ ν} (distinct : trie.Distinct) : (alter fresh change path trie).Distinct := by
  induction path generalizing trie with
  | nil => exact keeps trie distinct
  | cons key path ih =>
    have below : ((trie.child key).getD (.node fresh [])).Distinct := by
      cases found : trie.child key with
      | none => exact distinct_fresh fresh
      | some below => exact distinct.child found
    intro other deeper found
    cases other with
    | nil =>
      cases found
      exact nodup_put (distinct [] trie rfl)
    | cons first other =>
      rw [get?, child_alter] at found
      by_cases same : first = key
      · rw [if_pos same] at found
        exact ih below other deeper found
      · rw [if_neg same] at found
        exact distinct (first :: other) deeper found

/-! ## Visits -/

section Gather

variable [DecidableEq τ] (found : ν → Finset τ)

/-- Visit the nodes of a queue and those below them, breadth first, and gather what they hold. -/
def gather : Nat → List (Trie κ ν) → Finset τ → Finset τ
  | 0, _, gathered => gathered
  | _ + 1, [], gathered => gathered
  | fuel + 1, trie :: queue, gathered =>
    gather fuel (queue ++ trie.children.map Prod.snd) (gathered ∪ found trie.value)

variable {found} {fresh : ν}

/-- The number of nodes of a queue. -/
def total (queue : List (Trie κ ν)) : Nat := (queue.map size).sum

omit [DecidableEq κ] in
/-- The nodes of a dictionary are those of its entries. -/
theorem total_values (entries : List (κ × Trie κ ν)) :
    total (entries.map Prod.snd) = sizes entries := by
  induction entries with
  | nil => rfl
  | cons entry rest ih =>
    obtain ⟨key, trie⟩ := entry
    rw [sizes, ← ih]
    rfl

omit [DecidableEq τ] in
/-- What the nodes of the dictionary of a node and those below them hold is what the paths that are
not empty hold. -/
theorem mem_children {trie : Trie κ ν} (distinct : trie.Distinct) (nothing : found fresh = ∅)
    {member : τ} :
    (∃ below ∈ trie.children.map Prod.snd, ∃ path, member ∈ found (below.label fresh path)) ↔
      ∃ key path, member ∈ found (trie.label fresh (key :: path)) := by
  have entries {key : κ} {below : Trie κ ν} : trie.child key = some below ↔
      (key, below) ∈ trie.children := lookup_eq_some_iff (distinct [] trie rfl)
  simp only [label_cons]
  constructor
  · rintro ⟨below, listed, path, held⟩
    obtain ⟨⟨key, trie'⟩, entry, rfl⟩ := List.mem_map.mp listed
    refine ⟨key, path, ?_⟩
    rw [entries.mpr entry]
    exact held
  · rintro ⟨key, path, held⟩
    cases reached : trie.child key with
    | none =>
      rw [reached, Option.getD_none, label_fresh, nothing] at held
      exact absurd held (Finset.notMem_empty member)
    | some below =>
      rw [reached, Option.getD_some] at held
      exact ⟨below, List.mem_map_of_mem (entries.mp reached), path, held⟩

omit [DecidableEq τ] in
/-- What the paths from a node hold is what the node and the nodes of its dictionary hold. -/
theorem mem_below {trie : Trie κ ν} (distinct : trie.Distinct) (nothing : found fresh = ∅)
    {member : τ} :
    (∃ path, member ∈ found (trie.label fresh path)) ↔
      member ∈ found trie.value ∨
        ∃ below ∈ trie.children.map Prod.snd, ∃ path, member ∈ found (below.label fresh path) := by
  rw [mem_children distinct nothing]
  constructor
  · rintro ⟨path, held⟩
    cases path with
    | nil => exact .inl held
    | cons key path => exact .inr ⟨key, path, held⟩
  · rintro (own | ⟨key, path, held⟩)
    · exact ⟨[], own⟩
    · exact ⟨key :: path, held⟩

/-- With enough fuel, a visit gathers what the nodes of the queue and those below them hold. -/
theorem mem_gather (nothing : found fresh = ∅) {fuel : Nat} {queue : List (Trie κ ν)}
    {gathered : Finset τ} (enough : total queue ≤ fuel)
    (distinct : ∀ trie ∈ queue, trie.Distinct) {member : τ} :
    member ∈ gather found fuel queue gathered ↔
      member ∈ gathered ∨ ∃ trie ∈ queue, ∃ path, member ∈ found (trie.label fresh path) := by
  induction fuel generalizing queue gathered with
  | zero =>
    cases queue with
    | nil => simp [gather]
    | cons trie queue =>
      -- a node counts itself
      obtain ⟨value, children⟩ := trie
      simp only [total, List.map_cons, List.sum_cons, size] at enough
      omega
  | succ fuel ih =>
    cases queue with
    | nil => simp [gather]
    | cons trie queue =>
      rw [List.forall_mem_cons] at distinct
      have smaller : total (queue ++ trie.children.map Prod.snd) ≤ fuel := by
        have values := total_values trie.children
        obtain ⟨value, children⟩ := trie
        simp only [total, List.map_cons, List.sum_cons, size] at enough
        simp only [total, List.map_append, List.sum_append, Trie.children] at values ⊢
        omega
      have below : ∀ deeper ∈ queue ++ trie.children.map Prod.snd, deeper.Distinct := by
        intro deeper listed
        rcases List.mem_append.mp listed with waiting | listed
        · exact distinct.2 deeper waiting
        · obtain ⟨⟨key, trie'⟩, entry, rfl⟩ := List.mem_map.mp listed
          exact distinct.1.child ((lookup_eq_some_iff (distinct.1 [] trie rfl)).mpr entry)
      rw [gather, ih smaller below, Finset.mem_union, or_assoc]
      simp only [List.mem_append, List.mem_cons, or_and_right, exists_or, exists_eq_left]
      rw [mem_below distinct.1 nothing, or_assoc]
      exact or_congr_right (or_congr_right or_comm)

end Gather

end Trie

end Lib
