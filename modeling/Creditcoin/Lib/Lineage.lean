import Mathlib.Data.List.Basic

/-!
# Lines of descent

A forest gives elements parents, and a depth that falls from an element to its parent. The line of
an element is the element, its parent and so on up to a root. A branch is the part of a line above
an ancestor. Branches to one ancestor are unique, so two of them that meet above it do so at
elements of the same distance from it.
-/

namespace Lib

/-- Elements with parents; no line of parents returns. -/
structure Forest (α : Type) where
  parent : α → Option α
  depth : α → Nat
  older : ∀ {a p}, parent a = some p → depth p < depth a

namespace Forest
variable {α : Type} (forest : Forest α)

/-- So many elements of a line. -/
def lineFrom : Nat → α → List α
  | 0, a => [a]
  | more + 1, a =>
    match forest.parent a with
    | some p => a :: lineFrom more p
    | none => [a]

/-- The line of an element. -/
def line (a : α) : List α := forest.lineFrom (forest.depth a) a

/-- The elements from one down to an ancestor, the ancestor left out. -/
inductive Branch (root : α) : α → List α → Prop where
  /-- No element is above the ancestor. -/
  | nil : Branch root root []
  /-- An element is above its parent. -/
  | cons {a p : α} {rest : List α} (child : forest.parent a = some p) (below : Branch root p rest) :
      Branch root a (a :: rest)

variable {forest} {a b p root : α} {branch branch' : List α}

/-- More than the depth adds nothing to a line. -/
theorem lineFrom_eq {more : Nat} (enough : forest.depth a ≤ more) :
    forest.lineFrom more a = forest.line a := by
  suffices steady : ∀ more more', forest.depth a ≤ more → forest.depth a ≤ more' →
      forest.lineFrom more a = forest.lineFrom more' a from
    steady more _ enough (Nat.le_refl _)
  clear enough more
  intro more more' enough enough'
  induction more generalizing more' a with
  | zero =>
    have root : forest.parent a = none := by
      cases found : forest.parent a with
      | none => rfl
      | some p =>
        have older := forest.older found
        omega
    cases more' with
    | zero => rfl
    | succ more' => simp only [lineFrom, root]
  | succ more ih =>
    cases found : forest.parent a with
    | none =>
      cases more' with
      | zero => simp only [lineFrom, found]
      | succ more' => simp only [lineFrom, found]
    | some p =>
      have older := forest.older found
      cases more' with
      | zero => omega
      | succ more' =>
        simp only [lineFrom, found]
        rw [ih more' (by omega) (by omega)]

/-- The line of a child. -/
theorem line_of_parent (child : forest.parent a = some p) :
    forest.line a = a :: forest.line p := by
  have older := forest.older child
  have long : forest.lineFrom (forest.depth a + 1) a = forest.line a :=
    lineFrom_eq (Nat.le_succ _)
  rw [← long]
  simp only [lineFrom, child]
  rw [lineFrom_eq (by omega)]

/-- No element of a line is deeper than its first. -/
theorem depth_le_of_mem_lineFrom {more : Nat} (listed : b ∈ forest.lineFrom more a) :
    forest.depth b ≤ forest.depth a := by
  induction more generalizing a with
  | zero =>
    rw [lineFrom, List.mem_singleton] at listed
    subst listed
    exact Nat.le_refl _
  | succ more ih =>
    unfold lineFrom at listed
    split at listed
    · rename_i p child
      rcases List.mem_cons.mp listed with rfl | later
      · exact Nat.le_refl _
      · have older := forest.older child
        have deep := ih later
        omega
    · rw [List.mem_singleton] at listed
      subst listed
      exact Nat.le_refl _

namespace Branch

/-- Elements above an ancestor are deeper. -/
theorem depth_le (above : forest.Branch root a branch) :
    forest.depth root + branch.length ≤ forest.depth a := by
  induction above with
  | nil => simp
  | cons child below ih =>
    have older := forest.older child
    rw [List.length_cons]
    omega

/-- An element is on its branch only, and the branch is empty only at the ancestor. -/
theorem nil_iff (above : forest.Branch root a branch) : branch = [] ↔ a = root := by
  constructor
  · intro empty
    cases above with
    | nil => rfl
    | cons child below => contradiction
  · intro same
    have deeper := above.depth_le
    rw [same] at deeper
    exact List.eq_nil_of_length_eq_zero (by omega)

/-- A branch starts at its element. -/
theorem head_eq (above : forest.Branch root a (b :: branch)) : b = a := by
  cases above
  rfl

/-- The branch to an ancestor is unique. -/
theorem unique (above : forest.Branch root a branch) (above' : forest.Branch root a branch') :
    branch = branch' := by
  induction above generalizing branch' with
  | nil => exact (above'.nil_iff.mpr rfl).symm
  | cons child below ih =>
    cases above' with
    | nil =>
      have deeper := below.depth_le
      have older := forest.older child
      omega
    | cons child' below' =>
      rw [child, Option.some_inj] at child'
      subst child'
      rw [ih below']

/-- A line is a branch and the line of the ancestor. -/
theorem line_eq (above : forest.Branch root a branch) :
    forest.line a = branch ++ forest.line root := by
  induction above with
  | nil => rfl
  | cons child below ih => rw [line_of_parent child, ih, List.cons_append]

/-- A branch over a branch. -/
theorem append (above : forest.Branch b a branch) (below : forest.Branch root b branch') :
    forest.Branch root a (branch ++ branch') := by
  induction above with
  | nil => exact below
  | cons child _ ih => exact .cons child ih

/-- A branch is cut at any distance. -/
theorem split (above : forest.Branch root a branch) {count : Nat} (within : count ≤ branch.length) :
    ∃ b, forest.Branch b a (branch.take count) ∧ forest.Branch root b (branch.drop count) := by
  induction count generalizing a branch with
  | zero => exact ⟨a, .nil, above⟩
  | succ count ih =>
    cases above with
    | nil => simp at within
    | cons child below =>
      have ⟨b, upper, lower⟩ := ih below (Nat.le_of_succ_le_succ within)
      exact ⟨b, .cons child upper, lower⟩

/-- Each element of a branch has a branch of its own. -/
theorem of_mem (above : forest.Branch root a branch) (listed : b ∈ branch) :
    ∃ upper lower, branch = upper ++ b :: lower ∧ forest.Branch b a upper ∧
      forest.Branch root b (b :: lower) := by
  induction above with
  | nil => exact absurd listed List.not_mem_nil
  | @cons a p rest child below ih =>
    rcases List.mem_cons.mp listed with rfl | later
    · exact ⟨[], rest, rfl, .nil, .cons child below⟩
    · have ⟨upper, lower, shape, above, below⟩ := ih later
      exact ⟨a :: upper, lower, by rw [shape, List.cons_append], .cons child above, below⟩

/-- Of two ancestors of an element one is on the branch to the other. -/
theorem comparable {root' : α} (above : forest.Branch root a branch)
    (above' : forest.Branch root' a branch') : root = root' ∨ root ∈ branch' ∨ root' ∈ branch := by
  induction above generalizing branch' with
  | nil =>
    cases above' with
    | nil => exact .inl rfl
    | cons child below => exact .inr (.inl List.mem_cons_self)
  | cons child below ih =>
    cases above' with
    | nil => exact .inr (.inr List.mem_cons_self)
    | cons child' below' =>
      rw [child, Option.some_inj] at child'
      subst child'
      rcases ih below' with same | on | on
      · exact .inl same
      · exact .inr (.inl (List.mem_cons_of_mem _ on))
      · exact .inr (.inr (List.mem_cons_of_mem _ on))

/-- The elements of a branch are not on the line of the ancestor. -/
theorem notMem_line (above : forest.Branch root a branch) (listed : b ∈ branch) :
    b ∉ forest.line root := by
  intro onLine
  have ⟨_, _, _, _, below⟩ := above.of_mem listed
  have deeper := below.depth_le
  have deep := depth_le_of_mem_lineFrom onLine
  rw [List.length_cons] at deeper
  omega

/-- Two branches to one ancestor do not meet when their ends of one length, the whole of the second
one, differ at each distance. -/
theorem disjoint {upper ends : List α} (above : forest.Branch root a (upper ++ ends))
    (above' : forest.Branch root b branch') (even : ends.length = branch'.length)
    (apart : ∀ pair ∈ ends.zip branch', pair.1 ≠ pair.2) :
    ∀ c ∈ upper ++ ends, c ∉ branch' := by
  intro c listed listed'
  have ⟨before, after, shape, _, below⟩ := above.of_mem listed
  have ⟨before', after', shape', _, below'⟩ := above'.of_mem listed'
  have same := below.unique below'
  rw [List.cons_inj_right] at same
  subst same
  have lengths := congrArg List.length shape
  have lengths' := congrArg List.length shape'
  simp only [List.length_append, List.length_cons] at lengths lengths'
  have ⟨top, front⟩ : ∃ top, before = upper ++ top := by
    have cut := congrArg (List.take upper.length) shape
    rw [List.take_left, List.take_append_of_le_length (by omega)] at cut
    refine ⟨before.drop upper.length, ?_⟩
    calc
      before = before.take upper.length ++ before.drop upper.length :=
        (List.take_append_drop _ _).symm
      _ = upper ++ before.drop upper.length := by rw [← cut]
  subst front
  rw [List.append_assoc, List.append_cancel_left_eq] at shape
  subst shape shape'
  have level : top.length = before'.length := by
    simp only [List.length_append, List.length_cons] at even
    omega
  rw [List.zip_append level] at apart
  exact apart (c, c) (by simp) rfl

end Branch

variable (forest) in
/-- The nearest common ancestor of two elements: the branches down to it do not meet. -/
def Nearest (root a b : α) : Prop :=
  ∃ branch branch', forest.Branch root a branch ∧ forest.Branch root b branch' ∧
    ∀ c ∈ branch, c ∉ branch'

/-- The nearest common ancestor does not depend on the order. -/
theorem Nearest.symm (nearest : forest.Nearest root a b) : forest.Nearest root b a := by
  have ⟨branch, branch', above, above', apart⟩ := nearest
  exact ⟨branch', branch, above', above, fun c listed listed' => apart c listed' listed⟩

/-- There is one nearest common ancestor. -/
theorem Nearest.unique {root' : α} (nearest : forest.Nearest root a b)
    (nearest' : forest.Nearest root' a b) : root = root' := by
  have shared {root root' : α} {branch₁ branch₂ branch₁' branch₂' : List α}
      (one : forest.Branch root a branch₁) (two : forest.Branch root b branch₂)
      (one' : forest.Branch root' a branch₁') (two' : forest.Branch root' b branch₂')
      (apart : ∀ c ∈ branch₁', c ∉ branch₂') : root ∉ branch₁' := by
    intro on
    have ⟨_, lower, _, _, below⟩ := one'.of_mem on
    have other := (two.append below).unique two'
    apply apart root on
    rw [← other]
    simp
  have ⟨_, _, one, two, apart⟩ := nearest
  have ⟨_, _, one', two', apart'⟩ := nearest'
  rcases one.comparable one' with same | on | on
  · exact same
  · exact absurd on (shared one two one' two' apart')
  · exact absurd on (shared one' two' one two apart)

end Forest

end Lib
