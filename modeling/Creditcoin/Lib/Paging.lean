import Mathlib.Data.List.Basic

/-!
# Paging

A list is read in pages: an answer has some elements and the mark of the element that comes after
them, or a blank mark when there is none, and that mark starts the next page.
-/

namespace Lib

variable {α ι : Type}

/-- Follow the marks until a blank one and collect what the pages hold; the count bounds the number
of pages. -/
def follow [DecidableEq ι] (answer : ι → List α × ι) (blank : ι) : Nat → ι → Option (List α)
  | 0, _ => none
  | count + 1, mark =>
    let (page, next) := answer mark
    if next = blank then some page else (follow answer blank count next).map (page ++ ·)

/-- The mark of the first element. -/
def markOf (name : α → ι) (blank : ι) (list : List α) : ι := list.head?.elim blank name

/-- The answers page a list: the page from a mark has the next elements, up to the limit. -/
def Pages (name : α → ι) (blank : ι) (limit : Nat) (list : List α) (answer : ι → List α × ι) :
    Prop :=
  ∀ before after, list = before ++ after → before = [] ∨ after ≠ [] →
    answer (if before = [] then blank else markOf name blank after) =
      (after.take limit, markOf name blank (after.drop limit))

variable {name : α → ι} {blank : ι} {limit : Nat} {list : List α} {answer : ι → List α × ι}

/-- The mark of an element is not blank when its name is not. -/
theorem markOf_ne (named : ∀ value ∈ list, name value ≠ blank) (filled : list ≠ []) :
    markOf name blank list ≠ blank := by
  cases list with
  | nil => exact absurd rfl filled
  | cons value rest => exact named value List.mem_cons_self

/-- From an element on, the pages hold the rest of the list. -/
theorem follow_rest [DecidableEq ι] (pages : Pages name blank limit list answer)
    (positive : 0 < limit) (named : ∀ value ∈ list, name value ≠ blank) (before after : List α)
    (split : list = before ++ after) (starts : before = [] ∨ after ≠ []) :
    ∃ count, follow answer blank count (if before = [] then blank else markOf name blank after) =
      some after := by
  induction remaining : after.length using Nat.strongRecOn generalizing before after with
  | ind size ih =>
    have page := pages before after split starts
    by_cases last : after.drop limit = []
    · have whole : after.take limit = after := List.take_of_length_le (List.drop_eq_nil_iff.mp last)
      have none : markOf name blank (after.drop limit) = blank := by
        rw [last]
        rfl
      refine ⟨1, ?_⟩
      simp only [follow, page, none, whole, if_true]
    · have longer : limit < after.length := by
        by_contra short
        exact last (List.drop_eq_nil_iff.mpr (by omega))
      have later : before ++ after.take limit ≠ [] := by
        intro empty
        have taken := (List.append_eq_nil_iff.mp empty).2
        rw [List.take_eq_nil_iff] at taken
        rcases taken with zero | none
        · omega
        · rw [none] at longer
          simp at longer
      have again : list = (before ++ after.take limit) ++ after.drop limit := by
        rw [List.append_assoc, List.take_append_drop, split]
      have shorter : (after.drop limit).length < size := by
        rw [List.length_drop]
        omega
      obtain ⟨count, rest⟩ := ih _ shorter _ _ again (.inr last) rfl
      rw [if_neg later] at rest
      have next : markOf name blank (after.drop limit) ≠ blank := by
        apply markOf_ne _ last
        intro value listed
        apply named
        rw [split]
        exact List.mem_append_right _ (List.mem_of_mem_drop listed)
      refine ⟨count + 1, ?_⟩
      simp only [follow, page, if_neg next, rest, Option.map_some, List.take_append_drop]

/-- The pages of a list hold all of it. -/
theorem follow_all [DecidableEq ι] (pages : Pages name blank limit list answer)
    (positive : 0 < limit) (named : ∀ value ∈ list, name value ≠ blank) :
    ∃ count, follow answer blank count blank = some list := by
  have followed := follow_rest pages positive named [] list rfl (.inl rfl)
  rwa [if_pos rfl] at followed

end Lib
