import Creditcoin.Lib.Store

/-!
# Layers of stores

A stack of stores is read from the top: the first layer that has the key counts, also when the
value is empty, so an empty value hides what lies below. Merging neighbouring layers and
leaving out empty ones do not change what is read.
-/

namespace Lib.Store

variable {κ α : Type} [DecidableEq κ]

/-- The value of a key in the first layer that has it. -/
def through : List (Store κ α) → κ → Option (List α)
  | [], _ => none
  | layer :: below, key => (layer.lookup key).or (through below key)

/-- What a stack of layers holds under a key, empty when no layer has it. -/
def getThrough (layers : List (Store κ α)) (key : κ) : List α := (through layers key).getD []

/-- A union is looked up on the left first. -/
theorem lookup_union (upper lower : Store κ α) (key : κ) :
    (upper ∪ lower).lookup key = (upper.lookup key).or (lower.lookup key) := by
  by_cases present : key ∈ upper
  · obtain ⟨value, found⟩ := Option.isSome_iff_exists.mp (AList.lookup_isSome.mpr present)
    rw [AList.lookup_union_left present, found, Option.some_or]
  · rw [AList.lookup_union_right present, AList.lookup_eq_none.mpr present, Option.none_or]

/-- Two neighbouring layers can be merged. -/
theorem through_union (upper lower : Store κ α) (below : List (Store κ α)) (key : κ) :
    through ((upper ∪ lower) :: below) key = through (upper :: lower :: below) key := by
  rw [through, lookup_union, Option.or_assoc]
  rfl

/-- An empty layer can be left out. -/
theorem through_empty (below : List (Store κ α)) (key : κ) :
    through ((∅ : Store κ α) :: below) key = through below key := by
  rw [through, AList.lookup_empty, Option.none_or]

/-- Layers below the same top are read alike when they are alike. -/
theorem through_cons_congr {lower below : List (Store κ α)} {key : κ} (top : Store κ α)
    (alike : through lower key = through below key) :
    through (top :: lower) key = through (top :: below) key := by
  rw [through, alike]
  rfl

/-- A write to the top layer is a write to what is read. -/
theorem getThrough_set (top : Store κ α) (below : List (Store κ α)) (key : κ) (value : List α) :
    getThrough (top.set key value :: below) =
      Function.update (getThrough (top :: below)) key value := by
  funext other
  by_cases same : other = key
  · subst same
    rw [Function.update_self, getThrough, through, set, AList.lookup_insert, Option.some_or]
    rfl
  · rw [Function.update_of_ne same, getThrough, through, set, AList.lookup_insert_ne same]
    rfl

/-- Writes to the top layer are writes to what is read, in order. -/
theorem getThrough_setAll (top : Store κ α) (below : List (Store κ α))
    (values : List (κ × List α)) :
    getThrough (top.setAll values :: below) =
      values.foldl (fun read entry => Function.update read entry.1 entry.2)
        (getThrough (top :: below)) := by
  induction values generalizing top with
  | nil => rfl
  | cons entry values ih =>
    rw [setAll_cons, ih, getThrough_set]
    rfl

/-- Inserting the entries that a layer lacks reads them below that layer. -/
theorem lookup_insertMissing (top : Store κ α) (entries : List (Sigma fun _ : κ => List α))
    (distinct : entries.NodupKeys) (values : Store κ α) (key : κ) :
    (entries.foldl
        (fun values entry =>
          if (top.lookup entry.1).isSome then values else values.set entry.1 entry.2)
        values).lookup key =
      if (top.lookup key).isSome then values.lookup key
      else (entries.dlookup key).or (values.lookup key) := by
  induction entries generalizing values with
  | nil => simp
  | cons entry entries ih =>
    obtain ⟨first, value⟩ := entry
    obtain ⟨fresh, distinct⟩ := List.nodupKeys_cons.mp distinct
    rw [List.foldl_cons, ih distinct]
    by_cases covered : (top.lookup first).isSome = true
    · by_cases same : key = first
      · subst same
        simp only [covered, if_true]
      · simp only [covered, if_true, List.dlookup_cons_ne entries ⟨first, value⟩ same]
    · by_cases same : key = first
      · subst same
        have last : entries.dlookup key = none := List.dlookup_eq_none.mpr fresh
        simp only [covered, if_false, Bool.false_eq_true, set, AList.lookup_insert, last,
          Option.none_or, List.dlookup_cons_eq, Option.some_or]
      · simp only [covered, if_false, Bool.false_eq_true, set, AList.lookup_insert_ne same,
          List.dlookup_cons_ne entries ⟨first, value⟩ same]

end Lib.Store
