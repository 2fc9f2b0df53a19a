import Mathlib.Algebra.BigOperators.Ring.Finset
import Mathlib.Algebra.Order.BigOperators.Group.Finset
import Mathlib.Data.List.AList

/-!
# Stores of strings

A store maps keys to strings and treats an absent key like the empty string, which is what
a program sees that only asks whether the value it read is empty. Totals weigh every
entry of a store; writing or erasing one key changes a total by the weight of that key
alone, so a conserved quantity is checked write by write.
-/

namespace Lib

/-- A finite map from keys to strings. -/
abbrev Store (κ α : Type) : Type := AList (fun _ : κ => List α)

namespace Store

variable {κ α : Type} [DecidableEq κ]

/-- The value of a key, empty when it is absent. -/
def get (store : Store κ α) (key : κ) : List α := (store.lookup key).getD []

/-- Write one key. -/
def set (store : Store κ α) (key : κ) (value : List α) : Store κ α := store.insert key value

/-- Write keys in order. -/
def setAll (store : Store κ α) (values : List (κ × List α)) : Store κ α :=
  values.foldl (fun store entry => store.set entry.1 entry.2) store

/-- Erase keys in order. -/
def eraseAll (store : Store κ α) (keys : List κ) : Store κ α :=
  keys.foldl (fun store key => store.erase key) store

@[simp] theorem get_empty (key : κ) : get (∅ : Store κ α) key = [] := rfl

/-- A written key reads as written, every other key as before. -/
theorem get_set (store : Store κ α) (key other : κ) (value : List α) :
    (store.set key value).get other = if other = key then value else store.get other := by
  by_cases same : other = key
  · subst same
    simp [get, set]
  · simp [get, set, same, AList.lookup_insert_ne same]

/-- A written key reads as written. -/
@[simp] theorem get_set_self (store : Store κ α) (key : κ) (value : List α) :
    (store.set key value).get key = value := by
  simp [get_set]

/-- Writing a key leaves every other key. -/
theorem get_set_ne (store : Store κ α) {key other : κ} (different : other ≠ key)
    (value : List α) : (store.set key value).get other = store.get other := by
  simp [get_set, different]

/-- An erased key reads as empty, every other key as before. -/
theorem get_erase (store : Store κ α) (key other : κ) :
    get (store.erase key) other = if other = key then [] else store.get other := by
  by_cases same : other = key
  · subst same
    simp [get]
  · simp [get, same, AList.lookup_erase_ne same]

/-- The keys of a written store. -/
theorem mem_set {store : Store κ α} {key other : κ} {value : List α} :
    other ∈ store.set key value ↔ other = key ∨ other ∈ store := AList.mem_insert store

/-- The keys of an erased store. -/
theorem mem_erase {store : Store κ α} {key other : κ} :
    other ∈ AList.erase key store ↔ other ≠ key ∧ other ∈ store := AList.mem_erase

/-- A value that is not empty has its key in the store. -/
theorem mem_of_get {store : Store κ α} {key : κ} (present : store.get key ≠ []) :
    key ∈ store := by
  by_contra absent
  have none : store.lookup key = none := AList.lookup_eq_none.mpr absent
  exact present (by simp [get, none])

/-- Writing no keys changes nothing. -/
@[simp] theorem setAll_nil (store : Store κ α) : store.setAll [] = store := rfl

/-- Writing keys in order. -/
@[simp] theorem setAll_cons (store : Store κ α) (entry : κ × List α)
    (values : List (κ × List α)) :
    store.setAll (entry :: values) = (store.set entry.1 entry.2).setAll values := rfl

/-- Writing a list of keys after another. -/
theorem setAll_append (store : Store κ α) (values later : List (κ × List α)) :
    store.setAll (values ++ later) = (store.setAll values).setAll later :=
  List.foldl_append

/-- Erasing no keys changes nothing. -/
@[simp] theorem eraseAll_nil (store : Store κ α) : store.eraseAll [] = store := rfl

/-- Erasing keys in order. -/
@[simp] theorem eraseAll_cons (store : Store κ α) (key : κ) (keys : List κ) :
    store.eraseAll (key :: keys) = Store.eraseAll (store.erase key) keys := rfl

/-- Writing keys leaves every other key. -/
theorem get_setAll_of_notMem (store : Store κ α) {key : κ} {values : List (κ × List α)}
    (absent : key ∉ values.map Prod.fst) : (store.setAll values).get key = store.get key := by
  induction values generalizing store with
  | nil => rfl
  | cons entry values ih =>
    rw [List.map_cons, List.mem_cons, not_or] at absent
    rw [setAll_cons, ih _ absent.2, get_set_ne _ absent.1]

/-- What a store holds under a key after some writes, when every write of the key does. -/
theorem get_setAll_holds {store : Store κ α} {holds : List α → Prop} {key : κ}
    {values : List (κ × List α)} (initially : holds (store.get key))
    (written : ∀ entry ∈ values, entry.1 = key → holds entry.2) :
    holds ((store.setAll values).get key) := by
  induction values generalizing store with
  | nil => exact initially
  | cons entry values ih =>
    rw [List.forall_mem_cons] at written
    rw [setAll_cons]
    apply ih _ written.2
    rw [get_set]
    split
    · rename_i same
      exact written.1 same.symm
    · exact initially

/-- What a store holds under a key that is written, when every write of the key does. -/
theorem get_setAll_written {store : Store κ α} {holds : List α → Prop} {key : κ}
    {values : List (κ × List α)} (listed : key ∈ values.map Prod.fst)
    (written : ∀ entry ∈ values, entry.1 = key → holds entry.2) :
    holds ((store.setAll values).get key) := by
  induction values generalizing store with
  | nil => exact absurd listed List.not_mem_nil
  | cons entry values ih =>
    rw [List.forall_mem_cons] at written
    rw [setAll_cons]
    rcases List.mem_cons.mp listed with rfl | later
    · apply get_setAll_holds _ written.2
      rw [get_set_self]
      exact written.1 rfl
    · exact ih later written.2

/-- A value that is not empty is an entry of the store. -/
theorem mem_entries_of_get {store : Store κ α} {key : κ} (present : store.get key ≠ []) :
    ⟨key, store.get key⟩ ∈ store.entries := by
  cases found : store.lookup key with
  | none => simp [get, found] at present
  | some value =>
    have same : store.get key = value := by simp [get, found]
    rw [same]
    exact AList.mem_lookup_iff.mp found

/-- An entry of the store is the value of its key. -/
theorem get_of_mem_entries {store : Store κ α} {key : κ} {value : List α}
    (listed : ⟨key, value⟩ ∈ store.entries) : store.get key = value := by
  have found : store.lookup key = some value := AList.mem_lookup_iff.mpr listed
  simp [get, found]

/-! ## Sums -/

/-- The sum of the weights of all entries. -/
def sum {M : Type} [AddCommMonoid M] (weight : κ → List α → M) (store : Store κ α) : M :=
  (store.entries.map fun entry => weight entry.1 entry.2).sum

section Sum

variable {M : Type} [AddCommMonoid M] {weight : κ → List α → M}

/-- A sum of weights is one over any set of keys that holds those of the store. -/
theorem sum_eq_finset (store : Store κ α) (keys : Finset κ)
    (covers : ∀ key ∈ store, key ∈ keys) (absent : ∀ key, weight key [] = 0) :
    sum weight store = ∑ key ∈ keys, weight key (store.get key) := by
  have listed : sum weight store =
      (store.keys.map fun key => weight key (store.get key)).sum := by
    rw [sum, AList.keys, List.keys, List.map_map]
    congr 1
    apply List.map_congr_left
    intro entry member
    have read : store.get entry.1 = entry.2 := get_of_mem_entries member
    rw [Function.comp_apply, read]
  rw [listed, ← List.sum_toFinset _ (AList.keys_nodup store)]
  apply Finset.sum_subset
  · intro key member
    exact covers key (List.mem_toFinset.mp member)
  · intro key _ missing
    rw [List.mem_toFinset] at missing
    have none : store.lookup key = none := AList.lookup_eq_none.mpr missing
    rw [get, none]
    exact absent key

/-- What changes at listed keys, summed over all keys, is what is listed. -/
theorem sum_targets {keys : Finset κ} {changes : List (κ × M)}
    (inside : ∀ change ∈ changes, change.1 ∈ keys) :
    ∑ key ∈ keys, (changes.map fun change => if key = change.1 then change.2 else 0).sum =
      (changes.map Prod.snd).sum := by
  induction changes with
  | nil => exact Finset.sum_const_zero
  | cons change changes ih =>
    rw [List.forall_mem_cons] at inside
    simp only [List.map_cons, List.sum_cons, Finset.sum_add_distrib, Finset.sum_ite_eq']
    rw [if_pos inside.1, ih inside.2]

/-- A key that is not listed collects nothing. -/
theorem sum_of_notMem {changes : List (κ × M)} {key : κ}
    (missing : key ∉ changes.map Prod.fst) :
    (changes.map fun change => if key = change.1 then change.2 else 0).sum = 0 := by
  apply List.sum_eq_zero
  intro amount listed
  obtain ⟨change, member, rfl⟩ := List.mem_map.mp listed
  apply if_neg
  rintro rfl
  exact missing (List.mem_map_of_mem member)

/-- A key that is listed once collects what is listed for it. -/
theorem sum_of_mem {changes : List (κ × M)} {change : κ × M}
    (unique : (changes.map Prod.fst).Nodup) (listed : change ∈ changes) :
    (changes.map fun other => if change.1 = other.1 then other.2 else 0).sum = change.2 := by
  induction changes with
  | nil => cases listed
  | cons other changes ih =>
    rw [List.map_cons, List.nodup_cons] at unique
    rw [List.map_cons, List.sum_cons]
    rcases List.mem_cons.mp listed with rfl | later
    · rw [if_pos rfl, sum_of_notMem unique.1, add_zero]
    · have differs : change.1 ≠ other.1 := by
        intro same
        exact unique.1 (same ▸ List.mem_map_of_mem later)
      rw [if_neg differs, zero_add, ih unique.2 later]

/-- When the weights change at listed keys by listed amounts, their sum changes by all of them. -/
theorem sum_changes {before after : Store κ α} (changes : List (κ × M))
    (absent : ∀ key, weight key [] = 0)
    (changed : ∀ key, weight key (after.get key) = weight key (before.get key) +
      (changes.map fun change => if key = change.1 then change.2 else 0).sum) :
    sum weight after = sum weight before + (changes.map Prod.snd).sum := by
  let keys : Finset κ := (changes.map Prod.fst).toFinset ∪
    (before.keys.toFinset ∪ after.keys.toFinset)
  have earlier : sum weight before = ∑ key ∈ keys, weight key (before.get key) := by
    apply sum_eq_finset _ _ _ absent
    intro key member
    have listed : key ∈ before.keys.toFinset := List.mem_toFinset.mpr member
    exact Finset.mem_union_right _ (Finset.mem_union_left _ listed)
  have later : sum weight after = ∑ key ∈ keys, weight key (after.get key) := by
    apply sum_eq_finset _ _ _ absent
    intro key member
    have listed : key ∈ after.keys.toFinset := List.mem_toFinset.mpr member
    exact Finset.mem_union_right _ (Finset.mem_union_right _ listed)
  have targets : ∀ change ∈ changes, change.1 ∈ keys := by
    intro change member
    exact Finset.mem_union_left _ (List.mem_toFinset.mpr (List.mem_map_of_mem member))
  rw [earlier, later, Finset.sum_congr rfl fun key _ => changed key, Finset.sum_add_distrib,
    sum_targets targets]

end Sum

/-! ## Totals -/

/-- The sum of the weights of all entries. -/
def total (weight : κ → List α → Nat) (store : Store κ α) : Nat :=
  (store.entries.map fun entry => weight entry.1 entry.2).sum

section Total

variable {weight : κ → List α → Nat}

omit [DecidableEq κ] in
@[simp] theorem total_empty : total weight (∅ : Store κ α) = 0 := rfl

/-- A total is a sum over any set of keys that holds those of the store. -/
theorem total_eq_sum (store : Store κ α) (keys : Finset κ)
    (covers : ∀ key ∈ store, key ∈ keys) (absent : ∀ key, weight key [] = 0) :
    total weight store = ∑ key ∈ keys, weight key (store.get key) :=
  sum_eq_finset store keys covers absent

/-- When no weight rises, neither does the total. -/
theorem total_le {before after : Store κ α} (absent : ∀ key, weight key [] = 0)
    (lower : ∀ key, weight key (after.get key) ≤ weight key (before.get key)) :
    total weight after ≤ total weight before := by
  let keys : Finset κ := before.keys.toFinset ∪ after.keys.toFinset
  have earlier : total weight before = ∑ key ∈ keys, weight key (before.get key) := by
    apply total_eq_sum _ _ _ absent
    intro key member
    simp [keys, List.mem_toFinset.mpr member]
  have later : total weight after = ∑ key ∈ keys, weight key (after.get key) := by
    apply total_eq_sum _ _ _ absent
    intro key member
    simp [keys, List.mem_toFinset.mpr member]
  rw [earlier, later]
  exact Finset.sum_le_sum fun key _ => lower key

/-- When no weight changes, neither does the total. -/
theorem total_congr {before after : Store κ α} (absent : ∀ key, weight key [] = 0)
    (same : ∀ key, weight key (after.get key) = weight key (before.get key)) :
    total weight after = total weight before :=
  Nat.le_antisymm (total_le absent fun key => Nat.le_of_eq (same key))
    (total_le absent fun key => Nat.le_of_eq (same key).symm)

omit [DecidableEq κ] in
/-- A total is a sum of integers. -/
theorem total_cast (store : Store κ α) :
    (total weight store : Int) = sum (fun key value => (weight key value : Int)) store := by
  rw [total, sum, Nat.cast_list_sum, List.map_map]
  rfl

/-- When the weights change by two amounts, each at one key, so does the total. -/
theorem total_add {before after : Store κ α} {first second : κ} {gain rise : Int}
    (absent : ∀ key, weight key [] = 0)
    (changed : ∀ key, (weight key (after.get key) : Int) = weight key (before.get key) +
      (if key = first then gain else 0) + (if key = second then rise else 0)) :
    (total weight after : Int) = total weight before + gain + rise := by
  have whole : sum (fun key value => (weight key value : Int)) after =
      sum (fun key value => (weight key value : Int)) before +
        ([(first, gain), (second, rise)].map Prod.snd).sum := by
    apply sum_changes
    · intro key
      rw [absent]
      rfl
    · intro key
      rw [changed]
      simp only [List.map_cons, List.map_nil, List.sum_cons, List.sum_nil, add_zero, add_assoc]
  rw [total_cast, total_cast, whole]
  simp only [List.map_cons, List.map_nil, List.sum_cons, List.sum_nil, add_zero, add_assoc]

end Total

end Store

end Lib
