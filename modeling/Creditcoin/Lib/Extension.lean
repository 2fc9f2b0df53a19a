import Creditcoin.Lib.Accesses
import Mathlib.Data.List.Perm.Basic
import Mathlib.Logic.Function.Basic

/-!
# Runs in another order

Tasks that do not conflict may run in either order. So a run in any order in which each task has the
tasks that come directly before it behind it ends as the run in the order of adding.
-/

namespace Lib.Accesses

variable {κ τ ν σ : Type}

/-! ## Orders -/

section Lists

variable {schedule order : List τ}

/-- Each element of an order has the elements that come directly before it behind it. -/
def Respects (before : τ → τ → Prop) (order : List τ) : Prop :=
  ∀ done later rest, order = done ++ later :: rest → ∀ earlier, before earlier later →
    earlier ∈ done

/-- What comes first in an image came first. -/
theorem pair_of_sublist_map {ρ : Type} {image : ρ → τ} {list : List ρ} {earlier later : τ}
    (sub : [earlier, later].Sublist (list.map image)) :
    ∃ first second, [first, second].Sublist list ∧ image first = earlier ∧
      image second = later := by
  obtain ⟨pair, sub, mapped⟩ := List.sublist_map_iff.mp sub
  obtain ⟨first, rest, rfl, named, single⟩ := List.map_eq_cons_iff.mp mapped.symm
  obtain ⟨second, none, rfl, named', empty⟩ := List.map_eq_cons_iff.mp single
  obtain rfl := List.map_eq_nil_iff.mp empty
  exact ⟨first, second, sub, named, named'⟩

/-- The positions in a list without duplicates increase. -/
theorem pairwise_idxOf [BEq τ] [LawfulBEq τ] (distinct : order.Nodup) :
    order.Pairwise fun earlier later => order.idxOf earlier < order.idxOf later := by
  rw [List.pairwise_iff_getElem]
  intro i j low high less
  rw [distinct.idxOf_getElem, distinct.idxOf_getElem]
  exact less

/-- The first of two elements has the smaller position. -/
theorem idxOf_lt_of_sublist [BEq τ] [LawfulBEq τ] (distinct : order.Nodup)
    {earlier later : τ} (ordered : [earlier, later].Sublist order) :
    order.idxOf earlier < order.idxOf later :=
  List.pairwise_iff_forall_sublist.mp (pairwise_idxOf distinct) ordered

/-- In an order that respects what comes directly before what, positions follow the chains. -/
theorem Respects.idxOf_le [DecidableEq τ] {before : τ → τ → Prop} (respects : Respects before order)
    (distinct : order.Nodup) {earlier later : τ} (listed : later ∈ order)
    (reached : Relation.ReflTransGen before earlier later) :
    earlier ∈ order ∧ order.idxOf earlier ≤ order.idxOf later := by
  induction reached using Relation.ReflTransGen.head_induction_on with
  | refl => exact ⟨listed, le_refl _⟩
  | @head first second direct _ ih =>
    obtain ⟨done, rest, split⟩ := List.mem_iff_append.mp ih.1
    have behind : first ∈ done := respects done second rest split first direct
    have ordered : [first, second].Sublist order := by
      rw [split]
      exact (List.singleton_sublist.mpr behind).append
        (List.cons_sublist_cons.mpr (List.nil_sublist rest))
    have less := idxOf_lt_of_sublist distinct ordered
    refine ⟨?_, less.le.trans ih.2⟩
    rw [split]
    exact List.mem_append_left _ behind

/-- An element may be moved behind those that it commutes with. -/
theorem foldl_comm {run : σ → τ → σ} {element : τ} {front : List τ}
    (commutes : ∀ other ∈ front, ∀ state,
      run (run state element) other = run (run state other) element) (state : σ) :
    run (front.foldl run state) element = front.foldl run (run state element) := by
  induction front generalizing state with
  | nil => rfl
  | cons other front ih =>
    rw [List.forall_mem_cons] at commutes
    rw [List.foldl_cons, List.foldl_cons, ih commutes.2, commutes.1]

/-- A run in another order ends the same when the elements that changed places commute. -/
theorem foldl_of_swaps {run : σ → τ → σ} (distinct : schedule.Nodup) (perm : order.Perm schedule)
    (commutes : ∀ earlier later, [earlier, later].Sublist schedule →
      [later, earlier].Sublist order → ∀ state,
        run (run state earlier) later = run (run state later) earlier) (state : σ) :
    order.foldl run state = schedule.foldl run state := by
  induction schedule generalizing order state with
  | nil => rw [List.perm_nil.mp perm]
  | cons element rest ih =>
    obtain ⟨front, back, rfl⟩ :=
      List.mem_iff_append.mp (perm.mem_iff.mpr List.mem_cons_self)
    have perm' : (front ++ back).Perm rest := (List.perm_middle.symm.trans perm).cons_inv
    rw [List.nodup_cons] at distinct
    -- what stands before the first element in the order stands after it in the schedule
    have moves : ∀ other ∈ front, ∀ state,
        run (run state element) other = run (run state other) element := by
      intro other listed
      have later : other ∈ rest := perm'.mem_iff.mp (List.mem_append_left _ listed)
      apply commutes element other
      · exact List.cons_sublist_cons.mpr (List.singleton_sublist.mpr later)
      · exact (List.singleton_sublist.mpr listed).append
          (List.cons_sublist_cons.mpr (List.nil_sublist back))
    rw [List.foldl_append, List.foldl_cons, foldl_comm moves, ← List.foldl_append, List.foldl_cons]
    apply ih distinct.2 perm'
    intro earlier later ordered reversed
    apply commutes earlier later (ordered.cons element)
    exact reversed.trans (List.Sublist.append_left (List.sublist_cons_self element back) front)

end Lists

/-! ## Effects -/

/-- The entries that a task writes, by the state that it finds. -/
abbrev Effect (κ ν : Type) : Type := (List κ → ν) → List (List κ × ν)

/-- An effect reads only at its places, and writes only at its places. -/
structure Effect.Confined (effect : Effect κ ν) (reads writes : List (List κ)) : Prop where
  /-- What is written depends on what is found at the places that are read. -/
  reads : ∀ state state' : List κ → ν,
    (∀ address, (∃ place ∈ reads, place <+: address) → state address = state' address) →
      effect state = effect state'
  /-- What is written is at the places that are written. -/
  writes : ∀ state, ∀ entry ∈ effect state, ∃ place ∈ writes, place <+: entry.1

section Effects

variable [DecidableEq κ]

/-- Write an entry. -/
def assign (state : List κ → ν) (entry : List κ × ν) : List κ → ν :=
  Function.update state entry.1 entry.2

/-- The state after an effect. -/
def Effect.run (state : List κ → ν) (effect : Effect κ ν) : List κ → ν :=
  (effect state).foldl assign state

/-- Entries leave the addresses that they do not name. -/
theorem foldl_assign_of_notMem {entries : List (List κ × ν)} {address : List κ}
    (absent : ∀ entry ∈ entries, entry.1 ≠ address) (state : List κ → ν) :
    entries.foldl assign state address = state address := by
  induction entries generalizing state with
  | nil => rfl
  | cons entry entries ih =>
    rw [List.forall_mem_cons] at absent
    rw [List.foldl_cons, ih absent.2, assign, Function.update_of_ne absent.1.symm]

/-- An address that entries name has what they write, whatever was there. -/
theorem foldl_assign_of_mem {entries : List (List κ × ν)} {address : List κ}
    (named : ∃ entry ∈ entries, entry.1 = address) (state state' : List κ → ν) :
    entries.foldl assign state address = entries.foldl assign state' address := by
  induction entries generalizing state state' with
  | nil =>
    obtain ⟨entry, listed, _⟩ := named
    exact absurd listed List.not_mem_nil
  | cons entry entries ih =>
    rw [List.foldl_cons, List.foldl_cons]
    by_cases later : ∃ entry ∈ entries, entry.1 = address
    · exact ih later _ _
    · push Not at later
      obtain ⟨found, listed, same⟩ := named
      have first : entry.1 = address := by
        rcases List.mem_cons.mp listed with rfl | listed
        · exact same
        · exact absurd same (later found listed)
      rw [foldl_assign_of_notMem later, foldl_assign_of_notMem later, assign, assign, ← first,
        Function.update_self, Function.update_self]

/-- An effect leaves the addresses that its places do not lead to. -/
theorem Effect.Confined.run_apart {effect : Effect κ ν} {reads writes : List (List κ)}
    (confined : effect.Confined reads writes) {address : List κ}
    (apart : ∀ place ∈ writes, ¬ place <+: address) (state : List κ → ν) :
    Effect.run state effect address = state address := by
  apply foldl_assign_of_notMem
  rintro entry listed rfl
  obtain ⟨place, written, leads⟩ := confined.writes state entry listed
  exact apart place written leads

/-- An effect that writes nothing another one reads leaves the entries of that one. -/
theorem Effect.Confined.unmoved {first second : Effect κ ν}
    {reads writes reads' writes' : List (List κ)} (confined : first.Confined reads writes)
    (confined' : second.Confined reads' writes')
    (apart : ∀ place ∈ writes, ∀ other ∈ reads', ¬ Overlaps place other) (state : List κ → ν) :
    second (Effect.run state first) = second state := by
  apply confined'.reads
  rintro address ⟨other, listed, leads⟩
  apply confined.run_apart
  intro place written leads'
  exact apart place written other listed (List.prefix_or_prefix_of_prefix leads' leads)

/-- Effects whose places do not conflict commute. -/
theorem Effect.run_comm {first second : Effect κ ν} {reads writes reads' writes' : List (List κ)}
    (confined : first.Confined reads writes) (confined' : second.Confined reads' writes')
    (writesReads : ∀ place ∈ writes, ∀ other ∈ reads', ¬ Overlaps place other)
    (readsWrites : ∀ place ∈ reads, ∀ other ∈ writes', ¬ Overlaps place other)
    (writesWrites : ∀ place ∈ writes, ∀ other ∈ writes', ¬ Overlaps place other)
    (state : List κ → ν) :
    Effect.run (Effect.run state first) second = Effect.run (Effect.run state second) first := by
  have left := confined.unmoved confined' writesReads state
  have right := confined'.unmoved confined (fun place written other listed overlap =>
    readsWrites other listed place written overlap.symm) state
  funext address
  by_cases named : ∃ entry ∈ first state, entry.1 = address
  · -- the second effect does not name the address
    obtain ⟨entry, listed, same⟩ := named
    obtain ⟨place, written, leads⟩ := confined.writes state entry listed
    have apart : ∀ other ∈ second state, other.1 ≠ address := by
      intro other listed' same'
      obtain ⟨place', written', leads'⟩ := confined'.writes state other listed'
      rw [same] at leads
      rw [same'] at leads'
      exact writesWrites place written place' written'
        (List.prefix_or_prefix_of_prefix leads leads')
    rw [Effect.run, left, foldl_assign_of_notMem apart, Effect.run, Effect.run, right]
    exact foldl_assign_of_mem ⟨entry, listed, same⟩ _ _
  · push Not at named
    rw [Effect.run, left]
    conv_rhs => rw [Effect.run, right, foldl_assign_of_notMem named]
    by_cases named' : ∃ entry ∈ second state, entry.1 = address
    · exact foldl_assign_of_mem named' _ _
    · push Not at named'
      rw [foldl_assign_of_notMem named', Effect.run, foldl_assign_of_notMem named, Effect.run,
        foldl_assign_of_notMem named']

/-- Tasks that do not conflict commute. -/
theorem Effect.run_comm_of_not_conflicts {earlier later : Task κ τ} {first second : Effect κ ν}
    (confined : first.Confined earlier.reads earlier.writes)
    (confined' : second.Confined later.reads later.writes) (apart : ¬ earlier.Conflicts later)
    (state : List κ → ν) :
    Effect.run (Effect.run state first) second = Effect.run (Effect.run state second) first := by
  apply Effect.run_comm confined confined'
  · intro place written other listed overlap
    exact apart (.inl ⟨place, written, other, List.mem_append_left _ listed, overlap⟩)
  · intro place listed other written overlap
    exact apart (.inr ⟨place, listed, other, written, overlap⟩)
  · intro place written other written' overlap
    exact apart (.inl ⟨place, written, other, List.mem_append_right _ written', overlap⟩)

/-- When the tasks that conflict are ordered, a run in any order of the tasks that respects what
comes directly before what ends as the run in the order of adding. -/
theorem foldl_of_respects [DecidableEq τ] {tasks : List (Task κ τ)} {before : τ → τ → Prop}
    (distinct : (tasks.map Task.name).Nodup)
    (ordered : tasks.Pairwise fun earlier later => earlier.Conflicts later →
      Relation.ReflTransGen before earlier.name later.name)
    {effects : τ → Effect κ ν}
    (confined : ∀ task ∈ tasks, (effects task.name).Confined task.reads task.writes)
    {order : List τ} (perm : order.Perm (tasks.map Task.name)) (respects : Respects before order)
    (state : List κ → ν) :
    order.foldl (fun state name => Effect.run state (effects name)) state =
      (tasks.map Task.name).foldl (fun state name => Effect.run state (effects name)) state := by
  apply foldl_of_swaps distinct perm
  intro earlier later inSchedule inOrder
  obtain ⟨first, second, sub, rfl, rfl⟩ := pair_of_sublist_map inSchedule
  have apart : ¬ first.Conflicts second := by
    intro conflicts
    have distinct' := perm.nodup_iff.mpr distinct
    have listed : second.name ∈ order := inOrder.subset List.mem_cons_self
    have reached := List.pairwise_iff_forall_sublist.mp ordered sub conflicts
    have less := idxOf_lt_of_sublist distinct' inOrder
    have most := (respects.idxOf_le distinct' listed reached).2
    omega
  exact Effect.run_comm_of_not_conflicts (confined first (sub.subset (by simp)))
    (confined second (sub.subset (by simp))) apart

/-- Where no other task writes, a run of some tasks with all that come before them and conflict with
them ends as the run of all. -/
theorem foldl_of_closed {front seen : List (Task κ τ)} {effects : τ → Effect κ ν}
    (sub : seen.Sublist front) (distinct : front.Nodup)
    (confined : ∀ task ∈ front, (effects task.name).Confined task.reads task.writes)
    (closed : ∀ earlier later : Task κ τ, [earlier, later].Sublist front → later ∈ seen →
      earlier.Conflicts later → earlier ∈ seen)
    {address : List κ}
    (clean : ∀ task ∈ front, task ∉ seen → ∀ place ∈ task.writes, ¬ place <+: address)
    (state : List κ → ν) :
    seen.foldl (fun state task => Effect.run state (effects task.name)) state address =
      front.foldl (fun state task => Effect.run state (effects task.name)) state address := by
  induction front using List.reverseRecOn generalizing seen address with
  | nil => rw [List.sublist_nil.mp sub]
  | append_singleton front last ih =>
    obtain ⟨seen, rest, rfl, inFront, single⟩ := List.sublist_append_iff.mp sub
    rw [List.nodup_append] at distinct
    have fresh : last ∉ front := fun listed =>
      distinct.2.2 last listed last (List.mem_singleton_self last) rfl
    have confinedFront := fun task listed => confined task (List.mem_append_left _ listed)
    have unseen : last ∉ seen := fun listed => fresh (inFront.subset listed)
    have apart {task : Task κ τ} (listed : task ∈ front) : task ∉ [last] := fun same =>
      fresh (List.mem_singleton.mp same ▸ listed)
    rw [List.foldl_append, List.foldl_append, List.foldl_cons, List.foldl_nil]
    rcases List.sublist_singleton.mp single with rfl | rfl
    · -- the last task is not among them, and writes nothing here
      rw [List.append_nil] at closed clean
      rw [List.foldl_nil, (confined last (by simp)).run_apart (clean last (by simp) unseen)]
      apply ih inFront distinct.1 confinedFront
      · exact fun earlier later before => closed earlier later
          (before.trans (List.sublist_append_left _ _))
      · exact fun task listed => clean task (List.mem_append_left _ listed)
    · have closedFront : ∀ earlier later : Task κ τ, [earlier, later].Sublist front →
          later ∈ seen → earlier.Conflicts later → earlier ∈ seen := by
        intro earlier later before listed conflicts
        have found := closed earlier later (before.trans (List.sublist_append_left _ _))
          (List.mem_append_left _ listed) conflicts
        exact (List.mem_append.mp found).resolve_right
          (apart (before.subset List.mem_cons_self))
      -- what the last task reads is written by tasks among them alone
      have reads : ∀ read, (∃ place ∈ last.reads, place <+: read) →
          seen.foldl (fun state task => Effect.run state (effects task.name)) state read =
            front.foldl (fun state task => Effect.run state (effects task.name)) state read := by
        rintro read ⟨place, listed, leads⟩
        apply ih inFront distinct.1 confinedFront closedFront
        intro task member other written writes leads'
        have before : [task, last].Sublist (front ++ [last]) :=
          (List.singleton_sublist.mpr member).append (List.Sublist.refl [last])
        have found := closed task last before (by simp)
          (.inl ⟨written, writes, place, List.mem_append_left _ listed,
            List.prefix_or_prefix_of_prefix leads' leads⟩)
        exact other ((List.mem_append.mp found).resolve_right (apart member))
      have here := ih inFront distinct.1 confinedFront closedFront fun task member other =>
        clean task (List.mem_append_left _ member) fun found =>
          other ((List.mem_append.mp found).resolve_right (apart member))
      rw [List.foldl_cons, List.foldl_nil, Effect.run, Effect.run,
        (confined last (by simp)).reads _ _ reads]
      by_cases named : ∃ entry ∈ effects last.name
          (front.foldl (fun state task => Effect.run state (effects task.name)) state),
          entry.1 = address
      · exact foldl_assign_of_mem named _ _
      · push Not at named
        rw [foldl_assign_of_notMem named, foldl_assign_of_notMem named]
        exact here

end Effects

end Lib.Accesses
