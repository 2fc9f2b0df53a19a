import Mathlib.Data.List.Induction

/-!
# Runs of a transition system

A run is the list of the steps taken from a start. Conditions on a run are conditions on
the steps of that list, so a property that needs a condition is stated as a property of the
runs whose steps all meet it. The rules turn a fact about one step into a fact about every
state of a run.
-/

namespace Lib

/-- One step of a run, with the states around it. -/
structure Transition (σ τ : Type) where
  /-- The state the step starts in. -/
  before : σ
  /-- What is done. -/
  label : τ
  /-- The state the step ends in. -/
  after : σ

/-- Runs from a start, with their steps in order. -/
inductive Run {σ τ : Type} (step : σ → τ → σ → Prop) (start : σ) :
    List (Transition σ τ) → σ → Prop where
  /-- The empty run. -/
  | nil : Run step start [] start
  /-- A run continued by one step. -/
  | snoc {steps middle label finish} (run : Run step start steps middle)
      (next : step middle label finish) :
      Run step start (steps ++ [⟨middle, label, finish⟩]) finish

namespace Run

variable {σ τ : Type} {step : σ → τ → σ → Prop} {start finish : σ}
  {steps : List (Transition σ τ)}

/-- The rule of runs: what the start has and every allowed step keeps, every state of a run of
allowed steps has. -/
theorem invariant {allowed : Transition σ τ → Prop} (holds : σ → Prop) (initially : holds start)
    (kept : ∀ before label after, holds before → step before label after →
      allowed ⟨before, label, after⟩ → holds after)
    (run : Run step start steps finish) (guarded : ∀ taken ∈ steps, allowed taken) :
    holds finish := by
  induction run with
  | nil => exact initially
  | snoc run next ih =>
    have earlier := ih fun taken listed => guarded taken (List.mem_append_left _ listed)
    exact kept _ _ _ earlier next (guarded _ (by simp))

/-- A run that ends in a step ends where the step does. -/
theorem last {taken : Transition σ τ} (run : Run step start (steps ++ [taken]) finish) :
    Run step start steps taken.before ∧ step taken.before taken.label taken.after ∧
      finish = taken.after := by
  generalize whole : steps ++ [taken] = all at run
  cases run with
  | nil => simp at whole
  | snoc run next =>
    obtain ⟨rfl, same⟩ := List.append_inj' whole rfl
    obtain rfl := List.singleton_inj.mp same
    exact ⟨run, next, rfl⟩

/-- The steps before a step of a run lead to the state it starts in, those after it lead on
from the state it ends in. -/
theorem split {earlier later : List (Transition σ τ)} {taken : Transition σ τ}
    (run : Run step start (earlier ++ taken :: later) finish) :
    Run step start earlier taken.before ∧ step taken.before taken.label taken.after ∧
      Run step taken.after later finish := by
  induction later using List.reverseRecOn generalizing finish with
  | nil =>
    obtain ⟨before, stepped, rfl⟩ := run.last
    exact ⟨before, stepped, .nil⟩
  | append_singleton later final ih =>
    rw [← List.cons_append, ← List.append_assoc] at run
    obtain ⟨shorter, stepped, rfl⟩ := run.last
    obtain ⟨before, first, rest⟩ := ih shorter
    exact ⟨before, first, rest.snoc stepped⟩

/-- A run continues with another run. -/
theorem append {middle : σ} {later : List (Transition σ τ)} (run : Run step start steps middle)
    (rest : Run step middle later finish) : Run step start (steps ++ later) finish := by
  induction rest with
  | nil => simpa using run
  | snoc _ next ih =>
    rw [← List.append_assoc]
    exact ih.snoc next

/-- The steps of a deterministic system along a list of labels. -/
def along (next : σ → τ → σ) (start : σ) : List τ → List (Transition σ τ)
  | [] => []
  | label :: labels => ⟨start, label, next start label⟩ :: along next (next start label) labels

/-- A deterministic system takes its steps. -/
theorem mem_along {next : σ → τ → σ} {labels : List τ} {taken : Transition σ τ}
    (listed : taken ∈ along next start labels) : taken.after = next taken.before taken.label := by
  induction labels generalizing start with
  | nil => exact absurd listed List.not_mem_nil
  | cons label labels ih =>
    rcases List.mem_cons.mp listed with same | later
    · rw [same]
    · exact ih later

/-- A step of a deterministic system starts where the labels before it lead. -/
theorem mem_along_append {next : σ → τ → σ} {label : τ} (labels rest : List τ) :
    ⟨labels.foldl next start, label, next (labels.foldl next start) label⟩ ∈
      along next start (labels ++ label :: rest) := by
  induction labels generalizing start with
  | nil => exact List.mem_cons_self
  | cons first labels ih => exact List.mem_cons_of_mem _ ih

/-- A deterministic system runs along the labels when it may take each of its steps. -/
theorem of_along {next : σ → τ → σ} {labels : List τ}
    (taken : ∀ transition ∈ along next start labels,
      step transition.before transition.label transition.after) :
    Run step start (along next start labels) (labels.foldl next start) := by
  induction labels generalizing start with
  | nil => exact .nil
  | cons label labels ih =>
    rw [along, List.forall_mem_cons] at taken
    have first : Run step start [⟨start, label, next start label⟩] (next start label) :=
      Run.nil.snoc taken.1
    exact first.append (ih taken.2)

end Run

end Lib
