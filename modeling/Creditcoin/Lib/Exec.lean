import Mathlib.Data.List.Basic

/-!
# Computations with an environment, a state and failure

A computation reads an environment, threads a state and either returns a value or
fails; a failure carries no state, so nothing a failed computation wrote is visible.
Every construct has one inversion rule, an equivalence that says what a successful run
of it means, so a run of a whole program is read by rewriting with these rules and a
definition built from them is never unfolded twice.
-/

namespace Lib

/-- A result computed from another one succeeds through an intermediate value. -/
theorem bind_eq_ok {ε α β : Type} {first : Except ε α} {next : α → Except ε β} {result : β} :
    (first >>= next) = .ok result ↔ ∃ value, first = .ok value ∧ next value = .ok result := by
  cases first with
  | ok value => simp [bind, Except.bind]
  | error failure => simp [bind, Except.bind]

/-- A value is its own result. -/
theorem pure_eq_ok {ε α : Type} {value result : α} :
    (pure value : Except ε α) = .ok result ↔ value = result := by
  simp [pure, Except.pure]

/-- A computation over environments `ρ` and states `σ` that fails with `ε` or returns `α`. -/
def Exec (ρ σ ε α : Type) : Type := ρ → σ → Except ε (α × σ)

namespace Exec

variable {ρ σ ε α β : Type}

instance : Monad (Exec ρ σ ε) where
  pure value := fun _ state => .ok (value, state)
  bind first next := fun env state =>
    match first env state with
    | .ok (value, middle) => next value env middle
    | .error failure => .error failure

/-- Fail. -/
def fail (failure : ε) : Exec ρ σ ε α := fun _ _ => .error failure

/-- Fail when a condition holds. -/
def failIf (condition : Prop) [Decidable condition] (failure : ε) : Exec ρ σ ε Unit :=
  if condition then fail failure else pure ()

/-- A value computed from the environment. -/
def asks (read : ρ → α) : Exec ρ σ ε α := fun env state => .ok (read env, state)

/-- A value computed from the environment, which may fail. -/
def asksExcept (read : ρ → Except ε α) : Exec ρ σ ε α := fun env state =>
  match read env with
  | .ok value => .ok (value, state)
  | .error failure => .error failure

/-- A value computed from the environment and the state. -/
def gets (read : ρ → σ → α) : Exec ρ σ ε α := fun env state => .ok (read env state, state)

/-- Replace the state by one computed from the environment and the state. -/
def modify (update : ρ → σ → σ) : Exec ρ σ ε Unit := fun env state => .ok ((), update env state)

/-- A result computed elsewhere. -/
def lift (result : Except ε α) : Exec ρ σ ε α := fun _ state =>
  match result with
  | .ok value => .ok (value, state)
  | .error failure => .error failure

/-- Rewrite the failures of a computation. -/
def mapError (rewrite : ε → ε) (body : Exec ρ σ ε α) : Exec ρ σ ε α := fun env state =>
  match body env state with
  | .ok result => .ok result
  | .error failure => .error (rewrite failure)

/-- Run a body on every element of a list, in order. -/
def forEach (values : List β) (body : β → Exec ρ σ ε Unit) : Exec ρ σ ε Unit :=
  match values with
  | [] => pure ()
  | value :: rest => body value >>= fun _ => forEach rest body

/-! ## Inversion rules -/

section Rules

variable {env : ρ} {state after : σ}

/-- Returning a value changes nothing. -/
@[simp] theorem pure_ok {value result : α} :
    (pure value : Exec ρ σ ε α) env state = .ok (result, after) ↔
      result = value ∧ after = state := by
  change Except.ok (value, state) = _ ↔ _
  simp [eq_comm]

/-- A sequence goes on where its first part ends. -/
theorem bind_of_ok {first : Exec ρ σ ε α} {next : α → Exec ρ σ ε β} {value : α} {middle : σ}
    (ran : first env state = .ok (value, middle)) :
    (first >>= next) env state = next value env middle := by
  change (match first env state with
    | .ok (value, middle) => next value env middle
    | .error failure => .error failure) = _
  rw [ran]

/-- A sequence fails where its first part fails. -/
theorem bind_of_error {first : Exec ρ σ ε α} {next : α → Exec ρ σ ε β} {failure : ε}
    (failed : first env state = .error failure) :
    (first >>= next) env state = .error failure := by
  change (match first env state with
    | .ok (value, middle) => next value env middle
    | .error failure => .error failure) = _
  rw [failed]

/-- A sequence succeeds through an intermediate value and state. -/
@[simp] theorem bind_ok {first : Exec ρ σ ε α} {next : α → Exec ρ σ ε β} {result : β} :
    (first >>= next) env state = .ok (result, after) ↔
      ∃ value middle, first env state = .ok (value, middle) ∧
        next value env middle = .ok (result, after) := by
  change (match first env state with
    | .ok (value, middle) => next value env middle
    | .error failure => .error failure) = _ ↔ _
  cases ran : first env state with
  | ok found =>
    obtain ⟨value, middle⟩ := found
    simp
  | error failure => simp

/-- A failure is never a success. -/
@[simp] theorem fail_ok {failure : ε} {result : α} :
    (fail failure : Exec ρ σ ε α) env state = .ok (result, after) ↔ False := by
  simp [fail]

/-- A guard passes exactly when its condition is false, and changes nothing. -/
@[simp] theorem failIf_ok {condition : Prop} [Decidable condition] {failure : ε} {result : Unit} :
    (failIf condition failure : Exec ρ σ ε Unit) env state = .ok (result, after) ↔
      ¬ condition ∧ after = state := by
  by_cases holds : condition
  · simp [failIf, holds]
  · simp [failIf, holds]

/-- Reading the environment changes nothing. -/
@[simp] theorem asks_ok {read : ρ → α} {result : α} :
    (asks read : Exec ρ σ ε α) env state = .ok (result, after) ↔
      result = read env ∧ after = state := by
  simp [asks, eq_comm]

/-- A checked read of the environment changes nothing. -/
@[simp] theorem asksExcept_ok {read : ρ → Except ε α} {result : α} :
    (asksExcept read : Exec ρ σ ε α) env state = .ok (result, after) ↔
      read env = .ok result ∧ after = state := by
  cases found : read env with
  | ok value => simp [asksExcept, found, eq_comm]
  | error failure => simp [asksExcept, found]

/-- Reading the state changes nothing. -/
@[simp] theorem gets_ok {read : ρ → σ → α} {result : α} :
    (gets read : Exec ρ σ ε α) env state = .ok (result, after) ↔
      result = read env state ∧ after = state := by
  simp [gets, eq_comm]

/-- An update always succeeds. -/
@[simp] theorem modify_ok {update : ρ → σ → σ} {result : Unit} :
    (modify update : Exec ρ σ ε Unit) env state = .ok (result, after) ↔
      after = update env state := by
  simp [modify, eq_comm]

/-- A lifted result succeeds when it is a value, and changes nothing. -/
@[simp] theorem lift_ok {outcome : Except ε α} {result : α} :
    (lift outcome : Exec ρ σ ε α) env state = .ok (result, after) ↔
      outcome = .ok result ∧ after = state := by
  cases outcome with
  | ok value => simp [lift, eq_comm]
  | error failure => simp [lift]

/-- Rewriting failures leaves the successes. -/
@[simp] theorem mapError_ok {rewrite : ε → ε} {body : Exec ρ σ ε α} {result : α} :
    mapError rewrite body env state = .ok (result, after) ↔
      body env state = .ok (result, after) := by
  cases ran : body env state with
  | ok found => simp [mapError, ran]
  | error failure => simp [mapError, ran]

/-- A choice succeeds through the branch taken. -/
theorem ite_ok {condition : Prop} [Decidable condition] {left right : Exec ρ σ ε α} {result : α} :
    (if condition then left else right) env state = .ok (result, after) ↔
      (condition ∧ left env state = .ok (result, after)) ∨
        (¬ condition ∧ right env state = .ok (result, after)) := by
  by_cases holds : condition
  · simp [holds]
  · simp [holds]

/-- A loop over no elements changes nothing. -/
@[simp] theorem forEach_nil_ok {body : β → Exec ρ σ ε Unit} {result : Unit} :
    forEach [] body env state = .ok (result, after) ↔ after = state := by
  simp [forEach]

/-- A loop runs its body on the first element and then on the others. -/
@[simp] theorem forEach_cons_ok {value : β} {values : List β} {body : β → Exec ρ σ ε Unit}
    {result : Unit} :
    forEach (value :: values) body env state = .ok (result, after) ↔
      ∃ middle, body value env state = .ok ((), middle) ∧
        forEach values body env middle = .ok (result, after) := by
  simp only [forEach, bind_ok]
  constructor
  · rintro ⟨_, middle, first, rest⟩
    exact ⟨middle, first, rest⟩
  · rintro ⟨middle, first, rest⟩
    exact ⟨(), middle, first, rest⟩

/-- A loop over a concatenation is the loop over the first part and then over the second. -/
theorem forEach_append_ok {left right : List β} {body : β → Exec ρ σ ε Unit} {result : Unit} :
    forEach (left ++ right) body env state = .ok (result, after) ↔
      ∃ middle, forEach left body env state = .ok ((), middle) ∧
        forEach right body env middle = .ok (result, after) := by
  induction left generalizing state with
  | nil => simp
  | cons value values ih =>
    simp only [List.cons_append, forEach_cons_ok, ih]
    constructor
    · rintro ⟨first, ran, middle, rest, last⟩
      exact ⟨middle, ⟨first, ran, rest⟩, last⟩
    · rintro ⟨middle, ⟨first, ran, rest⟩, last⟩
      exact ⟨first, ran, middle, rest, last⟩

/-- A loop over mapped elements is a loop over the elements. -/
theorem forEach_map {γ : Type} {values : List γ} {image : γ → β} {body : β → Exec ρ σ ε Unit} :
    forEach (values.map image) body = forEach values fun value => body (image value) := by
  induction values with
  | nil => rfl
  | cons value values ih => rw [List.map_cons, forEach, forEach, ih]

/-- A loop succeeds the same in environments in which its body does. -/
theorem forEach_congr_ok {values : List β} {body : β → Exec ρ σ ε Unit} {other : ρ}
    {result : Unit} (same : ∀ value before later, body value env before = .ok ((), later) ↔
      body value other before = .ok ((), later)) :
    forEach values body env state = .ok (result, after) ↔
      forEach values body other state = .ok (result, after) := by
  induction values generalizing state with
  | nil => simp only [forEach_nil_ok]
  | cons value values ih => simp only [forEach_cons_ok, same, ih]

/-- A loop whose body acts on some elements only, and fails on those it cannot read, is the loop
of the action over the elements it acts on. -/
theorem forEach_filter_ok {values : List β} {body act : β → Exec ρ σ ε Unit} {result : Unit}
    {readable : β → Prop} {due : β → Bool}
    (acts : ∀ value ∈ values, ∀ before later, body value env before = .ok ((), later) ↔
      readable value ∧
        if due value then act value env before = .ok ((), later) else later = before) :
    forEach values body env state = .ok (result, after) ↔
      (∀ value ∈ values, readable value) ∧
        forEach (values.filter due) act env state = .ok ((), after) := by
  induction values generalizing state with
  | nil => simp
  | cons value values ih =>
    have others := fun other listed => acts other (List.mem_cons_of_mem _ listed)
    have first := acts value List.mem_cons_self
    simp only [forEach_cons_ok, ih others, first, List.forall_mem_cons]
    by_cases holds : due value = true
    · simp only [List.filter_cons_of_pos holds, forEach_cons_ok, if_pos holds]
      constructor
      · rintro ⟨middle, ⟨read, ran⟩, reads, later⟩
        exact ⟨⟨read, reads⟩, middle, ran, later⟩
      · rintro ⟨⟨read, reads⟩, middle, ran, later⟩
        exact ⟨middle, ⟨read, ran⟩, reads, later⟩
    · simp only [List.filter_cons_of_neg holds, if_neg holds]
      constructor
      · rintro ⟨_, ⟨read, rfl⟩, reads, later⟩
        exact ⟨⟨read, reads⟩, later⟩
      · rintro ⟨⟨read, reads⟩, later⟩
        exact ⟨state, ⟨read, rfl⟩, reads, later⟩

/-- The rule of loops: what the body preserves on each listed element, the loop preserves. -/
theorem forEach_preserves {values : List β} {body : β → Exec ρ σ ε Unit} {result : Unit}
    (invariant : σ → Prop)
    (kept : ∀ value ∈ values, ∀ before later, invariant before →
      body value env before = .ok ((), later) → invariant later)
    (start : invariant state) (ran : forEach values body env state = .ok (result, after)) :
    invariant after := by
  induction values generalizing state with
  | nil =>
    rw [forEach_nil_ok] at ran
    exact ran ▸ start
  | cons value values ih =>
    obtain ⟨middle, first, rest⟩ := forEach_cons_ok.mp ran
    have here : invariant middle := kept value List.mem_cons_self state middle start first
    exact ih (fun other listed => kept other (List.mem_cons_of_mem _ listed)) here rest

/-- The rule of loops that never fail: a body that succeeds on each listed element in the states
of an invariant, which it preserves, is a loop that does. -/
theorem forEach_runs {values : List β} {body : β → Exec ρ σ ε Unit} (invariant : σ → Prop)
    (runs : ∀ value ∈ values, ∀ before, invariant before →
      ∃ later, body value env before = .ok ((), later) ∧ invariant later)
    (start : invariant state) :
    ∃ after, forEach values body env state = .ok ((), after) ∧ invariant after := by
  induction values generalizing state with
  | nil => exact ⟨state, forEach_nil_ok.mpr rfl, start⟩
  | cons value values ih =>
    obtain ⟨middle, first, here⟩ := runs value List.mem_cons_self state start
    have others := fun other listed => runs other (List.mem_cons_of_mem _ listed)
    obtain ⟨after, rest, last⟩ := ih others here
    exact ⟨after, forEach_cons_ok.mpr ⟨middle, first, rest⟩, last⟩

end Rules

/-! ## Failure rules

The counterparts for failures: a failed run of a program is traced to the one part that failed,
after parts that succeeded. -/

section Failures

variable {env : ρ} {state : σ} {failure : ε}

/-- Returning a value never fails. -/
@[simp] theorem pure_error {value : α} :
    (pure value : Exec ρ σ ε α) env state = .error failure ↔ False := by
  change Except.ok (value, state) = _ ↔ _
  simp

/-- A sequence fails in its first part, or in the second after the first has succeeded. -/
@[simp] theorem bind_error {first : Exec ρ σ ε α} {next : α → Exec ρ σ ε β} :
    (first >>= next) env state = .error failure ↔
      first env state = .error failure ∨ ∃ value middle, first env state = .ok (value, middle) ∧
        next value env middle = .error failure := by
  change (match first env state with
    | .ok (value, middle) => next value env middle
    | .error failure => .error failure) = _ ↔ _
  cases ran : first env state with
  | ok found =>
    obtain ⟨value, middle⟩ := found
    simp
  | error other => simp

/-- A failure fails. -/
@[simp] theorem fail_error {other : ε} :
    (fail other : Exec ρ σ ε α) env state = .error failure ↔ other = failure := by
  simp [fail]

/-- A guard fails exactly when its condition holds. -/
@[simp] theorem failIf_error {condition : Prop} [Decidable condition] {other : ε} :
    (failIf condition other : Exec ρ σ ε Unit) env state = .error failure ↔
      condition ∧ other = failure := by
  by_cases holds : condition
  · simp [failIf, holds]
  · simp [failIf, holds]

/-- Reading the environment never fails. -/
@[simp] theorem asks_error {read : ρ → α} :
    (asks read : Exec ρ σ ε α) env state = .error failure ↔ False := by
  simp [asks]

/-- A checked read of the environment fails when the read does. -/
@[simp] theorem asksExcept_error {read : ρ → Except ε α} :
    (asksExcept read : Exec ρ σ ε α) env state = .error failure ↔ read env = .error failure := by
  cases found : read env with
  | ok value => simp [asksExcept, found]
  | error other => simp [asksExcept, found]

/-- Reading the state never fails. -/
@[simp] theorem gets_error {read : ρ → σ → α} :
    (gets read : Exec ρ σ ε α) env state = .error failure ↔ False := by
  simp [gets]

/-- An update never fails. -/
@[simp] theorem modify_error {update : ρ → σ → σ} :
    (modify update : Exec ρ σ ε Unit) env state = .error failure ↔ False := by
  simp [modify]

/-- A lifted result fails when it is a failure. -/
@[simp] theorem lift_error {outcome : Except ε α} :
    (lift outcome : Exec ρ σ ε α) env state = .error failure ↔ outcome = .error failure := by
  cases outcome with
  | ok value => simp [lift]
  | error other => simp [lift]

/-- Rewritten failures come from failures. -/
@[simp] theorem mapError_error {rewrite : ε → ε} {body : Exec ρ σ ε α} :
    mapError rewrite body env state = .error failure ↔
      ∃ other, body env state = .error other ∧ rewrite other = failure := by
  cases ran : body env state with
  | ok found => simp [mapError, ran]
  | error other => simp [mapError, ran]

/-- A choice fails through the branch taken. -/
theorem ite_error {condition : Prop} [Decidable condition] {left right : Exec ρ σ ε α} :
    (if condition then left else right) env state = .error failure ↔
      (condition ∧ left env state = .error failure) ∨
        (¬ condition ∧ right env state = .error failure) := by
  by_cases holds : condition
  · simp [holds]
  · simp [holds]

end Failures

end Exec

end Lib
