import Creditcoin.Lib.Exec

/-!
# Agreement of two runs

Two computations agree along a relation of their states when, from related states, both return the
same value and related states or both fail. The environments are fixed, so a computation may agree
with itself in two different ones. Every construct keeps the agreement of its parts, and a program
agrees with another one as soon as their basic operations do.
-/

namespace Lib.Exec

variable {ρ ρ' σ σ' ε α β : Type}

/-- Two outcomes agree: the same value with related states, or two failures. -/
inductive Outcomes (related : σ → σ' → Prop) : Except ε (α × σ) → Except ε (α × σ') → Prop where
  /-- Both return a value. -/
  | ok {value : α} {after : σ} {after' : σ'} (kept : related after after') :
      Outcomes related (.ok (value, after)) (.ok (value, after'))
  /-- Both fail. -/
  | error {failure failure' : ε} : Outcomes related (.error failure) (.error failure')

/-- Two computations agree along a relation of their states. -/
def Agree (env : ρ) (env' : ρ') (related : σ → σ' → Prop) (left : Exec ρ σ ε α)
    (right : Exec ρ' σ' ε α) : Prop :=
  ∀ before before', related before before' →
    Outcomes related (left env before) (right env' before')

section Rules

variable {env : ρ} {env' : ρ'} {related : σ → σ' → Prop}

/-- Returning the same value agrees. -/
theorem Agree.pure (value : α) :
    Agree env env' related (Pure.pure value : Exec ρ σ ε α) (Pure.pure value) :=
  fun _ _ kept => .ok kept

/-- Sequences agree when their parts do. -/
theorem Agree.bind {first : Exec ρ σ ε α} {first' : Exec ρ' σ' ε α}
    {next : α → Exec ρ σ ε β} {next' : α → Exec ρ' σ' ε β}
    (starts : Agree env env' related first first')
    (continues : ∀ value, Agree env env' related (next value) (next' value)) :
    Agree env env' related (first >>= next) (first' >>= next') := by
  intro before before' kept
  have outcomes := starts before before' kept
  cases left : first env before with
  | error failure =>
    cases right : first' env' before' with
    | error failure' =>
      rw [Exec.bind_of_error left, Exec.bind_of_error right]
      exact .error
    | ok result => rw [left, right] at outcomes; cases outcomes
  | ok result =>
    cases right : first' env' before' with
    | error failure' => rw [left, right] at outcomes; cases outcomes
    | ok result' =>
      rw [Exec.bind_of_ok left, Exec.bind_of_ok right]
      rw [left, right] at outcomes
      cases outcomes with
      | ok kept => exact continues _ _ _ kept

/-- Two failures agree. -/
theorem Agree.fail {failure failure' : ε} :
    Agree env env' related (fail failure : Exec ρ σ ε α) (fail failure') :=
  fun _ _ _ => .error

/-- A choice agrees when the branches do. -/
theorem Agree.ite {condition : Prop} [Decidable condition] {left right : Exec ρ σ ε α}
    {left' right' : Exec ρ' σ' ε α} (holds : condition → Agree env env' related left left')
    (fails : ¬ condition → Agree env env' related right right') :
    Agree env env' related (if condition then left else right)
      (if condition then left' else right') := by
  by_cases decided : condition
  · rw [if_pos decided, if_pos decided]
    exact holds decided
  · rw [if_neg decided, if_neg decided]
    exact fails decided

/-- The same guard agrees, whatever its failures. -/
theorem Agree.failIf {condition : Prop} [Decidable condition] {failure failure' : ε} :
    Agree env env' related (failIf condition failure : Exec ρ σ ε Unit)
      (failIf condition failure') :=
  Agree.ite (fun _ => Agree.fail) fun _ => Agree.pure ()

/-- A result computed elsewhere agrees with itself. -/
theorem Agree.lift (outcome : Except ε α) :
    Agree env env' related (lift outcome : Exec ρ σ ε α) (lift outcome) := by
  intro before before' kept
  cases outcome with
  | ok value => exact .ok kept
  | error failure => exact .error

/-- Reads of the environments agree when they find the same. -/
theorem Agree.asks {read : ρ → α} {read' : ρ' → α} (same : read env = read' env') :
    Agree env env' related (asks read : Exec ρ σ ε α) (asks read') := by
  intro before before' kept
  change Outcomes related (.ok (read env, before)) (.ok (read' env', before'))
  rw [same]
  exact .ok kept

/-- Reads of the environments may find different values when what follows agrees on them. -/
theorem Agree.bind_asks {γ γ' : Type} {read : ρ → γ} {read' : ρ' → γ'} {next : γ → Exec ρ σ ε α}
    {next' : γ' → Exec ρ' σ' ε α}
    (agree : Agree env env' related (next (read env)) (next' (read' env'))) :
    Agree env env' related (Exec.asks read >>= next) (Exec.asks read' >>= next') :=
  fun before before' kept => agree before before' kept

/-- Checked reads of the environments agree when they find the same. -/
theorem Agree.asksExcept {read : ρ → Except ε α} {read' : ρ' → Except ε α}
    (same : read env = read' env') :
    Agree env env' related (asksExcept read : Exec ρ σ ε α) (asksExcept read') := by
  intro before before' kept
  unfold Exec.asksExcept
  rw [same]
  cases read' env' with
  | ok value => exact .ok kept
  | error failure => exact .error

/-- Reads of related states agree when they find the same. -/
theorem Agree.gets {read : ρ → σ → α} {read' : ρ' → σ' → α}
    (same : ∀ before before', related before before' → read env before = read' env' before') :
    Agree env env' related (gets read : Exec ρ σ ε α) (gets read') := by
  intro before before' kept
  change Outcomes related (.ok (read env before, before)) (.ok (read' env' before', before'))
  rw [same before before' kept]
  exact .ok kept

/-- Updates agree when they keep the relation. -/
theorem Agree.modify {update : ρ → σ → σ} {update' : ρ' → σ' → σ'}
    (keeps : ∀ before before', related before before' →
      related (update env before) (update' env' before')) :
    Agree env env' related (modify update : Exec ρ σ ε Unit) (modify update') :=
  fun before before' kept => .ok (keeps before before' kept)

/-- Rewriting the failures keeps agreement. -/
theorem Agree.mapError {rewrite rewrite' : ε → ε} {body : Exec ρ σ ε α} {body' : Exec ρ' σ' ε α}
    (agree : Agree env env' related body body') :
    Agree env env' related (mapError rewrite body) (mapError rewrite' body') := by
  intro before before' kept
  have outcomes := agree before before' kept
  unfold Exec.mapError
  cases left : body env before with
  | error failure =>
    cases right : body' env' before' with
    | error failure' => exact .error
    | ok result => rw [left, right] at outcomes; cases outcomes
  | ok result =>
    cases right : body' env' before' with
    | error failure' => rw [left, right] at outcomes; cases outcomes
    | ok result' => rw [left, right] at outcomes; exact outcomes

/-- Loops over the same elements agree when their bodies do. -/
theorem Agree.forEach {values : List β} {body : β → Exec ρ σ ε Unit}
    {body' : β → Exec ρ' σ' ε Unit}
    (agree : ∀ value ∈ values, Agree env env' related (body value) (body' value)) :
    Agree env env' related (forEach values body) (forEach values body') := by
  induction values with
  | nil => exact Agree.pure ()
  | cons value values ih =>
    apply Agree.bind (agree value List.mem_cons_self)
    intro _
    exact ih fun other listed => agree other (List.mem_cons_of_mem _ listed)

end Rules

end Lib.Exec
