import Mathlib.Data.List.Basic

/-!
# Computations whose state survives a failure

A driver changes a state and may fail half way, and what it wrote before the failure stays. The
rules read a run apart: a sequence succeeds when its parts do one after the other, and fails in the
first part that fails, with the state this part leaves.
-/

namespace Lib.Driver

variable {ε σ α β γ : Type} {state after : σ}

/-- A sequence succeeds when its parts do. -/
theorem bind_ok {first : EStateM ε σ α} {next : α → EStateM ε σ β} {result : β} :
    (first >>= next) state = .ok result after ↔
      ∃ value middle, first state = .ok value middle ∧ next value middle = .ok result after := by
  change EStateM.bind first next state = _ ↔ _
  unfold EStateM.bind
  cases first state with
  | ok value middle => simp
  | error failure middle => simp

/-- A sequence fails in its first part or after it. -/
theorem bind_error {first : EStateM ε σ α} {next : α → EStateM ε σ β} {failure : ε} :
    (first >>= next) state = .error failure after ↔
      first state = .error failure after ∨
        ∃ value middle, first state = .ok value middle ∧
          next value middle = .error failure after := by
  change EStateM.bind first next state = _ ↔ _
  unfold EStateM.bind
  cases first state with
  | ok value middle => simp
  | error other middle => simp

/-- Returning a value changes nothing. -/
theorem pure_ok {value result : α} :
    (pure value : EStateM ε σ α) state = .ok result after ↔ value = result ∧ state = after := by
  change EStateM.Result.ok value state = _ ↔ _
  simp

/-- An update always succeeds. -/
theorem modify_ok {update : σ → σ} {result : Unit} :
    (modify update : EStateM ε σ Unit) state = .ok result after ↔ update state = after := by
  change EStateM.Result.ok () (update state) = _ ↔ _
  simp

/-- Run a body on every element of a list, in order. -/
def forEach (values : List β) (body : β → EStateM ε σ Unit) : EStateM ε σ Unit :=
  match values with
  | [] => pure ()
  | value :: rest => body value >>= fun _ => forEach rest body

/-- A loop over no elements changes nothing. -/
theorem forEach_nil_ok {body : β → EStateM ε σ Unit} {result : Unit} :
    forEach [] body state = .ok result after ↔ state = after := by
  simp [forEach, pure_ok]

/-- A loop succeeds when its body does, element by element. -/
theorem forEach_cons_ok {value : β} {rest : List β} {body : β → EStateM ε σ Unit} {result : Unit} :
    forEach (value :: rest) body state = .ok result after ↔
      ∃ middle, body value state = .ok () middle ∧ forEach rest body middle = .ok result after := by
  simp only [forEach, bind_ok]
  exact ⟨fun ⟨_, middle, first, later⟩ => ⟨middle, first, later⟩,
    fun ⟨middle, first, later⟩ => ⟨(), middle, first, later⟩⟩

/-- A loop over two lists succeeds when the loops over each do. -/
theorem forEach_append_ok {values others : List β} {body : β → EStateM ε σ Unit} {result : Unit} :
    forEach (values ++ others) body state = .ok result after ↔
      ∃ middle, forEach values body state = .ok () middle ∧
        forEach others body middle = .ok result after := by
  induction values generalizing state with
  | nil => simp [forEach_nil_ok]
  | cons value values ih =>
    simp only [List.cons_append, forEach_cons_ok, ih]
    constructor
    · rintro ⟨first, ran, middle, rest, last⟩
      exact ⟨middle, ⟨first, ran, rest⟩, last⟩
    · rintro ⟨middle, ⟨first, ran, rest⟩, last⟩
      exact ⟨first, ran, middle, rest, last⟩

/-- A loop over two lists is the loops over each. -/
theorem forEach_append {values others : List β} {body : β → EStateM ε σ Unit} :
    forEach (values ++ others) body = (forEach values body >>= fun _ => forEach others body) := by
  induction values with
  | nil => rfl
  | cons value values ih => simp only [List.cons_append, forEach, ih, bind_assoc]

/-- A loop over the images of a list. -/
theorem forEach_map {values : List β} {image : β → γ} {body : γ → EStateM ε σ Unit} :
    forEach (values.map image) body = forEach values fun value => body (image value) := by
  induction values with
  | nil => rfl
  | cons value values ih => simp only [List.map_cons, forEach, ih]

/-- A loop over the parts of a list is a loop over the parts of each element. -/
theorem forEach_flatMap {values : List β} {parts : β → List γ} {body : γ → EStateM ε σ Unit} :
    forEach (values.flatMap parts) body =
      forEach values fun value => forEach (parts value) body := by
  induction values with
  | nil => rfl
  | cons value values ih => simp only [List.flatMap_cons, forEach_append, forEach, ih]

/-- A driver ends in the state it starts in, whether it fails or not. -/
def Stays (driver : EStateM ε σ α) (state : σ) : Prop :=
  (∃ value, driver state = .ok value state) ∨ ∃ failure, driver state = .error failure state

/-- A sequence stays when its parts do. -/
theorem Stays.bind {first : EStateM ε σ α} {next : α → EStateM ε σ β}
    (before : Stays first state) (rest : ∀ value, Stays (next value) state) :
    Stays (first >>= next) state := by
  rcases before with ⟨value, ran⟩ | ⟨failure, ran⟩
  · rcases rest value with ⟨result, later⟩ | ⟨failure, later⟩
    · exact .inl ⟨result, bind_ok.mpr ⟨value, state, ran, later⟩⟩
    · exact .inr ⟨failure, bind_error.mpr (.inr ⟨value, state, ran, later⟩)⟩
  · exact .inr ⟨failure, bind_error.mpr (.inl ran)⟩

/-- A loop stays when nothing happens up to the first element that runs, and this one fails. -/
theorem Stays.forEach {values : List β} {body : β → EStateM ε σ Unit} {runs : β → Bool}
    (idle : ∀ value ∈ values, runs value = false → body value state = .ok () state)
    (halts : ∀ value, values.find? runs = some value → ∃ failure,
      body value state = .error failure state) : Stays (Driver.forEach values body) state := by
  induction values with
  | nil => exact .inl ⟨(), rfl⟩
  | cons value values ih =>
    cases running : runs value with
    | true =>
      obtain ⟨failure, failed⟩ := halts value (List.find?_cons_of_pos running)
      exact .inr ⟨failure, bind_error.mpr (.inl failed)⟩
    | false =>
      have skipped := idle value List.mem_cons_self running
      have later : Stays (Driver.forEach values body) state := by
        refine ih (fun other listed => idle other (List.mem_cons_of_mem _ listed))
          fun other found => halts other ?_
        rw [List.find?_cons_of_neg (by simp [running])]
        exact found
      rcases later with ⟨result, rest⟩ | ⟨failure, rest⟩
      · exact .inl ⟨result, bind_ok.mpr ⟨(), state, skipped, rest⟩⟩
      · exact .inr ⟨failure, bind_error.mpr (.inr ⟨(), state, skipped, rest⟩)⟩

end Lib.Driver
