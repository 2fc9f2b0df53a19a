import Mathlib.Init

/-!
# What can be had

Items need keys and give keys. A key can be had when it is there from the start, or when an item
that came gives it and can have all that it needs. What a component holds, which is sound and
closed, is exactly what can be had, in whatever order items came.
-/

namespace Lib

/-- What can be had from the items that came. -/
inductive Available {α κ : Type} (came : α → Prop) (needs gives : α → κ → Prop) (base : κ → Prop) :
    κ → Prop where
  /-- What is there from the start. -/
  | base {key} (given : base key) : Available came needs gives base key
  /-- What an item gives that can have what it needs. -/
  | given {item key} (listed : came item)
      (supplied : ∀ need, needs item need → Available came needs gives base need)
      (given : gives item key) : Available came needs gives base key

namespace Available

variable {α κ : Type} {came came' : α → Prop} {needs gives : α → κ → Prop} {base : κ → Prop}
  {key : κ}

/-- More items give more. -/
theorem mono (more : ∀ item, came item → came' item)
    (available : Available came needs gives base key) :
    Available came' needs gives base key := by
  induction available with
  | base given => exact .base given
  | given listed _ given ih => exact .given (more _ listed) ih given

end Available

end Lib
