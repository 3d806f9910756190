import Mathlib.Tactic.Basic

/-!
# Computations that can fail

When a chain of computations succeeds, so did each of its parts, and each part
was run on what the part before it returned.
-/

namespace Fallible

universe u v

variable {ε : Type u} {α β : Type v}

theorem exists_of_bind_ok {first : Except ε α} {next : α → Except ε β} {result : β}
    (bound : first >>= next = .ok result) : ∃ value, first = .ok value ∧ next value = .ok result := by
  cases first with
  | error fault => cases bound
  | ok value => exact ⟨value, rfl, bound⟩

end Fallible
