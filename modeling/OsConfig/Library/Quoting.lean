import Mathlib.Data.List.Basic
import Mathlib.Tactic.Basic

/-!
# Quoted text

Between two quotes every letter stands for itself, except that an escape letter
has to stand in front of a quote and of another escape letter. A body is what
may stand between the quotes. It holds no quote that could close it, so the
first quote behind a body that does not belong to it is the end of the text.
-/

namespace Quoting

variable {α : Type*} {escape quote : α}

/-- The letters between the quotes and the value that they stand for. -/
inductive Body (escape quote : α) : List α → List α → Prop
  | nil : Body escape quote [] []
  | letter {letter : α} {raw value : List α} (unescaped : letter ≠ escape)
      (unquoted : letter ≠ quote) (rest : Body escape quote raw value) :
      Body escape quote (letter :: raw) (letter :: value)
  | escaped {letter : α} {raw value : List α} (special : letter = escape ∨ letter = quote)
      (rest : Body escape quote raw value) :
      Body escape quote (escape :: letter :: raw) (letter :: value)

theorem Body.append {raw value raw' value' : List α} (body : Body escape quote raw value)
    (body' : Body escape quote raw' value') :
    Body escape quote (raw ++ raw') (value ++ value') := by
  induction body with
  | nil => exact body'
  | letter unescaped unquoted _ ih => exact .letter unescaped unquoted ih
  | escaped special _ ih => exact .escaped special ih

theorem Body.not_closed {raw value raw' value' rest : List α} (distinct : quote ≠ escape)
    (body : Body escape quote raw value) (body' : Body escape quote raw' value') :
    raw' ≠ raw ++ quote :: rest := by
  induction body generalizing raw' value' with
  | nil =>
      rintro rfl
      cases body' with
      | letter _ unquoted _ => exact unquoted rfl
      | escaped _ _ => exact distinct rfl
  | letter unescaped _ _ ih =>
      intro equal
      cases body' with
      | nil => cases equal
      | letter _ _ rest' =>
          injection equal with _ tails
          exact ih rest' tails
      | escaped _ _ =>
          injection equal with heads _
          exact unescaped heads.symm
  | escaped _ _ ih =>
      intro equal
      cases body' with
      | nil => cases equal
      | letter unescaped' _ _ =>
          injection equal with heads _
          exact unescaped' heads
      | escaped _ rest' =>
          injection equal with _ tails
          injection tails with _ tails
          exact ih rest' tails

variable [DecidableEq α]

/-- The letters that stand for a value between two quotes. -/
def render (escape quote : α) : List α → List α
  | [] => []
  | letter :: value =>
      if letter = escape ∨ letter = quote then escape :: letter :: render escape quote value
      else letter :: render escape quote value

theorem body_render (value : List α) : Body escape quote (render escape quote value) value := by
  induction value with
  | nil => exact .nil
  | cons letter value ih =>
      rw [render]
      split
      next special => exact .escaped special ih
      next plain =>
        rw [not_or] at plain
        exact .letter plain.1 plain.2 ih

end Quoting
