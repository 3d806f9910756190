import Mathlib.Data.List.Infix

/-!
# Glob patterns

A pattern is a sequence of letters, single wildcards and stars. A star stands
for any text, so it is tried against every end of the text that is left.
-/

namespace Glob

variable {α : Type*}

inductive Token (α : Type*) where
  | letter (value : α)
  | single
  | star
  deriving DecidableEq

/-- Whether the pattern matches the whole text. -/
def accepts [DecidableEq α] (pattern : List (Token α)) (text : List α) : Bool :=
  match pattern, text with
  | [], [] => true
  | [], _ :: _ => false
  | .letter _ :: _, [] => false
  | .letter value :: rest, first :: others => value = first && accepts rest others
  | .single :: _, [] => false
  | .single :: rest, _ :: others => accepts rest others
  | .star :: rest, text => text.tails.any (accepts rest)

variable [DecidableEq α]

theorem accepts_nil_iff (text : List α) : accepts [] text = true ↔ text = [] := by
  cases text <;> simp [accepts]

theorem accepts_letter_iff {value : α} {rest : List (Token α)} {text : List α} :
    accepts (.letter value :: rest) text = true ↔
      ∃ others, text = value :: others ∧ accepts rest others = true := by
  cases text with
  | nil => simp [accepts]
  | cons first others =>
      simp only [accepts, Bool.and_eq_true, decide_eq_true_eq, List.cons.injEq]
      constructor
      · rintro ⟨rfl, accepted⟩
        exact ⟨others, ⟨rfl, rfl⟩, accepted⟩
      · rintro ⟨_, ⟨rfl, rfl⟩, accepted⟩
        exact ⟨rfl, accepted⟩

theorem accepts_single_iff {rest : List (Token α)} {text : List α} :
    accepts (.single :: rest) text = true ↔
      ∃ first others, text = first :: others ∧ accepts rest others = true := by
  cases text with
  | nil => simp [accepts]
  | cons first others => simp [accepts]

theorem accepts_star_iff {rest : List (Token α)} {text : List α} :
    accepts (.star :: rest) text = true ↔
      ∃ before after, text = before ++ after ∧ accepts rest after = true := by
  rw [accepts, List.any_eq_true]
  constructor
  · rintro ⟨after, tail, accepted⟩
    rcases (List.mem_tails after text).mp tail with ⟨before, rfl⟩
    exact ⟨before, after, rfl, accepted⟩
  · rintro ⟨before, after, rfl, accepted⟩
    exact ⟨after, (List.mem_tails _ _).mpr ⟨before, rfl⟩, accepted⟩

/-- A star may stand for nothing. -/
theorem accepts_star_of_accepts {rest : List (Token α)} {text : List α}
    (accepted : accepts rest text = true) : accepts (.star :: rest) text = true :=
  accepts_star_iff.mpr ⟨[], text, rfl, accepted⟩

theorem mem_of_accepts {value : α} {pattern : List (Token α)} {text : List α}
    (mem : Token.letter value ∈ pattern) (accepted : accepts pattern text = true) :
    value ∈ text := by
  induction pattern generalizing text with
  | nil => simp at mem
  | cons token rest ih =>
      cases token with
      | letter first =>
          rcases accepts_letter_iff.mp accepted with ⟨others, rfl, rest_accepted⟩
          rcases List.mem_cons.mp mem with here | later
          · rw [Token.letter.inj here]
            simp
          · exact List.mem_cons_of_mem _ (ih later rest_accepted)
      | single =>
          rcases accepts_single_iff.mp accepted with ⟨first, others, rfl, rest_accepted⟩
          exact List.mem_cons_of_mem _ (ih (by simpa using mem) rest_accepted)
      | star =>
          rcases accepts_star_iff.mp accepted with ⟨before, after, rfl, rest_accepted⟩
          exact List.mem_append_right _ (ih (by simpa using mem) rest_accepted)

/-- The part of a pattern in front of the first star takes one letter for each token. -/
theorem accepts_append_of_star_notMem {first rest : List (Token α)} {text : List α}
    (fixed : Token.star ∉ first) (accepted : accepts (first ++ rest) text = true) :
    ∃ before after, text = before ++ after ∧ before.length = first.length ∧
      accepts rest after = true := by
  induction first generalizing text with
  | nil => exact ⟨[], text, rfl, rfl, accepted⟩
  | cons token others ih =>
      have others_fixed : Token.star ∉ others := fun mem => fixed (by simp [mem])
      rw [List.cons_append] at accepted
      have consumed : ∃ head tail, text = head :: tail ∧ accepts (others ++ rest) tail = true := by
        cases token with
        | letter value =>
            rcases accepts_letter_iff.mp accepted with ⟨tail, text_eq, tail_accepted⟩
            exact ⟨value, tail, text_eq, tail_accepted⟩
        | single => exact accepts_single_iff.mp accepted
        | star => exact absurd (by simp) fixed
      rcases consumed with ⟨head, tail, rfl, tail_accepted⟩
      rcases ih others_fixed tail_accepted with ⟨before, after, rfl, length_eq, after_accepted⟩
      exact ⟨head :: before, after, rfl, by simp [length_eq], after_accepted⟩

theorem length_of_accepts {pattern : List (Token α)} {text : List α}
    (fixed : Token.star ∉ pattern) (accepted : accepts pattern text = true) :
    text.length = pattern.length := by
  rw [← List.append_nil pattern] at accepted
  rcases accepts_append_of_star_notMem fixed accepted with
    ⟨before, after, rfl, length_eq, after_accepted⟩
  rw [accepts_nil_iff] at after_accepted
  simp [after_accepted, length_eq]

end Glob
