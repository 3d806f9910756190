import Mathlib.Data.List.Infix
import Mathlib.Data.List.DropRight

/-!
# Substrings

The first occurrence of a pattern in a text. A letter that does not occur in
the pattern separates the text: a pattern that occurs, occurs in front of the
letter or behind it. So the first occurrence is found piece by piece.
-/

namespace Substrings

variable {α : Type*} {pattern text before after : List α} {separator : α}

theorem prefix_append_cons_iff (before after : List α) (apart : separator ∉ pattern) :
    pattern <+: before ++ separator :: after ↔ pattern <+: before := by
  constructor
  · rintro ⟨rest, equal⟩
    rcases List.append_eq_append_iff.mp equal with ⟨missing, before_eq, -⟩ | ⟨excess, pattern_eq, rest_eq⟩
    · exact ⟨missing, before_eq.symm⟩
    · cases excess with
      | nil =>
          rw [List.append_nil] at pattern_eq
          exact pattern_eq ▸ List.prefix_refl _
      | cons letter others =>
          rw [List.cons_append, List.cons.injEq] at rest_eq
          apply absurd _ apart
          rw [pattern_eq, rest_eq.1]
          simp
  · intro here
    exact here.trans (List.prefix_append before _)

theorem infix_append_cons_iff (apart : separator ∉ pattern) :
    pattern <:+: before ++ separator :: after ↔ pattern <:+: before ∨ pattern <:+: after := by
  induction before with
  | nil =>
      rw [List.nil_append, List.infix_cons_iff]
      have starts : pattern <+: separator :: after ↔ pattern <+: [] :=
        prefix_append_cons_iff [] after apart
      rw [starts, List.prefix_nil, List.infix_nil]
  | cons letter rest ih =>
      have starts : pattern <+: letter :: (rest ++ separator :: after) ↔ pattern <+: letter :: rest :=
        prefix_append_cons_iff (letter :: rest) after apart
      rw [List.cons_append, List.infix_cons_iff, List.infix_cons_iff, starts, ih, or_assoc]

theorem infix_append_of_apart (some_pattern : pattern ≠ [])
    (apart : ∀ letter ∈ after, letter ∉ pattern) (occurs : pattern <:+: before ++ after) :
    pattern <:+: before := by
  cases after with
  | nil => simpa using occurs
  | cons letter rest =>
      rcases (infix_append_cons_iff (apart letter List.mem_cons_self)).mp occurs with here | later
      · exact here
      · rcases List.exists_mem_of_ne_nil pattern some_pattern with ⟨first, mem⟩
        exact absurd mem (apart first (List.mem_cons_of_mem _ (later.subset mem)))

variable [DecidableEq α]

/-- The text from the first occurrence of the pattern on. -/
def search (pattern : List α) : List α → Option (List α)
  | [] => if pattern = [] then some [] else none
  | letter :: rest =>
      if pattern <+: letter :: rest then some (letter :: rest) else search pattern rest

theorem search_of_prefix (here : pattern <+: text) : search pattern text = some text := by
  cases text with
  | nil => simp [search, List.prefix_nil.mp here]
  | cons letter rest => rw [search, if_pos here]

theorem search_eq_none_iff : search pattern text = none ↔ ¬ pattern <:+: text := by
  induction text with
  | nil => simp [search]
  | cons letter rest ih =>
      rw [search, List.infix_cons_iff]
      split
      next here => simp [here]
      next elsewhere => simpa [elsewhere] using ih

theorem search_cons_of_not_prefix {letter : α} (elsewhere : ¬ pattern <+: letter :: text) :
    search pattern (letter :: text) = search pattern text := by
  rw [search, if_neg elsewhere]

/-- Nothing in front of the separator: the search goes on behind it. -/
theorem search_append_cons (before after : List α) (some_pattern : pattern ≠ [])
    (apart : separator ∉ pattern) (absent : ¬ pattern <:+: before) :
    search pattern (before ++ separator :: after) = search pattern after := by
  induction before with
  | nil =>
      apply search_cons_of_not_prefix
      intro here
      rcases List.exists_cons_of_ne_nil some_pattern with ⟨letter, others, rfl⟩
      rw [List.cons_prefix_cons] at here
      simp [here.1] at apart
  | cons letter rest ih =>
      rw [List.infix_cons_iff, not_or] at absent
      rw [List.cons_append, search_cons_of_not_prefix, ih absent.2]
      rw [← List.cons_append, prefix_append_cons_iff _ _ apart]
      exact absent.1

theorem search_append_of_apart (some_pattern : pattern ≠ [])
    (apart : ∀ letter ∈ before, letter ∉ pattern) :
    search pattern (before ++ after) = search pattern after := by
  induction before with
  | nil => rfl
  | cons letter rest ih =>
      have absent : ¬ pattern <:+: [] := by simpa using some_pattern
      have skipped : search pattern (letter :: (rest ++ after)) = search pattern (rest ++ after) :=
        search_append_cons [] (rest ++ after) some_pattern (apart letter List.mem_cons_self) absent
      rw [List.cons_append, skipped, ih fun other mem => apart other (List.mem_cons_of_mem _ mem)]

theorem suffix_of_search {found : List α} (finds : search pattern text = some found) :
    found <:+ text ∧ pattern <+: found := by
  induction text with
  | nil =>
      rw [search] at finds
      split at finds
      next empty =>
        cases finds
        exact ⟨List.suffix_refl _, by rw [empty]⟩
      next => cases finds
  | cons letter rest ih =>
      rw [search] at finds
      split at finds
      next here =>
        cases finds
        exact ⟨List.suffix_refl _, here⟩
      next =>
        obtain ⟨ends, begins⟩ := ih finds
        exact ⟨ends.trans (List.suffix_cons letter rest), begins⟩

/-- The search passes over a text without the first letter of the pattern. -/
theorem search_append_of_notMem {first : α} {others : List α} (absent : first ∉ before)
    (after : List α) :
    search (first :: others) (before ++ after) = search (first :: others) after := by
  induction before with
  | nil => rfl
  | cons letter rest ih =>
      rw [List.mem_cons, not_or] at absent
      rw [List.cons_append, search_cons_of_not_prefix, ih absent.2]
      intro here
      exact absent.1 (List.cons_prefix_cons.mp here).1

/-- A pattern at the end is the one that is found, or it is behind that one: two occurrences do
not overlap when the first letter is in the pattern once. -/
theorem search_of_suffix_cases {first : α} {others : List α} (once : first ∉ others)
    (ends : first :: others <:+ text) :
    ∃ before behind, text = before ++ (first :: others ++ behind) ∧
      search (first :: others) text = some (first :: others ++ behind) ∧
      (behind = [] ∨ first :: others <:+ behind) := by
  cases finds : search (first :: others) text with
  | none => exact absurd ends.isInfix (search_eq_none_iff.mp finds)
  | some found =>
      obtain ⟨⟨before, rfl⟩, behind, rfl⟩ := suffix_of_search finds
      refine ⟨before, behind, rfl, rfl, ?_⟩
      have inside : first :: others <:+ first :: others ++ behind :=
        List.suffix_of_suffix_length_le ends (List.suffix_append _ _) (by simp)
      obtain ⟨front, parts⟩ := inside
      rcases List.append_eq_append_iff.mp parts with ⟨middle, front_eq, behind_eq⟩ |
        ⟨middle, -, behind_eq⟩
      · cases middle with
        | nil =>
            rw [List.nil_append] at behind_eq
            exact .inr ⟨[], behind_eq⟩
        | cons letter middle =>
            left
            rw [List.cons_append, List.cons.injEq] at behind_eq
            cases front with
            | nil =>
                rw [List.nil_append, List.cons.injEq] at front_eq
                have length := congrArg List.length (front_eq.2.symm.trans behind_eq.2)
                rw [List.length_append] at length
                exact List.length_eq_zero_iff.mp (by omega)
            | cons other front =>
                rw [List.cons_append, List.cons.injEq] at front_eq
                refine absurd ?_ once
                rw [front_eq.2, behind_eq.1]
                exact List.mem_append_right _ List.mem_cons_self
      · exact .inr ⟨middle, behind_eq.symm⟩

/-- A pattern that occurs at the end only is found there. -/
theorem search_of_suffix (ends : pattern <:+ text) (alone : ¬pattern <:+: text.dropLast) :
    search pattern text = some pattern := by
  cases finds : search pattern text with
  | none => exact absurd ends.isInfix (search_eq_none_iff.mp finds)
  | some found =>
      obtain ⟨found_ends, more, rfl⟩ := suffix_of_search finds
      by_cases last : more = []
      · rw [last, List.append_nil]
      · apply absurd _ alone
        obtain ⟨before, rfl⟩ := found_ends
        rw [← List.append_assoc, List.dropLast_append_of_ne_nil last, List.append_assoc]
        exact ⟨before, more.dropLast, by rw [List.append_assoc]⟩

end Substrings
