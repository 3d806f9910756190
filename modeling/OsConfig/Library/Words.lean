import Mathlib.Data.List.Infix
import Mathlib.Data.List.TakeWhile
import OsConfig.Library.Substrings

/-!
# Words

The words of a text are its longest runs of letters between separators. A text
that is cut at a separator has the words of its two parts, so the words of a
text that is put together from parts are known from the words of the parts.
-/

namespace Words

variable {α : Type*} (separates : α → Bool)

def words (text : List α) : List (List α) :=
  (text.splitOnP separates).filter fun word => !word.isEmpty

def IsWord (text : List α) : Prop :=
  text ≠ [] ∧ ∀ letter ∈ text, separates letter = false

variable {separates}

@[simp]
theorem words_nil : words separates [] = [] := by
  simp [words]

@[simp]
theorem words_append_cons (before after : List α) {separator : α}
    (separator_separates : separates separator = true) :
    words separates (before ++ separator :: after) =
      words separates before ++ words separates after := by
  rw [words, List.splitOnP_append_cons before after separator_separates, List.filter_append]
  rfl

@[simp]
theorem words_cons (after : List α) {separator : α}
    (separator_separates : separates separator = true) :
    words separates (separator :: after) = words separates after := by
  simpa using words_append_cons [] after separator_separates

theorem words_of_isWord {text : List α} (isWord : IsWord separates text) :
    words separates text = [text] := by
  rw [words, List.splitOnP_eq_singleton isWord.2]
  simp [isWord.1]

theorem induction_on_separators (separates : α → Bool) {motive : List α → Prop}
    (run : ∀ text, (∀ letter ∈ text, separates letter = false) → motive text)
    (separated : ∀ before separator after, (∀ letter ∈ before, separates letter = false) →
      separates separator = true → motive after → motive (before ++ separator :: after))
    (text : List α) : motive text := by
  suffices behind : ∀ before, (∀ letter ∈ before, separates letter = false) →
      motive (before ++ text) by
    simpa using behind [] (by simp)
  induction text with
  | nil =>
      intro before letters
      rw [List.append_nil]
      exact run before letters
  | cons letter text ih =>
      intro before letters
      cases first : separates letter with
      | true => exact separated before letter text letters first (by simpa using ih [] (by simp))
      | false =>
          have longer := ih (before ++ [letter]) (by simpa [or_imp, forall_and, first] using letters)
          simpa using longer

theorem isWord_of_mem {text word : List α} (mem : word ∈ words separates text) :
    IsWord separates word ∧ word <:+: text := by
  induction text using induction_on_separators separates with
  | run text letters =>
      by_cases empty : text = []
      · simp [empty] at mem
      · rw [words_of_isWord ⟨empty, letters⟩, List.mem_singleton] at mem
        rw [mem]
        exact ⟨⟨empty, letters⟩, List.infix_rfl⟩
  | separated before separator after letters separated ih =>
      rw [words_append_cons _ _ separated, List.mem_append] at mem
      rcases mem with first | later
      · by_cases empty : before = []
        · simp [empty] at first
        · rw [words_of_isWord ⟨empty, letters⟩, List.mem_singleton] at first
          rw [first]
          exact ⟨⟨empty, letters⟩, (List.prefix_append before _).isInfix⟩
      · obtain ⟨isWord, inside⟩ := ih later
        refine ⟨isWord, inside.trans ?_⟩
        exact ((List.suffix_cons separator after).trans (List.suffix_append before _)).isInfix

theorem infix_iff_of_isWord [DecidableEq α] {word text : List α} (isWord : IsWord separates word) :
    word <:+: text ↔ ∃ whole ∈ words separates text, word <:+: whole := by
  induction text using induction_on_separators separates with
  | run text letters =>
      by_cases empty : text = []
      · simp [empty, isWord.1]
      · rw [words_of_isWord ⟨empty, letters⟩]
        simp
  | separated before separator after letters separated ih =>
      have apart : separator ∉ word := by
        intro mem
        simp [isWord.2 separator mem] at separated
      rw [Substrings.infix_append_cons_iff apart, words_append_cons _ _ separated, ih]
      by_cases empty : before = []
      · simp [empty, isWord.1]
      · rw [words_of_isWord ⟨empty, letters⟩]
        simp

theorem delimited_of_mem {text word : List α} (mem : word ∈ words separates text)
    (opens closes : α) :
    ∃ before behind, (before = opens ∨ separates before = true) ∧
      (behind = closes ∨ separates behind = true) ∧
      before :: (word ++ [behind]) <:+: opens :: (text ++ [closes]) := by
  induction text using induction_on_separators separates generalizing opens with
  | run text letters =>
      by_cases empty : text = []
      · simp [empty] at mem
      · rw [words_of_isWord ⟨empty, letters⟩, List.mem_singleton] at mem
        exact ⟨opens, closes, .inl rfl, .inl rfl, by rw [mem]⟩
  | separated before separator after letters separated ih =>
      rw [words_append_cons _ _ separated, List.mem_append] at mem
      rcases mem with first | later
      · by_cases empty : before = []
        · simp [empty] at first
        · rw [words_of_isWord ⟨empty, letters⟩, List.mem_singleton] at first
          refine ⟨opens, separator, .inl rfl, .inr separated, List.IsPrefix.isInfix ?_⟩
          exact ⟨after ++ [closes], by simp [first]⟩
      · obtain ⟨first, last, first_eq, last_eq, inside⟩ := ih later separator
        refine ⟨first, last, .inr ?_, last_eq, inside.trans (List.IsSuffix.isInfix ?_)⟩
        · rcases first_eq with rfl | separates'
          · exact separated
          · exact separates'
        · exact ⟨opens :: before, by simp⟩

theorem words_append_of_isWord {word : List α} (isWord : IsWord separates word) (after : List α)
    {separator : α} (separated : separates separator = true) :
    words separates (word ++ separator :: after) = word :: words separates after := by
  rw [words_append_cons _ _ separated, words_of_isWord isWord, List.singleton_append]

theorem head?_words (text : List α) :
    (words separates text).head? =
      if text.dropWhile separates = [] then none
      else some ((text.dropWhile separates).takeWhile fun letter => !separates letter) := by
  have kept : ∀ {run : List α}, (∀ letter ∈ run, separates letter = false) →
      ∀ letter ∈ run, (!separates letter) = true := by
    intro run letters letter mem
    rw [letters letter mem]
    rfl
  induction text using induction_on_separators separates with
  | run text letters =>
      cases text with
      | nil => simp
      | cons letter text =>
          have first : ¬ separates letter = true := by simp [letters letter (by simp)]
          rw [words_of_isWord ⟨by simp, letters⟩, List.dropWhile_cons_of_neg first,
            List.takeWhile_eq_self_iff.mpr (kept letters)]
          rfl
  | separated before separator after letters separated ih =>
      cases before with
      | nil =>
          rw [List.nil_append, words_cons _ separated, List.dropWhile_cons_of_pos separated]
          exact ih
      | cons letter before =>
          have first : ¬ separates letter = true := by simp [letters letter (by simp)]
          rw [words_append_of_isWord ⟨by simp, letters⟩ after separated, List.cons_append,
            List.dropWhile_cons_of_neg first, ← List.cons_append,
            List.takeWhile_append_of_pos (kept letters)]
          simp [separated]

theorem words_cons_letter {letter : α} (plain : separates letter = false) (text : List α) :
    ∃ word others, words separates (letter :: text) = (letter :: word) :: others := by
  induction text using induction_on_separators separates with
  | run text letters =>
      have isWord : IsWord separates (letter :: text) := ⟨by simp, by simpa [plain] using letters⟩
      exact ⟨text, [], words_of_isWord isWord⟩
  | separated before separator after letters separated _ =>
      have isWord : IsWord separates (letter :: before) :=
        ⟨by simp, by simpa [plain] using letters⟩
      refine ⟨before, words separates after, ?_⟩
      rw [← List.cons_append, words_append_cons _ _ separated, words_of_isWord isWord,
        List.singleton_append]

theorem words_congr {separates' : α → Bool} {text : List α}
    (same : ∀ letter ∈ text, separates letter = separates' letter) :
    words separates text = words separates' text := by
  induction text using induction_on_separators separates with
  | run text letters =>
      by_cases empty : text = []
      · rw [empty, words_nil, words_nil]
      · have letters' : ∀ letter ∈ text, separates' letter = false :=
          fun letter mem => (same letter mem).symm.trans (letters letter mem)
        rw [words_of_isWord ⟨empty, letters⟩, words_of_isWord ⟨empty, letters'⟩]
  | separated before separator after letters separated ih =>
      simp only [List.mem_append, List.mem_cons] at same
      have separated' : separates' separator = true :=
        (same separator (by simp)).symm.trans separated
      rw [words_append_cons _ _ separated, words_append_cons _ _ separated',
        ih fun letter mem => same letter (by simp [mem])]
      congr 1
      by_cases empty : before = []
      · rw [empty, words_nil, words_nil]
      · have letters' : ∀ letter ∈ before, separates' letter = false :=
          fun letter mem => (same letter (by simp [mem])).symm.trans (letters letter mem)
        rw [words_of_isWord ⟨empty, letters⟩, words_of_isWord ⟨empty, letters'⟩]

/-- More separators cut the words into shorter ones. -/
theorem words_eq_flatMap_words {separates' : α → Bool}
    (finer : ∀ letter, separates letter = true → separates' letter = true) (text : List α) :
    words separates' text = (words separates text).flatMap (words separates') := by
  induction text using induction_on_separators separates with
  | run text letters =>
      by_cases empty : text = []
      · simp [empty]
      · rw [words_of_isWord ⟨empty, letters⟩, List.flatMap_singleton]
  | separated before separator after letters separated ih =>
      rw [words_append_cons _ _ separated, words_append_cons _ _ (finer separator separated), ih,
        List.flatMap_append]
      congr 1
      by_cases empty : before = []
      · simp [empty]
      · rw [words_of_isWord ⟨empty, letters⟩, List.flatMap_singleton]

end Words
