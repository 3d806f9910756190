import OsConfig.Library.ShellWords.Pipelines

/-!
# What a shell takes out of a text

Only blanks, newlines, quotes and backslashes are taken out of a text when it is
read. Any other byte is in the words as often as it is in the text. So a text
that is written as a pipeline is read as that pipeline only where its words need
no quotes.
-/

namespace ShellWords

/-- A byte that no word loses. -/
def isKept (byte : UInt8) : Bool :=
  byte ∉ ([9, 10, 32, 34, 39, 92] : List UInt8)

/-- How often a byte is in words. -/
def occurrences (byte : UInt8) (words : List Word) : ℕ :=
  (words.map fun word => word.text.count byte).sum

section Occurrences

variable {mode next last : Mode} {ended found : List Word} {front text : List UInt8}
  {byte kept : UInt8}

@[simp]
theorem occurrences_append (words others : List Word) :
    occurrences kept (words ++ others) = occurrences kept words + occurrences kept others := by
  simp [occurrences]

theorem occurrences_of_texts {texts : List (List UInt8)} (same : found.map Word.text = texts) :
    occurrences kept found = (texts.map fun text => text.count kept).sum := by
  rw [← same, occurrences, List.map_map]
  rfl

theorem isKept_of_isBlank (blank : isBlank byte = true) : isKept byte = false := by
  rw [isBlank, Bool.or_eq_true, decide_eq_true_eq, decide_eq_true_eq] at blank
  rcases blank with rfl | rfl
  · decide
  · decide

theorem count_of_isTaken (isKept_kept : isKept kept = true) (taken : isKept byte = false) :
    [byte].count kept = 0 := by
  rw [List.count_eq_zero, List.mem_singleton]
  rintro rfl
  rw [isKept_kept] at taken
  cases taken

theorem count_outside {word : Option Word} (isKept_kept : isKept kept = true)
    (outside : Mode.outside word byte = some next) :
    next.letters.text.count kept = (word.getD []).text.count kept + [byte].count kept := by
  unfold Mode.outside at outside
  split_ifs at outside with refused backslash quote doubleQuote commented
  · cases outside
    rw [count_of_isTaken isKept_kept (by rw [backslash]; decide)]
    rfl
  · cases outside
    rw [count_of_isTaken isKept_kept (by rw [quote]; decide)]
    rfl
  · cases outside
    rw [count_of_isTaken isKept_kept (by rw [doubleQuote]; decide)]
    rfl
  · cases outside
    simp [Mode.letters, Word.text]

/-- A step adds the byte that it reads, where that is not taken out. -/
theorem count_of_step (isKept_kept : isKept kept = true)
    (steps : mode.step byte = some (ended, next)) :
    occurrences kept ended + next.letters.text.count kept =
      mode.letters.text.count kept + [byte].count kept := by
  have taken : isKept byte = false → [byte].count kept = 0 := count_of_isTaken isKept_kept
  have backslash : [(92 : UInt8)].count kept = 0 := count_of_isTaken isKept_kept (by decide)
  have both : [92, byte].count kept = [(92 : UInt8)].count kept + [byte].count kept := by
    rw [← List.count_append]
    rfl
  cases mode with
  | unquoted word =>
      rw [Mode.step] at steps
      split_ifs at steps with blank
      · cases steps
        rw [taken (isKept_of_isBlank blank)]
        cases word <;> simp [occurrences, Mode.letters, Word.text]
      · rw [Option.map_eq_some_iff] at steps
        obtain ⟨target, outside, equal⟩ := steps
        cases equal
        rw [count_outside isKept_kept outside]
        simp [occurrences, Mode.letters]
  | escaped word | single word | double word | doubleEscaped word =>
      rw [Mode.step] at steps
      split_ifs at steps
      all_goals
        cases steps
        simp only [occurrences, Mode.letters, List.map_nil, List.sum_nil, Word.text,
          List.map_append, List.map_cons, List.count_append, Option.getD_some]
        first
          | omega
          | subst_vars
            have nothing := taken (by decide)
            omega

theorem count_of_run (isKept_kept : isKept kept = true)
    (reads : mode.run front = some (ended, last)) :
    occurrences kept ended + last.letters.text.count kept =
      mode.letters.text.count kept + front.count kept := by
  induction front generalizing mode ended with
  | nil =>
      obtain ⟨rfl, rfl⟩ := run_nil.mp reads
      simp [occurrences]
  | cons byte front ih =>
      obtain ⟨first, middle, others, steps, onward, rfl⟩ := run_cons.mp reads
      have now := count_of_step isKept_kept steps
      have later := ih onward
      rw [occurrences_append, ← List.singleton_append, List.count_append]
      omega

theorem count_of_words (isKept_kept : isKept kept = true) (reads : words text = some found) :
    text.count kept = occurrences kept found := by
  obtain ⟨ended, last, inside, rfl⟩ := exists_run_of_wordsFrom reads
  have total := count_of_run isKept_kept inside
  have final : occurrences kept last.toList = (last.getD []).text.count kept := by
    cases last <;> simp [occurrences, Word.text]
  rw [occurrences_append, final]
  simpa [Mode.letters, Word.text] using total.symm

/-- The bytes of the words of a pipeline. -/
theorem count_of_pipeline (isKept_kept : isKept kept = true) (noBar : kept ≠ 124)
    {first second : List (List UInt8)} (reads : pipeline text = some [first, second]) :
    text.count kept =
      (first.map fun text => text.count kept).sum + (second.map fun text => text.count kept).sum := by
  obtain ⟨front, rest, found, found', rfl, ⟨reads, -, -, same⟩, reads', -, -, same'⟩ :=
    pipeline_pair_iff.mp reads
  rw [List.count_append, List.count_cons_of_ne (Ne.symm noBar), count_of_words isKept_kept reads,
    count_of_words isKept_kept reads', occurrences_of_texts same, occurrences_of_texts same']

end Occurrences

section Bars

variable {mode next last : Mode} {ended found : List Word} {front text : List UInt8} {byte : UInt8}

theorem exists_run_of_run_append {rest : List UInt8}
    (reads : mode.run (front ++ rest) = some (ended, last)) :
    ∃ earlier middle later, mode.run front = some (earlier, middle) ∧
      middle.run rest = some (later, last) ∧ ended = earlier ++ later := by
  induction front generalizing mode ended with
  | nil => exact ⟨[], mode, ended, rfl, reads, rfl⟩
  | cons byte front ih =>
      rw [List.cons_append] at reads
      obtain ⟨first, target, others, steps, onward, rfl⟩ := run_cons.mp reads
      obtain ⟨earlier, middle, later, inside, behind, parts⟩ := ih onward
      refine ⟨first ++ earlier, middle, later, ?_, behind, by rw [parts, List.append_assoc]⟩
      rw [Mode.run, steps]
      simp only [inside]

theorem escaped_of_step {word : Option Word} (steps : mode.step byte = some (ended, .escaped word)) :
    byte = 92 := by
  cases mode with
  | unquoted inside =>
      rw [Mode.step] at steps
      split_ifs at steps with blank
      · cases steps
      · rw [Option.map_eq_some_iff] at steps
        obtain ⟨target, outside, equal⟩ := steps
        cases equal
        unfold Mode.outside at outside
        split_ifs at outside with refused backslash quote doubleQuote commented
        · exact backslash
        all_goals cases outside
  | escaped | single | double | doubleEscaped =>
      rw [Mode.step] at steps
      split_ifs at steps
      all_goals cases steps

theorem escaped_of_run {word : Option Word}
    (reads : (Mode.unquoted none).run text = some (ended, .escaped word)) :
    text.getLast? = some 92 := by
  rcases List.eq_nil_or_concat text with rfl | ⟨front, byte, rfl⟩
  · simp [Mode.run] at reads
  · rw [List.concat_eq_append] at reads ⊢
    obtain ⟨earlier, middle, later, -, steps, -⟩ := exists_run_of_run_append reads
    have backslash : byte = 92 := by
      rw [Mode.run] at steps
      cases one : middle.step byte with
      | none => simp [one] at steps
      | some result =>
          obtain ⟨first, target⟩ := result
          simp only [one, Mode.run, Option.some.injEq, Prod.mk.injEq] at steps
          obtain ⟨-, rfl⟩ := steps
          exact escaped_of_step one
    rw [backslash]
    exact List.getLast?_concat

theorem words_of_words_blank (reads : words (text ++ [32]) = some found) :
    words text = some found ∨
      text.getLast? = some 92 ∧
        ∃ front word, found = front ++ [word] ∧ word.text.getLast? = some 32 := by
  obtain ⟨ended, word, inside, rfl⟩ := exists_run_of_wordsFrom reads
  obtain ⟨earlier, middle, later, inFront, steps, rfl⟩ := exists_run_of_run_append inside
  cases middle with
  | unquoted last =>
      left
      have ends : (Mode.unquoted last).run [32] = some (last.toList, .unquoted none) := by
        simp [Mode.run, Mode.step, isBlank]
      rw [ends] at steps
      cases steps
      unfold words wordsFrom
      rw [inFront]
      simp [Mode.finish]
  | escaped last =>
      right
      refine ⟨escaped_of_run inFront, ?_⟩
      have letter : (Mode.escaped last).run [32] =
          some ([], .unquoted (some (last.getD [] ++ [⟨32, true⟩]))) := rfl
      rw [letter] at steps
      cases steps
      exact ⟨_, _, rfl, by simp [Word.text]⟩
  | single inside | double inside => cases steps
  | doubleEscaped inside => cases steps

/-- Two commands that are written with a bar in between are cut at that bar. -/
theorem cut_of_intercalate {first second : List (List UInt8)} {rest : List UInt8}
    (parts : List.intercalate [32] first ++ 32 :: 124 :: 32 :: List.intercalate [32] second =
      front ++ 124 :: rest)
    (longFront : (List.intercalate [32] first).length ≤ front.length)
    (longRest : (List.intercalate [32] second).length ≤ rest.length) :
    front = List.intercalate [32] first ++ [32] ∧ rest = 32 :: List.intercalate [32] second := by
  have behind : ∃ middle, front = List.intercalate [32] first ++ middle ∧
      32 :: 124 :: 32 :: List.intercalate [32] second = middle ++ 124 :: rest := by
    rcases List.append_eq_append_iff.mp parts with ⟨middle, front_eq, rest_eq⟩ |
      ⟨middle, front_eq, rest_eq⟩
    · exact ⟨middle, front_eq, rest_eq⟩
    · rw [front_eq, List.length_append] at longFront
      have nothing : middle = [] := List.length_eq_zero_iff.mp (by omega)
      subst nothing
      exact ⟨[], by simpa using front_eq.symm, by simpa using rest_eq.symm⟩
  obtain ⟨middle, rfl, rest_eq⟩ := behind
  match middle, rest_eq with
  | [], rest_eq => cases rest_eq
  | [byte], rest_eq =>
      cases rest_eq
      exact ⟨rfl, rfl⟩
  | [byte, next], rest_eq => cases rest_eq
  | byte :: next :: third :: middle, rest_eq =>
      have length := congrArg List.length rest_eq
      simp only [List.length_cons, List.cons_append, List.length_append] at length
      omega

theorem literal_of_words {texts : List (List UInt8)}
    (reads : words (List.intercalate [32] texts) = some found) (same : found.map Word.text = texts)
    (plain : arePlain found = true) :
    (∀ text ∈ texts, IsLiteral text) ∧ arePlain (texts.map unquotedWord) = true := by
  have literal := isLiteral_of_words_intercalate reads same
  rw [words_intercalate literal, Option.some.injEq] at reads
  rw [reads]
  exact ⟨literal, plain⟩

theorem suffix_intercalate (texts : List (List UInt8)) (text : List UInt8) :
    text <:+ List.intercalate [32] (texts ++ [text]) := by
  induction texts with
  | nil => simp
  | cons first texts ih =>
      cases texts with
      | nil => exact ⟨first ++ [32], by simp [List.intercalate_cons_cons]⟩
      | cons next others =>
          rw [List.cons_append, List.cons_append, List.intercalate_cons_cons, ← List.cons_append]
          exact ih.trans (List.suffix_append _ _)

theorem pipeline_intercalate_iff {command command' : List UInt8} {texts texts' : List (List UInt8)}
    (name : (isReserved (unquotedWord command) || isAssignment (unquotedWord command)) = false)
    (name' : (isReserved (unquotedWord command') || isAssignment (unquotedWord command')) = false) :
    pipeline (List.intercalate [32] (command :: texts) ++
          32 :: 124 :: 32 :: List.intercalate [32] (command' :: texts')) =
        some [command :: texts, command' :: texts'] ↔
      (∀ text ∈ command :: texts, IsPlainWord text) ∧
        ∀ text ∈ command' :: texts', IsPlainWord text := by
  simp only [IsPlainWord, forall_and]
  rw [pipeline_pair_iff, ← arePlain_map_unquotedWord name, ← arePlain_map_unquotedWord name']
  constructor
  · rintro ⟨front, rest, found, found', parts, ⟨reads, -, plain, same⟩, reads', -, plain', same'⟩
    have cut := cut_of_intercalate parts (by
        have length := length_intercalate (List.cons_ne_nil command texts)
        have bound := taken_le_of_words reads
        rw [taken_eq_of_texts same] at bound
        omega) (by
        have length := length_intercalate (List.cons_ne_nil command' texts')
        have bound := taken_le_of_words reads'
        rw [taken_eq_of_texts same'] at bound
        omega)
    obtain ⟨rfl, rfl⟩ := cut
    rw [words_blank (by decide)] at reads'
    refine ⟨?_, literal_of_words reads' same' plain'⟩
    rcases words_of_words_blank reads with alike | ⟨backslash, earlier, word, found_eq, blank⟩
    · exact literal_of_words alike same plain
    · obtain ⟨before, before_eq⟩ := suffix_intercalate (earlier.map Word.text) word.text
      rw [← same, found_eq, List.map_append, List.map_singleton, ← before_eq, List.getLast?_append,
        blank] at backslash
      cases backslash
  · rintro ⟨⟨literal, plain⟩, literal', plain'⟩
    refine ⟨List.intercalate [32] (command :: texts) ++ [32],
      32 :: List.intercalate [32] (command' :: texts'), (command :: texts).map unquotedWord,
      (command' :: texts').map unquotedWord, by simp,
      ⟨?_, by simp, plain, map_text_unquotedWord⟩, ?_, by simp, plain', map_text_unquotedWord⟩
    · rw [words, wordsFrom_append_blank (words_intercalate literal) (by decide)]
      exact congrArg some (List.append_nil _)
    · rw [words_blank (by decide), words_intercalate literal']

end Bars

end ShellWords
