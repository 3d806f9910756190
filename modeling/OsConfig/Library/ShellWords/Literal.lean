import OsConfig.Library.ShellWords
import OsConfig.Library.Words

/-!
# Texts that are words as they stand

Texts that are put behind one another with a blank in between become the words of
a command exactly if each of them is literal. That they have to be is a matter
of counting: a blank between two words is lost, and so is each quote that is
removed, so where only the blanks are lost nothing was quoted.
-/

namespace ShellWords

/-- A byte that stands for itself outside of quotes. -/
def isOrdinary (byte : UInt8) : Bool :=
  !isBlank byte && !isOperator byte && byte ∉ ([34, 36, 39, 92, 96] : List UInt8)

/-- A text that is read as one word of the same letters. -/
structure IsLiteral (text : List UInt8) : Prop where
  nonempty : text ≠ []
  start : ∀ byte ∈ text.head?, byte ≠ 35 ∧ byte ≠ 126
  ordinary : ∀ byte ∈ text, isOrdinary byte = true

instance (text : List UInt8) : Decidable (IsLiteral text) :=
  -- Not by going through all bytes that there are.
  letI (byte? : Option UInt8) : Decidable (∀ byte ∈ byte?, byte ≠ 35 ∧ byte ≠ 126) :=
    Option.decidableForallMem byte?
  letI : Decidable (∀ byte ∈ text, isOrdinary byte = true) := List.decidableBAll _ text
  decidable_of_iff (text ≠ [] ∧ (∀ byte ∈ text.head?, byte ≠ 35 ∧ byte ≠ 126) ∧
      ∀ byte ∈ text, isOrdinary byte = true)
    ⟨fun ⟨nonempty, start, ordinary⟩ => ⟨nonempty, start, ordinary⟩,
      fun literal => ⟨literal.nonempty, literal.start, literal.ordinary⟩⟩

/-- A word without quoted letters. -/
def unquotedWord (text : List UInt8) : Word :=
  text.map fun byte => ⟨byte, false⟩

@[simp]
theorem text_unquotedWord (text : List UInt8) : (unquotedWord text).text = text := by
  simp [unquotedWord, Word.text, Function.comp_def]

section Reading

variable {byte : UInt8} {text : List UInt8} {texts : List (List UInt8)}

theorem outside_ordinary (ordinary : isOrdinary byte = true) (word : Option Word)
    (start : word = none → byte ≠ 35 ∧ byte ≠ 126) :
    Mode.outside word byte = some (.unquoted (some (word.getD [] ++ [⟨byte, false⟩]))) := by
  simp only [isOrdinary, List.mem_cons, List.not_mem_nil, or_false, Bool.and_eq_true,
    Bool.not_eq_true', decide_eq_true_eq, not_or] at ordinary
  obtain ⟨⟨-, plain⟩, noQuotes⟩ := ordinary
  unfold Mode.outside
  cases word with
  | none => simp [plain, noQuotes, start rfl]
  | some word => simp [plain, noQuotes]

theorem step_ordinary (ordinary : isOrdinary byte = true) (word : Option Word)
    (start : word = none → byte ≠ 35 ∧ byte ≠ 126) :
    (Mode.unquoted word).step byte =
      some ([], .unquoted (some (word.getD [] ++ [⟨byte, false⟩]))) := by
  have letter : isBlank byte = false := by
    simp only [isOrdinary, Bool.and_eq_true, Bool.not_eq_true'] at ordinary
    exact ordinary.1.1
  rw [Mode.step, letter, outside_ordinary ordinary word start]
  rfl

theorem run_ordinary (ordinary : ∀ byte ∈ text, isOrdinary byte = true) (word : Word) :
    (Mode.unquoted (some word)).run text =
      some ([], .unquoted (some (word ++ unquotedWord text))) := by
  induction text generalizing word with
  | nil => simp [Mode.run, unquotedWord]
  | cons byte text ih =>
      rw [List.forall_mem_cons] at ordinary
      rw [run_cons_of_step (step_ordinary ordinary.1 _ (by simp)), ih ordinary.2]
      simp [unquotedWord]

theorem run_literal (literal : IsLiteral text) :
    (Mode.unquoted none).run text = some ([], .unquoted (some (unquotedWord text))) := by
  cases text with
  | nil => exact absurd rfl literal.nonempty
  | cons byte text =>
      have ordinary := literal.ordinary
      rw [List.forall_mem_cons] at ordinary
      rw [run_cons_of_step (step_ordinary ordinary.1 _ fun _ => literal.start byte rfl),
        run_ordinary ordinary.2]
      rfl

theorem words_literal (literal : IsLiteral text) : words text = some [unquotedWord text] := by
  unfold words wordsFrom
  rw [run_literal literal]
  rfl

theorem words_literal_blank (literal : IsLiteral text) (rest : List UInt8) :
    words (text ++ 32 :: rest) = (words rest).map fun later => unquotedWord text :: later :=
  wordsFrom_append_blank (words_literal literal) (by decide)

theorem words_intercalate (literal : ∀ text ∈ texts, IsLiteral text) :
    words (List.intercalate [32] texts) = some (texts.map unquotedWord) := by
  induction texts with
  | nil => rfl
  | cons text texts ih =>
      rw [List.forall_mem_cons] at literal
      cases texts with
      | nil =>
          rw [List.intercalate_singleton, words_literal literal.1]
          rfl
      | cons next others =>
          rw [List.intercalate_cons_cons, List.append_assoc, List.singleton_append,
            words_literal_blank literal.1, ih literal.2]
          rfl

theorem words_blank (blank : isBlank byte = true) (rest : List UInt8) :
    words (byte :: rest) = words rest := by
  have steps : (Mode.unquoted none).step byte = some ([], .unquoted none) := by
    simp [Mode.step, blank]
  unfold words wordsFrom
  rw [run_cons_of_step steps]

/-- A text of ordinary bytes and blanks has the words between its blanks, unless one of them starts
a comment or names a home directory. -/
theorem words_eq_map_words
    (ordinary : ∀ byte ∈ text, isBlank byte = false → isOrdinary byte = true)
    (starts : ∀ word ∈ Words.words isBlank text, ∀ byte ∈ word.head?, byte ≠ 35 ∧ byte ≠ 126) :
    words text = some ((Words.words isBlank text).map unquotedWord) := by
  induction text using Words.induction_on_separators isBlank with
  | run text letters =>
      by_cases empty : text = []
      · rw [empty, Words.words_nil]
        rfl
      · rw [Words.words_of_isWord ⟨empty, letters⟩] at starts ⊢
        have literal : IsLiteral text :=
          ⟨empty, starts text (by simp), fun byte mem => ordinary byte mem (letters byte mem)⟩
        rw [words_literal literal]
        rfl
  | separated before separator after letters separated ih =>
      have ordinary' : ∀ byte ∈ after, isBlank byte = false → isOrdinary byte = true :=
        fun byte mem => ordinary byte (List.mem_append_right _ (List.mem_cons_of_mem _ mem))
      rw [Words.words_append_cons _ _ separated] at starts ⊢
      have later := ih ordinary' fun word mem => starts word (List.mem_append_right _ mem)
      by_cases empty : before = []
      · rw [empty, Words.words_nil, List.nil_append, List.nil_append, words_blank separated,
          later]
      · rw [Words.words_of_isWord ⟨empty, letters⟩] at starts ⊢
        have literal : IsLiteral before :=
          ⟨empty, starts before (by simp),
            fun byte mem => ordinary byte (List.mem_append_left _ mem) (letters byte mem)⟩
        have cut : wordsFrom (.unquoted none) (before ++ separator :: after) = _ :=
          wordsFrom_append_blank (words_literal literal) separated
        rw [words, cut, later]
        rfl

theorem isPattern_unquotedWord (plain : ∀ byte ∈ text, byte ∉ ([42, 63, 91] : List UInt8)) :
    isPattern (unquotedWord text) = false := by
  have letters : ∀ letter ∈ unquotedWord text, letter.byte ∉ ([42, 63, 91] : List UInt8) := by
    intro letter mem
    obtain ⟨byte, byte_mem, rfl⟩ := List.mem_map.mp mem
    exact plain byte byte_mem
  have nothing := isPattern_append letters []
  rwa [List.append_nil] at nothing

/-- A text that a shell takes for one word as it stands. -/
def IsPlainWord (text : List UInt8) : Prop :=
  IsLiteral text ∧ isPattern (unquotedWord text) = false

instance (text : List UInt8) : Decidable (IsPlainWord text) :=
  inferInstanceAs (Decidable (_ ∧ _))

theorem arePlain_map_unquotedWord {command : List UInt8}
    (name : (isReserved (unquotedWord command) || isAssignment (unquotedWord command)) = false) :
    arePlain ((command :: texts).map unquotedWord) = true ↔
      ∀ text ∈ command :: texts, isPattern (unquotedWord text) = false := by
  rw [arePlain, List.map_cons, List.head?_cons, Option.any_some, name, ← List.map_cons,
    Bool.not_false, Bool.and_true, List.all_eq_true]
  simp only [List.forall_mem_map, Bool.not_eq_true']

theorem map_text_unquotedWord : (texts.map unquotedWord).map Word.text = texts := by
  rw [List.map_map]
  conv_rhs => rw [← List.map_id texts]
  exact List.map_congr_left fun text _ => text_unquotedWord text

end Reading

section Counting

variable {mode next last : Mode} {ended found : List Word} {front text : List UInt8} {byte : UInt8}

/-- The letters of words and a blank behind each of them. -/
def taken (words : List Word) : ℕ :=
  (words.map fun word => word.length + 1).sum

@[simp]
theorem taken_append (words others : List Word) : taken (words ++ others) = taken words + taken others := by
  simp [taken]

theorem taken_of_step (steps : mode.step byte = some (ended, next)) :
    taken ended + next.letters.length ≤ mode.letters.length + 1 := by
  cases mode with
  | unquoted word =>
      rw [Mode.step] at steps
      split_ifs at steps
      · cases steps
        cases word <;> simp [taken, Mode.letters]
      · rw [Option.map_eq_some_iff] at steps
        obtain ⟨target, outside, equal⟩ := steps
        cases equal
        unfold Mode.outside at outside
        split_ifs at outside
        all_goals
          cases outside
          simp [taken, Mode.letters]
  | escaped word | single word | double word | doubleEscaped word =>
      rw [Mode.step] at steps
      split_ifs at steps
      all_goals
        cases steps
        simp only [taken, Mode.letters, List.map_nil, List.sum_nil, List.length_append,
          List.length_cons, List.length_nil, Option.getD_some]
        omega

theorem taken_of_run (reads : mode.run front = some (ended, last)) :
    taken ended + last.letters.length ≤ mode.letters.length + front.length := by
  induction front generalizing mode ended with
  | nil =>
      obtain ⟨rfl, rfl⟩ := run_nil.mp reads
      simp [taken]
  | cons byte front ih =>
      obtain ⟨first, middle, others, steps, onward, rfl⟩ := run_cons.mp reads
      have now := taken_of_step steps
      have later := ih onward
      rw [taken_append, List.length_cons]
      omega

/-- A word that was read without quotes. -/
def IsLiteralWord (word : Word) : Prop :=
  ∃ text, IsLiteral text ∧ word = unquotedWord text

theorem isLiteralWord_outside {word : Option Word} (literal : ∀ inside ∈ word, IsLiteralWord inside)
    (letter : isBlank byte = false) (outside : Mode.outside word byte = some next) :
    next.letters = word.getD [] ∨
      ∃ inside, next = .unquoted (some inside) ∧ IsLiteralWord inside := by
  unfold Mode.outside at outside
  split_ifs at outside with refused backslash quote doubleQuote commented
  · cases outside
    exact .inl rfl
  · cases outside
    exact .inl rfl
  · cases outside
    exact .inl rfl
  · cases outside
    right
    refine ⟨_, rfl, ?_⟩
    have ordinary : isOrdinary byte = true := by
      simp only [Bool.or_eq_true, decide_eq_true_eq, not_or] at refused
      simp [isOrdinary, letter, refused, backslash, quote, doubleQuote]
    cases word with
    | none =>
        have start : byte ≠ 35 ∧ byte ≠ 126 := by
          simpa [not_or] using commented
        exact ⟨[byte], ⟨by simp, by simpa using start, by simpa using ordinary⟩, rfl⟩
    | some inside =>
        obtain ⟨text, isLiteral, rfl⟩ := literal inside rfl
        refine ⟨text ++ [byte], ⟨by simp, ?_, ?_⟩, by simp [unquotedWord]⟩
        · rw [List.head?_append_of_ne_nil _ isLiteral.nonempty]
          exact isLiteral.start
        · intro other mem
          rcases List.mem_append.mp mem with earlier | here
          · exact isLiteral.ordinary other earlier
          · rw [List.mem_singleton.mp here]
            exact ordinary

/-- Where nothing but the blanks is lost, the words were read without quotes. -/
theorem isLiteralWord_of_run {word : Option Word} (literal : ∀ inside ∈ word, IsLiteralWord inside)
    (reads : (Mode.unquoted word).run front = some (ended, last))
    (lossless : (word.getD []).length + front.length ≤ taken ended + last.letters.length) :
    (∀ found ∈ ended, IsLiteralWord found) ∧
      ∃ final, last = .unquoted final ∧ ∀ found ∈ final, IsLiteralWord found := by
  induction front generalizing word ended with
  | nil =>
      obtain ⟨rfl, rfl⟩ := run_nil.mp reads
      exact ⟨by simp, word, rfl, literal⟩
  | cons byte front ih =>
      obtain ⟨first, middle, later, steps, onward, rfl⟩ := run_cons.mp reads
      have bound := taken_of_run onward
      rw [taken_append, List.length_cons] at lossless
      rw [Mode.step] at steps
      split_ifs at steps with blank
      · cases steps
        cases word with
        | none =>
            simp only [Option.toList_none, taken, List.map_nil, List.sum_nil, Mode.letters,
              Option.getD_none, List.length_nil] at bound lossless
            omega
        | some inside =>
            have inFront : taken [inside] = inside.length + 1 := by simp [taken]
            rw [Option.toList_some, inFront, Option.getD_some] at lossless
            have noWord : ∀ inside ∈ (none : Option Word), IsLiteralWord inside := by simp
            have rest := ih noWord onward (by
              rw [Option.getD_none, List.length_nil]
              omega)
            refine ⟨?_, rest.2⟩
            intro found mem
            rcases List.mem_append.mp mem with here | there
            · rw [List.mem_singleton.mp here]
              exact literal inside rfl
            · exact rest.1 found there
      · rw [Option.map_eq_some_iff] at steps
        obtain ⟨last, outside, equal⟩ := steps
        cases equal
        simp only [taken, List.map_nil, List.sum_nil, Nat.zero_add] at lossless
        rcases isLiteralWord_outside literal (by simpa using blank) outside with
          same | ⟨inside, rfl, isLiteral⟩
        · rw [same] at bound
          simp only [taken] at bound
          omega
        · have letters : inside.length ≤ (word.getD []).length + 1 := by
            have steps : (Mode.unquoted word).step byte =
                some ([], .unquoted (some inside)) := by
              simp [Mode.step, blank, outside]
            simpa [taken, Mode.letters] using taken_of_step steps
          have someWord : ∀ found ∈ some inside, IsLiteralWord found := by
            simpa using isLiteral
          have rest := ih someWord onward (by
            simp only [taken, Option.getD_some]
            omega)
          simpa using rest

theorem length_intercalate {texts : List (List UInt8)} (nonempty : texts ≠ []) :
    (List.intercalate [32] texts).length + 1 = (texts.map fun text => text.length + 1).sum := by
  induction texts with
  | nil => exact absurd rfl nonempty
  | cons text texts ih =>
      cases texts with
      | nil => simp
      | cons next others =>
          have later := ih (by simp)
          rw [List.intercalate_cons_cons, List.length_append, List.map_cons, List.sum_cons, ← later]
          simp only [List.length_append, List.length_cons, List.length_nil]
          omega

theorem count_intercalate {kept : UInt8} (noBlank : kept ≠ 32) (texts : List (List UInt8)) :
    (List.intercalate [32] texts).count kept = (texts.map fun text => text.count kept).sum := by
  induction texts with
  | nil => rfl
  | cons text texts ih =>
      cases texts with
      | nil => simp
      | cons next others =>
          rw [List.intercalate_cons_cons, List.count_append, List.count_append, ih,
            List.map_cons, List.sum_cons, List.count_singleton]
          simp [noBlank.symm]

theorem taken_eq_of_texts {texts : List (List UInt8)} (same : found.map Word.text = texts) :
    taken found = (texts.map fun text => text.length + 1).sum := by
  rw [← same, taken, List.map_map]
  congr 1
  refine List.map_congr_left fun word _ => ?_
  simp [Word.text]

theorem isLiteralWord_of_words (reads : words text = some found)
    (lossless : text.length + 1 ≤ taken found) : ∀ word ∈ found, IsLiteralWord word := by
  obtain ⟨ended, last, inside, rfl⟩ := exists_run_of_wordsFrom reads
  have closed : taken last.toList ≤ (last.getD []).length + 1 := by
    cases last <;> simp [taken]
  rw [taken_append] at lossless
  have noWord : ∀ inside ∈ (none : Option Word), IsLiteralWord inside := by simp
  have literal := isLiteralWord_of_run noWord inside (by
    rw [Option.getD_none, List.length_nil, Mode.letters]
    omega)
  obtain ⟨earlier, final, final_eq, final_literal⟩ := literal
  cases final_eq
  intro word mem
  rcases List.mem_append.mp mem with here | there
  · exact earlier word here
  · exact final_literal word (by simpa using there)

/-- Only literal texts become the words of a command when they are put behind one another. -/
theorem isLiteral_of_words_intercalate {texts : List (List UInt8)}
    (reads : words (List.intercalate [32] texts) = some found) (same : found.map Word.text = texts) :
    ∀ text ∈ texts, IsLiteral text := by
  intro text mem
  have someTexts : texts ≠ [] := List.ne_nil_of_mem mem
  have length := length_intercalate someTexts
  rw [← taken_eq_of_texts same] at length
  rw [← same] at mem
  obtain ⟨word, word_mem, rfl⟩ := List.mem_map.mp mem
  obtain ⟨text, literal, rfl⟩ := isLiteralWord_of_words reads length.le word word_mem
  rwa [text_unquotedWord]

/-- The words of a text and the blanks behind them are no more than the text and a blank. -/
theorem taken_le_of_words (reads : words text = some found) : taken found ≤ text.length + 1 := by
  obtain ⟨ended, last, inside, rfl⟩ := exists_run_of_wordsFrom reads
  have bound := taken_of_run inside
  have closed : taken last.toList ≤ (last.getD []).length + 1 := by
    cases last <;> simp [taken]
  simp only [Mode.letters, Option.getD_none, List.length_nil, Nat.zero_add] at bound
  rw [taken_append]
  omega

end Counting

end ShellWords
