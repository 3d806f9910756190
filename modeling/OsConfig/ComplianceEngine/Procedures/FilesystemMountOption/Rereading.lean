import OsConfig.ComplianceEngine.Procedures.FilesystemMountOption.Rewriting

/-!
# Reading a rewritten table

The corrected line is put together from decoded fields, and reading it decodes
its fields once more. It is read back as it was meant if and only if every field
stands for itself. For what becomes shorter when it is decoded is the value of a
longer word, and none of the words that are left can be the longest one.
-/

namespace OsConfig.ComplianceEngine.FilesystemMountOption

open ByteString CommonUtils MountTable Words

section Pieces

theorem getPieces_of_notMem {delimiter : UInt8} {text : ByteString} (unbroken : delimiter ∉ text) :
    getPieces delimiter text = lastLine text := by
  rw [getPieces, List.splitOn_eq_singleton unbroken, lastLine]
  by_cases empty : text = []
  · simp [empty]
  · simp [empty]

theorem getPieces_cons {delimiter : UInt8} {piece : ByteString} (rest : ByteString)
    (unbroken : delimiter ∉ piece) :
    getPieces delimiter (piece ++ delimiter :: rest) = piece :: getPieces delimiter rest := by
  have later : rest.splitOn delimiter ≠ [] := List.splitOn_ne_nil delimiter rest
  rw [getPieces, getPieces, List.splitOn_append_cons_self, List.splitOn_eq_singleton unbroken,
    List.getLast?_append_of_ne_nil _ later]
  split
  · rw [List.dropLast_append_of_ne_nil later, List.singleton_append]
  · rfl

theorem getPieces_joinOptions {options : List ByteString} {last : ByteString}
    (unbroken : ∀ option ∈ options, 44 ∉ option) (unbroken_last : 44 ∉ last) :
    getPieces 44 (joinOptions (options ++ [last])) = options ++ lastLine last := by
  rw [joinOptions_concat]
  induction options with
  | nil => exact getPieces_of_notMem unbroken_last
  | cons option options ih =>
      rw [List.forall_mem_cons] at unbroken
      rw [List.flatMap_cons, List.append_assoc, List.append_assoc, List.singleton_append,
        getPieces_cons _ unbroken.1, ih unbroken.2, List.cons_append]

theorem exists_word_of_mem_getPieces {text piece : ByteString}
    (mem : piece ∈ getPieces 44 (decodeName text)) (nonempty : piece ≠ []) :
    ∃ word ∈ words (fun byte : UInt8 => decide (byte = 44)) text, piece = decodeName word := by
  induction text using induction_on_separators fun byte : UInt8 => decide (byte = 44) with
  | run text letters =>
      have unbroken : 44 ∉ text := fun comma => by simpa using letters 44 comma
      rw [getPieces_of_notMem (notMem_decodeName unbroken (by decide)), lastLine] at mem
      split at mem
      · cases mem
      next full =>
        rw [List.mem_singleton] at mem
        rw [decodeName_eq_nil_iff] at full
        refine ⟨text, ?_, mem⟩
        rw [words_of_isWord ⟨full, letters⟩]
        exact List.mem_singleton_self text
  | separated before separator after letters separated ih =>
      rw [decide_eq_true_eq] at separated
      subst separated
      have unbroken : 44 ∉ before := fun comma => by simpa using letters 44 comma
      rw [decodeName_append_comma, getPieces_cons _ (notMem_decodeName unbroken (by decide)),
        List.mem_cons] at mem
      rw [words_append_cons _ _ (by rfl)]
      rcases mem with rfl | later
      · have full : before ≠ [] := fun empty => nonempty (decodeName_eq_nil_iff.mpr empty)
        refine ⟨before, ?_, rfl⟩
        rw [words_of_isWord ⟨full, letters⟩]
        exact List.mem_append_left _ (List.mem_singleton_self before)
      · obtain ⟨word, inside, decoded⟩ := ih later
        exact ⟨word, List.mem_append_right _ inside, decoded⟩

end Pieces

section Fields

/-- The bytes that end a field: blanks, the newline, and the end of a C string. -/
def separates (byte : UInt8) : Bool :=
  isBlank byte || byte = 10 || byte = 0

def separatesOptions (byte : UInt8) : Bool :=
  separates byte || byte = 44

/-- A field that stands for itself. -/
def IsField (text : ByteString) : Prop :=
  IsWord separates text ∧ decodeName text = text

instance (text : ByteString) : Decidable (IsField text) :=
  inferInstanceAs (Decidable ((_ ∧ _) ∧ _))

/-- An option that stands for itself. -/
def IsOption (text : ByteString) : Prop :=
  (∀ byte ∈ text, separatesOptions byte = false) ∧ decodeName text = text

instance (text : ByteString) : Decidable (IsOption text) :=
  inferInstanceAs (Decidable (_ ∧ _))

theorem words_eq_fields_append {line : ByteString} (unbroken : 10 ∉ line) :
    ∃ behind, words separates line = fields line ++ behind ∧ (0 ∉ line → behind = []) := by
  have same {text : ByteString} (unbroken : 10 ∉ text) (nulFree : 0 ∉ text) :
      words separates text = words isBlank text := by
    apply words_congr
    intro byte mem
    have newline : byte ≠ 10 := ne_of_mem_of_not_mem mem unbroken
    have nul : byte ≠ 0 := ne_of_mem_of_not_mem mem nulFree
    simp [separates, newline, nul]
  by_cases cut : 0 ∈ line
  · obtain ⟨front, rest, rfl, nulFree⟩ := List.eq_append_cons_of_mem cut
    have front_unbroken : 10 ∉ front := fun mem => unbroken (List.mem_append_left _ mem)
    have text : cString (front ++ 0 :: rest) = front := by
      rw [cString_append_of_not_mem nulFree]
      exact List.append_nil front
    refine ⟨words separates rest, ?_, fun nulFree => absurd cut nulFree⟩
    rw [words_append_cons front rest (by rfl), fields, text, same front_unbroken nulFree]
  · refine ⟨[], ?_, fun _ => rfl⟩
    rw [List.append_nil, fields, cString_of_not_mem cut, same unbroken cut]

theorem words_eq_append_of_mem_splitOn {text line : ByteString} (mem : line ∈ text.splitOn 10) :
    ∃ before behind, words separates text = before ++ (fields line ++ behind) ∧
      (10 ∉ text → 0 ∉ text → before = [] ∧ behind = []) := by
  induction text using induction_on_separators fun byte : UInt8 => decide (byte = 10) with
  | run text letters =>
      have unbroken : 10 ∉ text := fun newline => by simpa using letters 10 newline
      rw [List.splitOn_eq_singleton unbroken, List.mem_singleton] at mem
      subst mem
      obtain ⟨behind, split, whole⟩ := words_eq_fields_append unbroken
      exact ⟨[], behind, split, fun _ nulFree => ⟨rfl, whole nulFree⟩⟩
  | separated before separator after letters separated ih =>
      rw [decide_eq_true_eq] at separated
      subst separated
      have unbroken : 10 ∉ before := fun newline => by simpa using letters 10 newline
      have broken : ¬10 ∉ before ++ 10 :: after := by simp
      rw [List.splitOn_append_cons_self, List.splitOn_eq_singleton unbroken,
        List.singleton_append, List.mem_cons] at mem
      rw [words_append_cons before after (by rfl)]
      rcases mem with rfl | later
      · obtain ⟨behind, split, -⟩ := words_eq_fields_append unbroken
        refine ⟨[], behind ++ words separates after, ?_, fun whole => absurd whole broken⟩
        rw [split, List.append_assoc]
        rfl
      · obtain ⟨front, behind, split, -⟩ := ih later
        refine ⟨words separates before ++ front, behind, ?_, fun whole => absurd whole broken⟩
        rw [split, List.append_assoc]

end Fields

section Options

theorem words_joinOptions (options : List ByteString) :
    words separatesOptions (joinOptions options) = options.flatMap (words separatesOptions) := by
  rcases List.eq_nil_or_concat' options with rfl | ⟨others, last, rfl⟩
  · rfl
  · rw [joinOptions_concat, List.flatMap_append, List.flatMap_singleton]
    induction others with
    | nil => rfl
    | cons option others ih =>
        rw [List.flatMap_cons, List.flatMap_cons, List.append_assoc, List.append_assoc,
          List.singleton_append, words_append_cons _ _ (by rfl), ih, List.append_assoc]

theorem exists_part_of_reread {options : List ByteString} {word option : ByteString}
    (mem : word ∈ words separates (joinOptions options))
    (reread : option ∈ getPieces 44 (decodeName word)) (nonempty : option ≠ []) :
    ∃ other ∈ options, ∃ part ∈ words separatesOptions other, option = decodeName part := by
  obtain ⟨part, inside, decoded⟩ := exists_word_of_mem_getPieces reread nonempty
  have same : words (fun byte : UInt8 => decide (byte = 44)) word = words separatesOptions word := by
    apply words_congr
    intro byte mem_byte
    have plain : separates byte = false := (isWord_of_mem mem).1.2 byte mem_byte
    simp [separatesOptions, plain]
  have finer : ∀ byte, separates byte = true → separatesOptions byte = true := by
    intro byte ends
    simp [separatesOptions, ends]
  have here : part ∈ words separatesOptions (joinOptions options) := by
    rw [words_eq_flatMap_words finer, List.mem_flatMap]
    exact ⟨word, mem, same ▸ inside⟩
  rw [words_joinOptions, List.mem_flatMap] at here
  obtain ⟨other, mem_other, mem_part⟩ := here
  exact ⟨other, mem_other, part, mem_part, decoded⟩

/-- If the options are read back, every one stands for itself: it is the value of a part of one
that is not shorter, and the longer ones stand for themselves. -/
theorem isOption_of_reread {options : List ByteString} {word : ByteString}
    (mem : word ∈ words separates (joinOptions options))
    (reread : ∀ option ∈ options, option ∈ getPieces 44 (decodeName word)) :
    ∀ option ∈ options, IsOption option := by
  have bound : ∀ option ∈ options, option.length ≤ (options.map List.length).sum :=
    fun option inside => List.le_sum_of_mem (List.mem_map_of_mem inside)
  intro option inside
  induction shorter : (options.map List.length).sum - option.length using Nat.strong_induction_on
    generalizing option with
  | _ n ih =>
      by_cases empty : option = []
      · rw [empty]
        exact ⟨by simp, rfl⟩
      obtain ⟨other, mem_other, part, mem_part, rfl⟩ :=
        exists_part_of_reread mem (reread option inside) empty
      obtain ⟨isWord, within⟩ := isWord_of_mem mem_part
      have decoded := length_decodeName_le part
      have longer := within.length_le
      rcases Nat.lt_or_ge (decodeName part).length other.length with less | equal
      · have known := bound other mem_other
        have plain : IsOption other := ih _ (by omega) other mem_other rfl
        have full : other ≠ [] := List.ne_nil_of_length_pos (by omega)
        rw [words_of_isWord ⟨full, plain.1⟩, List.mem_singleton] at mem_part
        rw [mem_part, plain.2] at less
        exact absurd less (Nat.lt_irrefl _)
      · have fixed : decodeName part = part := decodeName_eq_self (by omega)
        rw [fixed]
        exact ⟨isWord.2, fixed⟩

end Options

section Chains

/-- The texts are the values of the first words. A text without a word is empty. -/
def Spells : List ByteString → List ByteString → Prop
  | [], _ => True
  | text :: texts, found => text = decodeName (found.head?.getD []) ∧ Spells texts found.tail

theorem eq_nil_of_spells_nil {texts : List ByteString} (spells : Spells texts []) :
    ∀ text ∈ texts, text = [] := by
  induction texts with
  | nil => simp
  | cons text texts ih => exact List.forall_mem_cons.mpr ⟨spells.1, ih spells.2⟩

variable {text word : ByteString} {texts found before behind tail : List ByteString}

/-- A word whose value is the text it stands in is that text. -/
theorem eq_of_mem_words_decodeName (mem : word ∈ words separates (decodeName word)) :
    decodeName word = word := by
  have longer := (isWord_of_mem mem).2.length_le
  exact decodeName_eq_self longer

/-- What follows a word whose value is the first text is behind the words of that text. -/
theorem exists_append_of_words_append
    (whole : words separates (decodeName word) ++ tail = before ++ word :: found) :
    ∃ between, tail = between ++ found := by
  rcases List.append_eq_append_iff.mp whole with ⟨between, -, later⟩ | ⟨between, inside, later⟩
  · exact ⟨between ++ [word], by simpa using later⟩
  · cases between with
    | nil => exact ⟨[word], by simpa using later.symm⟩
    | cons other between =>
        rw [List.cons_append, List.cons.injEq] at later
        obtain ⟨rfl, later⟩ := later
        have mem : word ∈ words separates (decodeName word) := by
          rw [inside]
          simp
        have isWord := (isWord_of_mem mem).1
        rw [eq_of_mem_words_decodeName mem, words_of_isWord isWord] at inside
        have alone : between = [] := by
          have length := congrArg List.length inside
          simp only [List.length_append, List.length_cons, List.length_nil] at length
          exact List.length_eq_zero_iff.mp (by omega)
        exact ⟨[], by simpa [alone] using later.symm⟩

theorem exists_append_of_spells (spells : Spells texts found)
    (whole : texts.flatMap (words separates) ++ tail = before ++ (found ++ behind)) :
    ∃ between, tail = between ++ (found.drop texts.length ++ behind) := by
  induction texts generalizing found before with
  | nil => exact ⟨before, whole⟩
  | cons text texts ih =>
      rw [List.flatMap_cons, List.append_assoc] at whole
      cases found with
      | nil =>
          have empty : text = [] := spells.1
          rw [empty, words_nil, List.nil_append] at whole
          simpa using ih spells.2 whole
      | cons word found =>
          have value : text = decodeName word := spells.1
          rw [value, List.cons_append] at whole
          obtain ⟨between, rest⟩ := exists_append_of_words_append whole
          exact ih spells.2 rest

/-- A text stands for itself if it is the value of a word of its own or of one that stands for
itself. -/
theorem isField_of_mem_append {others : List ByteString} (spells : text = decodeName word)
    (fixed : ∀ other ∈ others, IsField other) (mem : word ∈ words separates text ++ others) :
    IsField text := by
  rcases List.mem_append.mp mem with own | later
  · have isWord := (isWord_of_mem own).1
    rw [spells] at own ⊢
    have same := eq_of_mem_words_decodeName own
    rw [same]
    exact ⟨isWord, same⟩
  · rw [spells, (fixed word later).2]
    exact fixed word later

theorem isField_of_spells (spells : Spells texts found) (fixed : ∀ word ∈ tail, IsField word)
    (whole : texts.flatMap (words separates) ++ tail = before ++ (found ++ behind)) :
    ∀ text ∈ texts, text = [] ∨ IsField text := by
  induction texts generalizing found before with
  | nil => simp
  | cons text texts ih =>
      rw [List.flatMap_cons, List.append_assoc] at whole
      cases found with
      | nil => exact fun other mem => .inl (eq_nil_of_spells_nil spells other mem)
      | cons word found =>
          have value : text = decodeName word := spells.1
          obtain ⟨between, rest⟩ := exists_append_of_words_append (value ▸ whole)
          have later := ih spells.2 rest
          have others : ∀ other ∈ texts.flatMap (words separates) ++ tail, IsField other := by
            intro other mem
            rcases List.mem_append.mp mem with inside | last
            · obtain ⟨source, mem_source, mem_other⟩ := List.mem_flatMap.mp inside
              rcases later source mem_source with rfl | isField
              · simp at mem_other
              · rw [words_of_isWord isField.1, List.mem_singleton] at mem_other
                rw [mem_other]
                exact isField
            · exact fixed other last
          have here : word ∈ words separates text ++ (texts.flatMap (words separates) ++ tail) := by
            rw [whole]
            simp
          exact List.forall_mem_cons.mpr ⟨.inr (isField_of_mem_append value others here), later⟩

theorem eq_append_of_spells (spells : Spells texts found)
    (plain : ∀ text ∈ texts, text = [] ∨ IsField text) (more : tail ≠ [])
    (whole : texts.flatMap (words separates) ++ tail = found) (full : ∀ word ∈ found, word ≠ []) :
    (∀ text ∈ texts, IsField text) ∧ found = texts ++ tail := by
  induction texts generalizing found with
  | nil => exact ⟨by simp, whole.symm⟩
  | cons text texts ih =>
      rw [List.forall_mem_cons] at plain
      rw [List.flatMap_cons, List.append_assoc] at whole
      cases found with
      | nil => simp [more] at whole
      | cons word found =>
          have value : text = decodeName word := spells.1
          rw [List.forall_mem_cons] at full
          have nonempty : text ≠ [] := by
            rw [value, ne_eq, decodeName_eq_nil_iff]
            exact full.1
          have isField : IsField text := plain.1.resolve_left nonempty
          rw [words_of_isWord isField.1, List.singleton_append, List.cons.injEq] at whole
          have others : Spells texts found := spells.2
          obtain ⟨later, rest⟩ := ih others plain.2 whole.2 full.2
          refine ⟨List.forall_mem_cons.mpr ⟨isField, later⟩, ?_⟩
          rw [← whole.1, rest, List.cons_append]

end Chains

section Lines

variable {params : FilesystemMountOptionParams} {mnt reread : MountEntry}
  {options : List ByteString} {line : ByteString}

theorem separates_printInt {number : BitVec 32} {byte : UInt8} (mem : byte ∈ printInt number) :
    separatesOptions byte = false := by
  by_contra ends
  simp only [Bool.not_eq_false, separatesOptions, separates, isBlank, Bool.or_eq_true,
    decide_eq_true_eq] at ends
  rcases ends with (((rfl | rfl) | rfl) | rfl) | rfl
  all_goals exact notMem_printInt number (by decide) mem

theorem isOption_printInt (number : BitVec 32) : IsOption (printInt number) :=
  ⟨fun _ => separates_printInt, decodeName_of_notMem (notMem_printInt number (by decide))⟩

theorem IsOption.isField {text : ByteString} (isOption : IsOption text) (nonempty : text ≠ []) :
    IsField text := by
  refine ⟨⟨nonempty, fun byte mem => ?_⟩, isOption.2⟩
  have plain := isOption.1 byte mem
  rw [separatesOptions, Bool.or_eq_false_iff] at plain
  exact plain.1

theorem isField_printInt (number : BitVec 32) : IsField (printInt number) :=
  (isOption_printInt number).isField (printInt_ne_nil number)

theorem IsOption.notMem_comma {text : ByteString} (isOption : IsOption text) : 44 ∉ text :=
  fun comma => by simpa [separatesOptions] using isOption.1 44 comma

/-- Options that stand for themselves are one field that stands for itself, or nothing. -/
theorem isField_joinOptions (plain : ∀ option ∈ options, IsOption option)
    (nonempty : joinOptions options ≠ []) : IsField (joinOptions options) := by
  rcases List.eq_nil_or_concat' options with rfl | ⟨others, last, rfl⟩
  · exact absurd rfl nonempty
  rw [joinOptions_concat] at nonempty ⊢
  refine ⟨⟨nonempty, fun byte mem => ?_⟩, ?_⟩
  · have inside : byte = 44 ∨ ∃ option ∈ others ++ [last], byte ∈ option := by
      simp only [List.mem_append, List.mem_flatMap, List.mem_singleton] at mem ⊢
      rcases mem with ⟨option, mem_option, text | comma⟩ | text
      · exact .inr ⟨option, .inl mem_option, text⟩
      · exact .inl comma
      · exact .inr ⟨last, .inr rfl, text⟩
    rcases inside with rfl | ⟨option, mem_option, text⟩
    · rfl
    · have ends := (plain option mem_option).1 byte text
      rw [separatesOptions, Bool.or_eq_false_iff] at ends
      exact ends.1
  · clear nonempty
    induction others with
    | nil => exact (plain last (by simp)).2
    | cons option others ih =>
        rw [List.cons_append, List.forall_mem_cons] at plain
        rw [List.flatMap_cons, List.append_assoc, List.append_assoc, List.singleton_append,
          decodeName_append_comma, plain.1.2, ih plain.2]

theorem words_joinOptions_of_isOption (plain : ∀ option ∈ options, IsOption option) :
    words separates (joinOptions options) = lastLine (joinOptions options) := by
  by_cases empty : joinOptions options = []
  · rw [empty]
    rfl
  · rw [words_of_isWord (isField_joinOptions plain empty).1, lastLine, if_neg empty]

theorem words_correctedLine (params : FilesystemMountOptionParams) (mnt : MountEntry) :
    words separates (correctedLine params mnt) =
      [mnt.fsname, params.mountpoint, mnt.type].flatMap (words separates) ++
        (words separates (joinOptions (correctedOptions params mnt)) ++
          [printInt mnt.freq, printInt mnt.passno]) := by
  have field (rest : ByteString) :
      words separates (mnt.type ++ (optionField (correctedOptions params mnt) ++ 32 :: rest)) =
        words separates mnt.type ++
          (words separates (joinOptions (correctedOptions params mnt)) ++ words separates rest) := by
    rw [optionField]
    split
    next none_left =>
      rw [none_left, List.nil_append, words_append_cons _ _ (by rfl)]
      rfl
    next =>
      rw [List.cons_append, words_append_cons _ _ (by rfl), words_append_cons _ _ (by rfl)]
  rw [correctedLine_eq, words_append_cons _ _ (by rfl), words_append_cons _ _ (by rfl), field,
    words_append_cons _ _ (by rfl), words_of_isWord (isField_printInt mnt.freq).1,
    words_of_isWord (isField_printInt mnt.passno).1]
  simp

theorem notMem_correctedLine {byte : UInt8} (ends : separates byte = true) (other : byte ≠ 32)
    (fields_plain : ∀ text ∈ [mnt.fsname, params.mountpoint, mnt.type], text = [] ∨ IsField text)
    (options_plain : ∀ option ∈ correctedOptions params mnt, IsOption option) :
    byte ∉ correctedLine params mnt := by
  have absent (text : ByteString) (plain : text = [] ∨ IsField text) : byte ∉ text := by
    intro mem
    rcases plain with rfl | isField
    · cases mem
    · rw [isField.1.2 byte mem] at ends
      cases ends
  have comma : byte ≠ 44 := by
    rintro rfl
    cases ends
  have option_absent : byte ∉ optionField (correctedOptions params mnt) := by
    rw [notMem_optionField _ ⟨other, comma⟩]
    intro option mem
    by_cases empty : option = []
    · simp [empty]
    · exact absent option (.inr ((options_plain option mem).isField empty))
  simp only [List.forall_mem_cons] at fields_plain
  rw [correctedLine_eq]
  simp [other, option_absent, absent _ fields_plain.1, absent _ fields_plain.2.1,
    absent _ fields_plain.2.2.1, absent _ (.inr (isField_printInt mnt.freq)),
    absent _ (.inr (isField_printInt mnt.passno))]

end Lines

section Rereading

variable {params : FilesystemMountOptionParams} {mnt reread : MountEntry} {line : ByteString}

theorem readEntry_eq_some_iff : readEntry line = some mnt ↔ ∃ first others,
    fields line = first :: others ∧ first.head? ≠ some 35 ∧ mnt = entryOfFields (first :: others) := by
  rw [readEntry]
  cases texts : fields line with
  | nil => simp
  | cons first others =>
      dsimp only
      split
      next comment => simp [comment]
      next kept => simp [kept, eq_comm]

theorem spells_entryOfFields (found : List ByteString) :
    Spells [(entryOfFields found).fsname, (entryOfFields found).dir, (entryOfFields found).type]
        found ∧
      (entryOfFields found).opts = decodeName ((found.drop 3).head?.getD []) := by
  rcases found with _ | ⟨first, _ | ⟨second, _ | ⟨third, others⟩⟩⟩
  · exact ⟨⟨rfl, rfl, rfl, trivial⟩, rfl⟩
  · exact ⟨⟨rfl, rfl, rfl, trivial⟩, rfl⟩
  · exact ⟨⟨rfl, rfl, rfl, trivial⟩, rfl⟩
  · cases others with
    | nil => exact ⟨⟨rfl, rfl, rfl, trivial⟩, rfl⟩
    | cons fourth others => exact ⟨⟨rfl, rfl, rfl, trivial⟩, rfl⟩

/-- The options are the old ones without the forbidden ones, and the required ones. -/
def HasRequestedOptions (params : FilesystemMountOptionParams) (mnt : MountEntry)
    (options : List ByteString) : Prop :=
  ∀ option, option ∈ options ↔
    option ∈ getPieces 44 mnt.opts ∧ option ∉ params.optionsNotSet.getD [] ∨
      option ∈ params.optionsSet.getD []

/-- What is written for the entry spells the corrected entry. -/
def Respells (params : FilesystemMountOptionParams) (mnt : MountEntry) : Prop :=
  (∀ text ∈ [mnt.fsname, params.mountpoint, mnt.type], IsField text) ∧
    (∀ option ∈ correctedOptions params mnt, IsOption option) ∧
    ∃ others last, correctedOptions params mnt = others ++ [last] ∧ (last ≠ [] ∨ [] ∈ others)

theorem mem_correctedOptions_iff
    (disjoint : ∀ option ∈ params.optionsSet.getD [], option ∉ params.optionsNotSet.getD [])
    (option : ByteString) :
    option ∈ correctedOptions params mnt ↔
      option ∈ getPieces 44 mnt.opts ∧ option ∉ params.optionsNotSet.getD [] ∨
        option ∈ params.optionsSet.getD [] := by
  rw [mem_correctedOptions]
  by_cases old : option ∈ getPieces 44 mnt.opts
  · by_cases required : option ∈ params.optionsSet.getD []
    · simp [old, disjoint option required]
    · simp [old, required]
  · simp [old]

theorem isOption_of_mem_lastLine {options : List ByteString} {number : BitVec 32}
    (same : ∀ option ∈ options, option ∈ getPieces 44 (decodeName (printInt number))) :
    ∀ option ∈ options, option = printInt number := by
  have plain := isOption_printInt number
  intro option mem
  have piece := same option mem
  rw [plain.2, getPieces_of_notMem plain.notMem_comma, lastLine,
    if_neg (printInt_ne_nil number), List.mem_singleton] at piece
  exact piece

/-- If the options are read back, every one stands for itself. -/
theorem isOption_of_hasOptions {found before behind : List ByteString}
    (spells : Spells [mnt.fsname, params.mountpoint, mnt.type] found)
    (whole : words separates (correctedLine params mnt) = before ++ (found ++ behind))
    (same : ∀ option ∈ correctedOptions params mnt,
      option ∈ getPieces 44 (decodeName ((found.drop 3).head?.getD []))) :
    ∀ option ∈ correctedOptions params mnt, IsOption option := by
  rw [words_correctedLine] at whole
  obtain ⟨between, rest⟩ := exists_append_of_spells spells whole
  cases words_left : found.drop 3 with
  | nil =>
      intro option mem
      have none_read := same option mem
      rw [words_left] at none_read
      cases none_read
  | cons word others =>
      rw [words_left] at same
      have last : word ∈ words separates (joinOptions (correctedOptions params mnt)) ++
          [printInt mnt.freq, printInt mnt.passno] := by
        rw [rest]
        simp [words_left]
      rw [List.mem_append, List.mem_cons, List.mem_singleton] at last
      rcases last with inside | rfl | rfl
      · exact isOption_of_reread inside same
      · intro option mem
        rw [isOption_of_mem_lastLine same option mem]
        exact isOption_printInt _
      · intro option mem
        rw [isOption_of_mem_lastLine same option mem]
        exact isOption_printInt _

/-- The line is read back only if it spells the entry. -/
theorem respells_of_reread
    (disjoint : ∀ option ∈ params.optionsSet.getD [], option ∉ params.optionsNotSet.getD [])
    (mem : line ∈ (correctedLine params mnt).splitOn 10) (entry : readEntry line = some reread)
    (fsname : reread.fsname = mnt.fsname) (dir : reread.dir = params.mountpoint)
    (type : reread.type = mnt.type)
    (options : HasRequestedOptions params mnt (getPieces 44 reread.opts)) :
    Respells params mnt := by
  obtain ⟨before, behind, whole, alone⟩ := words_eq_append_of_mem_splitOn mem
  obtain ⟨first, others, texts, -, rfl⟩ := readEntry_eq_some_iff.mp entry
  obtain ⟨spells, opts⟩ := spells_entryOfFields (first :: others)
  rw [fsname, dir, type] at spells
  rw [texts] at whole
  simp only [HasRequestedOptions, ← mem_correctedOptions_iff disjoint, opts] at options
  have full : ∀ word ∈ first :: others, word ≠ [] := by
    rw [← texts]
    exact fun word mem => (isWord_of_mem mem).1.1
  have options_plain := isOption_of_hasOptions spells whole fun option mem => (options option).mpr mem
  have field := words_joinOptions_of_isOption options_plain
  -- All words behind the three fields stand for themselves, and so the fields do.
  have fixed : ∀ word ∈ lastLine (joinOptions (correctedOptions params mnt)) ++
      [printInt mnt.freq, printInt mnt.passno], IsField word := by
    intro word mem
    rw [List.mem_append, List.mem_cons, List.mem_singleton] at mem
    rcases mem with inside | rfl | rfl
    · rw [lastLine] at inside
      split at inside
      · cases inside
      next nonempty =>
        rw [List.mem_singleton] at inside
        rw [inside]
        exact isField_joinOptions options_plain nonempty
    · exact isField_printInt _
    · exact isField_printInt _
  have plain := isField_of_spells spells fixed (by rw [← field, ← words_correctedLine, whole])
  -- So the corrected line is one line, and all of its words are read.
  obtain ⟨rfl, rfl⟩ := alone
    (notMem_correctedLine (by rfl) (by decide) plain options_plain)
    (notMem_correctedLine (by rfl) (by decide) plain options_plain)
  rw [List.nil_append, List.append_nil, words_correctedLine, field] at whole
  obtain ⟨isField, rest⟩ := eq_append_of_spells spells plain (by simp) whole full
  refine ⟨isField, options_plain, ?_⟩
  rw [rest] at options
  by_cases empty : joinOptions (correctedOptions params mnt) = []
  · -- Without options the first number is read in their place.
    rw [empty] at options
    have number : printInt mnt.freq ∈ correctedOptions params mnt := by
      rw [← options]
      have piece := (isOption_printInt mnt.freq)
      simp [lastLine, piece.2, getPieces_of_notMem piece.notMem_comma, printInt_ne_nil]
    obtain ⟨earlier, later, split⟩ := List.append_of_mem number
    rw [split] at empty
    rcases List.eq_nil_or_concat' later with rfl | ⟨later, last, rfl⟩
    · simp [joinOptions_concat, printInt_ne_nil] at empty
    · rw [← List.cons_append, ← List.append_assoc, joinOptions_concat] at empty
      simp at empty
  · have value : ((([mnt.fsname, params.mountpoint, mnt.type] : List ByteString) ++
        (lastLine (joinOptions (correctedOptions params mnt)) ++
          [printInt mnt.freq, printInt mnt.passno])).drop 3).head?.getD [] =
        joinOptions (correctedOptions params mnt) := by
      rw [lastLine, if_neg empty]
      rfl
    rw [value, (isField_joinOptions options_plain empty).2] at options
    rcases List.eq_nil_or_concat' (correctedOptions params mnt) with none_left | ⟨earlier, last, split⟩
    · rw [none_left] at empty
      exact absurd rfl empty
    · refine ⟨earlier, last, split, ?_⟩
      by_cases named : last = []
      · right
        have commas : ∀ option ∈ earlier ++ [last], 44 ∉ option := by
          rw [← split]
          exact fun option mem => (options_plain option mem).notMem_comma
        rw [List.forall_mem_append, List.forall_mem_singleton] at commas
        have inside := (options last).mpr (by rw [split]; simp)
        rw [split, getPieces_joinOptions commas.1 commas.2, lastLine, if_pos named,
          List.append_nil] at inside
        rwa [← named]
      · exact .inl named

theorem reread_of_respells (respells : Respells params mnt) (device : mnt.fsname.head? ≠ some 35) :
    10 ∉ correctedLine params mnt ∧ ∃ reread, readEntry (correctedLine params mnt) = some reread ∧
      reread.fsname = mnt.fsname ∧ reread.dir = params.mountpoint ∧ reread.type = mnt.type ∧
      reread.freq = mnt.freq ∧ reread.passno = mnt.passno ∧
      ∀ option, option ∈ getPieces 44 reread.opts ↔ option ∈ correctedOptions params mnt := by
  obtain ⟨isField, options_plain, earlier, last, split, named⟩ := respells
  have plain : ∀ text ∈ [mnt.fsname, params.mountpoint, mnt.type], text = [] ∨ IsField text :=
    fun text mem => .inr (isField text mem)
  have unbroken : 10 ∉ correctedLine params mnt :=
    notMem_correctedLine (by rfl) (by decide) plain options_plain
  have nulFree : 0 ∉ correctedLine params mnt :=
    notMem_correctedLine (by rfl) (by decide) plain options_plain
  have commas : ∀ option ∈ earlier ++ [last], 44 ∉ option := by
    rw [← split]
    exact fun option mem => (options_plain option mem).notMem_comma
  rw [List.forall_mem_append, List.forall_mem_singleton] at commas
  have pieces : getPieces 44 (joinOptions (correctedOptions params mnt)) = earlier ++ lastLine last := by
    rw [split, getPieces_joinOptions commas.1 commas.2]
  have nonempty : joinOptions (correctedOptions params mnt) ≠ [] := by
    intro empty
    rw [empty] at pieces
    have nothing := pieces.symm
    rw [show getPieces 44 [] = [] from rfl, List.append_eq_nil_iff] at nothing
    rcases named with full | mem
    · rw [lastLine, if_neg full] at nothing
      cases nothing.2
    · rw [nothing.1] at mem
      cases mem
  have optionsField := isField_joinOptions options_plain nonempty
  obtain ⟨behind, texts, alone⟩ := words_eq_fields_append unbroken
  rw [alone nulFree, List.append_nil, words_correctedLine, words_of_isWord optionsField.1] at texts
  simp only [List.forall_mem_cons] at isField
  rw [List.flatMap_cons, List.flatMap_cons, List.flatMap_cons, List.flatMap_nil,
    words_of_isWord isField.1.1, words_of_isWord isField.2.1.1,
    words_of_isWord isField.2.2.1.1] at texts
  have entry : readEntry (correctedLine params mnt) = some (entryOfFields [mnt.fsname,
      params.mountpoint, mnt.type, joinOptions (correctedOptions params mnt),
      printInt mnt.freq, printInt mnt.passno]) :=
    readEntry_eq_some_iff.mpr ⟨_, _, texts.symm, device, rfl⟩
  have numbers := scanNumbers_printInt mnt.freq mnt.passno
  refine ⟨unbroken, _, entry, isField.1.2, isField.2.1.2, isField.2.2.1.2,
    congrArg Prod.fst numbers, congrArg Prod.snd numbers, ?_⟩
  intro option
  have opts : (entryOfFields [mnt.fsname, params.mountpoint, mnt.type,
      joinOptions (correctedOptions params mnt), printInt mnt.freq, printInt mnt.passno]).opts =
      decodeName (joinOptions (correctedOptions params mnt)) := rfl
  rw [opts, optionsField.2, pieces, split, List.mem_append, List.mem_append, List.mem_singleton]
  by_cases full : last = []
  · have earlier_empty := named.resolve_left (not_not.mpr full)
    rw [lastLine, if_pos full, full]
    constructor
    · rintro (mem | mem)
      · exact .inl mem
      · cases mem
    · rintro (mem | rfl)
      · exact .inl mem
      · exact .inl earlier_empty
  · rw [lastLine, if_neg full, List.mem_singleton]

end Rereading

section Remediation

variable {requests : MountRequests} {params : FilesystemMountOptionParams} {steps : ℕ}
  {files : MountFiles} {report : Report MountFiles} {content line : ByteString}
  {before after : List ByteString} {mnt : MountEntry}

/-- The first byte of a device does not start a comment. -/
theorem head?_fsname (entry : readEntry line = some mnt) : mnt.fsname.head? ≠ some 35 := by
  obtain ⟨first, others, -, kept, rfl⟩ := readEntry_eq_some_iff.mp entry
  intro comment
  rcases head?_decodeName comment with here | special
  · exact kept here
  · revert special
    decide

theorem exists_last_of_exists {α : Type*} {p : α → Prop} {items : List α}
    (found : ∃ item ∈ items, p item) :
    ∃ earlier item later, items = earlier ++ item :: later ∧ p item ∧ ∀ other ∈ later, ¬p other := by
  induction items with
  | nil => simp at found
  | cons first items ih =>
      by_cases later : ∃ item ∈ items, p item
      · obtain ⟨earlier, item, rest, rfl, here, none_later⟩ := ih later
        exact ⟨first :: earlier, item, rest, rfl, here, none_later⟩
      · obtain ⟨item, mem, here⟩ := found
        rcases List.mem_cons.mp mem with rfl | inside
        · exact ⟨[], item, items, rfl, here, fun other mem there => later ⟨other, mem, there⟩⟩
        · exact absurd ⟨item, inside, here⟩ later

theorem exists_line_of_parseFstab {entries : FstabMap} {dir : ByteString} {entry : FstabEntry}
    (parsed : parseFstab steps content = some entries) (recorded : entries dir = some entry) :
    ∃ line ∈ getLines content, ∃ lineno found, readEntry line = some found ∧ found.dir = dir ∧
      entry = .ofMountEntry lineno found := by
  have some_line : ∃ line ∈ getLines content, ∃ found ∈ readEntry line, found.dir = dir := by
    by_contra missing
    have nothing : entries dir = none := by
      rw [eq_record_of_parseFstab parsed]
      apply record_of_forall_ne
      intro found mem same
      obtain ⟨line, inside, read⟩ := mem_numbered mem
      exact missing ⟨line, inside, found.2, read, same⟩
    rw [nothing] at recorded
    cases recorded
  obtain ⟨earlier, line, later, lines, ⟨found, read, rfl⟩, none_later⟩ :=
    exists_last_of_exists some_line
  have kept := entry_of_parseFstab parsed lines read
    fun other mem found read same => none_later other mem ⟨found, read, same⟩
  rw [recorded, Option.some.injEq] at kept
  exact ⟨line, by simp [lines], _, found, read, rfl, kept⟩

/-- Reading the file gives for the mount point what was requested. -/
def RereadsAs (params : FilesystemMountOptionParams) (mnt : MountEntry) (written : ByteString) :
    Prop :=
  ∃ steps entries entry, parseFstab steps written = some entries ∧
    entries params.mountpoint = some entry ∧ entry.device = mnt.fsname ∧
    entry.filesystem = mnt.type ∧ entry.dump = mnt.freq ∧ entry.pass = mnt.passno ∧
    HasRequestedOptions params mnt entry.options

theorem hasRequestedOptions_of_complies (complies : Complies params mnt) :
    HasRequestedOptions params mnt (getPieces 44 mnt.opts) := by
  intro option
  constructor
  · exact fun old => .inl ⟨old, fun forbidden => complies.2 option forbidden old⟩
  · rintro (⟨old, -⟩ | required)
    · exact old
    · exact complies.1 option required

theorem complies_of_hasRequestedOptions
    (disjoint : ∀ option ∈ params.optionsSet.getD [], option ∉ params.optionsNotSet.getD [])
    (requested : HasRequestedOptions params mnt (getPieces 44 mnt.opts)) : Complies params mnt := by
  refine ⟨fun option required => (requested option).mpr (.inr required), ?_⟩
  intro option forbidden old
  rcases (requested option).mp old with ⟨-, allowed⟩ | required
  · exact allowed forbidden
  · exact disjoint option required forbidden

/-- A file of whole lines is read to its end. -/
theorem exists_parseFstab_replaceLine {number : ℕ} {text : ByteString} (unbroken : 10 ∉ text) :
    ∃ steps entries, parseFstab steps (replaceLine content (number + 1) (text ++ [10])) =
      some entries := by
  have lines : ∀ line ∈ (getLines content).set number text, 10 ∉ line := by
    intro line mem
    rcases List.mem_or_eq_of_mem_set mem with old | rfl
    · exact unbroken_of_mem_getLines old
    · exact unbroken
  have whole : replaceLine content (number + 1) (text ++ [10]) =
      fileOf ((getLines content).set number text) [] := by
    rw [replaceLine_eq, fileOf, List.append_nil]
  have closed : opensComment false ((getLines content).set number text) [] = false := by
    simp [opensComment]
  obtain ⟨steps, ends⟩ := (parseFstab_isSome_iff lines (by simp)).mpr closed
  rw [whole]
  exact ⟨steps, Option.isSome_iff_exists.mp ends⟩

theorem rereadsAs_replaceLine_iff {number : ℕ}
    (lines : getLines content = before ++ line :: after) (entry : readEntry line = some mnt)
    (mounted : mnt.dir = params.mountpoint)
    (earlier : ∀ other ∈ before, ∀ found ∈ readEntry other, found.dir ≠ params.mountpoint)
    (later : ∀ other ∈ after, ∀ found ∈ readEntry other, found.dir ≠ params.mountpoint)
    (disjoint : ∀ option ∈ params.optionsSet.getD [], option ∉ params.optionsNotSet.getD [])
    (deviates : ¬Complies params mnt) (near : number ≤ before.length) :
    RereadsAs params mnt (replaceLine content (number + 1) (correctedLine params mnt ++ [10])) ↔
      number = before.length ∧ Respells params mnt := by
  have inside : number < (getLines content).length := by
    rw [lines, List.length_append, List.length_cons]
    omega
  have written := getLines_replaceLine (correctedLine params mnt) inside
  constructor
  · rintro ⟨steps, entries, recorded, parsed, found, device, type, dump, pass, requested⟩
    rcases Nat.lt_or_eq_of_le near with less | rfl
    · -- The old entry is still there, behind the line that was replaced.
      have rest : (getLines content).drop (number + 1) =
          before.drop (number + 1) ++ line :: after := by
        rw [lines, List.drop_append_of_le_length less]
      rw [rest, ← List.append_assoc, ← List.append_assoc] at written
      have kept := entry_of_parseFstab parsed written entry (by rw [mounted]; exact later)
      rw [mounted, found, Option.some.injEq] at kept
      rw [kept] at requested
      exact absurd (complies_of_hasRequestedOptions disjoint requested) deviates
    · refine ⟨rfl, ?_⟩
      obtain ⟨source, mem, lineno, reread, read, dir, rfl⟩ := exists_line_of_parseFstab parsed found
      have front : (getLines content).take before.length = before := by
        rw [lines, List.take_left]
      have back : (getLines content).drop (before.length + 1) = after := by
        rw [lines, List.drop_append, List.drop_of_length_le (by omega)]
        simp
      rw [written, front, back, List.mem_append, List.mem_append] at mem
      rcases mem with first | corrected | last
      · exact absurd dir (earlier source first reread read)
      · exact respells_of_reread disjoint corrected read device dir type requested
      · exact absurd dir (later source last reread read)
  · rintro ⟨rfl, respells⟩
    obtain ⟨unbroken, reread, read, device, dir, type, dump, pass, options⟩ :=
      reread_of_respells respells (head?_fsname entry)
    obtain ⟨steps, entries, parsed⟩ : ∃ steps entries, parseFstab steps (replaceLine content
        (before.length + 1) (_ ++ [10])) = some entries := exists_parseFstab_replaceLine unbroken
    have back : (getLines content).drop (before.length + 1) = after := by
      rw [lines, List.drop_append, List.drop_of_length_le (by omega)]
      simp
    rw [List.splitOn_eq_singleton unbroken, back, List.singleton_append] at written
    have kept := entry_of_parseFstab parsed written read (by rw [dir]; exact later)
    rw [dir] at kept
    refine ⟨steps, entries, _, parsed, kept, device, type, dump, pass, ?_⟩
    intro option
    rw [← mem_correctedOptions_iff disjoint]
    exact options option

/-- The written file is read back as requested, if it is changed at all, unless a line that is
passed over makes the recorded number too small or the corrected line does not spell the entry. -/
theorem remediate_rereads_iff
    (fstab : files.fstab = some content) (lines : getLines content = before ++ line :: after)
    (entry : readEntry line = some mnt) (mounted : mnt.dir = params.mountpoint)
    (unique : ∀ other ∈ before ++ after, ∀ found ∈ readEntry other, found.dir ≠ params.mountpoint)
    (disjoint : ∀ option ∈ params.optionsSet.getD [], option ∉ params.optionsNotSet.getD [])
    (run : remediateFilesystemMountOption requests steps params files = some report)
    (success : report.result = .ok .compliant) :
    (∃ written, report.context.fstab = some written ∧ RereadsAs params mnt written) ↔
      Complies params mnt ∨
        (∀ other ∈ before, IsSkipped other ∨ (readEntry other).isSome) ∧ Respells params mnt := by
  rw [List.forall_mem_append] at unique
  rw [fstab_of_success fstab lines entry mounted unique.2 run success]
  by_cases complies : Complies params mnt
  · obtain ⟨entries, -, parsed, -⟩ := updateFstab_of_success fstab run success
    have recorded := entry_of_parseFstab parsed lines entry (by rw [mounted]; exact unique.2)
    rw [mounted] at recorded
    rw [if_pos complies]
    exact iff_of_true ⟨content, rfl, steps, entries, _, parsed, recorded, rfl, rfl, rfl, rfl,
      hasRequestedOptions_of_complies complies⟩ (.inl complies)
  · rw [if_neg complies, or_iff_right complies, ← passedOver_eq_zero_iff]
    simp only [Option.some.injEq, exists_eq_left']
    have few := passedOver_le false before
    have counted : before.length - passedOver false before = before.length ↔
        passedOver false before = 0 := by
      omega
    rw [← counted]
    exact rereadsAs_replaceLine_iff lines entry mounted unique.1 unique.2 disjoint complies
      (Nat.sub_le _ _)

theorem remediate_rereads_homeLine :
    ∃ report written, remediateFilesystemMountOption servingRequests 128 requireNoatime
        (tableOf [homeLine]) = some report ∧ report.context.fstab = some written ∧
      RereadsAs requireNoatime homeEntry written := by
  obtain ⟨report, run, success⟩ := exists_report [homeLine] (by decide +kernel)
  have lines : getLines (fileOf [homeLine] []) = [] ++ homeLine :: [] := by decide +kernel
  have options : correctedOptions requireNoatime homeEntry = [bytes "rw", bytes "noatime"] := by
    decide +kernel
  have respells : Respells requireNoatime homeEntry := by
    rw [Respells, options]
    exact ⟨by decide +kernel, by decide +kernel, [bytes "rw"], bytes "noatime", rfl,
      .inl (by decide)⟩
  obtain ⟨written, fstab, rereads⟩ :=
    (remediate_rereads_iff rfl lines readEntry_homeLine rfl (by simp)
      (by simp [requireNoatime]) run success).mpr (.inr ⟨by simp, respells⟩)
  exact ⟨report, written, run, fstab, rereads⟩

/-- A share whose name has a blank in it is written without its escape sequence. -/
def shareLine : ByteString := bytes "//server/my\\040share /home cifs rw 0 0"

def shareEntry : MountEntry where
  fsname := bytes "//server/my share"
  dir := bytes "/home"
  type := bytes "cifs"
  opts := bytes "rw"
  freq := 0
  passno := 0

theorem remediate_loses_share :
    ¬∀ (requests : MountRequests) (params : FilesystemMountOptionParams) (steps : ℕ)
        (files : MountFiles) (report : Report MountFiles) (content line : ByteString)
        (before after : List ByteString) (mnt : MountEntry),
      files.fstab = some content → getLines content = before ++ line :: after →
      readEntry line = some mnt → mnt.dir = params.mountpoint →
      (∀ other ∈ before ++ after, ∀ found ∈ readEntry other, found.dir ≠ params.mountpoint) →
      (∀ option ∈ params.optionsSet.getD [], option ∉ params.optionsNotSet.getD []) →
      remediateFilesystemMountOption requests steps params files = some report →
      report.result = .ok .compliant →
      ∃ written, report.context.fstab = some written ∧ RereadsAs params mnt written := by
  intro claim
  obtain ⟨report, run, success⟩ := exists_report [shareLine] (by decide +kernel)
  have lines : getLines (fileOf [shareLine] []) = [] ++ shareLine :: [] := by decide +kernel
  have entry : readEntry shareLine = some shareEntry := by decide +kernel
  obtain ⟨written, fstab, steps, entries, recorded, parsed, found, -⟩ :=
    claim _ _ _ _ _ _ _ _ _ _ rfl lines entry rfl (by simp) (by simp [requireNoatime]) run success
  obtain ⟨source, mem, lineno, reread, read, dir, -⟩ := exists_line_of_parseFstab parsed found
  have lost : (remediateFilesystemMountOption servingRequests 128 requireNoatime
      (tableOf [shareLine])).map (fun report => report.context.fstab.map fun written =>
        (getLines written).all fun line =>
          decide ((readEntry line).map MountEntry.dir ≠ some requireNoatime.mountpoint)) =
      some (some true) := by decide +kernel
  rw [run, Option.map_some, fstab, Option.map_some, Option.some.injEq, Option.some.injEq,
    List.all_eq_true] at lost
  have other := lost source mem
  rw [read, Option.map_some, dir] at other
  simp at other

end Remediation

end OsConfig.ComplianceEngine.FilesystemMountOption
