import OsConfig.Library.Substrings

/-!
# Replacing by a format

Each occurrence of a literal pattern is replaced by what a format stands for. In
a format a dollar sign can stand for the occurrence, for what is in front of it
since the last one, or for what is behind it. A group that the pattern does not
have is empty. A dollar sign before any other letter is one.
-/

namespace Formats

def isDigit (byte : UInt8) : Bool :=
  48 ≤ byte && byte ≤ 57

/-- The whole match is the only group of a literal. -/
def group (found : List UInt8) (isZero : Bool) : List UInt8 :=
  if isZero then found else []

/-- What a format stands for by the rules of ECMAScript. A number has up to two digits. -/
def expand (before found behind format : List UInt8) : List UInt8 :=
  match format with
  | [] => []
  | byte :: rest =>
      if byte ≠ 36 then byte :: expand before found behind rest
      else
        match rest with
        | [] => [36]
        | next :: others =>
            if next = 36 then 36 :: expand before found behind others
            else if next = 38 then found ++ expand before found behind others
            else if next = 96 then before ++ expand before found behind others
            else if next = 39 then behind ++ expand before found behind others
            else if isDigit next then
              match others with
              | [] => group found (next = 48)
              | second :: later =>
                  if isDigit second then
                    group found (next = 48 && second = 48) ++ expand before found behind later
                  else
                    group found (next = 48) ++ expand before found behind (second :: later)
            else
              36 :: expand before found behind (next :: others)

def replaceRounds (pattern format : List UInt8) : ℕ → List UInt8 → List UInt8
  | 0, text => text
  | rounds + 1, text =>
      match Substrings.search pattern text with
      | none => text
      | some found =>
          let before := text.take (text.length - found.length)
          let behind := found.drop pattern.length
          before ++ (expand before pattern behind format ++
            replaceRounds pattern format rounds behind)

/-- `std::regex_replace` of a literal pattern. -/
def replace (pattern format text : List UInt8) : List UInt8 :=
  replaceRounds pattern format text.length text

section Replacing

variable {pattern format before behind : List UInt8}

/-- A format without dollar signs stands for itself. -/
theorem expand_of_notMem (plain : 36 ∉ format) (before found behind : List UInt8) :
    expand before found behind format = format := by
  induction format with
  | nil => rfl
  | cons byte rest ih =>
      rw [List.mem_cons, not_or] at plain
      rw [expand.eq_def]
      simp only
      rw [if_pos (Ne.symm plain.1), ih plain.2]

theorem replaceRounds_of_none {text : List UInt8} (none : Substrings.search pattern text = none)
    (rounds : ℕ) : replaceRounds pattern format rounds text = text := by
  cases rounds with
  | zero => rfl
  | succ rounds => rw [replaceRounds, none]

theorem replaceRounds_succ
    (finds : Substrings.search pattern (before ++ (pattern ++ behind)) = some (pattern ++ behind))
    (rounds : ℕ) :
    replaceRounds pattern format (rounds + 1) (before ++ (pattern ++ behind)) =
      before ++ (expand before pattern behind format ++
        replaceRounds pattern format rounds behind) := by
  have before_eq : (before ++ (pattern ++ behind)).take
      ((before ++ (pattern ++ behind)).length - (pattern ++ behind).length) = before := by
    rw [List.length_append, Nat.add_sub_cancel, List.take_left]
  rw [replaceRounds, finds]
  simp only
  rw [before_eq, List.drop_left]

theorem replace_once (nonempty : pattern ≠ [])
    (first : Substrings.search pattern (before ++ (pattern ++ behind)) = some (pattern ++ behind))
    (last : Substrings.search pattern behind = none) :
    replace pattern format (before ++ (pattern ++ behind)) =
      before ++ (expand before pattern behind format ++ behind) := by
  have long : ∃ rounds, (before ++ (pattern ++ behind)).length = rounds + 1 := by
    refine ⟨(before ++ (pattern ++ behind)).length - 1, ?_⟩
    have := List.length_pos_of_ne_nil nonempty
    simp only [List.length_append]
    omega
  rcases long with ⟨rounds, length_eq⟩
  rw [replace, length_eq, replaceRounds_succ first, replaceRounds_of_none last]

end Replacing

section Counting

variable {before found behind format : List UInt8} {letter : UInt8}

/-- A byte that means nothing in a format. -/
def IsPlain (letter : UInt8) : Prop :=
  letter ∉ ([36, 38, 39, 96] : List UInt8) ∧ isDigit letter = false

instance (letter : UInt8) : Decidable (IsPlain letter) :=
  inferInstanceAs (Decidable (_ ∧ _))

/-- A result has the letters of a format. Where the letter tells that a text is put in, the result
has more of them, or it is shorter by the dollar signs that are gone. -/
def Grows (letter : UInt8) (tells : Prop) (format result : List UInt8) : Prop :=
  format.count letter ≤ result.count letter ∧
    (tells → result.count letter ≤ format.count letter →
      result.count 36 ≤ format.count 36 ∧ (format.count 36 ≤ result.count 36 → result = format))

section Grows

variable {others result text : List UInt8} {tells : Prop}

theorem grows_refl (format : List UInt8) : Grows letter tells format format :=
  ⟨le_rfl, fun _ _ => ⟨le_rfl, fun _ => rfl⟩⟩

theorem grows_cons (grows : Grows letter tells format result) (byte : UInt8) :
    Grows letter tells (byte :: format) (byte :: result) := by
  obtain ⟨atLeast, lossless⟩ := grows
  rw [Grows]
  simp only [List.count_cons, Nat.add_le_add_iff_right, List.cons.injEq, true_and]
  exact ⟨atLeast, lossless⟩

theorem grows_of_dollar (grows : Grows letter tells others result)
    (same : format.count letter = others.count letter) (fewer : others.count 36 < format.count 36) :
    Grows letter tells format result := by
  obtain ⟨atLeast, lossless⟩ := grows
  rw [Grows, same]
  refine ⟨atLeast, fun told atMost => ?_⟩
  have dollars := (lossless told atMost).1
  exact ⟨by omega, fun more => by omega⟩

theorem grows_append (grows : Grows letter tells others result)
    (same : format.count letter = others.count letter) (mem : tells → letter ∈ text) :
    Grows letter tells format (text ++ result) := by
  obtain ⟨atLeast, -⟩ := grows
  rw [Grows, same, List.count_append]
  refine ⟨by omega, fun told atMost => ?_⟩
  have more := List.count_pos_iff.mpr (mem told)
  omega

/-- A number puts the occurrence in, or nothing. -/
theorem grows_group (grows : Grows letter tells others result)
    (same : format.count letter = others.count letter) (fewer : others.count 36 < format.count 36)
    (mem : tells → letter ∈ found) (isZero : Bool) :
    Grows letter tells format (group found isZero ++ result) := by
  cases isZero with
  | true => exact grows_append grows same mem
  | false => exact grows_of_dollar grows same fewer

end Grows

theorem count_cons_of_isPlain (plain : IsPlain letter) {byte : UInt8}
    (special : byte ∈ ([36, 38, 39, 96] : List UInt8) ∨ isDigit byte = true)
    (others : List UInt8) : (byte :: others).count letter = others.count letter := by
  refine List.count_cons_of_ne ?_
  rintro rfl
  rcases special with mem | digit
  · exact plain.1 mem
  · rw [plain.2] at digit
    cases digit

theorem fewer_dollars (left_out others : List UInt8) :
    others.count 36 < (36 :: (left_out ++ others)).count 36 := by
  rw [List.count_cons_self]
  exact Nat.lt_succ_of_le ((List.sublist_append_right left_out others).count_le 36)

/-- A letter that is in every text that can be put in. -/
def Tells (letter : UInt8) (before found behind : List UInt8) : Prop :=
  letter ∈ before ∧ letter ∈ found ∧ (behind = [] ∨ letter ∈ behind)

theorem grows_expand (plain : IsPlain letter) (before found behind format : List UInt8) :
    Grows letter (Tells letter before found behind) format (expand before found behind format) := by
  have dollar : ∀ others, (36 :: others).count letter = others.count letter :=
    count_cons_of_isPlain plain (.inl (by decide))
  fun_induction expand before found behind format with
  | case1 => exact grows_refl _
  | case2 byte rest _ ih => exact grows_cons ih byte
  | case3 byte isDollar =>
      rw [not_not.mp isDollar]
      exact grows_refl _
  | case4 byte isDollar others ih =>
      rw [not_not.mp isDollar]
      exact grows_of_dollar (grows_cons ih 36) (dollar _) (by simp)
  | case5 byte isDollar others _ ih =>
      rw [not_not.mp isDollar]
      refine grows_append ih ?_ fun told => told.2.1
      rw [dollar, count_cons_of_isPlain plain (.inl (by decide))]
  | case6 byte isDollar others _ _ ih =>
      rw [not_not.mp isDollar]
      refine grows_append ih ?_ fun told => told.1
      rw [dollar, count_cons_of_isPlain plain (.inl (by decide))]
  | case7 byte isDollar others _ _ _ ih =>
      rw [not_not.mp isDollar]
      have same : (36 :: 39 :: others).count letter = others.count letter := by
        rw [dollar, count_cons_of_isPlain plain (.inl (by decide))]
      by_cases empty : behind = []
      · rw [empty] at ih ⊢
        exact grows_of_dollar ih same (by simp)
      · exact grows_append ih same fun told => told.2.2.resolve_left empty
  | case8 byte isDollar digit _ _ _ _ isDigit_digit =>
      rw [not_not.mp isDollar]
      have same : [36, digit].count letter = List.count letter [] := by
        rw [dollar, count_cons_of_isPlain plain (.inr isDigit_digit)]
      rw [← List.append_nil (group _ _)]
      exact grows_group (grows_refl []) same (by simp) (fun told => told.2.1) _
  | case9 byte isDollar digit _ _ _ _ isDigit_digit second later isDigit_second ih =>
      rw [not_not.mp isDollar]
      have same : (36 :: digit :: second :: later).count letter = later.count letter := by
        rw [dollar, count_cons_of_isPlain plain (.inr isDigit_digit),
          count_cons_of_isPlain plain (.inr isDigit_second)]
      exact grows_group ih same (fewer_dollars [digit, second] later)
        (fun told => told.2.1) _
  | case10 byte isDollar digit _ _ _ _ isDigit_digit second later _ ih =>
      rw [not_not.mp isDollar]
      have same : (36 :: digit :: second :: later).count letter = (second :: later).count letter := by
        rw [dollar, count_cons_of_isPlain plain (.inr isDigit_digit)]
      exact grows_group ih same (fewer_dollars [digit] (second :: later))
        (fun told => told.2.1) _
  | case11 byte isDollar next others _ _ _ _ _ ih =>
      rw [not_not.mp isDollar]
      exact grows_cons ih 36

theorem count_le_expand (plain : IsPlain letter) (before found behind format : List UInt8) :
    format.count letter ≤ (expand before found behind format).count letter :=
  (grows_expand plain before found behind format).1

theorem dollars_le_of_count (plain : IsPlain letter) (tells : Tells letter before found behind)
    (letters : (expand before found behind format).count letter ≤ format.count letter) :
    (expand before found behind format).count 36 ≤ format.count 36 :=
  ((grows_expand plain before found behind format).2 tells letters).1

/-- If it has no fewer of them either, it is that format. -/
theorem expand_eq_of_count (plain : IsPlain letter) (tells : Tells letter before found behind)
    (letters : (expand before found behind format).count letter ≤ format.count letter)
    (dollars : format.count 36 ≤ (expand before found behind format).count 36) :
    expand before found behind format = format :=
  ((grows_expand plain before found behind format).2 tells letters).2 dollars

variable {pattern text : List UInt8}

theorem count_le_replaceRounds (apart : letter ∉ pattern) (rounds : ℕ) :
    text.count letter ≤ (replaceRounds pattern format rounds text).count letter := by
  induction rounds generalizing text with
  | zero => rfl
  | succ rounds ih =>
      cases finds : Substrings.search pattern text with
      | none => rw [replaceRounds_of_none finds]
      | some found =>
          obtain ⟨⟨before, rfl⟩, behind, rfl⟩ := Substrings.suffix_of_search finds
          rw [replaceRounds_succ finds]
          have nothing := List.count_eq_zero.mpr apart
          have later := @ih behind
          simp only [List.count_append]
          omega

/-- Where a pattern occurs twice, the letters of the format are put in twice. -/
theorem count_replace_of_twice (plain : IsPlain letter) (apart : letter ∉ pattern)
    (nonempty : pattern ≠ [])
    (finds : Substrings.search pattern (before ++ (pattern ++ behind)) = some (pattern ++ behind))
    (again : pattern <:+: behind) :
    (before ++ (pattern ++ behind)).count letter + 2 * format.count letter ≤
      (replace pattern format (before ++ (pattern ++ behind))).count letter := by
  have nothing := List.count_eq_zero.mpr apart
  have first := count_le_expand plain before pattern behind format
  cases finds_again : Substrings.search pattern behind with
  | none => exact absurd again (Substrings.search_eq_none_iff.mp finds_again)
  | some found =>
      obtain ⟨⟨middle, rfl⟩, rest, rfl⟩ := Substrings.suffix_of_search finds_again
      have second := count_le_expand plain middle pattern rest format
      have long : ∃ rounds, (before ++ (pattern ++ (middle ++ (pattern ++ rest)))).length =
          rounds + 1 + 1 := by
        refine ⟨(before ++ (pattern ++ (middle ++ (pattern ++ rest)))).length - 2, ?_⟩
        have := List.length_pos_of_ne_nil nonempty
        simp only [List.length_append]
        omega
      rcases long with ⟨rounds, length_eq⟩
      have later : rest.count letter ≤ (replaceRounds pattern format rounds rest).count letter :=
        count_le_replaceRounds apart rounds
      rw [replace, length_eq, replaceRounds_succ finds, replaceRounds_succ finds_again]
      simp only [List.count_append]
      omega

end Counting

end Formats
