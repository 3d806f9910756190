import OsConfig.Common.Streams
import OsConfig.Library.Words

/-!
# Columns of a line

Extracting one `std::string` after the other from a line gives its words. It
fails if and only if the line has too few of them.
-/

namespace OsConfig.ByteString

theorem line_of_mem_splitOn {text line : ByteString} (mem : line ∈ text.splitOn 10) :
    10 ∉ line ∧ line.length ≤ text.length := by
  induction text generalizing line with
  | nil =>
      rw [List.splitOn_nil, List.mem_singleton] at mem
      simp [mem]
  | cons byte rest ih =>
      rw [List.splitOn_cons_eq_if_modifyHead] at mem
      split at mem
      next =>
        rcases List.mem_cons.mp mem with rfl | later
        · simp
        · exact ⟨(ih later).1, Nat.le_succ_of_le (ih later).2⟩
      next differs =>
        cases parts : rest.splitOn 10 with
        | nil => exact absurd parts (List.splitOn_ne_nil 10 rest)
        | cons part others =>
            rw [parts, List.modifyHead_cons, List.mem_cons] at mem
            rcases mem with rfl | later
            · have first : part ∈ rest.splitOn 10 := by simp [parts]
              obtain ⟨unbroken, short⟩ := ih first
              have other : (10 : UInt8) ≠ byte := fun same => differs (by simp [same])
              exact ⟨by simp [other, unbroken], Nat.succ_le_succ short⟩
            · have other : line ∈ rest.splitOn 10 := by simp [parts, later]
              have inside := ih other
              exact ⟨inside.1, Nat.le_succ_of_le inside.2⟩

theorem mem_splitOn_of_mem_getLines {text line : ByteString} (mem : line ∈ getLines text) :
    line ∈ text.splitOn 10 := by
  unfold getLines at mem
  dsimp only at mem
  split at mem
  · exact List.mem_of_mem_dropLast mem
  · exact mem

theorem unbroken_of_mem_getLines {text line : ByteString} (mem : line ∈ getLines text) :
    10 ∉ line :=
  (line_of_mem_splitOn (mem_splitOn_of_mem_getLines mem)).1

theorem length_le_of_mem_getLines {text line : ByteString} (mem : line ∈ getLines text) :
    line.length ≤ text.length :=
  (line_of_mem_splitOn (mem_splitOn_of_mem_getLines mem)).2

/-- A text in front of a newline may be several lines. -/
theorem getLines_append_cons (text rest : ByteString) :
    getLines (text ++ 10 :: rest) = text.splitOn 10 ++ getLines rest := by
  have later : rest.splitOn 10 ≠ [] := List.splitOn_ne_nil 10 rest
  rw [getLines, getLines, List.splitOn_append_cons_self, List.getLast?_append_of_ne_nil _ later]
  split
  · rw [List.dropLast_append_of_ne_nil later]
  · rfl

theorem getLines_flatMap_append {lines : List ByteString} (unbroken : ∀ line ∈ lines, 10 ∉ line)
    (rest : ByteString) :
    getLines (lines.flatMap (fun line => line ++ [10]) ++ rest) = lines ++ getLines rest := by
  induction lines with
  | nil => rfl
  | cons line lines ih =>
      rw [List.forall_mem_cons] at unbroken
      rw [List.flatMap_cons, List.append_assoc, List.append_assoc, List.singleton_append,
        getLines_cons _ unbroken.1, ih unbroken.2, List.cons_append]

/-- `stream >> first >> second` for a number of strings, with the rest of the text. -/
def readWords : ℕ → ByteString → Option (List ByteString × ByteString)
  | 0, text => some ([], text)
  | count + 1, text =>
      match readWord text with
      | none => none
      | some (word, rest) => (readWords count rest).map fun (others, rest) => (word :: others, rest)

/-- The words of a line. -/
def columns (line : ByteString) : List ByteString :=
  Words.words isSpace line

theorem columns_append {word rest : ByteString} (isWord : IsWord word)
    (stops : ∀ byte ∈ rest.head?, isSpace byte = true) :
    columns (word ++ rest) = word :: columns rest := by
  unfold columns
  cases rest with
  | nil => simpa using Words.words_of_isWord isWord
  | cons byte after =>
      have white : isSpace byte = true := stops byte rfl
      rw [Words.words_append_cons word after white, Words.words_of_isWord isWord,
        Words.words_cons after white]
      rfl

theorem readWord_letter {letter : UInt8} (black : isSpace letter = false) (text : ByteString) :
    readWord (letter :: text) =
      some (letter :: text.takeWhile (fun byte => !isSpace byte),
        text.dropWhile fun byte => !isSpace byte) := by
  simp [readWord, black]

theorem readWord_white {letter : UInt8} (white : isSpace letter = true) (text : ByteString) :
    readWord (letter :: text) = readWord text := by
  simp [readWord, white]

/-- Extraction takes the first column and leaves the others. -/
theorem readWord_columns (text : ByteString) :
    (readWord text = none ∧ columns text = []) ∨
      ∃ word rest, readWord text = some (word, rest) ∧ columns text = word :: columns rest := by
  induction text with
  | nil => exact Or.inl ⟨rfl, rfl⟩
  | cons letter text ih =>
      cases white : isSpace letter with
      | true =>
          have same : columns (letter :: text) = columns text := Words.words_cons text white
          rw [readWord_white white, same]
          exact ih
      | false =>
          right
          refine ⟨_, _, readWord_letter white text, ?_⟩
          have isWord : IsWord (letter :: text.takeWhile fun byte => !isSpace byte) := by
            refine ⟨by simp, fun byte mem => ?_⟩
            rcases List.mem_cons.mp mem with rfl | later
            · exact white
            · simpa using List.mem_takeWhile_imp later
          have stops : ∀ byte ∈ (text.dropWhile fun byte => !isSpace byte).head?,
              isSpace byte = true := by
            intro byte first
            have stop := List.head?_dropWhile_not (fun byte => !isSpace byte) text
            rw [Option.mem_def.mp first] at stop
            simpa using stop
          have parts := columns_append isWord stops
          rwa [List.cons_append, List.takeWhile_append_dropWhile] at parts

theorem readWords_columns (count : ℕ) (text : ByteString) :
    (readWords count text).map Prod.fst =
      if (columns text).length < count then none else some ((columns text).take count) := by
  induction count generalizing text with
  | zero => rfl
  | succ count ih =>
      rw [readWords]
      rcases readWord_columns text with ⟨fails, empty⟩ | ⟨word, rest, reads, parts⟩
      · simp [fails, empty]
      · have step : ((readWords count rest).map fun (others, rest) => (word :: others, rest)).map
            Prod.fst = ((readWords count rest).map Prod.fst).map (word :: ·) := by
          rw [Option.map_map, Option.map_map]
          rfl
        rw [reads, parts]
        simp only [List.length_cons, Nat.add_lt_add_iff_right, List.take_succ_cons]
        rw [step, ih rest]
        split
        · rfl
        · rfl

theorem readSigned_digits {width : ℕ} {text : ByteString} (some_text : text ≠ [])
    (digits : ∀ byte ∈ text, Numerals.isDecimal byte = true)
    (fits : (Numerals.value text : ℤ) < 2 ^ (width - 1)) :
    readSigned width text = some ((Numerals.value text : ℤ), []) := by
  rcases List.exists_cons_of_ne_nil some_text with ⟨digit, others, rfl⟩
  rcases isSpace_of_isDecimal (digits digit (by simp)) with ⟨black, notMinus, notPlus⟩
  have unsigned : readSign ((digit :: others).dropWhile isSpace) = (false, digit :: others) := by
    rw [List.dropWhile_cons_of_neg (by simp [black])]
    unfold readSign
    split
    next equal => simp_all
    next equal => simp_all
    next => rfl
  have reads : Numerals.read (digit :: others) = some (Numerals.value (digit :: others), []) := by
    unfold Numerals.read
    rw [List.takeWhile_eq_self_iff.mpr digits, List.dropWhile_eq_nil_iff.mpr digits]
  have lower : -2 ^ (width - 1) ≤ (Numerals.value (digit :: others) : ℤ) := by
    have positive : (0 : ℤ) < 2 ^ (width - 1) := by positivity
    omega
  unfold readSigned
  rw [unsigned]
  dsimp only
  rw [reads]
  simp only [Bool.false_eq_true, if_false]
  rw [if_pos ⟨lower, fits⟩]

end OsConfig.ByteString
