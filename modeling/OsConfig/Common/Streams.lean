import OsConfig.Common.Bytes

/-!
# Formatted input

What `std::getline` and the extraction operators of an input stream take from a
text in the C locale. Extraction skips white space first. A word ends before
the next white space; a number is an optional sign and the digits that follow,
and extraction fails if there are none or the number does not fit. For an
unsigned type a minus sign negates modulo the range of the type.

Each extraction returns what it read and the rest of the text.
-/

namespace OsConfig.ByteString

/-- The lines `std::getline` reads from a text. -/
def getLines (text : ByteString) : List ByteString :=
  let parts := text.splitOn 10
  if parts.getLast? = some [] then parts.dropLast else parts

/-- Extraction of a `std::string`. -/
def readWord (text : ByteString) : Option (ByteString × ByteString) :=
  let rest := text.dropWhile isSpace
  match rest.takeWhile (fun byte => !isSpace byte) with
  | [] => none
  | byte :: word => some (byte :: word, rest.dropWhile fun byte => !isSpace byte)

/-- Whether a number starts with a minus sign, and what follows its sign. -/
def readSign : ByteString → Bool × ByteString
  | 45 :: rest => (true, rest)
  | 43 :: rest => (false, rest)
  | text => (false, text)

/-- Extraction of an unsigned number of the given width. -/
def readUnsigned (width : ℕ) (text : ByteString) : Option (ℕ × ByteString) :=
  let (negative, rest) := readSign (text.dropWhile isSpace)
  match Numerals.read rest with
  | none => none
  | some (magnitude, rest) =>
      if magnitude < 2 ^ width then
        some (if negative then (2 ^ width - magnitude) % 2 ^ width else magnitude, rest)
      else
        none

/-- Extraction of a signed number of the given width. -/
def readSigned (width : ℕ) (text : ByteString) : Option (ℤ × ByteString) :=
  let (negative, rest) := readSign (text.dropWhile isSpace)
  match Numerals.read rest with
  | none => none
  | some (magnitude, rest) =>
      let number : ℤ := if negative then -magnitude else magnitude
      if -2 ^ (width - 1) ≤ number ∧ number < 2 ^ (width - 1) then some (number, rest) else none

section Lines

theorem getLines_cons {line : ByteString} (rest : ByteString) (unbroken : 10 ∉ line) :
    getLines (line ++ 10 :: rest) = line :: getLines rest := by
  have parts : (line ++ 10 :: rest).splitOn 10 = line :: rest.splitOn 10 := by
    rw [List.splitOn_append_cons_self, List.splitOn_eq_singleton unbroken]
    rfl
  unfold getLines
  rw [parts]
  cases others : rest.splitOn 10 with
  | nil => exact absurd others (List.splitOn_ne_nil 10 rest)
  | cons first remaining =>
      simp only [List.getLast?_cons_cons, List.dropLast_cons_cons]
      split
      · rfl
      · rfl

theorem getLines_lines {lines : List ByteString} (unbroken : ∀ line ∈ lines, 10 ∉ line) :
    getLines (lines.flatMap fun line => line ++ [10]) = lines := by
  induction lines with
  | nil => rfl
  | cons line rest ih =>
      have later : ∀ other ∈ rest, 10 ∉ other :=
        fun other mem => unbroken other (List.mem_cons_of_mem _ mem)
      rw [List.flatMap_cons, List.append_assoc, List.singleton_append,
        getLines_cons _ (unbroken line (by simp)), ih later]

theorem eq_of_getLines_cons {text line : ByteString} {lines : List ByteString}
    (listed : getLines text = line :: lines) :
    (text = line ∧ lines = []) ∨ ∃ rest, text = line ++ 10 :: rest ∧ getLines rest = lines := by
  by_cases broken : 10 ∈ text
  · rcases List.eq_append_cons_of_mem broken with ⟨before, rest, rfl, unbroken⟩
    rw [getLines_cons rest unbroken, List.cons.injEq] at listed
    rcases listed with ⟨rfl, rest_eq⟩
    exact Or.inr ⟨rest, rfl, rest_eq⟩
  · unfold getLines at listed
    rw [List.splitOn_eq_singleton broken] at listed
    dsimp only at listed
    split at listed
    · cases listed
    · rw [List.cons.injEq] at listed
      exact Or.inl ⟨listed.1, listed.2.symm⟩

theorem eq_nil_of_getLines {text : ByteString} (listed : getLines text = []) : text = [] := by
  by_cases broken : 10 ∈ text
  · rcases List.eq_append_cons_of_mem broken with ⟨before, rest, rfl, unbroken⟩
    rw [getLines_cons rest unbroken] at listed
    cases listed
  · unfold getLines at listed
    rw [List.splitOn_eq_singleton broken] at listed
    dsimp only at listed
    split at listed
    next last => exact Option.some.inj last
    · cases listed

theorem length_le_of_getLines {text : ByteString} {lines : List ByteString}
    (listed : getLines text = lines) : lines.length ≤ text.length := by
  induction lines generalizing text with
  | nil => exact Nat.zero_le _
  | cons line others ih =>
      rcases eq_of_getLines_cons listed with ⟨rfl, rfl⟩ | ⟨rest, rfl, rest_eq⟩
      · cases text with
        | nil => cases listed
        | cons byte rest => simp
      · have shorter := ih rest_eq
        simp only [List.length_append, List.length_cons]
        omega

end Lines

section Words

/-- A text that extraction reads as one word. -/
def IsWord (text : ByteString) : Prop :=
  text ≠ [] ∧ ∀ byte ∈ text, isSpace byte = false

instance (text : ByteString) : Decidable (IsWord text) :=
  inferInstanceAs (Decidable (_ ∧ _))

theorem isWord_of_readWord {text word rest : ByteString}
    (reads : readWord text = some (word, rest)) : IsWord word := by
  unfold readWord at reads
  dsimp only at reads
  split at reads
  · cases reads
  next byte letters taken =>
    cases reads
    refine ⟨by simp, fun letter mem => ?_⟩
    rw [← taken] at mem
    simpa using List.mem_takeWhile_imp mem

theorem readWord_append {word rest : ByteString} (isWord : IsWord word)
    (stops : ∀ byte ∈ rest.head?, isSpace byte = true) :
    readWord (word ++ rest) = some (word, rest) := by
  rcases word with _ | ⟨first, letters⟩
  · exact absurd rfl isWord.1
  · have begins : isSpace first = false := isWord.2 first (by simp)
    have skips : ((first :: letters) ++ rest).dropWhile isSpace = (first :: letters) ++ rest := by
      simp [begins]
    have black : ∀ byte ∈ first :: letters, (!isSpace byte) = true := by
      intro byte mem
      simp [isWord.2 byte mem]
    have takes : ((first :: letters) ++ rest).takeWhile (fun byte => !isSpace byte) =
        first :: letters := by
      rw [List.takeWhile_append_of_pos black]
      cases rest with
      | nil => simp
      | cons byte rest => simp [stops byte (by simp)]
    have drops : ((first :: letters) ++ rest).dropWhile (fun byte => !isSpace byte) = rest := by
      rw [List.dropWhile_append_of_pos black]
      cases rest with
      | nil => rfl
      | cons byte rest => simp [stops byte (by simp)]
    unfold readWord
    dsimp only
    rw [skips, takes, drops]

theorem readWord_space (text : ByteString) : readWord (32 :: text) = readWord text := rfl

end Words

section Numbers

theorem readUnsigned_lt {width number : ℕ} {text rest : ByteString}
    (reads : readUnsigned width text = some (number, rest)) : number < 2 ^ width := by
  unfold readUnsigned at reads
  dsimp only at reads
  split at reads
  · cases reads
  · split at reads
    next fits =>
      cases reads
      split
      · exact Nat.mod_lt _ (by positivity)
      · exact fits
    next => cases reads

/-- A digit is neither white space nor a sign. -/
theorem isSpace_of_isDecimal {byte : UInt8} (digit : Numerals.isDecimal byte = true) :
    isSpace byte = false ∧ byte ≠ 45 ∧ byte ≠ 43 := by
  simp only [Numerals.isDecimal, Bool.and_eq_true, decide_eq_true_eq,
    UInt8.le_iff_toNat_le] at digit
  have lower : 48 ≤ byte.toNat := digit.1
  refine ⟨?_, ?_, ?_⟩
  · simp only [isSpace, Bool.or_eq_false_iff, Bool.and_eq_false_iff, decide_eq_false_iff_not,
      ← UInt8.toNat_inj, UInt8.le_iff_toNat_le, UInt8.reduceToNat]
    omega
  · rintro rfl
    simp at lower
  · rintro rfl
    simp at lower

theorem readSign_render (number : ℕ) (rest : ByteString) :
    readSign ((32 :: (Numerals.render 10 number ++ rest)).dropWhile isSpace) =
      (false, Numerals.render 10 number ++ rest) := by
  cases numeral : Numerals.render 10 number with
  | nil => exact absurd numeral (Numerals.render_ne_nil number)
  | cons digit others =>
      have isDigit : Numerals.isDecimal digit = true :=
        Numerals.isDecimal_of_mem_render (by rw [numeral]; simp)
      rcases isSpace_of_isDecimal isDigit with ⟨black, notMinus, notPlus⟩
      have skips : (32 :: (digit :: others ++ rest)).dropWhile isSpace =
          digit :: (others ++ rest) := by
        change ((digit :: others) ++ rest).dropWhile isSpace = _
        simp [black]
      rw [skips]
      unfold readSign
      split
      next equal => simp_all
      next equal => simp_all
      next => rfl

variable {rest : ByteString} (stops : ∀ byte ∈ rest.head?, Numerals.isDecimal byte = false)

include stops

theorem readUnsigned_render {width number : ℕ} (fits : number < 2 ^ width) :
    readUnsigned width (32 :: (Numerals.render 10 number ++ rest)) = some (number, rest) := by
  unfold readUnsigned
  rw [readSign_render]
  dsimp only
  rw [Numerals.read_render number stops]
  simp [fits]

theorem readSigned_renderInt {width : ℕ} {number : ℤ} (lower : -2 ^ (width - 1) ≤ number)
    (upper : number < 2 ^ (width - 1)) :
    readSigned width (32 :: (Numerals.renderInt 10 number ++ rest)) = some (number, rest) := by
  unfold Numerals.renderInt
  by_cases negative : number < 0
  · have signed : readSign ((32 :: (45 :: Numerals.render 10 number.natAbs ++ rest)).dropWhile
        isSpace) = (true, Numerals.render 10 number.natAbs ++ rest) := rfl
    have back : -(number.natAbs : ℤ) = number := by omega
    rw [if_pos negative]
    unfold readSigned
    rw [signed]
    dsimp only
    rw [Numerals.read_render _ stops]
    simp only [if_true, back]
    rw [if_pos ⟨lower, upper⟩]
  · have back : (number.natAbs : ℤ) = number := by omega
    rw [if_neg negative]
    unfold readSigned
    rw [readSign_render]
    dsimp only
    rw [Numerals.read_render _ stops]
    simp only [Bool.false_eq_true, if_false, back]
    rw [if_pos ⟨lower, upper⟩]

end Numbers

end OsConfig.ByteString
