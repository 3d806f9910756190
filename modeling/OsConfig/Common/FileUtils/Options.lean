import OsConfig.Common.FileUtils.MarkedLines
import OsConfig.Common.Reasons
import OsConfig.Common.Streams
import OsConfig.Library.Substrings

/-!
# Options in text

An option is looked up by its name, in any part of a text that is not commented
out. Its value is what follows the next separator, up to a blank or the end of
the line.
-/

namespace OsConfig.CommonUtils

def intEnoent : BitVec 32 := -999

def removePrefix (marker : UInt8) (text : ByteString) : ByteString :=
  text.dropWhile (· = marker)

def removePrefixBlanks (text : ByteString) : ByteString :=
  removePrefix 32 text

/-- `RemovePrefixUpTo`, which leaves a text of one character alone. -/
def removePrefixUpTo (marker : UInt8) (text : ByteString) : ByteString :=
  if 1 < text.length ∧ marker ∈ text then text.dropWhile (· ≠ marker) else text

def removeTrailingBlanks (text : ByteString) : ByteString :=
  text.rdropWhile (· = 32)

def truncateAtFirst (marker : UInt8) (text : ByteString) : ByteString :=
  text.takeWhile (· ≠ marker)

/-- `strtol` in base ten. Values out of range are cut to the nearest `long`. -/
def strtol (text : ByteString) : ℤ :=
  let (negative, rest) := ByteString.readSign (text.dropWhile ByteString.isSpace)
  let magnitude : ℤ := Numerals.value (rest.takeWhile Numerals.isDecimal)
  max (-2 ^ 63) (min (if negative then -magnitude else magnitude) (2 ^ 63 - 1))

/-- The line in front of a position that follows `before`. -/
def lineBefore (before : ByteString) : ByteString :=
  before.rtakeWhile (· ≠ 10)

/-- What is made of the text from the option on. -/
def optionValue (separator : UInt8) (found : ByteString) : ByteString :=
  let found := removePrefix separator (removePrefixUpTo separator found)
  truncateAtFirst 32 (truncateAtFirst 10 (removeTrailingBlanks (removePrefixBlanks found)))

/-- The scan of `GetStringOptionFromBuffer` behind a part of the text that it has passed. -/
def stringOptionFrom (option : ByteString) (separator commentCharacter : UInt8)
    (before found : ByteString) : Option ByteString :=
  if option <+: found ∧ commentCharacter ∉ lineBefore before ∧
      found.head? ≠ some commentCharacter then
    -- The whole text is cut at its first comment character, which may be in front already.
    some (optionValue separator
      (if commentCharacter ∈ before then found else truncateAtFirst commentCharacter found))
  else
    match found with
    | [] => none
    | byte :: rest => stringOptionFrom option separator commentCharacter (before ++ [byte]) rest

def getStringOptionFromBuffer (buffer option : ByteString) (separator commentCharacter : UInt8) :
    Option ByteString :=
  stringOptionFrom option separator commentCharacter [] buffer

/-- `GetIntegerOptionFromBuffer` in base ten. -/
def getIntegerOptionFromBuffer (buffer option : ByteString) (separator commentCharacter : UInt8) :
    BitVec 32 :=
  match getStringOptionFromBuffer buffer option separator commentCharacter with
  | some value => BitVec.ofInt 32 (strtol value)
  | none => intEnoent

/-- `CheckFileExists`, with the reason captured. -/
def checkFileExists (fileName : ByteString) (reason : Option ByteString) (fs : FileSystem) :
    ℤ × Option ByteString :=
  if fs.fileExists fileName then
    (0, captureSuccessReason reason (bytes "File '" ++ fileName ++ bytes "' exists"))
  else (enoent, captureReason reason (bytes "File  '" ++ fileName ++ bytes "' is not found"))

section Values

variable {option before found value rest : ByteString} {separator comment terminator : UInt8}

/-- Without comments the option is taken where it occurs first. -/
theorem stringOptionFrom_of_uncommented (uncommented : comment ∉ before ++ found) :
    stringOptionFrom option separator comment before found =
      (Substrings.search option found).map (optionValue separator) := by
  have passed : comment ∉ before := fun mem => uncommented (List.mem_append_left _ mem)
  have ahead : comment ∉ found := fun mem => uncommented (List.mem_append_right _ mem)
  have line : comment ∉ lineBefore before := fun mem =>
    passed ((List.rtakeWhile_suffix _ _).subset mem)
  have whole : truncateAtFirst comment found = found := by
    rw [truncateAtFirst, List.takeWhile_eq_self_iff]
    intro byte mem
    simpa using ne_of_mem_of_not_mem mem ahead
  induction found generalizing before with
  | nil =>
      by_cases nameless : option = []
      · simp [stringOptionFrom, Substrings.search, nameless, line, passed, whole]
      · simp [stringOptionFrom, Substrings.search, nameless]
  | cons byte others ih =>
      have differs : byte ≠ comment := by
        rintro rfl
        exact ahead List.mem_cons_self
      by_cases here : option <+: byte :: others
      · rw [Substrings.search_of_prefix here]
        simp [stringOptionFrom, here, line, passed, differs, whole]
      · rw [Substrings.search_cons_of_not_prefix here, stringOptionFrom,
          if_neg fun taken => here taken.1]
        have moved : comment ∉ (before ++ [byte]) ++ others := by simpa using uncommented
        have passed' : comment ∉ before ++ [byte] := fun mem => moved (List.mem_append_left _ mem)
        have ahead' : comment ∉ others := fun mem => moved (List.mem_append_right _ mem)
        apply ih moved passed' ahead'
        · exact fun mem => passed' ((List.rtakeWhile_suffix _ _).subset mem)
        · rw [truncateAtFirst, List.takeWhile_eq_self_iff]
          intro other mem
          simpa using ne_of_mem_of_not_mem mem ahead'

theorem getStringOptionFromBuffer_of_uncommented (uncommented : comment ∉ found) :
    getStringOptionFromBuffer found option separator comment =
      (Substrings.search option found).map (optionValue separator) :=
  stringOptionFrom_of_uncommented uncommented

theorem removeTrailingBlanks_append (some_value : value ≠ []) (black : ∀ byte ∈ value, byte ≠ 32) :
    removeTrailingBlanks (value ++ rest) = value ++ removeTrailingBlanks rest := by
  have last : value.reverse.dropWhile (fun byte => decide (byte = 32)) = value.reverse := by
    rcases List.exists_cons_of_ne_nil (List.reverse_ne_nil_iff.mpr some_value) with
      ⟨first, others, reversed⟩
    have mem : first ∈ value := List.mem_reverse.mp (by simp [reversed])
    rw [reversed, List.dropWhile_cons_of_neg]
    simpa using black first mem
  simp only [removeTrailingBlanks, List.rdropWhile, List.reverse_append, List.dropWhile_append, last]
  split
  next all => simp [List.isEmpty_iff.mp all]
  · simp

theorem optionValue_eq {name blanks : ByteString} (some_name : name ≠ [])
    (plain : separator ∉ name) (solid : blanks ≠ [] → separator ≠ 32)
    (blank : ∀ byte ∈ blanks, byte = 32)
    (some_value : value ≠ []) (black : ∀ byte ∈ value, byte ≠ 32 ∧ byte ≠ 10 ∧ byte ≠ separator)
    (ends : terminator = 10 ∨ terminator = 32) :
    optionValue separator (name ++ separator :: (blanks ++ (value ++ terminator :: rest))) =
      value := by
  rcases List.exists_cons_of_ne_nil some_value with ⟨first, others, value_eq⟩
  have first_black := black first (by simp [value_eq])
  have long : 1 < (name ++ separator :: (blanks ++ (value ++ terminator :: rest))).length := by
    have positive : 0 < name.length := List.length_pos_iff.mpr some_name
    simp only [List.length_append, List.length_cons]
    omega
  have cut : removePrefixUpTo separator
      (name ++ separator :: (blanks ++ (value ++ terminator :: rest))) =
        separator :: (blanks ++ (value ++ terminator :: rest)) := by
    rw [removePrefixUpTo, if_pos ⟨long, by simp⟩, List.dropWhile_append_of_pos]
    · simp
    · intro byte mem
      simpa using ne_of_mem_of_not_mem mem plain
  have stripped : removePrefix separator (separator :: (blanks ++ (value ++ terminator :: rest))) =
      blanks ++ (value ++ terminator :: rest) := by
    rw [removePrefix, List.dropWhile_cons_of_pos (by simp)]
    cases blanks with
    | nil => simp [value_eq, first_black.2.2]
    | cons byte more =>
        have byte_eq := blank byte List.mem_cons_self
        simp [byte_eq, Ne.symm (solid (by simp))]
  have unblanked : removePrefixBlanks (blanks ++ (value ++ terminator :: rest)) =
      value ++ terminator :: rest := by
    rw [removePrefixBlanks, removePrefix, List.dropWhile_append_of_pos]
    · simp [value_eq, first_black.1]
    · intro byte mem
      simpa using blank byte mem
  have trimmed : ∃ kept, removeTrailingBlanks (value ++ terminator :: rest) = value ++ kept ∧
      (kept = [] ∨ ∃ more, kept = terminator :: more) := by
    rcases List.rdropWhile_prefix (fun byte : UInt8 => decide (byte = 32)) (l := terminator :: rest)
      with ⟨dropped, split_eq⟩
    refine ⟨_, removeTrailingBlanks_append some_value (fun byte mem => (black byte mem).1), ?_⟩
    cases kept : removeTrailingBlanks (terminator :: rest) with
    | nil => exact .inl rfl
    | cons byte more =>
        have same : (terminator :: rest).rdropWhile (fun byte => decide (byte = 32)) =
            byte :: more := kept
        rw [same, List.cons_append, List.cons.injEq] at split_eq
        exact .inr ⟨more, by rw [split_eq.1]⟩
  rcases trimmed with ⟨kept, kept_eq, starts⟩
  have noEol : ∀ byte ∈ value, decide (byte ≠ (10 : UInt8)) = true := by
    intro byte mem
    simpa using (black byte mem).2.1
  have noBlank : ∀ byte ∈ value, decide (byte ≠ (32 : UInt8)) = true := by
    intro byte mem
    simpa using (black byte mem).1
  have nothing : (kept.takeWhile (· ≠ 10)).takeWhile (· ≠ 32) = [] := by
    rcases starts with rfl | ⟨more, rfl⟩
    · rfl
    · rcases ends with rfl | rfl
      · rfl
      · simp
  rw [optionValue, cut, stripped, unblanked, kept_eq, truncateAtFirst, truncateAtFirst,
    List.takeWhile_append_of_pos noEol, List.takeWhile_append_of_pos noBlank, nothing,
    List.append_nil]

theorem takeWhile_render (number : ℕ) (stops : ∀ byte ∈ rest.head?, Numerals.isDecimal byte = false) :
    (Numerals.render 10 number ++ rest).takeWhile Numerals.isDecimal =
      Numerals.render 10 number := by
  rw [List.takeWhile_append_of_pos fun byte mem => Numerals.isDecimal_of_mem_render mem]
  cases rest with
  | nil => simp
  | cons byte others => simp [stops byte (by simp)]

theorem strtol_renderInt {number : ℤ} (lower : -2 ^ 63 ≤ number) (upper : number < 2 ^ 63)
    (stops : ∀ byte ∈ rest.head?, Numerals.isDecimal byte = false) :
    strtol (Numerals.renderInt 10 number ++ rest) = number := by
  unfold Numerals.renderInt
  by_cases negative : number < 0
  · have signed : ByteString.readSign ((45 :: Numerals.render 10 number.natAbs ++ rest).dropWhile
        ByteString.isSpace) = (true, Numerals.render 10 number.natAbs ++ rest) := rfl
    rw [if_pos negative, strtol, signed]
    simp only [takeWhile_render _ stops, Numerals.value_render, if_true]
    omega
  · have signed : ByteString.readSign ((Numerals.render 10 number.natAbs ++ rest).dropWhile
        ByteString.isSpace) = (false, Numerals.render 10 number.natAbs ++ rest) :=
      ByteString.readSign_render number.natAbs rest
    rw [if_neg negative, strtol, signed]
    simp only [takeWhile_render _ stops, Numerals.value_render, Bool.false_eq_true, if_false]
    omega

/-- `printf` with `%d`. -/
def printInt (number : BitVec 32) : ByteString :=
  Numerals.renderInt 10 number.toInt

theorem ofInt_strtol_printInt (number : BitVec 32)
    (stops : ∀ byte ∈ rest.head?, Numerals.isDecimal byte = false) :
    BitVec.ofInt 32 (strtol (printInt number ++ rest)) = number := by
  have lower : -2 ^ 63 ≤ number.toInt := by
    have bound := BitVec.le_toInt number
    omega
  have upper : number.toInt < 2 ^ 63 := by
    have bound := BitVec.toInt_lt (x := number)
    omega
  rw [printInt, strtol_renderInt lower upper stops, BitVec.ofInt_toInt]

theorem mem_printInt {number : BitVec 32} {byte : UInt8} (mem : byte ∈ printInt number) :
    byte = 45 ∨ Numerals.isDecimal byte = true := by
  rw [printInt, Numerals.renderInt] at mem
  split at mem
  · rcases List.mem_cons.mp mem with minus | digit
    · exact .inl minus
    · exact .inr (Numerals.isDecimal_of_mem_render digit)
  · exact .inr (Numerals.isDecimal_of_mem_render mem)

theorem printInt_ne_nil (number : BitVec 32) : printInt number ≠ [] := by
  rw [printInt, Numerals.renderInt]
  split
  · simp
  · exact Numerals.render_ne_nil _

theorem length_printInt_le (number : BitVec 32) : (printInt number).length ≤ 11 := by
  have digits : ∀ magnitude : ℕ, magnitude ≤ 2 ^ 31 → (Numerals.render 10 magnitude).length ≤ 10 := by
    intro magnitude small
    rw [Numerals.render]
    split
    · simp
    · rw [List.length_map, List.length_reverse, Nat.digits_length_le_iff (by omega)]
      omega
  have small : number.toInt.natAbs ≤ 2 ^ 31 := by
    have lower := BitVec.le_toInt number
    have upper := BitVec.toInt_lt (x := number)
    omega
  have bound := digits _ small
  rw [printInt, Numerals.renderInt]
  split
  · rw [List.length_cons]
    omega
  · omega

/-- A number printed behind `option =` is read back. -/
theorem getIntegerOptionFromBuffer_eq {buffer name blanks : ByteString} {number : BitVec 32}
    (uncommented : comment ∉ buffer)
    (there : Substrings.search option buffer =
      some (name ++ 61 :: (blanks ++ (printInt number ++ terminator :: rest))))
    (some_name : name ≠ []) (plain : 61 ∉ name) (blank : ∀ byte ∈ blanks, byte = 32)
    (ends : terminator = 10 ∨ terminator = 32) :
    getIntegerOptionFromBuffer buffer option 61 comment = number := by
  have black : ∀ byte ∈ printInt number, byte ≠ 32 ∧ byte ≠ 10 ∧ byte ≠ 61 := by
    intro byte mem
    rcases mem_printInt mem with rfl | digit
    · decide
    · refine ⟨?_, ?_, ?_⟩
      all_goals
        rintro rfl
        exact absurd digit (by decide)
  have value : optionValue 61 (name ++ 61 :: (blanks ++ (printInt number ++ terminator :: rest))) =
      printInt number :=
    optionValue_eq some_name plain (fun _ => by decide) blank (printInt_ne_nil number) black ends
  have alone : BitVec.ofInt 32 (strtol (printInt number ++ [])) = number :=
    ofInt_strtol_printInt number (by simp)
  rw [List.append_nil] at alone
  simp only [getIntegerOptionFromBuffer, getStringOptionFromBuffer_of_uncommented uncommented,
    there, Option.map_some, value, alone]

/-- The first word of a text, which is empty if a newline comes first. -/
def firstWord (text : ByteString) : ByteString :=
  truncateAtFirst 32 (truncateAtFirst 10 (removePrefixBlanks text))

/-- Whether a byte does not end a word. -/
def inWord (byte : UInt8) : Bool :=
  byte ≠ 32 && byte ≠ 10

theorem truncated_eq (text : ByteString) :
    truncateAtFirst 32 (truncateAtFirst 10 text) = text.takeWhile inWord := by
  rw [truncateAtFirst, truncateAtFirst, List.takeWhile_takeWhile]
  congr 1
  funext byte
  simp [inWord]

theorem firstWord_eq_iff {text : ByteString} (plain : ∀ byte ∈ value, inWord byte = true) :
    firstWord text = value ↔
      ∃ rest, removePrefixBlanks text = value ++ rest ∧ ∀ byte ∈ rest.head?, inWord byte = false := by
  rw [firstWord, truncated_eq]
  constructor
  · intro same
    refine ⟨(removePrefixBlanks text).dropWhile inWord, ?_, ?_⟩
    · rw [← same, List.takeWhile_append_dropWhile]
    · intro byte head
      have stops := List.head?_dropWhile_not inWord (removePrefixBlanks text)
      rw [Option.mem_def.mp head] at stops
      exact stops
  · rintro ⟨rest, text_eq, ends⟩
    rw [text_eq, List.takeWhile_append_of_pos plain]
    cases rest with
    | nil => simp
    | cons byte others => simp [ends byte rfl]

theorem truncated_trimmed (text : ByteString) :
    truncateAtFirst 32 (truncateAtFirst 10 (removeTrailingBlanks text)) =
      truncateAtFirst 32 (truncateAtFirst 10 text) := by
  rw [truncated_eq, truncated_eq]
  induction text using List.reverseRecOn with
  | nil => rfl
  | append_singleton text byte ih =>
      by_cases blank : byte = 32
      · have trimmed : removeTrailingBlanks (text ++ [byte]) = removeTrailingBlanks text := by
          rw [removeTrailingBlanks, List.rdropWhile_concat_pos _ _ _ (by simpa using blank),
            removeTrailingBlanks]
        have stops : [byte].takeWhile inWord = [] := by simp [inWord, blank]
        rw [trimmed, ih, List.takeWhile_append, stops, List.append_nil]
        split
        next all => exact List.Sublist.eq_of_length (List.takeWhile_sublist _) all
        · rfl
      · have kept : removeTrailingBlanks (text ++ [byte]) = text ++ [byte] := by
          rw [removeTrailingBlanks, List.rdropWhile_concat_neg _ _ _ (by simpa using blank)]
        rw [kept]

theorem optionValue_blank {name : ByteString} (some_name : name ≠ []) (plain : 32 ∉ name) (text : ByteString) :
    optionValue 32 (name ++ 32 :: text) = firstWord text := by
  have long : 1 < (name ++ 32 :: text).length := by
    have positive : 0 < name.length := List.length_pos_iff.mpr some_name
    rw [List.length_append, List.length_cons]
    omega
  have cut : removePrefixUpTo 32 (name ++ 32 :: text) = 32 :: text := by
    rw [removePrefixUpTo, if_pos ⟨long, by simp⟩, List.dropWhile_append_of_pos]
    · simp
    · intro byte mem
      simpa using ne_of_mem_of_not_mem mem plain
  have blanks : removePrefixBlanks (removePrefix 32 (32 :: text)) = removePrefixBlanks text := by
    rw [removePrefixBlanks, removePrefix, removePrefix, List.dropWhile_cons_of_pos (by simp),
      removePrefixBlanks, removePrefix, List.dropWhile_idempotent]
  rw [optionValue, cut, blanks, truncated_trimmed, firstWord]

end Values

end OsConfig.CommonUtils
