import OsConfig.Common.FileUtils.Comments
import OsConfig.Common.FileUtils.JoinedLines

/-!
# Settings of configuration files under /etc

A setting is a line with a name and a value. The new line takes the place of the
first line that mentions the name, as far as it fits into the buffer for a line.
The value is read back from the new line if it is written with its end, and the
lines of other settings stay if none of them mentions the name.
-/

namespace OsConfig.CommonUtils

/-- The line that `SetEtcConfValue` writes. -/
def etcConfLine (name value : ByteString) : ByteString :=
  name ++ bytes " " ++ value ++ bytes "\n"

/-- `SetEtcConfValue`, with the number that `rand` returns. -/
def setEtcConfValue (file name value : ByteString) (random : ℕ) (fs : FileSystem) : ℤ × FileSystem :=
  if name = [] ∨ value = [] then (einval, fs)
  else if !fs.fileExists file then (enoent, fs)
  else replaceMarkedLinesInFile file name (some (etcConfLine name value)) 35 random fs

def getStringOptionFromFile (fileName option : ByteString) (separator commentCharacter : UInt8)
    (fs : FileSystem) : Option ByteString :=
  if fs.fileExists fileName then
    match loadStringFromFile fileName fs with
    | some contents => getStringOptionFromBuffer contents option separator commentCharacter
    | none => none
  else none

/-- A name or a value: it is not empty, and it has no blank, no comment mark, no newline and no NUL
in it. -/
structure IsConfWord (word : ByteString) : Prop where
  nonempty : word ≠ []
  plain : ∀ byte ∈ word, byte ∉ ([0, 10, 32, 35] : List UInt8)

theorem IsConfWord.notMem {word : ByteString} (isWord : IsConfWord word) {byte : UInt8}
    (known : byte ∈ ([0, 10, 32, 35] : List UInt8)) : byte ∉ word :=
  fun mem => isWord.plain byte mem known

section Reading

variable {name text value rest front : ByteString} {comment separator : UInt8}
  {lines : List ByteString}

theorem stringOptionFrom_line {option before line : ByteString} (plain : 10 ∉ option)
    (proper : IsTextLine line) (unmarked : isMarked option comment line = false)
    (starts : lineBefore before = []) :
    stringOptionFrom option separator comment before (line ++ rest) =
      stringOptionFrom option separator comment (before ++ line) rest := by
  rcases proper.proper with ⟨body, body_eq, unbroken, -⟩
  suffices behind : ∀ done todo, line = done ++ todo →
      stringOptionFrom option separator comment (before ++ done) (todo ++ rest) =
        stringOptionFrom option separator comment (before ++ line) rest by
    simpa using behind [] line rfl
  intro done todo line_eq
  induction todo generalizing done with
  | nil => rw [line_eq, List.append_nil, List.nil_append]
  | cons byte others ih =>
      have moved := ih (done ++ [byte]) (by simp [line_eq])
      rw [← List.append_assoc] at moved
      have done_plain : 10 ∉ done := by
        have split : body = done ++ (byte :: others).dropLast := by
          rw [← List.dropLast_append_of_ne_nil (List.cons_ne_nil _ _), ← line_eq, body_eq,
            List.dropLast_concat]
        exact fun mem => unbroken (split ▸ List.mem_append_left _ mem)
      have newline : 10 ∈ byte :: others := by
        have last : (byte :: others).getLast? = some 10 := by
          rw [← List.getLast?_append_of_ne_nil done (List.cons_ne_nil _ _), ← line_eq, body_eq]
          simp
        exact List.mem_of_getLast? last
      rw [List.cons_append, stringOptionFrom, if_neg, moved]
      rintro ⟨here, uncommented, first⟩
      -- The option ends in front of the newline, so that the line mentions it.
      have inside : option <+: byte :: others := by
        rcases List.prefix_or_prefix_of_prefix here (List.prefix_append (byte :: others) rest) with
          within | longer
        · exact within
        · exact absurd (longer.subset newline) plain
      have mentioned : option <:+: line := by
        rw [line_eq]
        exact inside.isInfix.trans (List.suffix_append _ _).isInfix
      have commented : line.head? = some comment := by
        simpa [isMarked, mentioned] using unmarked
      rw [lineBefore_append_of_plain before done_plain, starts, List.nil_append] at uncommented
      cases done with
      | nil =>
          rw [line_eq, List.nil_append] at commented
          exact first commented
      | cons first others' =>
          rw [line_eq, List.cons_append, List.head?_cons, Option.some.injEq] at commented
          exact uncommented (by simp [commented])

theorem stringOptionFrom_lines {option before : ByteString} (plain : 10 ∉ option)
    (proper : ∀ line ∈ lines, IsTextLine line)
    (unmarked : ∀ line ∈ lines, isMarked option comment line = false)
    (starts : lineBefore before = []) :
    stringOptionFrom option separator comment before (lines.flatten ++ rest) =
      stringOptionFrom option separator comment (before ++ lines.flatten) rest := by
  induction lines generalizing before with
  | nil => simp
  | cons line others ih =>
      rw [List.forall_mem_cons] at proper unmarked
      have ended : lineBefore (before ++ line) = [] := by
        rcases proper.1.proper with ⟨body, rfl, -, -⟩
        rw [← List.append_assoc, lineBefore_newline]
      rw [List.flatten_cons, List.append_assoc, stringOptionFrom_line plain proper.1 unmarked.1 starts,
        ih proper.2 unmarked.2 ended, List.append_assoc]

/-- The text behind a position that the lookup still sees: it is cut at the first comment mark of the
whole text. -/
def visible (front text : ByteString) : ByteString :=
  if 35 ∈ front then text else truncateAtFirst 35 text

/-- The value of a name is read off the first line that is not passed over. -/
theorem getStringOption_of_line (isName : IsConfWord name)
    (proper : ∀ line ∈ lines, IsTextLine line)
    (unmarked : ∀ line ∈ lines, isMarked name 35 line = false) (text : ByteString) :
    getStringOptionFromBuffer (lines.flatten ++ (name ++ 32 :: text)) name 32 35 =
      some (firstWord (visible lines.flatten text)) := by
  have noMark : 35 ∉ name := isName.notMem (by simp)
  rcases List.exists_cons_of_ne_nil isName.nonempty with ⟨first, others, name_eq⟩
  have taken : name <+: name ++ 32 :: text ∧ 35 ∉ lineBefore lines.flatten ∧
      (name ++ 32 :: text).head? ≠ some 35 := by
    refine ⟨List.prefix_append _ _, ?_, ?_⟩
    · rw [lineBefore_flatten proper]
      exact List.not_mem_nil
    · rw [name_eq] at noMark ⊢
      simpa using fun same : first = 35 => noMark (by simp [same])
  have cut : truncateAtFirst 35 (name ++ 32 :: text) = name ++ 32 :: truncateAtFirst 35 text := by
    rw [truncateAtFirst, List.takeWhile_append_of_pos, List.takeWhile_cons_of_pos (by decide),
      truncateAtFirst]
    intro byte mem
    simpa using ne_of_mem_of_not_mem mem noMark
  rw [getStringOptionFromBuffer, stringOptionFrom_lines (isName.notMem (by simp)) proper unmarked rfl,
    List.nil_append, stringOptionFrom.eq_def, if_pos taken, cut, visible]
  split
  · rw [optionValue_blank isName.nonempty (isName.notMem (by simp))]
  · rw [optionValue_blank isName.nonempty (isName.notMem (by simp))]

end Reading

section Writing

variable {fs : FileSystem} {file name value content : ByteString} {random : ℕ}
  {lines : List ByteString}

theorem etcConfLine_eq : etcConfLine name value = name ++ 32 :: (value ++ [10]) := by
  have blank : bytes " " = [32] ∧ bytes "\n" = [10] := by decide
  rw [etcConfLine, blank.1, blank.2]
  simp

/-- The room for the value in the buffer for a line, behind the name and a blank. -/
def valueRoom (name : ByteString) : ℕ :=
  lineMax - (name.length + 1)

/-- What is written behind the name and a blank. -/
def writtenValue (name value : ByteString) (lines : List ByteString) : ByteString :=
  if lines.any (isMarked name 35) then (value ++ [10]).take (valueRoom name) else value ++ [10]

theorem length_lt_of_marked (plain : 10 ∉ name) (proper : ∀ line ∈ lines, IsTextLine line)
    (marked : lines.any (isMarked name 35) = true) : name.length < lineMax := by
  rcases List.any_eq_true.mp marked with ⟨line, mem, isMarked_line⟩
  rw [isMarked, Bool.and_eq_true, decide_eq_true_iff] at isMarked_line
  rcases (proper line mem).proper with ⟨body, rfl, -, short⟩
  have whole := isMarked_line.1.length_le
  rw [List.length_append, List.length_singleton] at whole
  by_contra long
  have same := isMarked_line.1.eq_of_length_le (by rw [List.length_append, List.length_singleton]; omega)
  exact plain (by simp [same])

theorem take_etcConfLine (short : name.length < lineMax) :
    (etcConfLine name value).take lineMax =
      name ++ 32 :: (value ++ [10]).take (valueRoom name) := by
  have room : lineMax - name.length = valueRoom name + 1 := by
    rw [valueRoom]
    omega
  rw [etcConfLine_eq, List.take_append, List.take_of_length_le short.le, room, List.take_succ_cons]

/-- What the file becomes: the new line stands between the lines in front of the first one that
mentions the name and the unmarked lines behind it. -/
def etcConfWritten (name value : ByteString) (lines : List ByteString) : ByteString :=
  (frontLines name lines).flatten ++
    (name ++ 32 :: (writtenValue name value lines ++ (backLines name lines).flatten))

theorem setEtcConfValue_eq (held : fs.read file = some content) (text : IsText content)
    (isName : IsConfWord name) (isValue : IsConfWord value)
    (free : fs.read (replacingLinesName file random) = none) :
    setEtcConfValue file name value random fs =
      (0, fs.write file (etcConfWritten name value (fgetsLines content))) := by
  have present : fs.fileExists file = true := FileSystem.fileExists_iff.mpr ⟨content, held⟩
  have proper : ∀ line ∈ fgetsLines content, IsTextLine line := fun _ => text.isTextLine
  have call : setEtcConfValue file name value random fs =
      replaceMarkedLinesInFile file name (some (etcConfLine name value)) 35 random fs := by
    rw [setEtcConfValue, if_neg (not_or.mpr ⟨isName.nonempty, isValue.nonempty⟩), present]
    rfl
  have long : 1 < (etcConfLine name value).length := by
    rw [etcConfLine_eq]
    simp only [List.length_append, List.length_cons, List.length_nil]
    omega
  have plain : 10 ∉ name := isName.notMem (by simp)
  rw [call, replaceMarkedLinesInFile_cut held (fun line mem => (proper line mem).isPiece) free
    isName.nonempty plain long]
  refine congrArg (fun text => (0, fs.write file text)) ?_
  cases marked : (fgetsLines content).any (isMarked name 35) with
  | true =>
      have some_lines : fgetsLines content ≠ [] := by
        rintro none_there
        simp [none_there] at marked
      rw [if_pos rfl, take_etcConfLine (length_lt_of_marked plain proper marked), etcConfWritten,
        writtenValue, if_pos marked, frontLines, if_neg some_lines, List.append_nil, backLines]
      simp
  | false =>
      have appended_eq := @flatten_replacedLines_eq content name (etcConfLine name value) 35 text
      rw [if_neg (by simp [marked]), replacedLines_eq, List.flatten_append, List.flatten_append,
        flatten_fgetsLines, etcConfLine_eq] at appended_eq
      rw [if_neg Bool.false_ne_true, etcConfLine_eq, ← appended_eq, etcConfWritten, writtenValue,
        if_neg (by simp [marked])]
      simp

theorem setEtcConfValue_spec (held : fs.read file = some content) (text : IsText content)
    (isName : IsConfWord name) (isValue : IsConfWord value)
    (succeeds : (setEtcConfValue file name value random fs).1 = 0) :
    (setEtcConfValue file name value random fs).2.read file =
      some (etcConfWritten name value (fgetsLines content)) := by
  have free : fs.read (replacingLinesName file random) = none := by
    by_contra occupied
    have there : fs.fileExists (replacingLinesName file random) = true :=
      Option.isSome_iff_ne_none.mpr occupied
    have present : fs.fileExists file = true := FileSystem.fileExists_iff.mpr ⟨content, held⟩
    simp [setEtcConfValue, isName.nonempty, isValue.nonempty, present, replaceMarkedLinesInFile,
      replaceMarkedLinesInFileInternal, held, there, eacces] at succeeds
  rw [setEtcConfValue_eq held text isName isValue free]
  exact FileSystem.read_write_self

theorem noNul_written (isName : IsConfWord name) (isValue : IsConfWord value)
    (proper : ∀ line ∈ lines, IsTextLine line) :
    0 ∉ etcConfWritten name value lines := by
  have fronts := (isText_flatten (@isTextLine_of_mem_frontLines name lines proper)).noNul
  have backs := (isText_flatten (@isTextLine_of_mem_backLines name lines proper)).noNul
  have whole : 0 ∉ value ++ [10] := by
    rw [List.mem_append, not_or]
    exact ⟨isValue.notMem (by simp), by decide⟩
  have written : 0 ∉ writtenValue name value lines := by
    rw [writtenValue]
    split
    · exact fun mem => whole (List.mem_of_mem_take mem)
    · exact whole
  simp only [etcConfWritten, List.mem_append, List.mem_cons, not_or]
  exact ⟨fronts, isName.notMem (by simp), by decide, written, backs⟩

theorem visible_append {front first : ByteString} (plain : 35 ∉ first) (rest : ByteString) :
    visible front (first ++ rest) = first ++ visible front rest := by
  rw [visible, visible]
  split
  · rfl
  · rw [truncateAtFirst, List.takeWhile_append_of_pos, truncateAtFirst]
    intro byte mem
    simpa using ne_of_mem_of_not_mem mem plain

def readBack (name value : ByteString) (lines : List ByteString) : ByteString :=
  firstWord (visible (frontLines name lines).flatten
    (writtenValue name value lines ++ (backLines name lines).flatten))

theorem getStringOption_setEtcConfValue (held : fs.read file = some content) (text : IsText content)
    (isName : IsConfWord name) (isValue : IsConfWord value)
    (succeeds : (setEtcConfValue file name value random fs).1 = 0) :
    getStringOptionFromFile file name 32 35 (setEtcConfValue file name value random fs).2 =
      some (readBack name value (fgetsLines content)) := by
  have proper : ∀ line ∈ fgetsLines content, IsTextLine line := fun _ => text.isTextLine
  have read := setEtcConfValue_spec held text isName isValue succeeds
  have present := FileSystem.fileExists_iff.mpr ⟨_, read⟩
  have unmarked : ∀ line ∈ frontLines name (fgetsLines content), isMarked name 35 line = false := by
    intro line mem
    rcases List.mem_append.mp mem with front | blank
    · simpa using List.mem_takeWhile_imp (p := fun line => !isMarked name 35 line) front
    · split at blank
      · rw [List.mem_singleton.mp blank]
        exact (isKept_newline isName.nonempty (isName.notMem (by simp))).unmarked
      · cases blank
  rw [getStringOptionFromFile, if_pos present, loadStringFromFile, read, Option.map_some,
    ByteString.cString_of_not_mem (noNul_written isName isValue proper)]
  exact getStringOption_of_line isName (isTextLine_of_mem_frontLines proper) unmarked _

/-- The part of the value that fits into the buffer goes on with the text behind the first line that
mentions the name to the same word. -/
def CompletedBehind (name value : ByteString) (lines : List ByteString) : Prop :=
  ∃ rest, removePrefixBlanks (value.take (valueRoom name) ++
      visible (frontLines name lines).flatten (backLines name lines).flatten) = value ++ rest ∧
    ∀ byte ∈ rest.head?, inWord byte = false

theorem IsConfWord.inWord (isValue : IsConfWord value) : ∀ byte ∈ value, inWord byte = true := by
  intro byte mem
  have plain := isValue.plain byte mem
  simp only [List.mem_cons, List.not_mem_nil, or_false, not_or] at plain
  simp [CommonUtils.inWord, plain]

theorem IsConfWord.removePrefixBlanks_append (isValue : IsConfWord value) (rest : ByteString) :
    removePrefixBlanks (value ++ rest) = value ++ rest := by
  rcases List.exists_cons_of_ne_nil isValue.nonempty with ⟨first, others, rfl⟩
  have black : first ≠ 32 := by
    rintro rfl
    exact isValue.notMem (by simp) List.mem_cons_self
  rw [removePrefixBlanks, removePrefix, List.cons_append, List.dropWhile_cons, decide_eq_false black]
  rfl

/-- The value is read back exactly if its line fits into the buffer, or no line mentions the name, or
what is lost of it happens to follow. -/
theorem etcConfValue_readBack_iff (held : fs.read file = some content) (text : IsText content)
    (isName : IsConfWord name) (isValue : IsConfWord value)
    (succeeds : (setEtcConfValue file name value random fs).1 = 0) :
    getStringOptionFromFile file name 32 35 (setEtcConfValue file name value random fs).2 =
        some value ↔
      (etcConfLine name value).length ≤ lineMax ∨
        (∀ line ∈ fgetsLines content, isMarked name 35 line = false) ∨
          CompletedBehind name value (fgetsLines content) := by
  have proper : ∀ line ∈ fgetsLines content, IsTextLine line := fun _ => text.isTextLine
  have noMark : 35 ∉ value := isValue.notMem (by simp)
  have length_eq : (etcConfLine name value).length = name.length + 1 + (value.length + 1) := by
    rw [etcConfLine_eq]
    simp only [List.length_append, List.length_cons, List.length_nil]
    omega
  -- A value that is written with its end is read back.
  have ended : writtenValue name value (fgetsLines content) = value ++ [10] →
      readBack name value (fgetsLines content) = value := by
    intro written
    rw [readBack, written, List.append_assoc, visible_append noMark, firstWord_eq_iff isValue.inWord]
    refine ⟨visible (frontLines name (fgetsLines content)).flatten
      ([10] ++ (backLines name (fgetsLines content)).flatten), ?_, ?_⟩
    · exact isValue.removePrefixBlanks_append _
    · rw [visible_append (by decide)]
      intro byte head
      simp only [List.cons_append, List.head?_cons, Option.mem_def, Option.some.injEq] at head
      rw [← head]
      rfl
  rw [getStringOption_setEtcConfValue held text isName isValue succeeds, Option.some.injEq]
  cases marked : (fgetsLines content).any (isMarked name 35) with
  | false =>
      have unmarked : ∀ line ∈ fgetsLines content, isMarked name 35 line = false := by
        simpa using marked
      have whole : writtenValue name value (fgetsLines content) = value ++ [10] := by
        rw [writtenValue, if_neg (by simp [marked])]
      exact iff_of_true (ended whole) (.inr (.inl unmarked))
  | true =>
      have short := length_lt_of_marked (isName.notMem (by simp)) proper marked
      have notAll : ¬∀ line ∈ fgetsLines content, isMarked name 35 line = false := by
        intro unmarked
        rcases List.any_eq_true.mp marked with ⟨line, mem, isMarked_line⟩
        rw [unmarked line mem] at isMarked_line
        cases isMarked_line
      have written : writtenValue name value (fgetsLines content) =
          (value ++ [10]).take (valueRoom name) := by
        rw [writtenValue, if_pos marked]
      by_cases fits : (etcConfLine name value).length ≤ lineMax
      · have all : (value ++ [10]).take (valueRoom name) = value ++ [10] := by
          apply List.take_of_length_le
          rw [List.length_append, List.length_singleton, valueRoom]
          omega
        exact iff_of_true (ended (written.trans all)) (.inl fits)
      · have cut : (value ++ [10]).take (valueRoom name) = value.take (valueRoom name) := by
          apply List.take_append_of_le_length
          rw [valueRoom]
          omega
        have noMark' : 35 ∉ value.take (valueRoom name) := fun mem =>
          noMark (List.mem_of_mem_take mem)
        rw [or_iff_right fits, or_iff_right notAll, readBack, written, cut, visible_append noMark',
          firstWord_eq_iff isValue.inWord, CompletedBehind]

/-- A machine with a file that has a setting for `a`, and another one behind it. -/
def settingsFile : FileSystem :=
  oneFile (bytes "/etc/a.conf") (bytes "a b\nc d\n")

theorem etcConfValue_readBack_iff_settingsFile :
    getStringOptionFromFile (bytes "/etc/a.conf") (bytes "a") 32 35
        (setEtcConfValue (bytes "/etc/a.conf") (bytes "a") (bytes "e") 7 settingsFile).2 =
        some (bytes "e") ↔
      (etcConfLine (bytes "a") (bytes "e")).length ≤ lineMax ∨
        (∀ line ∈ fgetsLines (bytes "a b\nc d\n"), isMarked (bytes "a") 35 line = false) ∨
          CompletedBehind (bytes "a") (bytes "e") (fgetsLines (bytes "a b\nc d\n")) :=
  etcConfValue_readBack_iff FileSystem.read_write_self ⟨by decide, by decide⟩
    ⟨by decide, by decide⟩ ⟨by decide, by decide⟩ (by decide +kernel)

/-- A value of 2046 bytes fills the buffer behind a name of one byte, and goes on with the next line. -/
theorem long_value_joined :
    ¬∀ (fs : FileSystem) (file name value content : ByteString) (random : ℕ),
      fs.read file = some content → content ≠ [] → IsText content → IsConfWord name →
      IsConfWord value → (setEtcConfValue file name value random fs).1 = 0 →
      getStringOptionFromFile file name 32 35 (setEtcConfValue file name value random fs).2 =
        some value := by
  intro all
  obtain ⟨value, length_eq, letters⟩ :
      ∃ value : ByteString, value.length = 2046 ∧ ∀ byte ∈ value, byte = 98 :=
    ⟨List.replicate 2046 98, List.length_replicate, fun _ => List.eq_of_mem_replicate⟩
  have held : settingsFile.read (bytes "/etc/a.conf") = some (bytes "a b\nc d\n") :=
    FileSystem.read_write_self
  have text : IsText (bytes "a b\nc d\n") := ⟨by decide, by decide⟩
  have isName : IsConfWord (bytes "a") := ⟨by decide, by decide⟩
  have isValue : IsConfWord value := by
    refine ⟨List.ne_nil_of_length_pos (by omega), fun byte mem => ?_⟩
    rw [letters byte mem]
    decide
  have free : settingsFile.read (replacingLinesName (bytes "/etc/a.conf") 7) = none := by
    decide +kernel
  have succeeds : (setEtcConfValue (bytes "/etc/a.conf") (bytes "a") value 7 settingsFile).1 = 0 := by
    rw [setEtcConfValue_eq held text isName isValue free]
  have same := all settingsFile _ _ value _ 7 held (by decide) text isName isValue succeeds
  have lines : frontLines (bytes "a") (fgetsLines (bytes "a b\nc d\n")) = [] ∧
      backLines (bytes "a") (fgetsLines (bytes "a b\nc d\n")) = [bytes "c d\n"] ∧
        (fgetsLines (bytes "a b\nc d\n")).any (isMarked (bytes "a") 35) = true ∧
          valueRoom (bytes "a") = 2046 := by
    decide +kernel
  have written : writtenValue (bytes "a") value (fgetsLines (bytes "a b\nc d\n")) = value := by
    rw [writtenValue, if_pos lines.2.2.1, lines.2.2.2, List.take_append_of_le_length length_eq.ge,
      List.take_of_length_le length_eq.le]
  rw [getStringOption_setEtcConfValue held text isName isValue succeeds, Option.some.injEq, readBack,
    written, lines.1, lines.2.1, visible_append (isValue.notMem (by simp)),
    firstWord_eq_iff isValue.inWord, isValue.removePrefixBlanks_append] at same
  rcases same with ⟨rest, rest_eq, ends⟩
  rw [← List.append_cancel_left rest_eq] at ends
  revert ends
  decide

end Writing

section Others

variable {fs : FileSystem} {file name value content line : ByteString} {random : ℕ}
  {lines : List ByteString}

def isConfBlank (byte : UInt8) : Bool :=
  byte = 32 || byte = 9

/-- The first word of a line, with blanks around it. -/
def lineKey (line : ByteString) : ByteString :=
  (line.dropWhile isConfBlank).takeWhile fun byte => !isConfBlank byte && byte ≠ 10

/-- A line with another key that is not commented out. -/
def isOtherSetting (name line : ByteString) : Bool :=
  (lineKey line).head? ≠ some 35 && lineKey line ≠ name

theorem lineKey_of_name (isName : IsConfWord name) (untabbed : 9 ∉ name) (text : ByteString) :
    lineKey (name ++ 32 :: text) = name := by
  have black : ∀ byte ∈ name, (!isConfBlank byte && decide (byte ≠ 10)) = true := by
    intro byte mem
    have plain := isName.plain byte mem
    simp only [List.mem_cons, List.not_mem_nil, or_false, not_or] at plain
    have tab : byte ≠ 9 := ne_of_mem_of_not_mem mem untabbed
    simp [isConfBlank, plain, tab]
  have starts : (name ++ 32 :: text).dropWhile isConfBlank = name ++ 32 :: text := by
    rcases List.exists_cons_of_ne_nil isName.nonempty with ⟨first, others, rfl⟩
    have first_black := black first List.mem_cons_self
    rw [Bool.and_eq_true, Bool.not_eq_true'] at first_black
    rw [List.cons_append, List.dropWhile_cons, first_black.1]
    rfl
  rw [lineKey, starts, List.takeWhile_append_of_pos black, List.takeWhile_cons_of_neg (by decide),
    List.append_nil]

theorem isOtherSetting_own (isName : IsConfWord name) (untabbed : 9 ∉ name) (text : ByteString) :
    isOtherSetting name (name ++ 32 :: text) = false := by
  simp [isOtherSetting, lineKey_of_name isName untabbed]

theorem isMarked_of_isOtherSetting (other : isOtherSetting name line = true) :
    isMarked name 35 line = decide (name <:+: line) := by
  have uncommented : line.head? ≠ some 35 := by
    intro commented
    rcases List.head?_eq_some_iff.mp commented with ⟨rest, rfl⟩
    have starts : (lineKey (35 :: rest)).head? = some 35 := by
      rw [lineKey, List.dropWhile_cons_of_neg (by decide), List.takeWhile_cons_of_pos (by decide)]
      rfl
    simp [isOtherSetting, starts] at other
  simp [isMarked, uncommented]

theorem textLines_etcConfWritten (isName : IsConfWord name) (isValue : IsConfWord value)
    (proper : ∀ line ∈ lines, IsTextLine line) :
    textLines (etcConfWritten name value lines) = frontLines name lines ++
      if writtenValue name value lines = value ++ [10] then
        etcConfLine name value :: backLines name lines
      else joinedLines (name ++ 32 :: writtenValue name value lines) (backLines name lines) := by
  have fronts := @isTextLine_of_mem_frontLines name lines proper
  have backs := @isTextLine_of_mem_backLines name lines proper
  have newline : 10 ∉ name ∧ 10 ∉ value := ⟨isName.notMem (by simp), isValue.notMem (by simp)⟩
  split
  next whole =>
    have text_eq : etcConfWritten name value lines =
        (frontLines name lines ++ etcConfLine name value :: backLines name lines).flatten := by
      rw [etcConfWritten, whole, etcConfLine_eq]
      simp
    rw [text_eq, textLines_flatten]
    intro line mem
    rcases List.mem_append.mp mem with front | rest
    · exact (fronts line front).closed
    · rcases List.mem_cons.mp rest with rfl | back
      · exact ⟨name ++ 32 :: value, by simp [etcConfLine_eq], by simp [newline]⟩
      · exact (backs line back).closed
  next cut =>
    have plain : 10 ∉ name ++ 32 :: writtenValue name value lines := by
      have inValue : 10 ∉ writtenValue name value lines := by
        rw [writtenValue] at cut ⊢
        split at cut
        next marked =>
          have short : valueRoom name ≤ value.length := by
            by_contra long
            rw [List.take_of_length_le (by rw [List.length_append, List.length_singleton]; omega)]
              at cut
            exact cut rfl
          rw [if_pos marked, List.take_append_of_le_length short]
          exact fun mem => newline.2 (List.mem_of_mem_take mem)
        · exact absurd rfl cut
      simp [newline, inValue]
    have text_eq : etcConfWritten name value lines = (frontLines name lines).flatten ++
        (name ++ 32 :: writtenValue name value lines) ++ (backLines name lines).flatten := by
      rw [etcConfWritten]
      simp
    rw [text_eq, textLines_joined fronts backs (by simp) plain]

/-- Other settings are all kept exactly if none of them mentions the name, and the new line fits into
the buffer or is not joined with one of them. -/
theorem otherSettings_kept_iff (held : fs.read file = some content) (text : IsText content)
    (isName : IsConfWord name) (untabbed : 9 ∉ name) (isValue : IsConfWord value)
    (succeeds : (setEtcConfValue file name value random fs).1 = 0) :
    ∃ after, (setEtcConfValue file name value random fs).2.read file = some after ∧
      (((textLines content).filter (isOtherSetting name)).Sublist (textLines after) ↔
        (∀ line ∈ textLines content, isOtherSetting name line = true → ¬name <:+: line) ∧
          ((etcConfLine name value).length ≤ lineMax ∨
            ∀ line rest, backLines name (textLines content) = line :: rest →
              isOtherSetting name line = false)) := by
  refine ⟨_, setEtcConfValue_spec held text isName isValue succeeds, ?_⟩
  have proper : ∀ line ∈ fgetsLines content, IsTextLine line := fun _ => text.isTextLine
  rw [textLines_etcConfWritten isName isValue proper, ← fgetsLines_eq text]
  have mentions : (∀ line ∈ fgetsLines content, isOtherSetting name line = true →
      isMarked name 35 line = false) ↔
        ∀ line ∈ fgetsLines content, isOtherSetting name line = true → ¬name <:+: line := by
    refine forall_congr' fun line => forall_congr' fun _ => forall_congr' fun other => ?_
    rw [isMarked_of_isOtherSetting other, decide_eq_false_iff_not]
  have own (text : ByteString) : isOtherSetting name (name ++ 32 :: text) = false :=
    isOtherSetting_own isName untabbed text
  have length_eq : (etcConfLine name value).length = name.length + 1 + (value.length + 1) := by
    rw [etcConfLine_eq]
    simp only [List.length_append, List.length_cons, List.length_nil]
    omega
  split
  next whole =>
    rw [sublist_replaced_iff (by rw [etcConfLine_eq]; exact own _), mentions]
    refine (and_iff_left ?_).symm
    cases marked : (fgetsLines content).any (isMarked name 35) with
    | true =>
        left
        have short := length_lt_of_marked (isName.notMem (by simp)) proper marked
        rw [writtenValue, if_pos marked, List.take_eq_self_iff, List.length_append,
          List.length_singleton, valueRoom] at whole
        omega
    | false =>
        right
        intro line rest behind
        rw [backLines, dropWhile_of_unmarked marked] at behind
        cases behind
  next cut =>
    rw [sublist_joined_iff (fun line => by rw [List.append_assoc, List.cons_append]; exact own _),
      mentions]
    have long : ¬(etcConfLine name value).length ≤ lineMax := by
      intro fits
      apply cut
      rw [writtenValue]
      split
      · apply List.take_of_length_le
        rw [List.length_append, List.length_singleton, valueRoom]
        omega
      · rfl
    rw [or_iff_right long]

theorem otherSettings_kept_iff_settingsFile :
    ∃ after, (setEtcConfValue (bytes "/etc/a.conf") (bytes "a") (bytes "e") 7 settingsFile).2.read
        (bytes "/etc/a.conf") = some after ∧
      (((textLines (bytes "a b\nc d\n")).filter (isOtherSetting (bytes "a"))).Sublist
          (textLines after) ↔
        (∀ line ∈ textLines (bytes "a b\nc d\n"), isOtherSetting (bytes "a") line = true →
            ¬bytes "a" <:+: line) ∧
          ((etcConfLine (bytes "a") (bytes "e")).length ≤ lineMax ∨
            ∀ line rest, backLines (bytes "a") (textLines (bytes "a b\nc d\n")) = line :: rest →
              isOtherSetting (bytes "a") line = false)) :=
  otherSettings_kept_iff FileSystem.read_write_self ⟨by decide, by decide⟩ ⟨by decide, by decide⟩
    (by decide) ⟨by decide, by decide⟩ (by decide +kernel)

/-- A setting whose name has the other name in it is replaced. -/
theorem longer_name_replaced :
    ¬∀ (fs : FileSystem) (file name value content after : ByteString) (random : ℕ),
      fs.read file = some content → content ≠ [] → IsText content → IsConfWord name → 9 ∉ name →
      IsConfWord value → (setEtcConfValue file name value random fs).1 = 0 →
      (setEtcConfValue file name value random fs).2.read file = some after →
      ((textLines content).filter (isOtherSetting name)).Sublist (textLines after) := by
  intro all
  have kept := all (oneFile (bytes "/etc/a.conf") (bytes "cab d\n")) (bytes "/etc/a.conf") (bytes "a")
    (bytes "e") _ (bytes "a e\n") 7 FileSystem.read_write_self (by decide) ⟨by decide, by decide⟩
    ⟨by decide, by decide⟩ (by decide) ⟨by decide, by decide⟩ (by decide +kernel) (by decide +kernel)
  revert kept
  decide +kernel

end Others

end OsConfig.CommonUtils
