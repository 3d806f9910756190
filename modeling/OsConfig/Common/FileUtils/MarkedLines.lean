import OsConfig.Common.FileUtils.Appending
import OsConfig.Library.Chunks

/-!
# Replacing marked lines

A line is marked if it contains the marker and is not commented out. The first
marked line is replaced by the new one and the others are removed; if there is
none, the new line is appended. The lines go to a temporary file that must not
exist and is moved over the file at the end.
-/

namespace OsConfig.CommonUtils

/-- `sysconf(_SC_LINE_MAX)` -/
def lineMax : ℕ := 2048

/-- The lines that `fgets` reads with a buffer for `lineMax` bytes and a NUL. -/
def fgetsLines (content : ByteString) : List ByteString :=
  Chunks.chunks 10 lineMax content

/-- A text file: no NUL, and lines that end in newlines and are no longer than `lineMax`. -/
structure IsText (content : ByteString) : Prop where
  noNul : 0 ∉ content
  terminated : Chunks.Terminated 10 lineMax content

/-- Writes one line, unless it is dropped. The flag says that a line has been replaced. -/
def replaceMarkedLine (marker : ByteString) (newline : Option ByteString)
    (commentCharacter : UInt8) (replacedLine : Bool) (line : ByteString) : Bool × ByteString :=
  if marker <:+: line then
    let first := line.head?.getD 0
    let newline := newline.getD []
    if commentCharacter ≠ first ∧ 10 ≠ first ∧ 1 < newline.length then
      if replacedLine then (true, []) else (true, newline.take lineMax)
    else if commentCharacter = first then (replacedLine, line)
    else (replacedLine, [])
  else (replacedLine, line)

def replaceMarkedLines (marker : ByteString) (newline : Option ByteString)
    (commentCharacter : UInt8) : Bool → List ByteString → Bool × ByteString
  | replacedLine, [] => (replacedLine, [])
  | replacedLine, line :: rest =>
      let (replacedLine, written) :=
        replaceMarkedLine marker newline commentCharacter replacedLine line.cString
      let (replacedLine, others) :=
        replaceMarkedLines marker newline commentCharacter replacedLine rest
      (replacedLine, written ++ others)

/-- The temporary file of `ReplaceMarkedLinesInFile`, named with a random number. -/
def replacingLinesName (fileName : ByteString) (random : ℕ) : ByteString :=
  dirname fileName ++ bytes "/~OSConfig.ReplacingLines" ++ toDecimal random

theorem basename_replacingLinesName (fileName : ByteString) (random : ℕ) :
    basename (replacingLinesName fileName random) =
      bytes "~OSConfig.ReplacingLines" ++ toDecimal random := by
  have slash : bytes "/~OSConfig.ReplacingLines" = 47 :: bytes "~OSConfig.ReplacingLines" := by
    decide
  have plain : 47 ∉ bytes "~OSConfig.ReplacingLines" ++ toDecimal random := by
    rw [List.mem_append, not_or]
    exact ⟨by decide, slash_notMem_toDecimal random⟩
  rw [replacingLinesName, slash, List.append_assoc, List.cons_append, basename_append plain]

theorem entry_replacingLinesName_ne {fs : FileSystem} {path : ByteString}
    (named : (basename path).head? ≠ some 126) (fileName : ByteString) (random : ℕ) :
    fs.entry (replacingLinesName fileName random) ≠ fs.entry path := by
  intro same
  rw [FileSystem.entry, FileSystem.entry, Prod.mk.injEq] at same
  have tilde : bytes "~OSConfig.ReplacingLines" ≠ [] ∧
      (bytes "~OSConfig.ReplacingLines").head? = some 126 := by
    rw [bytes_ofList]
    decide
  rw [← same.2, basename_replacingLinesName, List.head?_append_of_ne_nil _ tilde.1, tilde.2] at named
  exact named rfl

/-- `ReplaceMarkedLinesInFileInternal`, with the number that `rand` returns. -/
def replaceMarkedLinesInFileInternal (fileName marker : ByteString) (newline : Option ByteString)
    (commentCharacter : UInt8) (prepend : Bool) (random : ℕ) (fs : FileSystem) :
    ℤ × FileSystem :=
  match fs.read fileName with
  | none => (0, fs)
  | some content =>
      let temp := replacingLinesName fileName random
      -- The temporary file is opened with O_EXCL.
      if fs.fileExists temp then (eacces, fs)
      else
        let prepended := if prepend then newline.getD [] else []
        let (replacedLine, written) :=
          replaceMarkedLines marker newline commentCharacter (prepended ≠ []) (fgetsLines content)
        let fs := fs.write temp (prepended ++ written)
        let fs :=
          match newline with
          | some newline =>
              if !replacedLine && !prepend then (appendPayloadToFile temp newline fs).2 else fs
          | none => fs
        (0, (fs.rename temp fileName).remove temp)

def replaceMarkedLinesInFile (fileName marker : ByteString) (newline : Option ByteString)
    (commentCharacter : UInt8) (random : ℕ) (fs : FileSystem) : ℤ × FileSystem :=
  replaceMarkedLinesInFileInternal fileName marker newline commentCharacter false random fs

def replaceMarkedLinesInFilePrepend (fileName marker : ByteString) (newline : Option ByteString)
    (commentCharacter : UInt8) (random : ℕ) (fs : FileSystem) : ℤ × FileSystem :=
  replaceMarkedLinesInFileInternal fileName marker newline commentCharacter true random fs

section Lines

variable {content line : ByteString}

theorem flatten_fgetsLines (content : ByteString) : (fgetsLines content).flatten = content :=
  Chunks.flatten_chunks content

/-- A line of a text file. -/
structure IsTextLine (line : ByteString) : Prop where
  noNul : 0 ∉ line
  proper : Chunks.IsLine 10 lineMax line

theorem IsText.isTextLine (text : IsText content) (mem : line ∈ fgetsLines content) :
    IsTextLine line := by
  constructor
  · intro nul
    apply text.noNul
    rw [← flatten_fgetsLines content]
    exact List.mem_flatten_of_mem mem nul
  · exact Chunks.isLine_of_mem (by decide) text.terminated mem

theorem isText_flatten {lines : List ByteString} (proper : ∀ line ∈ lines, IsTextLine line) :
    IsText lines.flatten := by
  constructor
  · intro nul
    rcases List.mem_flatten.mp nul with ⟨line, mem, inside⟩
    exact (proper line mem).noNul inside
  · exact Chunks.terminated_flatten fun line mem => (proper line mem).proper

theorem fgetsLines_flatten {lines : List ByteString} (proper : ∀ line ∈ lines, IsTextLine line) :
    fgetsLines lines.flatten = lines :=
  Chunks.chunks_flatten fun line mem => (proper line mem).proper

/-- What the writing of a line relies on. It also holds of a last line without a newline. -/
structure IsPiece (line : ByteString) : Prop where
  noNul : 0 ∉ line
  nonempty : line ≠ []
  blank : line.head? = some 10 → line = [10]

theorem IsTextLine.isPiece (proper : IsTextLine line) : IsPiece line := by
  refine ⟨proper.noNul, ?_, ?_⟩
  · rcases proper.proper with ⟨body, rfl, -, -⟩
    simp
  · intro head
    rcases proper.proper with ⟨body, rfl, plain, -⟩
    cases body with
    | nil => rfl
    | cons first others =>
        have first_eq : first = 10 := by simpa using head
        simp [first_eq] at plain

theorem IsText.map_cString (text : IsText content) :
    (fgetsLines content).map ByteString.cString = fgetsLines content := by
  have same : ∀ line ∈ fgetsLines content, line.cString = line := fun line mem =>
    ByteString.cString_of_not_mem (text.isTextLine mem).noNul
  rw [List.map_congr_left same, List.map_id']

theorem IsTextLine.isText (proper : IsTextLine line) : IsText line := by
  have alone : ∀ other ∈ [line], IsTextLine other := by simpa using proper
  simpa using isText_flatten alone

theorem IsTextLine.fgetsLines_eq (proper : IsTextLine line) : fgetsLines line = [line] := by
  have alone : ∀ other ∈ [line], IsTextLine other := by simpa using proper
  simpa using fgetsLines_flatten alone

end Lines

section Replacing

variable (marker newline : ByteString) (comment : UInt8)

/-- Whether a line contains the marker and is not commented out. -/
def isMarked (line : ByteString) : Bool :=
  marker <:+: line && line.head? ≠ some comment

def replacedLines (lines : List ByteString) : List ByteString :=
  lines.takeWhile (fun line => !isMarked marker comment line) ++
    (if lines = [] then [[10]] else []) ++ fgetsLines newline ++
      ((lines.dropWhile fun line => !isMarked marker comment line).tail.filter fun line =>
        !isMarked marker comment line)

variable {marker newline comment} {line : ByteString} {lines : List ByteString}

theorem replaceMarkedLine_eq (replacedLine : Bool) (some_marker : marker ≠ [])
    (plain : 10 ∉ marker) (long : 1 < newline.length) (piece : IsPiece line) :
    replaceMarkedLine marker (some newline) comment replacedLine line =
      if isMarked marker comment line then
        (true, if replacedLine then [] else newline.take lineMax)
      else (replacedLine, line) := by
  rcases List.exists_cons_of_ne_nil piece.nonempty with ⟨first, others, line_eq⟩
  by_cases occurs : marker <:+: line
  · have started : line.head? = some first := by simp [line_eq]
    have written : first ≠ 10 := by
      rintro rfl
      have blank := piece.blank started
      rcases List.exists_mem_of_ne_nil marker some_marker with ⟨byte, mem⟩
      have newline_byte : byte = 10 := by simpa [blank] using occurs.subset mem
      exact plain (newline_byte ▸ mem)
    by_cases commented : comment = first
    · simp [replaceMarkedLine, isMarked, occurs, started, commented]
    · have marked : isMarked marker comment line = true := by
        simpa [isMarked, occurs, started] using fun equal : first = comment => commented equal.symm
      cases replacedLine with
      | true => simp [replaceMarkedLine, occurs, started, commented, Ne.symm written, long, marked]
      | false =>
          simp [replaceMarkedLine, occurs, started, commented, Ne.symm written, long, marked]
  · simp [replaceMarkedLine, isMarked, occurs]

theorem replaceMarkedLines_replaced (some_marker : marker ≠ []) (plain : 10 ∉ marker)
    (long : 1 < newline.length) (pieces : ∀ line ∈ lines, IsPiece line) :
    replaceMarkedLines marker (some newline) comment true lines =
      (true, (lines.filter fun line => !isMarked marker comment line).flatten) := by
  induction lines with
  | nil => rfl
  | cons line rest ih =>
      have here := pieces line List.mem_cons_self
      rw [replaceMarkedLines, ByteString.cString_of_not_mem here.noNul,
        replaceMarkedLine_eq true some_marker plain long here]
      cases marked : isMarked marker comment line with
      | true => simp [marked, ih fun other mem => pieces other (List.mem_cons_of_mem _ mem)]
      | false => simp [marked, ih fun other mem => pieces other (List.mem_cons_of_mem _ mem)]

theorem replaceMarkedLines_eq (some_marker : marker ≠ []) (plain : 10 ∉ marker)
    (long : 1 < newline.length) (pieces : ∀ line ∈ lines, IsPiece line) :
    replaceMarkedLines marker (some newline) comment false lines =
      (lines.any (isMarked marker comment),
        (lines.takeWhile fun line => !isMarked marker comment line).flatten ++
          (if lines.any (isMarked marker comment) then newline.take lineMax else []) ++
            ((lines.dropWhile fun line => !isMarked marker comment line).tail.filter fun line =>
              !isMarked marker comment line).flatten) := by
  induction lines with
  | nil => rfl
  | cons line rest ih =>
      have here := pieces line List.mem_cons_self
      rw [replaceMarkedLines, ByteString.cString_of_not_mem here.noNul,
        replaceMarkedLine_eq false some_marker plain long here]
      have others : ∀ line ∈ rest, IsPiece line :=
        fun other mem => pieces other (List.mem_cons_of_mem _ mem)
      cases marked : isMarked marker comment line with
      | true =>
          simp [marked, replaceMarkedLines_replaced some_marker plain long others]
      | false => simp [marked, ih others]

theorem takeWhile_of_unmarked (unmarked : lines.any (isMarked marker comment) = false) :
    (lines.takeWhile fun line => !isMarked marker comment line) = lines := by
  rw [List.takeWhile_eq_self_iff]
  simpa using unmarked

theorem dropWhile_of_unmarked (unmarked : lines.any (isMarked marker comment) = false) :
    (lines.dropWhile fun line => !isMarked marker comment line) = [] := by
  rw [List.dropWhile_eq_nil_iff]
  simpa using unmarked

theorem isTextLine_of_mem_replacedLines (text : IsText newline)
    (proper : ∀ line ∈ lines, IsTextLine line)
    (mem : line ∈ replacedLines marker newline comment lines) : IsTextLine line := by
  rw [replacedLines, List.mem_append, List.mem_append, List.mem_append] at mem
  rcases mem with ((before | padded) | new) | after
  · exact proper line (List.takeWhile_subset _ before)
  · split at padded
    · rw [List.mem_singleton.mp padded]
      exact ⟨by decide, ⟨[], rfl, by decide, by decide⟩⟩
    · cases padded
  · exact text.isTextLine new
  · have inside := List.mem_of_mem_tail (List.mem_of_mem_filter after)
    exact proper line ((List.dropWhile_suffix _).subset inside)

theorem isText_replacedLines {content : ByteString} (text : IsText content)
    (newText : IsText newline) :
    IsText (replacedLines marker newline comment (fgetsLines content)).flatten :=
  isText_flatten fun _ mem =>
    isTextLine_of_mem_replacedLines newText (fun _ => text.isTextLine) mem

theorem fgetsLines_replacedLines {content : ByteString} (text : IsText content)
    (newText : IsText newline) :
    fgetsLines (replacedLines marker newline comment (fgetsLines content)).flatten =
      replacedLines marker newline comment (fgetsLines content) :=
  fgetsLines_flatten fun _ mem =>
    isTextLine_of_mem_replacedLines newText (fun _ => text.isTextLine) mem

/-- What remains of a text are its unmarked lines; the new lines are there. -/
theorem mem_replacedLines : line ∈ replacedLines marker newline comment lines ↔
    line ∈ lines ∧ isMarked marker comment line = false ∨ line ∈ fgetsLines newline ∨
      lines = [] ∧ line = [10] := by
  rw [replacedLines, List.mem_append, List.mem_append, List.mem_append]
  have padded : (line ∈ if lines = [] then [[(10 : UInt8)]] else []) ↔ lines = [] ∧ line = [10] := by
    split <;> simp [*]
  have kept : line ∈ (lines.takeWhile fun line => !isMarked marker comment line) ∨
      line ∈ ((lines.dropWhile fun line => !isMarked marker comment line).tail.filter fun line =>
        !isMarked marker comment line) ↔ line ∈ lines ∧ isMarked marker comment line = false := by
    induction lines with
    | nil => simp
    | cons first rest ih =>
        cases marked : isMarked marker comment first with
        | true =>
            have others : ∀ other, other = first → isMarked marker comment other ≠ false := by
              rintro other rfl
              simp [marked]
            simp only [List.takeWhile_cons, List.dropWhile_cons, marked, Bool.not_true,
              Bool.false_eq_true, if_false, List.not_mem_nil, false_or, List.tail_cons,
              List.mem_filter, Bool.not_eq_true', List.mem_cons]
            constructor
            · rintro ⟨mem, unmarked⟩
              exact ⟨.inr mem, unmarked⟩
            · rintro ⟨here | mem, unmarked⟩
              · exact absurd unmarked (others line here)
              · exact ⟨mem, unmarked⟩
        | false =>
            have step := ih (by split <;> simp [*])
            simp only [List.takeWhile_cons, List.dropWhile_cons, marked, Bool.not_false, if_true,
              List.mem_cons, or_assoc, step]
            constructor
            · rintro (rfl | ⟨mem, unmarked⟩)
              · exact ⟨.inl rfl, marked⟩
              · exact ⟨.inr mem, unmarked⟩
            · rintro ⟨here | mem, unmarked⟩
              · exact .inl here
              · exact .inr ⟨mem, unmarked⟩
  rw [padded, ← kept]
  simp only [or_assoc, or_comm, or_left_comm]

end Replacing

section File

variable {fs : FileSystem} {fileName content marker newline : ByteString} {comment : UInt8}
  {random : ℕ}

theorem getLast_flatten {lines : List ByteString} (proper : ∀ line ∈ lines, IsTextLine line)
    (some_lines : lines ≠ []) : lines.flatten.getLast? = some 10 := by
  rcases List.eq_nil_or_concat lines with rfl | ⟨before, last, rfl⟩
  · exact absurd rfl some_lines
  · rcases (proper last (by simp)).proper with ⟨body, rfl, -, -⟩
    simp

theorem replaceMarkedLinesInFile_cut (held : fs.read fileName = some content)
    (pieces : ∀ line ∈ fgetsLines content, IsPiece line)
    (free : fs.read (replacingLinesName fileName random) = none) (some_marker : marker ≠ [])
    (plain : 10 ∉ marker) (long : 1 < newline.length) :
    replaceMarkedLinesInFile fileName marker (some newline) comment random fs =
      (0, fs.write fileName
        (if (fgetsLines content).any (isMarked marker comment) then
          ((fgetsLines content).takeWhile fun line => !isMarked marker comment line).flatten ++
            newline.take lineMax ++ (((fgetsLines content).dropWhile fun line =>
              !isMarked marker comment line).tail.filter fun line =>
                !isMarked marker comment line).flatten
        else appended content newline)) := by
  have apart : fs.entry (replacingLinesName fileName random) ≠ fs.entry fileName := by
    intro same
    rw [FileSystem.read_congr same, held] at free
    cases free
  have absent : fs.fileExists (replacingLinesName fileName random) = false := by
    simp [FileSystem.fileExists, free]
  simp only [replaceMarkedLinesInFile, replaceMarkedLinesInFileInternal, held, absent,
    replaceMarkedLines_eq some_marker plain long pieces, Option.getD_some, Bool.false_eq_true,
    if_false, ne_eq, not_true_eq_false, decide_false, List.nil_append, Bool.not_false, Bool.and_true]
  cases marked : (fgetsLines content).any (isMarked marker comment) with
  | true =>
      simp only [Bool.not_true, Bool.false_eq_true, if_false, if_true]
      rw [FileSystem.write_rename_remove apart free]
  | false =>
      have all := takeWhile_of_unmarked marked
      have rest := dropWhile_of_unmarked marked
      have some_newline : newline ≠ [] := by
        rintro rfl
        simp at long
      simp only [Bool.not_false, if_true, Bool.false_eq_true, if_false, all, rest, List.append_nil,
        List.tail_nil, List.filter_nil, List.flatten_nil, flatten_fgetsLines]
      rw [appendPayloadToFile_eq FileSystem.read_write_self some_newline, FileSystem.write_write,
        FileSystem.write_rename_remove apart free]

theorem replaceMarkedLinesInFile_pieces (held : fs.read fileName = some content)
    (pieces : ∀ line ∈ fgetsLines content, IsPiece line)
    (free : fs.read (replacingLinesName fileName random) = none) (some_marker : marker ≠ [])
    (plain : 10 ∉ marker) (long : 1 < newline.length) (short : newline.length ≤ lineMax) :
    replaceMarkedLinesInFile fileName marker (some newline) comment random fs =
      (0, fs.write fileName
        (if (fgetsLines content).any (isMarked marker comment) then
          ((fgetsLines content).takeWhile fun line => !isMarked marker comment line).flatten ++
            newline ++ (((fgetsLines content).dropWhile fun line =>
              !isMarked marker comment line).tail.filter fun line =>
                !isMarked marker comment line).flatten
        else appended content newline)) := by
  rw [replaceMarkedLinesInFile_cut held pieces free some_marker plain long,
    List.take_of_length_le short]

/-- The new line goes in front of all unmarked lines. -/
theorem replaceMarkedLinesInFilePrepend_pieces (held : fs.read fileName = some content)
    (pieces : ∀ line ∈ fgetsLines content, IsPiece line)
    (free : fs.read (replacingLinesName fileName random) = none) (some_marker : marker ≠ [])
    (plain : 10 ∉ marker) (long : 1 < newline.length) :
    replaceMarkedLinesInFilePrepend fileName marker (some newline) comment random fs =
      (0, fs.write fileName (newline ++
        ((fgetsLines content).filter fun line => !isMarked marker comment line).flatten)) := by
  have apart : fs.entry (replacingLinesName fileName random) ≠ fs.entry fileName := by
    intro same
    rw [FileSystem.read_congr same, held] at free
    cases free
  have absent : fs.fileExists (replacingLinesName fileName random) = false := by
    simp [FileSystem.fileExists, free]
  have some_newline : newline ≠ [] := by
    rintro rfl
    simp at long
  simp [replaceMarkedLinesInFilePrepend, replaceMarkedLinesInFileInternal, held, absent,
    some_newline, replaceMarkedLines_replaced some_marker plain long pieces,
    FileSystem.write_rename_remove apart free]

theorem flatten_replacedLines_eq (text : IsText content) :
    (replacedLines marker newline comment (fgetsLines content)).flatten =
      if (fgetsLines content).any (isMarked marker comment) then
        ((fgetsLines content).takeWhile fun line => !isMarked marker comment line).flatten ++
          newline ++ (((fgetsLines content).dropWhile fun line =>
            !isMarked marker comment line).tail.filter fun line =>
              !isMarked marker comment line).flatten
      else appended content newline := by
  have proper : ∀ line ∈ fgetsLines content, IsTextLine line := fun line => text.isTextLine
  cases marked : (fgetsLines content).any (isMarked marker comment) with
  | true =>
      have some_lines : fgetsLines content ≠ [] := by
        rintro none_there
        simp [none_there] at marked
      simp [replacedLines, some_lines, flatten_fgetsLines]
  | false =>
      have all := takeWhile_of_unmarked marked
      have rest := dropWhile_of_unmarked marked
      by_cases empty : fgetsLines content = []
      · have nothing : content = [] := by
          rw [← flatten_fgetsLines content, empty]
          rfl
        subst nothing
        simp [replacedLines, appended, empty, flatten_fgetsLines]
      · have ended : content.getLast? = some 10 := by
          rw [← flatten_fgetsLines content]
          exact getLast_flatten proper empty
        simp [replacedLines, appended, all, rest, empty, ended, flatten_fgetsLines]

theorem replaceMarkedLinesInFile_eq (held : fs.read fileName = some content) (text : IsText content)
    (free : fs.read (replacingLinesName fileName random) = none) (some_marker : marker ≠ [])
    (plain : 10 ∉ marker) (long : 1 < newline.length) (short : newline.length ≤ lineMax) :
    replaceMarkedLinesInFile fileName marker (some newline) comment random fs =
      (0, fs.write fileName
        (replacedLines marker newline comment (fgetsLines content)).flatten) := by
  have pieces : ∀ line ∈ fgetsLines content, IsPiece line := fun line mem =>
    (text.isTextLine mem).isPiece
  rw [replaceMarkedLinesInFile_pieces held pieces free some_marker plain long short,
    flatten_replacedLines_eq text]

end File

end OsConfig.CommonUtils
