import OsConfig.Common.FileUtils.Editing

/-!
# Edits that fail

The replacement of marked lines on a system that may refuse every request: to
open the file or the temporary file, to read, to write a line, to flush what has
been written, to append, to rename. Of a text whose write fails the first bytes
may have arrived.

Only some of these failures reach the status. Nobody looks at what `fclose`
returns, `fgets` says the same at an error as at the end of the file, and the
result of `AppendPayloadToFile` is only logged.
-/

namespace OsConfig.CommonUtils.Failing

def eperm : ℤ := 1

/-- The requests of an edit that the system refuses. -/
structure Faults where
  /-- `fopen` of the file. -/
  file : Bool
  /-- `open` of the temporary file. -/
  temporary : Bool
  /-- `fdopen` of its descriptor. -/
  stream : Bool
  /-- The number of lines before `fgets` fails, if it does. -/
  read : Option ℕ
  /-- The errors of the calls of `fputs` that fail. -/
  puts : ℕ → Option ℤ
  /-- The flush of the lines in `fclose`. -/
  flush : Bool
  /-- The look at the last byte in `FileEndsInEol`. -/
  ending : Bool
  /-- `SaveToFile` of the missing newline. -/
  eol : Bool
  /-- `SaveToFile` of the payload. -/
  payload : Bool
  /-- The error of `rename`, if it fails. -/
  rename : Option ℤ

/-- How many bytes of a text arrive if its write fails. -/
structure Leftovers where
  lines : ℕ
  eol : ℕ
  payload : ℕ

/-- No request is refused. -/
def Faults.none : Faults :=
  ⟨false, false, false, Option.none, fun _ => Option.none, false, false, false, false, Option.none⟩

def saved (fails : Bool) (arrived : ℕ) (text : ByteString) : ByteString :=
  if fails then text.take arrived else text

/-- The lines that `fgets` reads before it fails. -/
def linesRead (read : Option ℕ) (content : ByteString) : List ByteString :=
  match read with
  | some lines => (fgetsLines content).take lines
  | none => fgetsLines content

/-- `fputs`, with the number of calls and the status that a failing one sets. An empty text is not
written and does not fail. -/
def fputs (puts : ℕ → Option ℤ) (calls : ℕ) (status : ℤ) (text : ByteString) : ℕ × ℤ :=
  if text = [] then (calls, status)
  else
    match puts calls with
    | some errno => (calls + 1, if errno = 0 then eperm else errno)
    | none => (calls + 1, status)

/-- The loop over the lines, which goes on behind a failing `fputs`. -/
def putMarkedLines (puts : ℕ → Option ℤ) (marker : ByteString) (newline : Option ByteString)
    (commentCharacter : UInt8) : ℕ → ℤ → Bool → List ByteString → ℤ × Bool × ByteString
  | _, status, replacedLine, [] => (status, replacedLine, [])
  | calls, status, replacedLine, line :: rest =>
      let (replacedLine, written) :=
        replaceMarkedLine marker newline commentCharacter replacedLine line.cString
      let (calls, status) := fputs puts calls status written
      let (status, replacedLine, others) :=
        putMarkedLines puts marker newline commentCharacter calls status replacedLine rest
      (status, replacedLine, written ++ others)

/-- `SaveToFile` in the mode "a" -/
def saveToFile (fails : Bool) (arrived : ℕ) (fileName payload : ByteString) (fs : FileSystem) :
    Bool × FileSystem :=
  if payload = [] then (false, fs)
  else (!fails, fs.write fileName ((fs.read fileName).getD [] ++ saved fails arrived payload))

def fileEndsInEol (fails : Bool) (fileName : ByteString) (fs : FileSystem) : Bool :=
  !fails && CommonUtils.fileEndsInEol fileName fs

def appendPayloadToFile (faults : Faults) (leftovers : Leftovers) (fileName payload : ByteString)
    (fs : FileSystem) : Bool × FileSystem :=
  if payload = [] then (false, fs)
  else
    let fs :=
      if fs.fileExists fileName && !fileEndsInEol faults.ending fileName fs then
        (saveToFile faults.eol leftovers.eol fileName [10] fs).2
      else fs
    saveToFile faults.payload leftovers.payload fileName payload fs

/-- `RenameFile`, and `RenameFileWithOwnerAndAccess` as far as the status and the contents go -/
def renameFile (error : Option ℤ) (original target : ByteString) (fs : FileSystem) :
    ℤ × FileSystem :=
  if fs.fileExists original then
    match error with
    | some errno => (if errno = 0 then enoent else errno, fs)
    | none => (0, fs.rename original target)
  else (einval, fs)

/-- `ReplaceMarkedLinesInFileInternal`, with the number that `rand` returns. -/
def replaceMarkedLinesInFileInternal (faults : Faults) (leftovers : Leftovers)
    (fileName marker : ByteString) (newline : Option ByteString) (commentCharacter : UInt8)
    (prepend : Bool) (random : ℕ) (fs : FileSystem) : ℤ × FileSystem :=
  match fs.read fileName with
  | none => (0, fs)
  | some content =>
      let temp := replacingLinesName fileName random
      if faults.file then (eacces, fs)
      -- The temporary file is opened with O_EXCL.
      else if faults.temporary || fs.fileExists temp then (eacces, fs)
      else if faults.stream then (eacces, fs.write temp [])
      else
        let prepended := if prepend then newline.getD [] else []
        let (calls, status) := fputs faults.puts 0 0 prepended
        let (status, replacedLine, written) :=
          putMarkedLines faults.puts marker newline commentCharacter calls status (prepended ≠ [])
            (linesRead faults.read content)
        let fs := fs.write temp
          (saved (status ≠ 0 || faults.flush) leftovers.lines (prepended ++ written))
        -- After an error the temporary file stays where it is.
        if status ≠ 0 then (status, fs)
        else
          let fs :=
            match newline with
            | some newline =>
                if !replacedLine && !prepend then
                  (appendPayloadToFile faults leftovers temp newline fs).2
                else fs
            | none => fs
          let (status, fs) := renameFile faults.rename temp fileName fs
          (status, fs.remove temp)

def replaceMarkedLinesInFile (faults : Faults) (leftovers : Leftovers)
    (fileName marker : ByteString) (newline : Option ByteString) (commentCharacter : UInt8)
    (random : ℕ) (fs : FileSystem) : ℤ × FileSystem :=
  replaceMarkedLinesInFileInternal faults leftovers fileName marker newline commentCharacter false
    random fs

section Calls

variable {puts : ℕ → Option ℤ} {marker : ByteString} {newline : Option ByteString}
  {comment : UInt8}

/-- What the loop writes does not depend on the failures. -/
theorem putMarkedLines_written (calls : ℕ) (status : ℤ) (replacedLine : Bool)
    (lines : List ByteString) :
    (putMarkedLines puts marker newline comment calls status replacedLine lines).2 =
      replaceMarkedLines marker newline comment replacedLine lines := by
  induction lines generalizing calls status replacedLine with
  | nil => rfl
  | cons line rest ih =>
      simp only [putMarkedLines, replaceMarkedLines]
      rw [← ih]

/-- What remains of a line that is not replaced. -/
def kept (marker : ByteString) (comment : UInt8) (line : ByteString) : ByteString :=
  if isMarked marker comment line.cString then [] else line.cString

/-- Whether the new line can take the place of a line. -/
def isReplaced (marker newline : ByteString) (comment : UInt8) (line : ByteString) : Bool :=
  1 < newline.length && marker <:+: line.cString && comment ≠ line.cString.head?.getD 0 &&
    10 ≠ line.cString.head?.getD 0

theorem isMarked_of_isReplaced {line replacement : ByteString}
    (replaced : isReplaced marker replacement comment line = true) :
    isMarked marker comment line.cString = true := by
  simp only [isReplaced, Bool.and_eq_true, decide_eq_true_eq] at replaced
  have uncommented : line.cString.head? ≠ some comment := by
    intro head
    rw [head] at replaced
    exact replaced.1.2 rfl
  simp [isMarked, replaced.1.1.2, uncommented]

theorem replaceMarkedLine_cString (replacedLine : Bool) (line : ByteString) :
    replaceMarkedLine marker newline comment replacedLine line.cString =
      if isReplaced marker (newline.getD []) comment line then
        (true, if replacedLine then [] else (newline.getD []).take lineMax)
      else (replacedLine, kept marker comment line) := by
  by_cases occurs : marker <:+: line.cString
  · by_cases commented : comment = line.cString.head?.getD 0
    · have left : kept marker comment line = line.cString := by
        unfold kept
        cases head : line.cString.head? with
        | none =>
            have empty : line.cString = [] := List.head?_eq_none_iff.mp head
            simp [empty]
        | some first =>
            have equal : comment = first := by simpa [head] using commented
            simp [isMarked, head, equal]
      simp [replaceMarkedLine, isReplaced, occurs, ← commented, left]
    · have marked : isMarked marker comment line.cString = true := by
        have uncommented : line.cString.head? ≠ some comment := by
          intro head
          simp [head] at commented
        simp [isMarked, occurs, uncommented]
      by_cases fits : 10 ≠ line.cString.head?.getD 0 ∧ 1 < (newline.getD []).length
      · cases replacedLine with
        | true => simp [replaceMarkedLine, isReplaced, occurs, commented, fits]
        | false => simp [replaceMarkedLine, isReplaced, occurs, commented, fits]
      · have dropped : isReplaced marker (newline.getD []) comment line = false := by
          by_contra replaced
          simp only [Bool.not_eq_false, isReplaced, Bool.and_eq_true, decide_eq_true_eq] at replaced
          exact fits ⟨replaced.2, replaced.1.1.1⟩
        simp [replaceMarkedLine, occurs, commented, fits, dropped, kept, marked]
  · simp [replaceMarkedLine, isReplaced, kept, isMarked, occurs]

theorem kept_of_isReplaced {line replacement : ByteString}
    (replaced : isReplaced marker replacement comment line = true) :
    kept marker comment line = [] := by
  simp [kept, isMarked_of_isReplaced replaced]

theorem take_ne_nil_of_isReplaced {line replacement : ByteString}
    (replaced : isReplaced marker replacement comment line = true) :
    replacement.take lineMax ≠ [] := by
  simp only [isReplaced, Bool.and_eq_true, decide_eq_true_eq] at replaced
  have long : 1 < replacement.length := replaced.1.1.1
  intro empty
  rcases List.take_eq_nil_iff.mp empty with none_there | none_given
  · cases none_there
  · rw [none_given] at long
    cases long

/-- The number of texts that the loop puts: the lines that stay, and the new one. -/
def textsPut (marker newline : ByteString) (comment : UInt8) (replacedLine : Bool)
    (lines : List ByteString) : ℕ :=
  (lines.countP fun line => kept marker comment line ≠ []) +
    if !replacedLine && lines.any (isReplaced marker newline comment) then 1 else 0

theorem textsPut_cons_replaced {line replacement : ByteString} (replacedLine : Bool)
    (rest : List ByteString) (replaced : isReplaced marker replacement comment line = true) :
    textsPut marker replacement comment replacedLine (line :: rest) =
      textsPut marker replacement comment true rest + if replacedLine then 0 else 1 := by
  cases replacedLine <;> simp [textsPut, replaced, kept_of_isReplaced replaced]

theorem textsPut_cons_kept {line replacement : ByteString} (replacedLine : Bool)
    (rest : List ByteString) (stays : isReplaced marker replacement comment line = false) :
    textsPut marker replacement comment replacedLine (line :: rest) =
      textsPut marker replacement comment replacedLine rest +
        if kept marker comment line = [] then 0 else 1 := by
  by_cases nothing : kept marker comment line = []
  · simp [textsPut, stays, nothing]
  · simp [textsPut, stays, nothing, Nat.add_right_comm]

theorem fputs_calls (calls : ℕ) (status : ℤ) (text : ByteString) :
    (fputs puts calls status text).1 = calls + if text = [] then 0 else 1 := by
  unfold fputs
  split
  · rfl
  · split <;> rfl

theorem fputs_status {calls : ℕ} {status : ℤ} {text : ByteString} :
    (fputs puts calls status text).2 = 0 ↔
      status = 0 ∧ (text ≠ [] → puts calls = none) := by
  unfold fputs
  split
  next empty => simp [empty]
  next some_text =>
    cases failure : puts calls with
    | none => simp
    | some errno =>
        have set : (if errno = 0 then eperm else errno) ≠ 0 := by
          split
          · decide
          next other => exact other
        simp [some_text, set]

theorem forall_calls_le {calls more : ℕ} :
    (∀ call ≤ more, puts (calls + call) = none) ↔
      puts calls = none ∧ ∀ call < more, puts (calls + 1 + call) = none := by
  constructor
  · intro served
    refine ⟨served 0 (Nat.zero_le _), fun call fewer => ?_⟩
    rw [Nat.add_assoc, Nat.add_comm 1]
    exact served (call + 1) fewer
  · rintro ⟨first, later⟩ call fewer
    cases call with
    | zero => exact first
    | succ before =>
        rw [Nat.add_comm before, ← Nat.add_assoc]
        exact later before fewer

/-- The status tells of every `fputs` that fails. -/
theorem putMarkedLines_status (calls : ℕ) (status : ℤ) (replacedLine : Bool)
    (lines : List ByteString) :
    (putMarkedLines puts marker newline comment calls status replacedLine lines).1 = 0 ↔
      status = 0 ∧ ∀ call < textsPut marker (newline.getD []) comment replacedLine lines,
        puts (calls + call) = none := by
  induction lines generalizing calls status replacedLine with
  | nil => simp [putMarkedLines, textsPut]
  | cons line rest ih =>
      rw [putMarkedLines, replaceMarkedLine_cString]
      by_cases replaced : isReplaced marker (newline.getD []) comment line = true
      · rw [if_pos replaced, textsPut_cons_replaced _ _ replaced]
        cases replacedLine with
        | true => simp [ih, fputs_status, fputs_calls]
        | false =>
            have some_text := take_ne_nil_of_isReplaced replaced
            simp [ih, fputs_status, fputs_calls, some_text, forall_calls_le, and_assoc]
      · rw [if_neg replaced, textsPut_cons_kept _ _ (Bool.eq_false_iff.mpr replaced)]
        by_cases nothing : kept marker comment line = []
        · simp [ih, fputs_status, fputs_calls, nothing]
        · simp [ih, fputs_status, fputs_calls, nothing, forall_calls_le, and_assoc]

end Calls

section Outcomes

variable {faults : Faults} {leftovers : Leftovers} {fs : FileSystem}
  {fileName marker content payload : ByteString} {newline : Option ByteString} {comment : UInt8}
  {random : ℕ}

/-- What `AppendPayloadToFile` makes of a text. -/
def appendedText (faults : Faults) (leftovers : Leftovers) (content payload : ByteString) :
    ByteString :=
  if payload = [] then content
  else
    content ++
      (if faults.ending = false ∧ content.getLast? = some 10 then []
        else saved faults.eol leftovers.eol [10]) ++ saved faults.payload leftovers.payload payload

theorem appendPayloadToFile_eq (held : fs.read fileName = some content) :
    (appendPayloadToFile faults leftovers fileName payload fs).2 =
      fs.write fileName (appendedText faults leftovers content payload) := by
  have exists_file : fs.fileExists fileName = true := FileSystem.fileExists_iff.mpr ⟨content, held⟩
  by_cases empty : payload = []
  · simp [appendPayloadToFile, appendedText, empty, FileSystem.write_eq_self held]
  · by_cases ended : faults.ending = false ∧ content.getLast? = some 10
    · simp [appendPayloadToFile, appendedText, saveToFile, fileEndsInEol,
        CommonUtils.fileEndsInEol, empty, held, exists_file, ended]
    · have unended : (!faults.ending && decide (content.getLast? = some 10)) = false := by
        cases blind : faults.ending with
        | true => rfl
        | false =>
            have last : content.getLast? ≠ some 10 := fun last => ended ⟨blind, last⟩
            simp [last]
      simp [appendPayloadToFile, appendedText, saveToFile, fileEndsInEol,
        CommonUtils.fileEndsInEol, empty, held, exists_file, ended, unended]

/-- The text that is moved over the file. -/
def result (faults : Faults) (leftovers : Leftovers) (marker : ByteString)
    (newline : Option ByteString) (comment : UInt8) (content : ByteString) : ByteString :=
  let (replacedLine, written) :=
    replaceMarkedLines marker newline comment false (linesRead faults.read content)
  let arrived := saved faults.flush leftovers.lines written
  match newline with
  | some newline =>
      if replacedLine then arrived else appendedText faults leftovers arrived newline
  | none => arrived

/-- A failure that the status tells of, or a temporary file that is in the way. -/
def IsNoticed (faults : Faults) (fileName marker : ByteString) (newline : Option ByteString)
    (comment : UInt8) (random : ℕ) (content : ByteString) (fs : FileSystem) : Prop :=
  faults.file = true ∨ faults.temporary = true ∨
    fs.fileExists (replacingLinesName fileName random) = true ∨ faults.stream = true ∨
      faults.rename ≠ none ∨
        ∃ call < textsPut marker (newline.getD []) comment false (linesRead faults.read content),
          faults.puts call ≠ none

theorem replaceMarkedLinesInFile_refused (held : fs.read fileName = some content)
    (refused : faults.file = true ∨ faults.temporary = true ∨
      fs.fileExists (replacingLinesName fileName random) = true) :
    replaceMarkedLinesInFile faults leftovers fileName marker newline comment random fs =
      (eacces, fs) := by
  simp only [replaceMarkedLinesInFile, replaceMarkedLinesInFileInternal, held]
  rcases refused with file | temporary | present
  · simp [file]
  · simp [temporary]
  · simp [present]

theorem replaceMarkedLinesInFile_unwritten (held : fs.read fileName = some content)
    (opened : faults.file = false)
    (created : (faults.temporary || fs.fileExists (replacingLinesName fileName random)) = false)
    (unwritten : faults.stream = true ∨
      (putMarkedLines faults.puts marker newline comment 0 0 false
        (linesRead faults.read content)).1 ≠ 0) :
    ∃ status left, status ≠ 0 ∧
      replaceMarkedLinesInFile faults leftovers fileName marker newline comment random fs =
        (status, fs.write (replacingLinesName fileName random) left) := by
  by_cases stream : faults.stream = true
  · refine ⟨eacces, [], by decide, ?_⟩
    simp [replaceMarkedLinesInFile, replaceMarkedLinesInFileInternal, held, opened, created, stream]
  · have failed := unwritten.resolve_left stream
    have written := @putMarkedLines_written faults.puts marker newline comment 0 0 false
      (linesRead faults.read content)
    refine ⟨_, saved true leftovers.lines (replaceMarkedLines marker newline comment false
      (linesRead faults.read content)).2, failed, ?_⟩
    simp [replaceMarkedLinesInFile, replaceMarkedLinesInFileInternal, held, opened, created, stream,
      fputs, failed, written]

theorem replaceMarkedLinesInFile_written (held : fs.read fileName = some content)
    (opened : faults.file = false)
    (created : (faults.temporary || fs.fileExists (replacingLinesName fileName random)) = false)
    (stream : faults.stream = false)
    (put : (putMarkedLines faults.puts marker newline comment 0 0 false
      (linesRead faults.read content)).1 = 0) :
    let temp := replacingLinesName fileName random
    let renamed := renameFile faults.rename temp fileName
      (fs.write temp (result faults leftovers marker newline comment content))
    replaceMarkedLinesInFile faults leftovers fileName marker newline comment random fs =
      (renamed.1, renamed.2.remove temp) := by
  intro temp renamed
  have written := @putMarkedLines_written faults.puts marker newline comment 0 0 false
    (linesRead faults.read content)
  simp only [replaceMarkedLinesInFile, replaceMarkedLinesInFileInternal, held, opened, created,
    stream, Bool.false_eq_true, if_false, fputs, ne_eq, not_true_eq_false, decide_false, if_true,
    put, Bool.false_or, List.nil_append, written]
  cases newline with
  | none => rfl
  | some replacement =>
      simp only [Bool.not_false, Bool.and_true, renamed, result]
      by_cases replaced : (replaceMarkedLines marker (some replacement) comment false
          (linesRead faults.read content)).1 = true
      · simp [replaced, temp]
      · rw [Bool.not_eq_true] at replaced
        simp only [replaced, Bool.not_false, if_true, Bool.false_eq_true, if_false]
        rw [appendPayloadToFile_eq FileSystem.read_write_self, FileSystem.write_write]

theorem renameFile_written {temp text : ByteString} {error : Option ℤ}
    (held : fs.read fileName = some content) (apart : fs.entry temp ≠ fs.entry fileName) :
    let renamed := renameFile error temp fileName (fs.write temp text)
    (renamed.1 = 0 ↔ error = none) ∧
      (renamed.1 ≠ 0 → (renamed.2.remove temp).read fileName = some content) ∧
      (renamed.1 = 0 → (renamed.2.remove temp).read fileName = some text) := by
  have present : (fs.write temp text).fileExists temp = true :=
    FileSystem.fileExists_iff.mpr ⟨text, FileSystem.read_write_self⟩
  cases error with
  | none =>
      have moved : (((fs.write temp text).rename temp fileName).remove temp).read fileName =
          some text := by
        rw [FileSystem.read_write_rename_remove apart, if_pos rfl]
      simp [renameFile, present, moved]
  | some errno =>
      have failed : (if errno = 0 then enoent else errno) ≠ 0 := by
        split
        · decide
        next other => exact other
      have left : ((fs.write temp text).remove temp).read fileName = some content := by
        rw [FileSystem.read_remove, FileSystem.entry_write, FileSystem.entry_write,
          if_neg (Ne.symm apart), FileSystem.read_write_of_ne (Ne.symm apart), held]
      simp [renameFile, present, failed, left]

/-- Unless something is noticed, the new text is moved over the file. After a failure that is
noticed the file is what it was. -/
theorem replaceMarkedLinesInFile_outcome (held : fs.read fileName = some content) :
    let outcome :=
      replaceMarkedLinesInFile faults leftovers fileName marker newline comment random fs
    (outcome.1 = 0 ↔ ¬ IsNoticed faults fileName marker newline comment random content fs) ∧
      (outcome.1 ≠ 0 → outcome.2.read fileName = some content) ∧
      (outcome.1 = 0 → outcome.2.read fileName =
        some (result faults leftovers marker newline comment content)) := by
  intro outcome
  by_cases refused : faults.file = true ∨ faults.temporary = true ∨
      fs.fileExists (replacingLinesName fileName random) = true
  · have noticed : IsNoticed faults fileName marker newline comment random content fs := by
      rcases refused with file | temporary | present
      · exact .inl file
      · exact .inr (.inl temporary)
      · exact .inr (.inr (.inl present))
    have status : outcome = (eacces, fs) := replaceMarkedLinesInFile_refused held refused
    have failed : eacces ≠ 0 := by decide
    rw [status]
    exact ⟨iff_of_false failed (not_not_intro noticed), fun _ => held, fun done => absurd done failed⟩
  · rw [not_or, not_or, Bool.not_eq_true, Bool.not_eq_true, Bool.not_eq_true] at refused
    rcases refused with ⟨opened, granted, absent⟩
    have created : (faults.temporary || fs.fileExists (replacingLinesName fileName random)) =
        false := by
      simp [granted, absent]
    have free : fs.read (replacingLinesName fileName random) = none := by
      simpa [FileSystem.fileExists] using absent
    have apart : fs.entry (replacingLinesName fileName random) ≠ fs.entry fileName := by
      intro same
      rw [FileSystem.read_congr same, held] at free
      cases free
    have kept_file : ∀ left, (fs.write (replacingLinesName fileName random) left).read fileName =
        some content := by
      intro left
      rw [FileSystem.read_write_of_ne (Ne.symm apart), held]
    by_cases unwritten : faults.stream = true ∨
        (putMarkedLines faults.puts marker newline comment 0 0 false
          (linesRead faults.read content)).1 ≠ 0
    · rcases @replaceMarkedLinesInFile_unwritten faults leftovers fs fileName marker content newline
          comment random held opened created unwritten with ⟨status, left, failed, left_eq⟩
      have noticed : IsNoticed faults fileName marker newline comment random content fs := by
        rcases unwritten with stream | unput
        · exact .inr (.inr (.inr (.inl stream)))
        · rw [ne_eq, putMarkedLines_status, not_and] at unput
          have missing := unput rfl
          push Not at missing
          rcases missing with ⟨call, made, refusal⟩
          rw [Nat.zero_add] at refusal
          exact .inr (.inr (.inr (.inr (.inr ⟨call, made, refusal⟩))))
      have outcome_eq : outcome = (status, fs.write (replacingLinesName fileName random) left) :=
        left_eq
      rw [outcome_eq]
      exact ⟨iff_of_false failed (not_not_intro noticed), fun _ => kept_file left,
        fun done => absurd done failed⟩
    · rw [not_or, Bool.not_eq_true, not_not] at unwritten
      rcases unwritten with ⟨stream, put⟩
      have served := (putMarkedLines_status 0 0 false (linesRead faults.read content)).mp put
      have noticed_iff : IsNoticed faults fileName marker newline comment random content fs ↔
          faults.rename ≠ none := by
        constructor
        · rintro (file | temporary | present | refusal | unmoved | ⟨call, made, refusal⟩)
          · exact absurd file (by simp [opened])
          · exact absurd temporary (by simp [granted])
          · exact absurd present (by simp [absent])
          · exact absurd refusal (by simp [stream])
          · exact unmoved
          · have answered := served.2 call made
            rw [Nat.zero_add] at answered
            exact absurd answered refusal
        · exact fun unmoved => .inr (.inr (.inr (.inr (.inl unmoved))))
      have outcome_eq := @replaceMarkedLinesInFile_written faults leftovers fs fileName marker content
        newline comment random held opened created stream put
      have moved := @renameFile_written fs fileName content _
        (result faults leftovers marker newline comment content) faults.rename held apart
      rw [noticed_iff, not_not]
      simp only [outcome, outcome_eq]
      exact moved

end Outcomes

end OsConfig.CommonUtils.Failing
