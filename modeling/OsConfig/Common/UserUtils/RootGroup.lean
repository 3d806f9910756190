import OsConfig.Common.UserUtils
import OsConfig.Common.FileUtils.FailingEdits
import OsConfig.Common.FileUtils.Saving
import OsConfig.Library.Lines

/-!
# The root group

`RepairRootGroup` puts the group `root` in front of the lines of `/etc/group` that
do not name it. The lines are to get there by way of a temporary file, but what is
saved in that file first is the new line instead of the old content: nothing is
left of it when the lines with `root` are removed, and the repair gives up at the
append. A new line that cannot be saved again is not noticed at all.

Each operation either does its work or fails, and a write that fails may have
written a part.
-/

namespace OsConfig.UserUtils

open CommonUtils

def rootLine : ByteString := bytes "root:x:0:\n"

def groupTempFileName : ByteString := bytes "/etc/~group"

/-- What becomes of `SavePayloadToFile`. -/
inductive Save where
  | served
  | refused
  | cut (arrived : ℕ)

def savePayloadToFile (save : Save) (fileName payload : ByteString) (fs : FileSystem) :
    Bool × FileSystem :=
  if payload = [] then (false, fs)
  else
    match save with
    | .served => (true, fs.write fileName payload)
    | .refused => (false, fs)
    | .cut arrived => (false, fs.write fileName (payload.take arrived))

/-- The operations of a repair that fail. -/
structure RepairFaults where
  /-- The count of the lines in `EnumerateAllGroups`. -/
  count : Bool
  /-- The number of groups before `getgrent` fails, if it does. -/
  getgrent : Option ℕ
  loadGroup : Bool
  saveTemp : Save
  replace : Failing.Faults
  replaceLeftovers : Failing.Leftovers
  loadTemp : Bool
  remove : Bool
  saveRoot : Save
  append : Failing.Faults
  appendLeftovers : Failing.Leftovers
  rename : Option ℤ
  removeAgain : Bool

/-- The groups that `getgrent` makes of the lines of `/etc/group`. -/
def groupEntries (readGroup : ByteString → Option Group) (getgrent : Option ℕ)
    (fs : FileSystem) : List Group :=
  let entries := (textLines ((fs.read groupFile).getD [])).filterMap readGroup
  match getgrent with
  | some count => entries.take count
  | none => entries

/-- The search for the group. There is no result if a group has no name to compare. -/
def findRootGroup : List SimplifiedGroup → Option Bool
  | [] => some false
  | group :: rest =>
      match group.groupName with
      | none => none
      | some groupName =>
          if groupName = root ∧ group.groupId = 0 then some true else findRootGroup rest

/-- Whether the group is found among those that are enumerated. -/
def rootGroupFound (readGroup : ByteString → Option Group) (faults : RepairFaults)
    (fs : FileSystem) : Option Bool :=
  if faults.count then some false
  else
    (enumerateAllGroups (groupEntries readGroup faults.getgrent fs) none fs).bind
      fun (groupList, _) =>
        if groupList.status = 0 then findRootGroup groupList.records else some false

/-- The part of the repair behind the second load: the temporary file is created again, with the
new line and what was loaded, and moved. -/
def moveRootGroup (faults : RepairFaults) (original : ByteString) (fs : FileSystem) :
    ℤ × FileSystem :=
  let temp := groupTempFileName
  let fs := if faults.remove then fs else fs.remove temp
  let (saved, fs) := savePayloadToFile faults.saveRoot temp rootLine fs
  if saved then
    let (appended, fs) := Failing.appendPayloadToFile faults.append faults.appendLeftovers temp
      original fs
    let (status, fs) :=
      if appended then Failing.renameFile faults.rename temp groupFile fs else (enoent, fs)
    (status, if faults.removeAgain then fs else fs.remove temp)
  -- The status is still that of the replacement of lines.
  else (0, fs)

/-- The part of the repair behind the search. -/
def writeRootGroup (faults : RepairFaults) (random : ℕ) (fs : FileSystem) : ℤ × FileSystem :=
  let temp := groupTempFileName
  match if faults.loadGroup then none else loadStringFromFile groupFile fs with
  | none => (eacces, fs)
  | some _ =>
      let (saved, fs) := savePayloadToFile faults.saveTemp temp rootLine fs
      if saved then
        let (status, fs) := Failing.replaceMarkedLinesInFile faults.replace faults.replaceLeftovers
          temp root none 35 random fs
        if status = 0 then
          match if faults.loadTemp then none else loadStringFromFile temp fs with
          | none => (eacces, fs)
          | some original => moveRootGroup faults original fs
        else (status, fs)
      else (eperm, fs)

/-- `RepairRootGroup`. There is no result if the search does not come to an end. -/
def repairRootGroup (readGroup : ByteString → Option Group) (faults : RepairFaults) (random : ℕ)
    (fs : FileSystem) : Option (ℤ × FileSystem) :=
  (rootGroupFound readGroup faults fs).map fun found =>
    if found then (0, fs) else writeRootGroup faults random fs

section Searching

variable {readGroup : ByteString → Option Group} {faults : RepairFaults} {fs : FileSystem}
  {content : ByteString}

def IsRootGroup (entry : Group) : Prop :=
  entry.name = some root ∧ entry.gid = 0

/-- No line of a text makes the root group. -/
def LacksRootGroup (readGroup : ByteString → Option Group) (content : ByteString) : Prop :=
  ∀ line ∈ textLines content, ∀ entry, readGroup line = some entry → ¬IsRootGroup entry

theorem findRootGroup_ne_true {groupList : List SimplifiedGroup}
    (lacks : ∀ group ∈ groupList, ¬(group.groupName = some root ∧ group.groupId = 0)) :
    findRootGroup groupList ≠ some true := by
  induction groupList with
  | nil => simp [findRootGroup]
  | cons group rest ih =>
      rw [List.forall_mem_cons] at lacks
      rw [findRootGroup]
      split
      · simp
      next name name_eq =>
        have differs : ¬(name = root ∧ group.groupId = 0) := fun both =>
          lacks.1 ⟨by rw [name_eq, both.1], both.2⟩
        rw [if_neg differs]
        exact ih lacks.2

theorem rootGroupFound_ne_true (held : fs.read groupFile = some content)
    (lacks : LacksRootGroup readGroup content) :
    rootGroupFound readGroup faults fs ≠ some true := by
  have entries_lack : ∀ entry ∈ groupEntries readGroup faults.getgrent fs,
      ¬IsRootGroup entry := by
    intro entry mem
    have among : entry ∈ (textLines content).filterMap readGroup := by
      unfold groupEntries at mem
      rw [held, Option.getD_some] at mem
      cases count : faults.getgrent with
      | none =>
          rw [count] at mem
          exact mem
      | some count' =>
          rw [count] at mem
          exact List.mem_of_mem_take mem
    rcases List.mem_filterMap.mp among with ⟨line, line_mem, line_eq⟩
    exact lacks line line_mem entry line_eq
  rw [rootGroupFound]
  split
  · simp
  · rcases enumerate_spec groupFile (fun entry => ((0 : ℤ), groupRecord entry)) .zero
      (groupEntries readGroup faults.getgrent fs) fs with ⟨groupList, outcome, records, -⟩
    rw [enumerateAllGroups, outcome, Option.map_some, Option.bind_some]
    simp only
    split
    · apply findRootGroup_ne_true
      rw [records]
      intro group mem
      rcases List.mem_map.mp mem with ⟨entry, entry_mem, rfl⟩
      have among := List.mem_of_mem_take ((List.takeWhile_prefix _).subset entry_mem)
      rintro ⟨name, gid⟩
      have named : entry.name = some root := by
        rw [groupRecord, copyText, Option.filter_eq_some_iff] at name
        exact name.1
      exact entries_lack entry among ⟨named, gid⟩
    · simp

end Searching

section Writing

variable {faults : RepairFaults} {random : ℕ} {fs : FileSystem} {content : ByteString}
  {paths : List ByteString}

theorem not_isLasting_groupTempFileName : ¬IsLasting groupTempFileName := by
  rw [groupTempFileName, bytes_ofList]
  decide

theorem isLasting_groupFile : IsLasting groupFile := by
  rw [groupFile, bytes_ofList]
  decide

theorem not_isLasting_replacingLinesName (fileName : ByteString) (random : ℕ) :
    ¬IsLasting (replacingLinesName fileName random) := by
  have tilde : bytes "~OSConfig.ReplacingLines" ≠ [] ∧
      (bytes "~OSConfig.ReplacingLines").head? = some 126 := by
    rw [bytes_ofList]
    decide
  rw [IsLasting, basename_replacingLinesName, List.head?_append_of_ne_nil _ tilde.1, not_not]
  exact tilde.2

theorem touches_replaceMarkedLinesInFile {edit : Failing.Faults} {left : Failing.Leftovers}
    {fileName marker : ByteString} {newline : Option ByteString} {comment : UInt8}
    (temporary : ¬IsLasting fileName) (held : fs.read fileName = some content) :
    Touches paths fs
      (Failing.replaceMarkedLinesInFile edit left fileName marker newline comment random fs).2 := by
  have hidden := not_isLasting_replacingLinesName fileName random
  by_cases refused : edit.file = true ∨ edit.temporary = true ∨
      fs.fileExists (replacingLinesName fileName random) = true
  · rw [Failing.replaceMarkedLinesInFile_refused held refused]
    exact .refl
  · rw [not_or, not_or, Bool.not_eq_true, Bool.not_eq_true, Bool.not_eq_true] at refused
    have created : (edit.temporary || fs.fileExists (replacingLinesName fileName random)) =
        false := by
      simp [refused.2.1, refused.2.2]
    by_cases unwritten : edit.stream = true ∨
        (Failing.putMarkedLines edit.puts marker newline comment 0 0 false
          (Failing.linesRead edit.read content)).1 ≠ 0
    · rcases @Failing.replaceMarkedLinesInFile_unwritten edit left fs fileName marker content newline
        comment random held refused.1 created unwritten with ⟨status, rest, -, outcome⟩
      rw [outcome]
      exact touches_write_temporary hidden rest
    · rw [not_or, Bool.not_eq_true, not_not] at unwritten
      have outcome := @Failing.replaceMarkedLinesInFile_written edit left fs fileName marker content
        newline comment random held refused.1 created unwritten.1 unwritten.2
      rw [outcome]
      refine Touches.trans ?_ (touches_remove_temporary hidden)
      unfold Failing.renameFile
      split
      · split
        · exact touches_write_temporary hidden _
        · exact (touches_write_temporary hidden _).trans (touches_rename_temporary hidden temporary)
      · exact touches_write_temporary hidden _

theorem result_rootLine (edit : Failing.Faults) (left : Failing.Leftovers) :
    Failing.result edit left root none 35 rootLine = [] := by
  have whole : replaceMarkedLines root none 35 false [rootLine] = (false, []) := by
    decide +kernel
  have lines : fgetsLines rootLine = [rootLine] := by
    decide +kernel
  have written : (replaceMarkedLines root none 35 false
      (Failing.linesRead edit.read rootLine)).2 = [] := by
    unfold Failing.linesRead
    cases edit.read with
    | none =>
        simp only [lines, whole]
    | some count =>
        cases count with
        | zero => rfl
        | succ more => simp only [lines, List.take_succ_cons, List.take_nil, whole]
  simp only [Failing.result, written, Failing.saved, List.take_nil, ite_self]

theorem touches_savePayloadToFile {save : Save} {fileName payload : ByteString}
    (temporary : ¬IsLasting fileName) :
    Touches paths fs (savePayloadToFile save fileName payload fs).2 := by
  unfold savePayloadToFile
  split
  · exact .refl
  · cases save with
    | served => exact touches_write_temporary temporary _
    | refused => exact .refl
    | cut arrived => exact touches_write_temporary temporary _

theorem savePayloadToFile_fst {save : Save} {fileName payload : ByteString}
    (some_payload : payload ≠ []) :
    (savePayloadToFile save fileName payload fs).1 = true ↔ save = .served := by
  unfold savePayloadToFile
  rw [if_neg some_payload]
  cases save with
  | served => simp
  | refused => simp
  | cut arrived => simp

theorem rootLine_ne_nil : rootLine ≠ [] := by
  rw [rootLine, bytes_ofList]
  decide

/-- Everything works until the new line is to be saved again, and that fails. -/
def FailsUnnoticed (faults : RepairFaults) (random : ℕ) (fs : FileSystem) : Prop :=
  faults.loadGroup = false ∧ faults.saveTemp = .served ∧
    ¬Failing.IsNoticed faults.replace groupTempFileName root none 35 random rootLine
      (fs.write groupTempFileName rootLine) ∧
    faults.loadTemp = false ∧ faults.saveRoot ≠ .served

/-- There is nothing to append, so the file is not moved. -/
theorem moveRootGroup_spec :
    Touches [] fs (moveRootGroup faults [] fs).2 ∧
      ((moveRootGroup faults [] fs).1 = 0 ↔ faults.saveRoot ≠ .served) := by
  have hidden := not_isLasting_groupTempFileName
  have removed (again : Bool) (fs : FileSystem) :
      Touches [] fs (if again then fs else fs.remove groupTempFileName) := by
    split
    · exact .refl
    · exact touches_remove_temporary hidden
  have saved := (removed faults.remove fs).trans
    (@touches_savePayloadToFile _ [] faults.saveRoot _ rootLine hidden)
  have served := @savePayloadToFile_fst (if faults.remove then fs else fs.remove groupTempFileName)
    faults.saveRoot groupTempFileName rootLine rootLine_ne_nil
  rw [moveRootGroup]
  generalize savePayloadToFile faults.saveRoot groupTempFileName rootLine
    (if faults.remove then fs else fs.remove groupTempFileName) = outcome at saved served ⊢
  rcases outcome with ⟨done, fs'⟩
  cases done with
  | true =>
      have unnoticed : faults.saveRoot = .served := served.mp rfl
      simp only [if_true, Failing.appendPayloadToFile, Bool.false_eq_true, if_false]
      exact ⟨saved.trans (removed _ _), by simp [unnoticed, enoent]⟩
  | false =>
      have refused : faults.saveRoot ≠ .served := fun same => Bool.false_ne_true (served.mpr same)
      simp only [Bool.false_eq_true, if_false]
      exact ⟨saved, iff_of_true trivial refused⟩

/-- The file of the groups stays as it is, whatever the status says. -/
theorem writeRootGroup_spec (held : fs.read groupFile = some content) :
    (writeRootGroup faults random fs).2.read groupFile = some content ∧
      ((writeRootGroup faults random fs).1 = 0 ↔ FailsUnnoticed faults random fs) := by
  have hidden := not_isLasting_groupTempFileName
  have still {fs' : FileSystem} (touches : Touches [] fs fs') :
      fs'.read groupFile = some content := by
    rw [touches.read groupFile isLasting_groupFile (by simp), held]
  have loaded : loadStringFromFile groupFile fs = some content.cString := by
    rw [loadStringFromFile, held, Option.map_some]
  rw [FailsUnnoticed, writeRootGroup]
  cases loadGroup : faults.loadGroup with
  | true => exact ⟨held, by simp [eacces]⟩
  | false =>
      simp only [Bool.false_eq_true, if_false, loaded, true_and]
      have touched := @touches_savePayloadToFile fs [] faults.saveTemp _ rootLine hidden
      have served := @savePayloadToFile_fst fs faults.saveTemp groupTempFileName rootLine
        rootLine_ne_nil
      by_cases saved : faults.saveTemp = .served
      · have written : savePayloadToFile .served groupTempFileName rootLine fs =
            (true, fs.write groupTempFileName rootLine) := by
          unfold savePayloadToFile
          rw [if_neg rootLine_ne_nil]
        rw [saved, written] at touched
        simp only [saved, written, if_true, true_and]
        generalize fs_eq : fs.write groupTempFileName rootLine = fs₁ at touched ⊢
        have temp_held : fs₁.read groupTempFileName = some rootLine := by
          rw [← fs_eq, FileSystem.read_write_self]
        have replaced := touched.trans (@touches_replaceMarkedLinesInFile random fs₁ rootLine []
          faults.replace faults.replaceLeftovers groupTempFileName root none 35 hidden temp_held)
        have outcome := @Failing.replaceMarkedLinesInFile_outcome faults.replace
          faults.replaceLeftovers fs₁ groupTempFileName root rootLine none 35 random temp_held
        rw [result_rootLine] at outcome
        simp only at outcome
        generalize Failing.replaceMarkedLinesInFile faults.replace faults.replaceLeftovers
          groupTempFileName root none 35 random fs₁ = edited at replaced outcome ⊢
        rcases edited with ⟨status, fs₂⟩
        rw [← outcome.1]
        by_cases zero : status = 0
        · have empty : loadStringFromFile groupTempFileName fs₂ = some [] := by
            rw [loadStringFromFile, outcome.2.2 zero]
            rfl
          simp only [zero, if_true, true_and]
          cases loadTemp : faults.loadTemp with
          | true => exact ⟨still replaced, by simp [eacces]⟩
          | false =>
              simp only [Bool.false_eq_true, if_false, empty, true_and]
              have moved := @moveRootGroup_spec faults fs₂
              exact ⟨still (replaced.trans moved.1), moved.2⟩
        · simp only [zero, if_false, false_and, and_true]
          exact still replaced
      · have failed : (savePayloadToFile faults.saveTemp groupTempFileName rootLine fs).1 = false :=
          Bool.eq_false_iff.mpr fun done => saved (served.mp done)
        simp only [failed, Bool.false_eq_true, if_false, saved, false_and, iff_false]
        exact ⟨still touched, by simp [eperm]⟩

end Writing

section Repairing

/-- After a success the root group stands in front of the lines that do not name it; otherwise the
file is what it was. -/
def Repairs (content : ByteString) (outcome : ℤ × FileSystem) : Prop :=
  (outcome.1 = 0 → outcome.2.read groupFile = some (editedInFront root rootLine 35 content)) ∧
    (outcome.1 ≠ 0 → outcome.2.read groupFile = some content)

variable {readGroup : ByteString → Option Group} {faults : RepairFaults} {random : ℕ}
  {fs : FileSystem} {content : ByteString}

theorem editedInFront_ne (reads : ∃ entry, readGroup rootLine = some entry ∧ IsRootGroup entry)
    (lacks : LacksRootGroup readGroup content) :
    editedInFront root rootLine 35 content ≠ content := by
  intro same
  rcases reads with ⟨entry, read, isRoot⟩
  have closed : Lines.IsClosed 10 rootLine := by
    rw [rootLine, bytes_ofList]
    decide
  have alone : Lines.lines 10 rootLine = [rootLine] := by
    decide +kernel
  have first : rootLine ∈ textLines content := by
    rw [← same, editedInFront]
    have split := Lines.lines_append closed ((textLines content).filter fun line =>
      !isMarked root 35 line).flatten
    rw [alone, List.singleton_append] at split
    have lines : textLines = Lines.lines (10 : UInt8) := rfl
    rw [lines] at split ⊢
    rw [split]
    exact List.mem_cons_self
  exact lacks rootLine first entry read isRoot

/-- A line of `/etc/group` with its four fields. -/
def readGroupLine (line : ByteString) : Option Group :=
  match (Lines.chomp 10 line).splitOn 58 with
  | [name, _, gid, members] =>
      some ⟨some name, UInt32.ofNat (Numerals.value gid),
        some ((members.splitOn 44).filter (· ≠ []))⟩
  | _ => none

/-- No operation fails. -/
def RepairFaults.none : RepairFaults where
  count := false
  getgrent := Option.none
  loadGroup := false
  saveTemp := .served
  replace := .none
  replaceLeftovers := ⟨0, 0, 0⟩
  loadTemp := false
  remove := false
  saveRoot := .served
  append := .none
  appendLeftovers := ⟨0, 0, 0⟩
  rename := Option.none
  removeAgain := false

def wheelLine : ByteString := bytes "wheel:x:10:ada\n"

theorem lacksRootGroup_wheelLine : LacksRootGroup readGroupLine wheelLine := by
  have lines : textLines wheelLine = [wheelLine] := by decide +kernel
  have entry_eq : readGroupLine wheelLine =
      some ⟨some (bytes "wheel"), 10, some [bytes "ada"]⟩ := by decide +kernel
  intro line mem entry read
  rw [lines, List.mem_singleton] at mem
  rw [mem, entry_eq, Option.some.injEq] at read
  rw [← read]
  exact fun isRoot => absurd isRoot.2 (by decide)

theorem isRootGroup_rootLine :
    ∃ entry, readGroupLine rootLine = some entry ∧ IsRootGroup entry :=
  ⟨⟨some root, 0, some []⟩, by decide +kernel, rfl, rfl⟩

end Repairing

end OsConfig.UserUtils
