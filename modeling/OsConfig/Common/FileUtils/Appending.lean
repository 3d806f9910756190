import OsConfig.Common.FileUtils

/-!
# Appending

There are two ways to append to a file. `AppendPayloadToFile` writes to the file
itself. `AppendToFile` assembles the new content in a temporary file next to it
and moves that over the file. Both are to put a newline where the content does
not end in one.
-/

namespace OsConfig.CommonUtils

variable {fs : FileSystem} {fileName content payload : ByteString} {random : ℕ}

/-- The content with the payload behind it on a line of its own. -/
def appended (content payload : ByteString) : ByteString :=
  content ++ (if content.getLast? = some 10 then [] else [10]) ++ payload

theorem appendPayloadToFile_eq (held : fs.read fileName = some content) (some_payload : payload ≠ []) :
    appendPayloadToFile fileName payload fs =
      (true, fs.write fileName (appended content payload)) := by
  have exists_file : fs.fileExists fileName = true := FileSystem.fileExists_iff.mpr ⟨content, held⟩
  by_cases ended : content.getLast? = some 10
  · simp [appendPayloadToFile, saveToFile, fileEndsInEol, appended, some_payload, held, exists_file,
      ended]
  · simp [appendPayloadToFile, saveToFile, fileEndsInEol, appended, some_payload, held, exists_file,
      ended]

/-- What `AppendToFile` assembles in its temporary file. -/
def assembled (leftover content payload : ByteString) : ByteString :=
  (if content.getLast? = some 10 then leftover ++ content else [10]) ++ payload

theorem appendToFile_eq (held : fs.read fileName = some content) (some_content : content ≠ [])
    (text : 0 ∉ content) (some_payload : payload ≠ []) :
    let temp := tempFileName fileName random
    appendToFile fileName payload random fs =
      (true, ((fs.write temp (assembled ((fs.read temp).getD []) content payload)).rename temp
        fileName).remove temp) := by
  intro temp
  have exists_file : fs.fileExists fileName = true := FileSystem.fileExists_iff.mpr ⟨content, held⟩
  have loaded : loadStringFromFile fileName fs = some content := by
    simp [loadStringFromFile, held, ByteString.cString_of_not_mem text]
  have exists_temp : ∀ written, (fs.write temp written).fileExists temp = true := by
    intro written
    simp [FileSystem.fileExists]
  by_cases ended : content.getLast? = some 10
  · simp [appendToFile, internalSecureSaveToFile, saveToFile, renameFileWithOwnerAndAccess,
      assembled, some_payload, some_content, exists_file, loaded, ended, temp, exists_temp]
  · simp [appendToFile, internalSecureSaveToFile, saveToFile, renameFileWithOwnerAndAccess,
      assembled, some_payload, some_content, exists_file, loaded, ended, temp, exists_temp]

/-- An operation succeeds and leaves the content with the payload behind it. -/
def Appends (fileName content payload : ByteString) (outcome : Bool × FileSystem) : Prop :=
  outcome.1 = true ∧ outcome.2.read fileName = some (appended content payload)

theorem appendPayloadToFile_appends (held : fs.read fileName = some content)
    (some_payload : payload ≠ []) :
    Appends fileName content payload (appendPayloadToFile fileName payload fs) := by
  rw [appendPayloadToFile_eq held some_payload]
  exact ⟨rfl, FileSystem.read_write_self⟩

theorem assembled_eq_appended_iff {leftover : ByteString} (some_content : content ≠ []) :
    assembled leftover content payload = appended content payload ↔
      content.getLast? = some 10 ∧ leftover = [] := by
  by_cases ended : content.getLast? = some 10
  · simp [assembled, appended, ended]
  · have longer : 0 < content.length := List.length_pos_iff.mpr some_content
    have differs : (10 :: payload).length ≠ (content ++ 10 :: payload).length := by
      simp only [List.length_append]
      omega
    have unequal : 10 :: payload ≠ content ++ 10 :: payload := fun equal =>
      differs (congrArg List.length equal)
    simpa [assembled, appended, ended] using unequal

theorem appendToFile_appends_iff (held : fs.read fileName = some content)
    (some_content : content ≠ []) (text : 0 ∉ content) (some_payload : payload ≠ []) :
    Appends fileName content payload (appendToFile fileName payload random fs) ↔
      content.getLast? = some 10 ∧ (fs.read (tempFileName fileName random)).getD [] = [] := by
  rw [Appends, appendToFile_eq held some_content text some_payload]
  by_cases same : fs.entry (tempFileName fileName random) = fs.entry fileName
  · -- The file is its own temporary file: it is removed, and what is left over is not empty.
    rw [FileSystem.read_rename_remove_self (by simpa using same), FileSystem.read_congr same, held]
    simp [some_content]
  · rw [FileSystem.read_write_rename_remove same]
    simpa using assembled_eq_appended_iff some_content

/-- The two ways to append agree exactly on files that end in a newline, and only if nothing is
left in the temporary file. -/
theorem appends_agree_iff (held : fs.read fileName = some content) (some_content : content ≠ [])
    (text : 0 ∉ content) (some_payload : payload ≠ []) :
    Appends fileName content payload (appendToFile fileName payload random fs) ∧
        Appends fileName content payload (appendPayloadToFile fileName payload fs) ↔
      content.getLast? = some 10 ∧ (fs.read (tempFileName fileName random)).getD [] = [] := by
  rw [appendToFile_appends_iff held some_content text some_payload]
  exact and_iff_left (appendPayloadToFile_appends held some_payload)

/-- A machine with one file. -/
def oneFile (path content : ByteString) : FileSystem :=
  FileSystem.write ⟨id, fun _ => none⟩ path content

theorem appends_agree_iff_rules :
    Appends (bytes "/etc/audit.rules") (bytes "-D\n") (bytes "-b 64")
          (appendToFile (bytes "/etc/audit.rules") (bytes "-b 64") 7
            (oneFile (bytes "/etc/audit.rules") (bytes "-D\n"))) ∧
        Appends (bytes "/etc/audit.rules") (bytes "-D\n") (bytes "-b 64")
          (appendPayloadToFile (bytes "/etc/audit.rules") (bytes "-b 64")
            (oneFile (bytes "/etc/audit.rules") (bytes "-D\n"))) ↔
      (bytes "-D\n").getLast? = some 10 ∧
        ((oneFile (bytes "/etc/audit.rules") (bytes "-D\n")).read
          (tempFileName (bytes "/etc/audit.rules") 7)).getD [] = [] :=
  appends_agree_iff FileSystem.read_write_self (by decide) (by decide) (by decide)

/-- Without a newline at its end the content is lost. -/
theorem unterminated_content_lost :
    ¬ (Appends (bytes "/etc/fstab") (bytes "a") (bytes "b")
          (appendToFile (bytes "/etc/fstab") (bytes "b") 7
            (oneFile (bytes "/etc/fstab") (bytes "a"))) ∧
        Appends (bytes "/etc/fstab") (bytes "a") (bytes "b")
          (appendPayloadToFile (bytes "/etc/fstab") (bytes "b")
            (oneFile (bytes "/etc/fstab") (bytes "a")))) := by
  have left : (appendToFile (bytes "/etc/fstab") (bytes "b") 7
      (oneFile (bytes "/etc/fstab") (bytes "a"))).2.read (bytes "/etc/fstab") =
        some (bytes "\nb") := by
    decide
  rintro ⟨⟨-, read⟩, -⟩
  rw [left] at read
  revert read
  decide

end OsConfig.CommonUtils
