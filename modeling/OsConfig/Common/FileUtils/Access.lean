import OsConfig.Common.Reasons
import OsConfig.Common.FileUtils.Options
import OsConfig.ComplianceEngine.Procedures.FilePermissions

/-!
# Access to files and directories

`CheckAccess` compares owner, group and mode with what is desired, and `SetAccess`
changes them where they differ. The restricted deletion flag is for directories:
the check does not want it on a file, but the change sets it if it is asked for.
-/

namespace OsConfig.CommonUtils

open ComplianceEngine (FileState Host)

/-- What `stat` answers, and which changes of owners and modes fail. -/
abbrev Files :=
  ComplianceEngine.FileSystem

/-- `S_ISVTX` -/
def isVtx : BitVec 32 := 0o1000

/-- The bits that `chmod` sets. -/
def accessBits : BitVec 32 := 0o7777

/-- `FileExists` -/
def isThere (files : Files) (name : ByteString) : Bool :=
  match files.stat name with
  | .ok _ => true
  | .error _ => false

/-- `DirectoryExists` -/
def isDirectory (files : Files) (name : ByteString) : Bool :=
  match files.stat name with
  | .ok file => file.mode &&& 0o170000 = 0o040000
  | .error _ => false

/-- `%04o` -/
def printOctal (number : BitVec 32) : ByteString :=
  let digits := Numerals.render 8 number.toNat
  List.replicate (4 - digits.length) 48 ++ digits

def desiredMode (directory : Bool) (desiredAccess : BitVec 32) : BitVec 32 :=
  let desiredMode := desiredAccess &&& accessBits
  if directory then desiredMode else desiredMode &&& ~~~isVtx

def currentMode (file : FileState) : BitVec 32 :=
  file.mode.setWidth 32 &&& accessBits

def ownershipMismatch (name : ByteString) (file : FileState)
    (desiredOwnerId desiredGroupId : BitVec 32) : ByteString :=
  bytes "Ownership of '" ++ name ++ bytes "' (" ++ printInt file.uid.toBitVec ++ bytes ", " ++
    printInt file.gid.toBitVec ++ bytes ") does not match expected (" ++ printInt desiredOwnerId ++
    bytes ", " ++ printInt desiredGroupId ++ bytes ")"

def accessMismatch (name : ByteString) (current desired : BitVec 32) : ByteString :=
  bytes "Access to '" ++ name ++ bytes "' (0" ++ printOctal current ++
    bytes ") does not match expected (0" ++ printOctal desired ++ bytes ")"

/-- `CheckAccess`. An id of -1 stands for any owner or group. -/
def checkAccess (directory : Bool) (name : ByteString) (desiredOwnerId desiredGroupId : BitVec 32)
    (desiredAccess : BitVec 32) (reason : Option ByteString) (files : Files) :
    ℤ × Option ByteString :=
  if (if directory then isDirectory files name else isThere files name) then
    match files.stat name with
    | .error _ => (-1, reason)
    | .ok file =>
        if (desiredOwnerId ≠ -1 ∧ desiredOwnerId ≠ file.uid.toBitVec) ∨
            (desiredGroupId ≠ -1 ∧ desiredGroupId ≠ file.gid.toBitVec) then
          (enoent, captureReason reason
            (ownershipMismatch name file desiredOwnerId desiredGroupId))
        else
          let current := currentMode file
          let desired := desiredMode directory desiredAccess
          if current ≠ desired then
            (enoent, captureReason reason (accessMismatch name current desired))
          else
            (0, captureSuccessReason reason
              (bytes "'" ++ name ++ bytes "' has required access (0" ++ printOctal desired ++
                bytes ") and ownership (uid: " ++ printInt desiredOwnerId ++ bytes ", gid: " ++
                Numerals.render 10 desiredGroupId.toNat ++ bytes ")"))
  else if isSuccessReason reason then
    (0, captureSuccessReason reason (bytes "'" ++ name ++ bytes "' is not found, nothing to check"))
  else (0, captureReason reason (bytes "'" ++ name ++ bytes "' is not found"))

/-- `SetAccess`; the second part is what it leaves of the files. -/
def setAccess (host : Host) (directory : Bool) (name : ByteString)
    (desiredOwnerId desiredGroupId desiredAccess : BitVec 32) (files : Files) :
    ℤ × Files :=
  if (if directory then isDirectory files name else isThere files name) then
    let (result, _) := checkAccess directory name desiredOwnerId desiredGroupId desiredAccess none files
    if result = 0 then (0, files)
    else
      match files.chown host name ⟨desiredOwnerId⟩ ⟨desiredGroupId⟩ with
      | .error _ => (-1, files)
      | .ok owned =>
          match owned.chmod name (desiredAccess.setWidth 16) with
          | .error errno => (if errno ≠ 0 then errno else enoent, owned)
          | .ok changed => (0, changed)
  else (0, files)

def checkFileAccess : ByteString → BitVec 32 → BitVec 32 → BitVec 32 → Option ByteString →
    Files → ℤ × Option ByteString :=
  checkAccess false

def setFileAccess (host : Host) : ByteString → BitVec 32 → BitVec 32 → BitVec 32 → Files →
    ℤ × Files :=
  setAccess host false

def checkDirectoryAccess : ByteString → BitVec 32 → BitVec 32 → BitVec 32 → Option ByteString →
    Files → ℤ × Option ByteString :=
  checkAccess true

def setDirectoryAccess (host : Host) : ByteString → BitVec 32 → BitVec 32 → BitVec 32 →
    Files → ℤ × Files :=
  setAccess host true

section Files

variable {files : Files} {name : ByteString} {owner group access : BitVec 32}

def Conforms (owner group access : BitVec 32) (file : FileState) : Prop :=
  file.uid.toBitVec = owner ∧ file.gid.toBitVec = group ∧
    currentMode file = desiredMode false access

theorem passed_ownershipMismatch (name : ByteString) (file : FileState)
    (desiredOwnerId desiredGroupId : BitVec 32) :
    passed (ownershipMismatch name file desiredOwnerId desiredGroupId) = false := by
  simp only [ownershipMismatch, List.append_assoc]
  rw [passed_append (by decide)]
  decide

theorem passed_accessMismatch (name : ByteString) (current desired : BitVec 32) :
    passed (accessMismatch name current desired) = false := by
  simp only [accessMismatch, List.append_assoc]
  rw [passed_append (by decide)]
  decide

theorem checkFileAccess_of_stat {file : FileState} (held : files.stat name = .ok file)
    (anyOwner : owner ≠ -1) (anyGroup : group ≠ -1) (reason : Option ByteString) :
    ((checkFileAccess name owner group access reason files).1 = 0 ↔
        Conforms owner group access file) ∧
      ((checkFileAccess name owner group access reason files).2.any passed = true ↔
        Conforms owner group access file) := by
  have present : isThere files name = true := by rw [isThere, held]
  rw [checkFileAccess, checkAccess]
  simp only [Bool.false_eq_true, if_false, present, if_true, held, anyOwner, anyGroup, ne_eq,
    not_false_eq_true, true_and]
  split
  next mismatch =>
    have differs : ¬Conforms owner group access file := by
      rintro ⟨owner_eq, group_eq, -⟩
      rcases mismatch with other | other
      · exact other owner_eq.symm
      · exact other group_eq.symm
    rw [any_passed_captureReason reason (passed_ownershipMismatch name file owner group)]
    exact ⟨iff_of_false (by simp [enoent]) differs, iff_of_false Bool.false_ne_true differs⟩
  next owned =>
    rw [not_or, not_not, not_not] at owned
    split
    next mismatch =>
      have differs : ¬Conforms owner group access file := fun conforms => mismatch conforms.2.2
      rw [any_passed_captureReason reason (passed_accessMismatch name _ _)]
      exact ⟨iff_of_false (by simp [enoent]) differs, iff_of_false Bool.false_ne_true differs⟩
    next same =>
      have conforms : Conforms owner group access file :=
        ⟨owned.1.symm, owned.2.symm, not_not.mp same⟩
      rw [any_passed_captureSuccessReason]
      exact ⟨iff_of_true rfl conforms, iff_of_true rfl conforms⟩

theorem checkFileAccess_of_missing (missing : isThere files name = false)
    {reason : Option ByteString} (success : isSuccessReason reason = true) :
    (checkFileAccess name owner group access reason files).1 = 0 ∧
      (checkFileAccess name owner group access reason files).2.any passed = true := by
  rw [checkFileAccess, checkAccess]
  simp only [Bool.false_eq_true, if_false, missing, success, if_true, true_and]
  exact any_passed_captureSuccessReason _ _

end Files

section Changing

open BitMasks

variable {host : Host} {files : Files} {name : ByteString} {access : BitVec 32}

theorem change_of_stat {file : FileState} (held : files.stat name = .ok file)
    (effect : FileState → FileState) :
    files.change none name effect = .ok (files.write name (effect file)) := by
  simp only [ComplianceEngine.FileSystem.change, held]

/-- What is left of a mode after the change. -/
theorem currentMode_chmod (file : FileState) (access : BitVec 32) :
    currentMode (FileState.chmod (access.setWidth 16) file) = access &&& accessBits := by
  refine BitVec.eq_of_getLsbD_eq fun i inside => ?_
  have bits : accessBits.getLsbD i = decide (i < 12) := by
    have low_bits : accessBits = low 32 12 := by decide
    rw [low_bits, getLsbD_low]
    simp [inside]
  simp only [currentMode, FileState.chmod, BitVec.getLsbD_and, BitVec.getLsbD_or,
    BitVec.getLsbD_not, BitVec.getLsbD_setWidth, getLsbD_low, inside, bits, decide_true,
    Bool.true_and]
  by_cases twelve : i < 12
  · have sixteen : i < 16 := by omega
    simp [twelve, sixteen]
  · simp [twelve]

/-- A file that the change gives to the superuser conforms exactly if no deletion flag was asked
for. -/
theorem conforms_chmod_iff (file : FileState) (access : BitVec 32) :
    Conforms 0 0 access (FileState.chmod (access.setWidth 16) (FileState.chown host 0 0 file)) ↔
      access &&& isVtx = 0 := by
  have owner : (FileState.chmod (access.setWidth 16)
      (FileState.chown host 0 0 file)).uid.toBitVec = 0 := rfl
  have group : (FileState.chmod (access.setWidth 16)
      (FileState.chown host 0 0 file)).gid.toBitVec = 0 := rfl
  have flag : accessBits &&& isVtx = isVtx := by decide
  rw [Conforms, and_iff_right owner, and_iff_right group, currentMode_chmod, desiredMode]
  simp only [Bool.false_eq_true, if_false]
  rw [eq_comm, and_not_eq_self_iff, BitVec.and_assoc, flag]

theorem setFileAccess_of_stat {file : FileState} (held : files.stat name = .ok file)
    (canChown : files.chownFailure name = none) (canChmod : files.chmodFailure name = none) :
    (setFileAccess host name 0 0 access files).1 = 0 ∧
      ((Conforms 0 0 access file ∧ (setFileAccess host name 0 0 access files).2 = files) ∨
        (¬Conforms 0 0 access file ∧ ∃ changed,
          (setFileAccess host name 0 0 access files).2 = changed ∧
          changed.stat = Function.update files.stat name (.ok
            (FileState.chmod (access.setWidth 16) (FileState.chown host 0 0 file))))) := by
  have present : isThere files name = true := by rw [isThere, held]
  have check := (@checkFileAccess_of_stat files name 0 0 access file held
    (show (0 : BitVec 32) ≠ -1 by decide) (show (0 : BitVec 32) ≠ -1 by decide) none).1
  rw [checkFileAccess] at check
  rw [setFileAccess, setAccess]
  simp only [Bool.false_eq_true, if_false, present, if_true]
  by_cases conforms : Conforms 0 0 access file
  · rw [if_pos (check.mpr conforms)]
    exact ⟨rfl, .inl ⟨conforms, rfl⟩⟩
  · have owned : files.chown host name ⟨0⟩ ⟨0⟩ =
        .ok (files.write name (FileState.chown host 0 0 file)) := by
      rw [ComplianceEngine.FileSystem.chown, canChown, change_of_stat held]
      rfl
    have changed : (files.write name (FileState.chown host 0 0 file)).chmod name
        (access.setWidth 16) = .ok ((files.write name (FileState.chown host 0 0 file)).write name
          (FileState.chmod (access.setWidth 16) (FileState.chown host 0 0 file))) := by
      have still : (files.write name (FileState.chown host 0 0 file)).chmodFailure name = none :=
        canChmod
      have there : (files.write name (FileState.chown host 0 0 file)).stat name =
          .ok (FileState.chown host 0 0 file) := Function.update_self _ _ _
      rw [ComplianceEngine.FileSystem.chmod, still, change_of_stat there]
    rw [if_neg fun same => conforms (check.mp same), owned]
    simp only [changed, true_and]
    refine .inr ⟨conforms, _, rfl, ?_⟩
    exact Function.update_idem _ _ _

end Changing

end OsConfig.CommonUtils
