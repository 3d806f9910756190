import OsConfig.Common.Formatting
import OsConfig.Common.FileUtils.Access

/-!
# Permissions on the bootloader configuration

The audit wants the owner, the group and the mode of each bootloader file that is
there. The remediation takes the files one after the other and stops at the first
that it could set.
-/

namespace OsConfig.Asb

open CommonUtils
open ComplianceEngine (FileState Host)

/-- `ReplaceString`; the text that the global holds afterwards. -/
def replaceString (source : Option ByteString) (defaultValue : ByteString) : ByteString :=
  match source with
  | none => defaultValue
  | some source => if source = [] then defaultValue else source

/-- `strtol` in base eight. -/
def strtolOctal (text : ByteString) : ℤ :=
  let (negative, rest) := ByteString.readSign (text.dropWhile ByteString.isSpace)
  let digits := rest.takeWhile fun byte => 48 ≤ byte && byte ≤ 55
  let magnitude : ℤ := Nat.ofDigits 8 (digits.reverse.map fun byte => byte.toNat - 48)
  max (-2 ^ 63) (min (if negative then -magnitude else magnitude) (2 ^ 63 - 1))

def bootGrubGrubCfg : ByteString := bytes "/boot/grub/grub.cfg"
def bootGrubGrubConf : ByteString := bytes "/boot/grub/grub.conf"
def bootGrub2GrubCfg : ByteString := bytes "/boot/grub2/grub.cfg"
def bootGrub2GrubConf : ByteString := bytes "/boot/grub2/grub.conf"
def bootGrubUserCfg : ByteString := bytes "/boot/grub/user.cfg"
def bootGrub2UserCfg : ByteString := bytes "/boot/grub2/user.cfg"

def defaultEnsurePermissionsOnBootloaderConfig : ByteString :=
  bytes "00400"

def initEnsurePermissionsOnBootloaderConfig (value : Option ByteString) : ByteString :=
  replaceString value defaultEnsurePermissionsOnBootloaderConfig

/-- The mode that a text asks for. -/
def octalMode (value : ByteString) : BitVec 32 :=
  BitVec.ofInt 32 (strtolOctal value)

/-- The disjunction of the remediation over some files. -/
def setFirst (host : Host) (mode : BitVec 32) : List ByteString → Files → Bool × Files
  | [], files => (false, files)
  | name :: rest, files =>
      if isThere files name then
        let (status, files) := setFileAccess host name 0 0 mode files
        if status = 0 then (true, files) else setFirst host mode rest files
      else setFirst host mode rest files

/-- The files in the order of the remediation. -/
def remediatedFiles : List ByteString :=
  [bootGrubGrubCfg, bootGrubGrubConf, bootGrub2GrubCfg, bootGrubUserCfg, bootGrub2UserCfg,
    bootGrub2GrubConf]

/-- `RemediateEnsurePermissionsOnBootloaderConfig`; the status, the desired value that it leaves
for the audit, and the files. -/
def remediateEnsurePermissionsOnBootloaderConfig (host : Host) (value : Option ByteString)
    (files : Files) : ℤ × Option ByteString × Files :=
  let desired := initEnsurePermissionsOnBootloaderConfig value
  let (done, files) := setFirst host (octalMode desired) remediatedFiles files
  (if done then 0 else enoent, some desired, files)

/-- The checks of the audit, which ends at the first that fails. -/
def checkEach (mode : BitVec 32) (files : Files) :
    List ByteString → Option ByteString → Option ByteString
  | [], reason => reason
  | name :: rest, reason =>
      let (status, reason) := checkFileAccess name 0 0 mode reason files
      if status ≠ 0 then reason else checkEach mode files rest reason

/-- The files in the order of the audit. -/
def auditedFiles : List ByteString :=
  [bootGrubGrubCfg, bootGrubGrubConf, bootGrub2GrubCfg, bootGrub2GrubConf, bootGrubUserCfg,
    bootGrub2UserCfg]

def auditEnsurePermissionsOnBootloaderConfig (desired : Option ByteString) (files : Files) :
    Option ByteString :=
  let value := desired.getD defaultEnsurePermissionsOnBootloaderConfig
  checkEach (octalMode value) files auditedFiles none

section Auditing

variable {files : Files} {mode : BitVec 32}

/-- A file is missing, or it conforms. -/
def IsSecured (mode : BitVec 32) (files : Files) (name : ByteString) : Prop :=
  ∀ file, files.stat name = .ok file → Conforms 0 0 mode file

theorem isThere_iff {name : ByteString} :
    isThere files name = true ↔ ∃ file, files.stat name = .ok file := by
  rw [isThere]
  cases answer : files.stat name with
  | ok file => simp
  | error errno => simp

theorem isSecured_of_missing {name : ByteString} (missing : ¬isThere files name = true) :
    IsSecured mode files name :=
  fun file held => absurd (isThere_iff.mpr ⟨file, held⟩) missing

theorem isSecured_iff {name : ByteString} {file : FileState} (held : files.stat name = .ok file) :
    IsSecured mode files name ↔ Conforms 0 0 mode file := by
  rw [IsSecured, held]
  exact ⟨fun all => all file rfl, fun conforms other same => by cases same; exact conforms⟩

theorem isSuccessReason_of_passed {reason : Option ByteString}
    (success : reason.any passed = true) : isSuccessReason reason = true := by
  cases reason with
  | none => rfl
  | some reason => exact success

/-- Each check passes exactly if its file is missing or conforms. -/
theorem checkFileAccess_spec {name : ByteString} {reason : Option ByteString}
    (success : isSuccessReason reason = true) :
    ((checkFileAccess name 0 0 mode reason files).1 = 0 ↔ IsSecured mode files name) ∧
      ((checkFileAccess name 0 0 mode reason files).2.any passed = true ↔
        IsSecured mode files name) := by
  have asked : (0 : BitVec 32) ≠ -1 := by decide
  cases answer : files.stat name with
  | ok file =>
      rw [isSecured_iff answer]
      exact checkFileAccess_of_stat answer asked asked reason
  | error errno =>
      have missing : isThere files name = false := by rw [isThere, answer]
      have secured : IsSecured mode files name := isSecured_of_missing (by simp [missing])
      exact ⟨iff_of_true (checkFileAccess_of_missing missing success).1 secured,
        iff_of_true (checkFileAccess_of_missing missing success).2 secured⟩

/-- The checks pass exactly if all files are missing or conform. -/
theorem checkEach_passed_iff (names : List ByteString) (some_names : names ≠ [])
    {reason : Option ByteString} (success : isSuccessReason reason = true) :
    (checkEach mode files names reason).any passed = true ↔
      ∀ name ∈ names, IsSecured mode files name := by
  induction names generalizing reason with
  | nil => exact absurd rfl some_names
  | cons name rest ih =>
      have check := @checkFileAccess_spec files mode name reason success
      rw [checkEach, List.forall_mem_cons]
      by_cases secured : IsSecured mode files name
      · simp only [check.1.mpr secured, ne_eq, not_true_eq_false, if_false, secured, true_and]
        have passes := check.2.mpr secured
        cases rest with
        | nil => simpa [checkEach] using passes
        | cons next more => exact ih (by simp) (isSuccessReason_of_passed passes)
      · have fails : (checkFileAccess name 0 0 mode reason files).1 ≠ 0 :=
          fun zero => secured (check.1.mp zero)
        simp only [fails, ne_eq, not_false_eq_true, if_true, secured, false_and, iff_false]
        exact fun passes => secured (check.2.mp passes)

end Auditing

section Remediating

variable {host : Host} {files : Files} {mode : BitVec 32}

/-- No change of an owner or a mode fails. -/
def ChangesSucceed (files : Files) : Prop :=
  ∀ name, files.chownFailure name = none ∧ files.chmodFailure name = none

theorem setFirst_of_missing {names : List ByteString}
    (missing : ∀ name ∈ names, ¬isThere files name = true) :
    setFirst host mode names files = (false, files) := by
  induction names with
  | nil => rfl
  | cons name rest ih =>
      rw [List.forall_mem_cons] at missing
      rw [setFirst, if_neg missing.1, ih missing.2]

theorem setFirst_append (succeed : ChangesSucceed files) {before rest : List ByteString}
    {first : ByteString} {file : FileState}
    (missing : ∀ name ∈ before, ¬isThere files name = true) (held : files.stat first = .ok file) :
    setFirst host mode (before ++ first :: rest) files =
      (true, (setFileAccess host first 0 0 mode files).2) := by
  have present : isThere files first = true := isThere_iff.mpr ⟨file, held⟩
  have done : (setFileAccess host first 0 0 mode files).1 = 0 :=
    (setFileAccess_of_stat held (succeed first).1 (succeed first).2).1
  induction before with
  | nil =>
      rw [List.nil_append, setFirst, if_pos present]
      simp only [done, if_true]
  | cons name names ih =>
      rw [List.forall_mem_cons] at missing
      rw [List.cons_append, setFirst, if_neg missing.1, ih missing.2]

/-- The change of a file that is there secures it unless the restricted deletion flag is asked for,
and leaves the others as they are. -/
theorem isSecured_setFileAccess_iff (succeed : ChangesSucceed files) {first : ByteString}
    {file : FileState} (held : files.stat first = .ok file) :
    (IsSecured mode (setFileAccess host first 0 0 mode files).2 first ↔
        IsSecured mode files first ∨ mode &&& isVtx = 0) ∧
      ∀ name ≠ first, (IsSecured mode (setFileAccess host first 0 0 mode files).2 name ↔
        IsSecured mode files name) := by
  rw [isSecured_iff held]
  rcases (@setFileAccess_of_stat host files first mode file held (succeed first).1
    (succeed first).2).2 with ⟨conforms, same⟩ | ⟨differs, changed, changed_eq, stat_eq⟩
  · rw [same, isSecured_iff held]
    exact ⟨iff_of_true conforms (.inl conforms), fun name _ => Iff.rfl⟩
  · rw [changed_eq]
    have now : changed.stat first = .ok (FileState.chmod (mode.setWidth 16)
        (FileState.chown host 0 0 file)) := by rw [stat_eq, Function.update_self]
    refine ⟨?_, fun name other => ?_⟩
    · rw [isSecured_iff now, conforms_chmod_iff, or_iff_right differs]
    · rw [IsSecured, IsSecured, stat_eq, Function.update_of_ne other]

/-- The remediation secures all files exactly if it could do so with the first that is there, and
the others are secured. -/
theorem setFirst_secures_iff (succeed : ChangesSucceed files) {names others : List ByteString}
    {first : ByteString} (distinct : names.Nodup)
    (existing : names.filter (isThere files) = first :: others) :
    (setFirst host mode names files).1 = true ∧
      ((∀ name ∈ names, IsSecured mode (setFirst host mode names files).2 name) ↔
        (IsSecured mode files first ∨ mode &&& isVtx = 0) ∧
          ∀ other ∈ others, IsSecured mode files other) := by
  rcases List.filter_eq_cons_iff.mp existing with ⟨before, rest, rfl, missing, present, rfl⟩
  rcases isThere_iff.mp present with ⟨file, held⟩
  rw [setFirst_append succeed missing held]
  refine ⟨rfl, ?_⟩
  rcases @isSecured_setFileAccess_iff host files mode succeed first file held with
    ⟨at_first, elsewhere⟩
  rw [List.nodup_append, List.nodup_cons] at distinct
  have in_front : ∀ name ∈ before,
      IsSecured mode (setFileAccess host first 0 0 mode files).2 name := by
    intro name mem
    have other : name ≠ first := distinct.2.2 name mem first List.mem_cons_self
    exact (elsewhere name other).mpr (isSecured_of_missing (missing name mem))
  have behind : (∀ name ∈ rest, IsSecured mode (setFileAccess host first 0 0 mode files).2 name) ↔
      ∀ other ∈ rest.filter (isThere files), IsSecured mode files other := by
    constructor
    · intro secured other mem
      rw [List.mem_filter] at mem
      have different : other ≠ first := fun same => distinct.2.1.1 (same ▸ mem.1)
      exact (elsewhere other different).mp (secured other mem.1)
    · intro secured name mem
      have different : name ≠ first := fun same => distinct.2.1.1 (same ▸ mem)
      rw [elsewhere name different]
      by_cases there : isThere files name = true
      · exact secured name (List.mem_filter.mpr ⟨mem, there⟩)
      · exact isSecured_of_missing there
  rw [List.forall_mem_append, List.forall_mem_cons, at_first, behind]
  exact and_iff_right in_front

theorem nodup_remediatedFiles : remediatedFiles.Nodup := by
  have names : remediatedFiles = ["/boot/grub/grub.cfg", "/boot/grub/grub.conf",
      "/boot/grub2/grub.cfg", "/boot/grub/user.cfg", "/boot/grub2/user.cfg",
      "/boot/grub2/grub.conf"].map bytes := rfl
  rw [names]
  exact List.Nodup.map bytes_injective (by decide)

theorem auditedFiles_perm : auditedFiles.Perm remediatedFiles := by
  rw [auditedFiles, remediatedFiles]
  refine .cons _ (.cons _ (.cons _ ?_))
  exact @List.perm_append_comm _ [bootGrub2GrubConf] _

theorem audit_remediated_iff (host : Host) (value : Option ByteString)
    (succeed : ChangesSucceed files) {first : ByteString} {others : List ByteString}
    (existing : remediatedFiles.filter (isThere files) = first :: others) :
    (remediateEnsurePermissionsOnBootloaderConfig host value files).1 = 0 ∧
      ((auditEnsurePermissionsOnBootloaderConfig
          (remediateEnsurePermissionsOnBootloaderConfig host value files).2.1
          (remediateEnsurePermissionsOnBootloaderConfig host value files).2.2).any passed = true ↔
        (IsSecured (octalMode (initEnsurePermissionsOnBootloaderConfig value)) files first ∨
            octalMode (initEnsurePermissionsOnBootloaderConfig value) &&& isVtx = 0) ∧
          ∀ other ∈ others,
            IsSecured (octalMode (initEnsurePermissionsOnBootloaderConfig value)) files other) := by
  simp only [remediateEnsurePermissionsOnBootloaderConfig,
    auditEnsurePermissionsOnBootloaderConfig, Option.getD_some]
  generalize octalMode (initEnsurePermissionsOnBootloaderConfig value) = mode
  rcases @setFirst_secures_iff host files mode succeed _ others first nodup_remediatedFiles
    existing with ⟨done, secures⟩
  rw [checkEach_passed_iff auditedFiles (by simp [auditedFiles]) rfl]
  simp only [auditedFiles_perm.mem_iff]
  exact ⟨by rw [done, if_pos rfl], secures⟩

/-- A successful remediation makes the audit pass exactly if the first file that is there conforms
already or no restricted deletion flag is asked for, and all other files conform already. -/
theorem remediation_passes_iff (host : Host) (value : Option ByteString) (files : Files)
    (succeed : ChangesSucceed files) :
    ((remediateEnsurePermissionsOnBootloaderConfig host value files).1 = 0 →
        (auditEnsurePermissionsOnBootloaderConfig
          (remediateEnsurePermissionsOnBootloaderConfig host value files).2.1
          (remediateEnsurePermissionsOnBootloaderConfig host value files).2.2).any passed = true) ↔
      ∀ first others, remediatedFiles.filter (isThere files) = first :: others →
        (IsSecured (octalMode (initEnsurePermissionsOnBootloaderConfig value)) files first ∨
            octalMode (initEnsurePermissionsOnBootloaderConfig value) &&& isVtx = 0) ∧
          ∀ other ∈ others,
            IsSecured (octalMode (initEnsurePermissionsOnBootloaderConfig value)) files other := by
  cases existing : remediatedFiles.filter (isThere files) with
  | nil =>
      have missing : ∀ name ∈ remediatedFiles, ¬isThere files name = true :=
        List.filter_eq_nil_iff.mp existing
      have fails : (remediateEnsurePermissionsOnBootloaderConfig host value files).1 ≠ 0 := by
        rw [remediateEnsurePermissionsOnBootloaderConfig, setFirst_of_missing missing]
        simp [enoent]
      refine iff_of_true (fun zero => absurd zero fails) ?_
      intro first others same
      cases same
  | cons first others =>
      rcases audit_remediated_iff host value succeed existing with ⟨zero, passes⟩
      rw [passes]
      constructor
      · intro secured next more same
        rw [List.cons.injEq] at same
        rw [← same.1, ← same.2]
        exact secured zero
      · intro secured _
        exact secured first others rfl

/-- A machine on which every file is there and belongs to the superuser. -/
def everyFile (mode : BitVec 16) : Files where
  stat _ := .ok ⟨0, 0, mode⟩

def sampleHost : Host where
  users := ⟨fun _ => none, fun _ => none⟩
  groups := ⟨fun _ => none, fun _ => none⟩
  strerror _ := []
  chownClears := ComplianceEngine.linuxChownClears
  chownClears_within := ComplianceEngine.linuxChownClears_within

theorem filter_everyFile (mode : BitVec 16) :
    remediatedFiles.filter (isThere (everyFile mode)) = remediatedFiles := by
  rw [List.filter_eq_self]
  exact fun name _ => rfl

theorem octalMode_default : octalMode (initEnsurePermissionsOnBootloaderConfig none) = 0o400 := by
  rw [initEnsurePermissionsOnBootloaderConfig, replaceString,
    defaultEnsurePermissionsOnBootloaderConfig, bytes_ofList]
  decide

theorem remediation_passes_iff_conforming :
    (∀ name, (everyFile 0o100400).chownFailure name = none ∧
      (everyFile 0o100400).chmodFailure name = none) ∧
    ((remediateEnsurePermissionsOnBootloaderConfig sampleHost none (everyFile 0o100400)).1 = 0 →
      (auditEnsurePermissionsOnBootloaderConfig
        (remediateEnsurePermissionsOnBootloaderConfig sampleHost none (everyFile 0o100400)).2.1
        (remediateEnsurePermissionsOnBootloaderConfig sampleHost none
          (everyFile 0o100400)).2.2).any passed = true) := by
  have conforms : ∀ name, IsSecured 0o400 (everyFile 0o100400) name := by
    intro name file held
    cases held
    exact ⟨rfl, rfl, by decide⟩
  refine ⟨fun _ => ⟨rfl, rfl⟩, ?_⟩
  refine (remediation_passes_iff sampleHost none _ fun _ => ⟨rfl, rfl⟩).mpr ?_
  intro first others _
  rw [octalMode_default]
  exact ⟨.inl (conforms first), fun other _ => conforms other⟩

/-- The second file stays readable for everyone. -/
theorem second_file_unsecured :
    ¬∀ (value : Option ByteString) (files : Files), ChangesSucceed files →
      (remediateEnsurePermissionsOnBootloaderConfig sampleHost value files).1 = 0 →
        (auditEnsurePermissionsOnBootloaderConfig
          (remediateEnsurePermissionsOnBootloaderConfig sampleHost value files).2.1
          (remediateEnsurePermissionsOnBootloaderConfig sampleHost value files).2.2).any passed =
            true := by
  intro all
  have succeed : ChangesSucceed (everyFile 0o100644) := fun _ => ⟨rfl, rfl⟩
  have existing := filter_everyFile 0o100644
  rw [remediatedFiles] at existing
  rcases audit_remediated_iff sampleHost none succeed existing with ⟨zero, passes⟩
  have secured := (passes.mp (all none _ succeed zero)).2 bootGrubGrubConf List.mem_cons_self
  rw [octalMode_default] at secured
  have conforms := (secured _ rfl).2.2
  revert conforms
  decide

end Remediating

end OsConfig.Asb
