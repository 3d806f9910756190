import OsConfig.Common.PassUtils.Lockout.FaillockConf
import OsConfig.Common.FileUtils.Editing
import OsConfig.Common.FileUtils.Saving
import OsConfig.Common.PassUtils.CreationRequirements

/-!
# Whether the remediation of the lockout passes the audit

The remediation leaves both models in order: the values in `faillock.conf` and the
line in each PAM file that exists. It fails the audit where it has nothing to write:
no PAM file, or no module to name in one.
-/

namespace OsConfig.CommonUtils

section Legacy

variable {fs : FileSystem} {pamSo fileName line : ByteString} {reason : Option ByteString}

def SetsLockout (pamSo line : ByteString) : Prop :=
  line.head? ≠ some 35 ∧ line.head? ≠ some 10 ∧
    (bytes "auth" <:+: line ∧ pamSo <:+: line ∧
      getStringOptionFromBuffer line (bytes "auth") 32 35 = some (bytes "required")) ∧
    (0 ≤ (getIntegerOptionFromBuffer line (bytes "deny") 61 35).toInt ∧
      (getIntegerOptionFromBuffer line (bytes "deny") 61 35).toInt ≤ 5) ∧
    0 < (getIntegerOptionFromBuffer line (bytes "unlock_time") 61 35).toInt

instance (pamSo line : ByteString) : Decidable (SetsLockout pamSo line) :=
  inferInstanceAs (Decidable (_ ∧ _))

theorem scanLockoutLines_iff (scan : LockoutScan) (lines : List ByteString) :
    (scanLockoutLines pamSo 35 scan lines).1 = true ↔ ∃ line ∈ lines, SetsLockout pamSo line := by
  induction lines generalizing scan with
  | nil => simp [scanLockoutLines]
  | cons line rest ih =>
      have others (refused : ¬SetsLockout pamSo line) :
          (∃ other ∈ rest, SetsLockout pamSo other) ↔
            ∃ other ∈ line :: rest, SetsLockout pamSo other := by
        simp [refused]
      simp only [scanLockoutLines]
      split_ifs with passedOver named denies unlocks
      · rw [ih]
        apply others
        rintro ⟨uncommented, written, -⟩
        exact passedOver.elim uncommented written
      · have sets : SetsLockout pamSo line :=
          ⟨fun head => passedOver (.inl head), fun head => passedOver (.inr head), named, denies,
            unlocks⟩
        exact ⟨fun _ => ⟨line, List.mem_cons_self, sets⟩, fun _ => rfl⟩
      · rw [ih]
        exact others fun sets => unlocks sets.2.2.2.2
      · rw [ih]
        exact others fun sets => denies sets.2.2.2.1
      · rw [ih]
        exact others fun sets => named sets.2.2.1

/-- A file with a line that sets up the lockout. -/
def LocksOut (pamSo fileName : ByteString) (fs : FileSystem) : Prop :=
  ∃ content, fs.read fileName = some content ∧
    ∃ line ∈ (fgetsLines content).map ByteString.cString, SetsLockout pamSo line

theorem checkLockout_eq_zero_iff :
    (checkLockoutForFailedPasswordAttempts fileName pamSo 35 reason fs).1 = 0 ↔
      LocksOut pamSo fileName fs := by
  cases held : fs.read fileName with
  | none =>
      simp [checkLockoutForFailedPasswordAttempts, checkFileExists, FileSystem.fileExists, held,
        LocksOut, enoent]
  | some content =>
      have locks : LocksOut pamSo fileName fs ↔
          ∃ line ∈ (fgetsLines content).map ByteString.cString, SetsLockout pamSo line := by
        simp [LocksOut, held]
      rw [locks, ← scanLockoutLines_iff ⟨false, intEnoent, intEnoent⟩]
      simp only [checkLockoutForFailedPasswordAttempts, checkFileExists, FileSystem.fileExists, held,
        Option.isSome_some, if_true, ne_eq, not_true_eq_false, if_false, Option.getD_some]
      split_ifs with found commented
      · simp [found]
      · simp [found, enoent]
      · simp [found, enoent]

theorem passed_checkLockout
    (succeeds : (checkLockoutForFailedPasswordAttempts fileName pamSo 35 reason fs).1 = 0) :
    (checkLockoutForFailedPasswordAttempts fileName pamSo 35 reason fs).2.any passed = true := by
  simp only [checkLockoutForFailedPasswordAttempts] at succeeds ⊢
  split_ifs at succeeds ⊢
  · cases succeeds
  · exact any_passed_captureSuccessReason _ _
  · cases succeeds
  · cases succeeds

end Legacy

section Modern

variable {fs : FileSystem} {pamFile faillockConf : ByteString} {reason : Option ByteString}

/-- The values of the file are accepted, where they are set. -/
def ValuesComply (faillockConf : ByteString) (fs : FileSystem) : Prop :=
  (getFaillockConfIntegerOption faillockConf (bytes "deny") fs = intEnoent ∨
      (getFaillockConfIntegerOption faillockConf (bytes "deny") fs).toInt ≤ 5) ∧
    (getFaillockConfIntegerOption faillockConf (bytes "unlock_time") fs = intEnoent ∨
      0 < (getFaillockConfIntegerOption faillockConf (bytes "unlock_time") fs).toInt)

theorem checkViaFaillockConf_eq_zero_iff :
    (checkLockoutForFailedPasswordAttemptsViaFaillockConf pamFile faillockConf reason fs).1 = 0 ↔
      fs.fileExists faillockConf = true ∧
        checkLineFoundNotCommentedOut pamFile 35 pamFaillockSo fs = 0 ∧
          ValuesComply faillockConf fs := by
  simp only [checkLockoutForFailedPasswordAttemptsViaFaillockConf, ValuesComply]
  split
  next missing => simp_all [enoent]
  next there =>
    split
    next unreferenced => simp [unreferenced, enoent]
    next referenced =>
      split
      next denies =>
        have large : ¬(getFaillockConfIntegerOption faillockConf (bytes "deny") fs).toInt ≤ 5 := by
          omega
        simp [enoent, denies.1, large]
      next denies =>
        split
        next unlocks =>
          have small :
              ¬0 < (getFaillockConfIntegerOption faillockConf (bytes "unlock_time") fs).toInt := by
            omega
          simp [enoent, unlocks.1, small]
        next unlocks =>
          rw [not_and_or, not_not, not_lt] at denies
          rw [not_and_or, not_not, not_le] at unlocks
          exact ⟨fun _ => ⟨by simpa using there, not_not.mp referenced, denies, unlocks⟩,
            fun _ => rfl⟩

theorem passed_checkViaFaillockConf
    (succeeds : (checkLockoutForFailedPasswordAttemptsViaFaillockConf pamFile faillockConf reason
      fs).1 = 0) :
    (checkLockoutForFailedPasswordAttemptsViaFaillockConf pamFile faillockConf reason
      fs).2.any passed = true := by
  rcases checkViaFaillockConf_eq_zero_iff.mp succeeds with ⟨there, found, deny, unlockTime⟩
  rw [← not_not (a := _ = intEnoent), ← not_lt, ← not_and_or] at deny
  rw [← not_not (a := _ = intEnoent), ← not_le, ← not_and_or] at unlockTime
  simp only [checkLockoutForFailedPasswordAttemptsViaFaillockConf, there, found, Bool.not_true,
    Bool.false_eq_true, if_false, ne_eq, not_true_eq_false, if_neg deny, if_neg unlockTime]
  exact any_passed_captureSuccessReason _ _

/-- Both signals of the modern model: the file with its values, and a PAM file that names the
module. -/
def ModernModel (fs : FileSystem) : Prop :=
  fs.fileExists etcSecurityFaillockConf = true ∧
    ∃ pamFile ∈ pamFiles, checkLineFoundNotCommentedOut pamFile 35 pamFaillockSo fs = 0

instance (fs : FileSystem) : Decidable (ModernModel fs) :=
  inferInstanceAs (Decidable (_ ∧ _))

/-- The order in which the PAM files are inspected does not matter. -/
theorem checkModernModel_iff {inspected : List ByteString}
    (same : ∀ pamFile, pamFile ∈ inspected ↔ pamFile ∈ pamFiles) :
    checkPamFaillockModernModelInUse inspected etcSecurityFaillockConf fs = 0 ↔ ModernModel fs := by
  have some_files : inspected ≠ [] := by
    rintro rfl
    exact absurd ((same etcPamdLogin).mpr (by simp [pamFiles])) List.not_mem_nil
  have exists_of_found (pamFile : ByteString)
      (found : checkLineFoundNotCommentedOut pamFile 35 pamFaillockSo fs = 0) :
      fs.fileExists pamFile = true := by
    rw [checkLineFoundNotCommentedOut] at found
    split at found
    · cases found
    next there => simpa using there
  have referenced : (inspected.any fun pamFile => fs.fileExists pamFile &&
      checkLineFoundNotCommentedOut pamFile 35 pamFaillockSo fs = 0) = true ↔
        ∃ pamFile ∈ pamFiles, checkLineFoundNotCommentedOut pamFile 35 pamFaillockSo fs = 0 := by
    simp only [List.any_eq_true, Bool.and_eq_true, decide_eq_true_eq, same]
    constructor
    · rintro ⟨pamFile, mem, -, found⟩
      exact ⟨pamFile, mem, found⟩
    · rintro ⟨pamFile, mem, found⟩
      exact ⟨pamFile, mem, exists_of_found pamFile found, found⟩
  rw [checkPamFaillockModernModelInUse, if_neg some_files, ModernModel, ← referenced]
  split_ifs with missing inUse
  · simp_all [enoent]
  · simp_all
  · simp_all [enoent]

end Modern

section Audit

variable {fs : FileSystem}

theorem passed_of_returnReasonIfZero
    {checks : List (Option ByteString → FileSystem → ℤ × Option ByteString)}
    {reason result : Option ByteString}
    (passes : ∀ check ∈ checks, ∀ reason, (check reason fs).1 = 0 →
      (check reason fs).2.any passed = true)
    (returned : returnReasonIfZero fs checks reason = some result) : result.any passed = true := by
  induction checks generalizing reason with
  | nil => cases returned
  | cons check rest ih =>
      simp only [returnReasonIfZero] at returned
      split_ifs at returned with succeeds
      · rw [← Option.some.inj returned]
        exact passes check List.mem_cons_self reason succeeds
      · exact ih (fun other mem => passes other (List.mem_cons_of_mem _ mem)) returned

/-- Whether a check succeeds does not depend on the reasons captured before it. -/
theorem returnReasonIfZero_isSome_iff
    {checks : List (Option ByteString → FileSystem → ℤ × Option ByteString)}
    {reason : Option ByteString}
    (same : ∀ check ∈ checks, ∀ reason, (check reason fs).1 = 0 ↔ (check none fs).1 = 0) :
    (returnReasonIfZero fs checks reason).isSome = true ↔
      ∃ check ∈ checks, (check none fs).1 = 0 := by
  induction checks generalizing reason with
  | nil => simp [returnReasonIfZero]
  | cons check rest ih =>
      simp only [returnReasonIfZero]
      split_ifs with succeeds
      · have first := (same check List.mem_cons_self reason).mp succeeds
        exact ⟨fun _ => ⟨check, List.mem_cons_self, first⟩, fun _ => rfl⟩
      · have fails : ¬(check none fs).1 = 0 := fun first =>
          succeeds ((same check List.mem_cons_self reason).mpr first)
        rw [ih fun other mem => same other (List.mem_cons_of_mem _ mem)]
        simp [fails]

/-- A PAM file sets up the lockout with one of the modules. -/
def LegacyModel (fs : FileSystem) : Prop :=
  ∃ pamSo ∈ lockoutModules, ∃ pamFile ∈ pamFiles, LocksOut pamSo pamFile fs

/-- The audit passes if the model that is in use is in order. -/
theorem audit_passes_iff :
    (auditEnsureLockoutForFailedPasswordAttempts fs).any passed = true ↔
      if ModernModel fs then ValuesComply etcSecurityFaillockConf fs else LegacyModel fs := by
  have returns_iff (checks) (passes : ∀ check ∈ checks, ∀ reason, (check reason fs).1 = 0 →
      (check reason fs).2.any passed = true)
      (same : ∀ check ∈ checks, ∀ reason, (check reason fs).1 = 0 ↔ (check none fs).1 = 0) :
      ((returnReasonIfZero fs checks none).getD (some noLockoutReason)).any passed = true ↔
        ∃ check ∈ checks, (check none fs).1 = 0 := by
    rw [← returnReasonIfZero_isSome_iff same]
    cases returned : returnReasonIfZero fs checks none with
    | some result => simpa using passed_of_returnReasonIfZero passes returned
    | none =>
        have fails : passed noLockoutReason = false := by
          rw [passed, noLockoutReason, securityAuditPass]
          repeat rw [bytes_ofList]
          decide
        simp [fails]
  rw [auditEnsureLockoutForFailedPasswordAttempts]
  simp only [checkModernModel_iff fun _ => Iff.rfl]
  by_cases modern : ModernModel fs
  · rw [if_pos modern, returns_iff]
    · simp only [lockoutChecks, modern, decide_true, if_true, List.mem_map, exists_exists_and_eq_and,
        checkViaFaillockConf_eq_zero_iff]
      rcases modern with ⟨held, pamFile, mem, found⟩
      exact ⟨fun ⟨_, _, _, _, comply⟩ => comply, fun comply => ⟨pamFile, mem, held, found, comply⟩⟩
    · simp only [lockoutChecks, modern, decide_true, if_true, List.forall_mem_map]
      exact fun pamFile _ reason => passed_checkViaFaillockConf
    · simp only [lockoutChecks, modern, decide_true, if_true, List.forall_mem_map,
        checkViaFaillockConf_eq_zero_iff]
      simp
  · rw [if_neg modern, returns_iff]
    · simp only [lockoutChecks, modern, decide_false, Bool.false_eq_true, if_false,
        List.mem_flatMap, List.mem_map, LegacyModel]
      constructor
      · rintro ⟨_, ⟨pamSo, known, pamFile, mem, rfl⟩, succeeds⟩
        exact ⟨pamSo, known, pamFile, mem, checkLockout_eq_zero_iff.mp succeeds⟩
      · rintro ⟨pamSo, known, pamFile, mem, locks⟩
        exact ⟨_, ⟨pamSo, known, pamFile, mem, rfl⟩, checkLockout_eq_zero_iff.mpr locks⟩
    · intro check mem reason succeeds
      simp only [lockoutChecks, modern, decide_false, Bool.false_eq_true, if_false,
        List.mem_flatMap, List.mem_map] at mem
      rcases mem with ⟨pamSo, -, pamFile, -, rfl⟩
      exact passed_checkLockout succeeds
    · intro check mem reason
      simp only [lockoutChecks, modern, decide_false, Bool.false_eq_true, if_false,
        List.mem_flatMap, List.mem_map] at mem
      rcases mem with ⟨pamSo, -, pamFile, -, rfl⟩
      rw [checkLockout_eq_zero_iff, checkLockout_eq_zero_iff]

end Audit

section Writing

variable {fs : FileSystem}

/-- The values are written so that they are accepted. -/
theorem setLockoutViaFaillockConf_spec {content : ByteString} (random : ℕ → ℕ)
    (held : fs.read etcSecurityFaillockConf = some content) :
    let outcome := setLockoutForFailedPasswordAttemptsViaFaillockConf etcSecurityFaillockConf 3 900
      random fs
    outcome.1 = 0 ∧ outcome.2.fileExists etcSecurityFaillockConf = true ∧
      ValuesComply etcSecurityFaillockConf outcome.2 ∧
        Touches [etcSecurityFaillockConf] fs outcome.2 := by
  intro outcome
  rcases setLockoutViaFaillockConf_reads random held with ⟨status, read, touches⟩
  rcases keyedText_lockedConf content.cString with ⟨deny, unlockTime⟩
  have noNul := noNul_lockedConf (notMem_cString content)
  refine ⟨status, FileSystem.fileExists_iff.mpr ⟨_, read⟩, ?_, touches⟩
  rw [ValuesComply, deny.getFaillockConfIntegerOption isOptionName_deny read noNul,
    unlockTime.getFaillockConfIntegerOption isOptionName_unlockTime read noNul]
  decide

end Writing

section Loop

variable {fs fs' : FileSystem} {pamSo line content path : ByteString} {random : ℕ}

/-- What the remediation may write, with the module that it names. -/
def lockoutLines : List (ByteString × ByteString) :=
  (pamModulePaths pamFaillockSo).map (fun path => (pamFaillockSo, pamFailLockLine path)) ++
    (pamModulePaths pamTally2So).map (fun path => (pamTally2So, pamTally2Line path)) ++
      (pamModulePaths pamTallySo).flatMap fun path =>
        (pamModulePaths pamDenySo).map fun path2 => (pamTallySo, pamTallyDenyLine path path2)

theorem mem_of_findPamModule (found : findPamModule pamSo fs = some path) :
    path ∈ pamModulePaths pamSo :=
  List.mem_of_find?_eq_some found

theorem mem_lockoutLines {pair : ByteString × ByteString}
    (chosen : pamModuleForLockout fs = some pair) : pair ∈ lockoutLines := by
  rw [pamModuleForLockout] at chosen
  rw [lockoutLines, List.mem_append, List.mem_append]
  split at chosen
  next found =>
    cases chosen
    exact .inl (.inl (List.mem_map_of_mem (mem_of_findPamModule found)))
  next =>
    split at chosen
    next found =>
      cases chosen
      exact .inl (.inr (List.mem_map_of_mem (mem_of_findPamModule found)))
    next =>
      split at chosen
      next found found2 =>
        cases chosen
        right
        exact List.mem_flatMap_of_mem (mem_of_findPamModule found)
          (List.mem_map_of_mem (mem_of_findPamModule found2))
      next => cases chosen

/-- The line that sets up the lockout, up to its last setting, in words. -/
def lockoutText (path : ByteString) (words : List ByteString) (deny : BitVec 32)
    (rest : ByteString) : ByteString :=
  ([bytes "auth", bytes "required", path] ++ words).flatMap (· ++ [32]) ++
    (bytes "deny=" ++ (printInt deny ++ (bytes " unlock_time=900" ++ rest)))

theorem pamFailLockLine_eq : pamFailLockLine path = lockoutText path
    [bytes "preauth", bytes "silent", bytes "audit"] 3 (bytes " even_deny_root\n") := by
  have front : bytes "auth required " = bytes "auth" ++ 32 :: (bytes "required" ++ [32]) := by
    repeat rw [bytes_ofList]
    decide
  have back : bytes " preauth silent audit deny=3 unlock_time=900 even_deny_root\n" =
      32 :: (bytes "preauth" ++ 32 :: (bytes "silent" ++ 32 :: (bytes "audit" ++ 32 ::
        (bytes "deny=" ++ (bytes "3" ++ (bytes " unlock_time=900" ++
          bytes " even_deny_root\n")))))) := by
    repeat rw [bytes_ofList]
    decide
  simp only [pamFailLockLine, lockoutText, printInt_values.1, front, back]
  simp

theorem pamTally2Line_eq : pamTally2Line path = lockoutText path
    [bytes "file=/var/log/tallylog", bytes "onerr=fail", bytes "audit", bytes "silent"] 5
      (bytes " even_deny_root\n") := by
  have front : bytes "auth required " = bytes "auth" ++ 32 :: (bytes "required" ++ [32]) := by
    repeat rw [bytes_ofList]
    decide
  have back : bytes
      " file=/var/log/tallylog onerr=fail audit silent deny=5 unlock_time=900 even_deny_root\n" =
        32 :: (bytes "file=/var/log/tallylog" ++ 32 :: (bytes "onerr=fail" ++
        32 :: (bytes "audit" ++ 32 :: (bytes "silent" ++ 32 :: (bytes "deny=" ++ (bytes "5" ++
          (bytes " unlock_time=900" ++ bytes " even_deny_root\n"))))))) := by
    repeat rw [bytes_ofList]
    decide
  simp only [pamTally2Line, lockoutText, printInt_values.2.1, front, back]
  simp

theorem pamTallyDenyLine_eq {path2 : ByteString} : pamTallyDenyLine path path2 =
    lockoutText path [bytes "onerr=fail"] 3 (bytes "\n") ++
      (bytes "auth required " ++ path2 ++ bytes "\n") := by
  have front : bytes "auth required " = bytes "auth" ++ 32 :: (bytes "required" ++ [32]) := by
    repeat rw [bytes_ofList]
    decide
  have back : bytes " onerr=fail deny=3 unlock_time=900\n" =
      32 :: (bytes "onerr=fail" ++ 32 :: (bytes "deny=" ++ (bytes "3" ++
        (bytes " unlock_time=900" ++ bytes "\n")))) := by
    repeat rw [bytes_ofList]
    decide
  simp only [pamTallyDenyLine, lockoutText, printInt_values.1, front, back]
  simp

theorem lockoutModules_plain : ∀ pamSo ∈ lockoutModules, pamSo ≠ [] ∧ 10 ∉ pamSo := by
  decide

/-- Of the modules' paths only one has the name of a setting in it. -/
theorem lockoutPath_plain :
    ∀ pamSo ∈ lockoutModules, ∀ path ∈ pamModulePaths pamSo,
      ¬bytes "deny" <:+: path ∧ ¬bytes "unlock_time" <:+: path := by
  simp only [lockoutModules, pamModulePaths, pamFaillockSo, pamTally2So, pamTallySo]
  repeat rw [bytes_ofList]
  decide

theorem lockoutPath_short :
    ∀ pamSo ∈ pamDenySo :: lockoutModules, ∀ path ∈ pamModulePaths pamSo,
      path.all (fun byte => decide (35 < byte.toNat)) = true ∧ path.length ≤ 64 := by
  simp only [lockoutModules, pamModulePaths, pamFaillockSo, pamTally2So, pamTallySo, pamDenySo]
  repeat rw [bytes_ofList]
  decide

/-- A setting is found behind words without its name. -/
theorem search_words {pattern : ByteString} {words : List ByteString} (rest : ByteString)
    (some_pattern : pattern ≠ []) (noBlank : 32 ∉ pattern)
    (absent : ∀ word ∈ words, ¬pattern <:+: word) :
    Substrings.search pattern (words.flatMap (· ++ [32]) ++ rest) =
      Substrings.search pattern rest := by
  induction words with
  | nil => rfl
  | cons word words ih =>
      rw [List.forall_mem_cons] at absent
      rw [List.flatMap_cons, List.append_assoc, List.append_assoc, List.singleton_append,
        Substrings.search_append_cons _ _ some_pattern noBlank absent.1, ih absent.2]

variable {words : List ByteString} {deny : BitVec 32} {rest : ByteString}

theorem isPlainBody_flatMap (plain : ∀ word ∈ words, IsPlainBody word) :
    IsPlainBody (words.flatMap (· ++ [32])) := by
  intro byte mem
  rcases List.mem_flatMap.mp mem with ⟨word, inside, mem_word⟩
  exact isPlain_append (plain word inside) isPlain_blank byte mem_word

set_option maxRecDepth 4000 in
theorem isPlainBody_lockoutText (plainPath : IsPlainBody path)
    (plainWords : ∀ word ∈ words, IsPlainBody word) (plainRest : IsPlainBody rest) :
    IsPlainBody (lockoutText path words deny rest) := by
  have letters : ∀ word ∈ [bytes "auth", bytes "required", bytes "deny=", bytes " unlock_time=900"],
      word.all (fun byte => byte.toNat == 32 || decide (35 < byte.toNat)) = true := by
    repeat rw [bytes_ofList]
    decide
  have fixed := fun word mem => isPlain_of_all (letters word mem)
  simp only [List.forall_mem_cons] at fixed
  refine isPlain_append (isPlainBody_flatMap ?_) (isPlain_append fixed.2.2.1
    (isPlain_append (isPlain_printInt deny) (isPlain_append fixed.2.2.2.1 plainRest)))
  simp only [List.cons_append, List.nil_append, List.forall_mem_cons]
  exact ⟨fixed.1, fixed.2.1, plainPath, plainWords⟩

set_option maxRecDepth 4000 in
/-- The settings of such a line are found. -/
theorem setsLockout_lockoutText {body : ByteString} (named : pamSo <:+: path)
    (lines_eq : lockoutText path words deny rest = body ++ [10]) (plain : IsPlainBody body)
    (ends : ∃ others, rest = 10 :: others ∨ rest = 32 :: others)
    (apart : ∀ word ∈ path :: words, ¬bytes "deny" <:+: word ∧ ¬bytes "unlock_time" <:+: word)
    (denies : 0 ≤ deny.toInt ∧ deny.toInt ≤ 5)
    (denyApart : ¬bytes "unlock_time" <:+: bytes "deny=" ++ printInt deny) :
    SetsLockout pamSo (lockoutText path words deny rest) := by
  have uncommented : 35 ∉ lockoutText path words deny rest := lines_eq ▸ plain.uncommented
  have front : lockoutText path words deny rest = bytes "auth" ++ 32 :: ([] ++ (bytes "required" ++
      32 :: ((path :: words).flatMap (· ++ [32]) ++ (bytes "deny=" ++ (printInt deny ++
        (bytes " unlock_time=900" ++ rest)))))) := by
    simp [lockoutText]
  have some_auth : bytes "auth" ≠ [] ∧ (bytes "auth").head? = some 97 ∧ 32 ∉ bytes "auth" := by
    rw [bytes_ofList]
    decide
  have head : (lockoutText path words deny rest).head? = some 97 := by
    rw [front, List.head?_append_of_ne_nil _ some_auth.1, some_auth.2.1]
  have fixed : ∀ word ∈ [bytes "auth", bytes "required"],
      ¬bytes "deny" <:+: word ∧ ¬bytes "unlock_time" <:+: word := by
    repeat rw [bytes_ofList]
    decide
  have apartWords : ∀ word ∈ [bytes "auth", bytes "required", path] ++ words,
      ¬bytes "deny" <:+: word ∧ ¬bytes "unlock_time" <:+: word := by
    intro word mem
    rcases List.mem_append.mp (show word ∈ [bytes "auth", bytes "required"] ++ (path :: words) by
      simpa using mem) with first | later
    · exact fixed word first
    · exact apart word later
  have authorized : getStringOptionFromBuffer (lockoutText path words deny rest) (bytes "auth") 32
      35 = some (bytes "required") := by
    have begins : bytes "auth" <+: lockoutText path words deny rest := by
      rw [front]
      exact List.prefix_append _ _
    have some_required : bytes "required" ≠ [] ∧
        ∀ byte ∈ bytes "required", byte ≠ 32 ∧ byte ≠ 10 ∧ byte ≠ 32 := by
      repeat rw [bytes_ofList]
      decide
    have value (others : ByteString) : optionValue 32 (bytes "auth" ++ 32 :: ([] ++
        (bytes "required" ++ 32 :: others))) = bytes "required" :=
      optionValue_eq some_auth.1 some_auth.2.2 (fun some_blank => absurd rfl some_blank) (by simp)
        some_required.1 some_required.2 (.inr rfl)
    rw [getStringOptionFromBuffer_of_uncommented uncommented, Substrings.search_of_prefix begins,
      Option.map_some, front, value]
  have denyValue : getIntegerOptionFromBuffer (lockoutText path words deny rest) (bytes "deny") 61
      35 = deny := by
    have equals : bytes "deny=" = bytes "deny" ++ [61] := by decide
    have behind : bytes " unlock_time=900" = 32 :: bytes "unlock_time=900" := by decide
    have there : Substrings.search (bytes "deny") (lockoutText path words deny rest) =
        some (bytes "deny" ++ 61 :: ([] ++ (printInt deny ++ 32 ::
          (bytes "unlock_time=900" ++ rest)))) := by
      rw [lockoutText, search_words _ (by decide) (by decide) fun word mem => (apartWords word mem).1,
        equals, behind, List.append_assoc]
      exact Substrings.search_of_prefix (List.prefix_append _ _)
    exact getIntegerOptionFromBuffer_eq uncommented there (by decide) (by decide) (by simp) (.inr rfl)
  have unlockValue : getIntegerOptionFromBuffer (lockoutText path words deny rest)
      (bytes "unlock_time") 61 35 = 900 := by
    have nineHundred : bytes " unlock_time=900" =
        32 :: (bytes "unlock_time" ++ 61 :: printInt 900) := by
      rw [printInt_values.2.2]
      repeat rw [bytes_ofList]
      decide
    have there : Substrings.search (bytes "unlock_time") (lockoutText path words deny rest) =
        some (bytes "unlock_time" ++ 61 :: ([] ++ (printInt 900 ++ rest))) := by
      rw [lockoutText, search_words _ (by decide) (by decide) fun word mem => (apartWords word mem).2,
        nineHundred, ← List.append_assoc, List.cons_append,
        Substrings.search_append_cons _ _ (by decide) (by decide) denyApart]
      simpa using Substrings.search_of_prefix (List.prefix_append (bytes "unlock_time") _)
    obtain ⟨others, rfl | rfl⟩ := ends
    · exact getIntegerOptionFromBuffer_eq uncommented there (by decide) (by decide) (by simp)
        (.inl rfl)
    · exact getIntegerOptionFromBuffer_eq uncommented there (by decide) (by decide) (by simp)
        (.inr rfl)
  have auth : bytes "auth" <:+: lockoutText path words deny rest := by
    rw [front]
    exact (List.prefix_append _ _).isInfix
  have module : pamSo <:+: lockoutText path words deny rest := by
    refine named.trans ⟨bytes "auth" ++ 32 :: (bytes "required" ++ [32]), 32 ::
      (words.flatMap (· ++ [32]) ++ (bytes "deny=" ++ (printInt deny ++
        (bytes " unlock_time=900" ++ rest)))), ?_⟩
    simp [lockoutText]
  refine ⟨by simp [head], by simp [head], ⟨auth, module, authorized⟩, ?_, ?_⟩
  · rw [denyValue]
    exact denies
  · rw [unlockValue]
    decide

theorem lockoutText_concat : lockoutText path words deny (rest ++ [10]) =
    lockoutText path words deny rest ++ [10] := by
  simp [lockoutText]

theorem lockoutText_spec (known : pamSo ∈ lockoutModules) (found : path ∈ pamModulePaths pamSo)
    (plainWords : ∀ word ∈ words, ∀ byte ∈ word, byte = 32 ∨ 35 < byte.toNat)
    (apartWords : ∀ word ∈ words, ¬bytes "deny" <:+: word ∧ ¬bytes "unlock_time" <:+: word)
    (plainRest : ∀ byte ∈ rest, byte = 32 ∨ 35 < byte.toNat)
    (ends : ∃ others, rest ++ [10] = 10 :: others ∨ rest ++ [10] = 32 :: others)
    (short : (words.flatMap (· ++ [32])).length + rest.length ≤ 100) (some_deny : deny ∈ [3, 5]) :
    IsTextLine (lockoutText path words deny (rest ++ [10])) ∧
      (lockoutText path words deny (rest ++ [10])).length ≤ 256 ∧
        SetsLockout pamSo (lockoutText path words deny (rest ++ [10])) := by
  rcases lockoutPath_short pamSo (List.mem_cons_of_mem _ known) path found with
    ⟨letters, shortPath⟩
  have plainPath : IsPlainBody path := fun byte mem =>
    .inr (of_decide_eq_true (List.all_eq_true.mp letters byte mem))
  have plain : IsPlainBody (lockoutText path words deny rest) :=
    isPlainBody_lockoutText plainPath plainWords plainRest
  have denies : (0 ≤ deny.toInt ∧ deny.toInt ≤ 5) ∧
      ¬bytes "unlock_time" <:+: bytes "deny=" ++ printInt deny := by
    rw [List.mem_cons, List.mem_singleton] at some_deny
    rcases some_deny with rfl | rfl
    · rw [printInt_values.1]
      exact ⟨by decide, by decide⟩
    · rw [printInt_values.2.1]
      exact ⟨by decide, by decide⟩
  have length : (lockoutText path words deny rest).length ≤ 255 := by
    have digits := length_printInt_le deny
    have fixed : (bytes "auth").length = 4 ∧ (bytes "required").length = 8 ∧
        (bytes "deny=").length = 5 ∧ (bytes " unlock_time=900").length = 16 := by
      repeat rw [bytes_ofList]
      decide
    simp only [lockoutText, List.flatMap_append, List.flatMap_cons, List.flatMap_nil,
      List.length_append, List.length_singleton, List.length_nil, fixed]
    omega
  refine ⟨?_, ?_, ?_⟩
  · rw [lockoutText_concat]
    apply plain.isTextLine
    rw [lineMax]
    omega
  · rw [lockoutText_concat, List.length_append, List.length_singleton]
    omega
  · apply setsLockout_lockoutText (infix_of_mem_pamModulePaths found) lockoutText_concat plain ends
    · rw [List.forall_mem_cons]
      exact ⟨lockoutPath_plain pamSo known path found, apartWords⟩
    · exact denies.1
    · exact denies.2

set_option maxRecDepth 4000 in
theorem lockoutLines_spec {pair : ByteString × ByteString} (mem : pair ∈ lockoutLines) :
    pair.1 ∈ lockoutModules ∧ 1 < pair.2.length ∧ pair.2.length ≤ lineMax ∧ IsText pair.2 ∧
      ∃ line ∈ fgetsLines pair.2, SetsLockout pair.1 line := by
  have root : bytes " even_deny_root\n" = bytes " even_deny_root" ++ [10] ∧
      bytes " even_deny_root" = 32 :: bytes "even_deny_root" ∧
        (bytes " even_deny_root").length = 15 := by
    repeat rw [bytes_ofList]
    decide
  have starts : ∃ others, (bytes " even_deny_root" ++ [10]) = 10 :: others ∨
      (bytes " even_deny_root" ++ [10]) = 32 :: others :=
    ⟨bytes "even_deny_root" ++ [10], .inr (by rw [root.2.1, List.cons_append])⟩
  have plainRoot : IsPlainBody (bytes " even_deny_root") := by
    apply isPlain_of_all
    rw [bytes_ofList]
    decide
  have words : ∀ words ∈ [[bytes "preauth", bytes "silent", bytes "audit"],
      [bytes "file=/var/log/tallylog", bytes "onerr=fail", bytes "audit", bytes "silent"],
        [bytes "onerr=fail"]],
      (∀ word ∈ words, word.all (fun byte => byte.toNat == 32 || decide (35 < byte.toNat)) = true) ∧
        (∀ word ∈ words, ¬bytes "deny" <:+: word ∧ ¬bytes "unlock_time" <:+: word) ∧
          (words.flatMap (· ++ [32])).length + 15 ≤ 100 := by
    repeat rw [bytes_ofList]
    decide
  obtain ⟨plainFaillock, apartFaillock, shortFaillock⟩ := words _ List.mem_cons_self
  obtain ⟨plainTally2, apartTally2, shortTally2⟩ :=
    words _ (List.mem_cons_of_mem _ List.mem_cons_self)
  obtain ⟨plainTally, apartTally, shortTally⟩ :=
    words _ (List.mem_cons_of_mem _ (List.mem_cons_of_mem _ List.mem_cons_self))
  -- A line of text is a text, and it is read as one line.
  have single {pamSo line : ByteString} (known : pamSo ∈ lockoutModules)
      (spec : IsTextLine line ∧ line.length ≤ 256 ∧ SetsLockout pamSo line) :
      pamSo ∈ lockoutModules ∧ 1 < line.length ∧ line.length ≤ lineMax ∧ IsText line ∧
        ∃ other ∈ fgetsLines line, SetsLockout pamSo other := by
    have auth := spec.2.2.2.2.1.1.length_le
    have four : (bytes "auth").length = 4 := by decide
    rw [spec.1.fgetsLines_eq]
    refine ⟨known, by omega, ?_, spec.1.isText, line, List.mem_singleton_self _, spec.2.2⟩
    rw [lineMax]
    omega
  rw [lockoutLines, List.mem_append, List.mem_append, List.mem_map, List.mem_map,
    List.mem_flatMap] at mem
  rcases mem with (⟨path, found, rfl⟩ | ⟨path, found, rfl⟩) | ⟨path, found, mem⟩
  · rw [pamFailLockLine_eq, root.1]
    apply single (by simp [lockoutModules])
    exact lockoutText_spec (by simp [lockoutModules]) found
      (fun word inside => isPlain_of_all (plainFaillock word inside)) apartFaillock plainRoot starts
      (by rw [root.2.2]; exact shortFaillock) (by simp)
  · rw [pamTally2Line_eq, root.1]
    apply single (by simp [lockoutModules])
    exact lockoutText_spec (by simp [lockoutModules]) found
      (fun word inside => isPlain_of_all (plainTally2 word inside)) apartTally2 plainRoot starts
      (by rw [root.2.2]; exact shortTally2) (by simp)
  · obtain ⟨path2, found2, rfl⟩ := List.mem_map.mp mem
    rcases lockoutPath_short pamDenySo (by simp) path2 found2 with ⟨letters, shortPath⟩
    have plainPath : IsPlainBody path2 := fun byte mem =>
      .inr (of_decide_eq_true (List.all_eq_true.mp letters byte mem))
    have front : IsPlainBody (bytes "auth required ") := by
      apply isPlain_of_all
      rw [bytes_ofList]
      decide
    have fixed : (bytes "auth required ").length = 14 := by decide
    have second : IsTextLine (bytes "auth required " ++ path2 ++ [10]) := by
      apply (isPlain_append front plainPath).isTextLine
      rw [List.length_append, fixed, lineMax]
      omega
    have first : IsTextLine (lockoutText path [bytes "onerr=fail"] 3 ([] ++ [10])) ∧
        (lockoutText path [bytes "onerr=fail"] 3 ([] ++ [10])).length ≤ 256 ∧
          SetsLockout pamTallySo (lockoutText path [bytes "onerr=fail"] 3 ([] ++ [10])) := by
      refine lockoutText_spec (by simp [lockoutModules]) found
        (fun word inside => isPlain_of_all (plainTally word inside)) apartTally (by simp)
        ⟨[], .inl rfl⟩ ?_ (by simp)
      rw [List.length_nil]
      omega
    have lines : lockoutText path [bytes "onerr=fail"] 3 ([] ++ [10]) ++
        (bytes "auth required " ++ path2 ++ [10]) =
          [lockoutText path [bytes "onerr=fail"] 3 ([] ++ [10]),
            bytes "auth required " ++ path2 ++ [10]].flatten := by
      simp
    have proper : ∀ line ∈ [lockoutText path [bytes "onerr=fail"] 3 ([] ++ [10]),
        bytes "auth required " ++ path2 ++ [10]], IsTextLine line := by
      rw [List.forall_mem_cons, List.forall_mem_singleton]
      exact ⟨first.1, second⟩
    have endsLine : bytes "\n" = [10] := by decide
    rw [pamTallyDenyLine_eq, endsLine]
    rw [List.nil_append] at lines proper first
    have auth := first.2.2.2.2.1.1.length_le
    have four : (bytes "auth").length = 4 := by decide
    refine ⟨by simp [lockoutModules], ?_, ?_, ?_, ?_⟩
    · simp only [List.length_append]
      omega
    · simp only [List.length_append, List.length_singleton, fixed, lineMax]
      omega
    · rw [lines]
      exact isText_flatten proper
    · rw [lines, fgetsLines_flatten proper]
      exact ⟨_, List.mem_cons_self, first.2.2⟩

/-- What becomes of a PAM file. -/
def lockedContent (chosen : Option (ByteString × ByteString)) (content : ByteString) : ByteString :=
  match chosen with
  | some (pamSo, line) => (replacedLines pamSo line 35 (fgetsLines content)).flatten
  | none => content

/-- The same for a file that need not be a text. -/
def editedPamFile (chosen : Option (ByteString × ByteString)) (content : ByteString) : ByteString :=
  match chosen with
  | some (pamSo, line) =>
      if (fgetsLines content).any (isMarked pamSo 35) then
        (replaceFirst pamSo line 35 (fgetsLines content)).flatten
      else appended content line
  | none => content

theorem editedPamFile_eq_lockedContent (text : IsText content)
    (chosen : Option (ByteString × ByteString)) :
    editedPamFile chosen content = lockedContent chosen content := by
  cases chosen with
  | none => rfl
  | some pair =>
      rw [editedPamFile, lockedContent, flatten_replacedLines_eq text]
      split
      next marked => exact replaceFirst_eq marked
      · rfl

/-- A failure is not forgotten. -/
theorem status_of_setLockoutInPamFile {loop : LockoutLoop}
    (succeeds : (setLockoutInPamFile loop path random).status = 0) : loop.status = 0 := by
  simp only [setLockoutInPamFile] at succeeds
  split_ifs at succeeds with exists_file failed
  · exact absurd succeeds failed.1
  · exact succeeds
  · exact succeeds

theorem status_of_setLockoutInPamFiles {random : ℕ → ℕ} {paths : List ByteString} {i : ℕ}
    {loop : LockoutLoop} (succeeds : (setLockoutInPamFiles random i loop paths).status = 0) :
    loop.status = 0 := by
  induction paths generalizing i loop with
  | nil => exact succeeds
  | cons path rest ih => exact status_of_setLockoutInPamFile (ih succeeds)

theorem setLockoutInPamFile_spec {loop : LockoutLoop}
    (noNul : ∀ content, loop.fs.read path = some content → 0 ∉ content)
    (succeeds : (setLockoutInPamFile loop path random).status = 0) :
    Touches [path] loop.fs (setLockoutInPamFile loop path random).fs ∧
      (setLockoutInPamFile loop path random).fs.read path =
        (loop.fs.read path).map (editedPamFile (pamModuleForLockout loop.fs)) := by
  cases held : loop.fs.read path with
  | none =>
      have missing : loop.fs.fileExists path = false := by simp [FileSystem.fileExists, held]
      rw [setLockoutInPamFile, missing]
      exact ⟨.refl, held⟩
  | some content =>
      have there : loop.fs.fileExists path = true := by simp [held]
      simp only [setLockoutInPamFile, there, if_true] at succeeds ⊢
      cases chosen : pamModuleForLockout loop.fs with
      | none =>
          exact ⟨.refl, by simpa [editedPamFile] using held⟩
      | some pair =>
          rcases pair with ⟨pamSo, line⟩
          simp only [chosen] at succeeds ⊢
          rcases lockoutLines_spec (mem_lockoutLines chosen) with ⟨known, long, short, -⟩
          rcases lockoutModules_plain _ known with ⟨some_module, plain⟩
          have free : loop.fs.read (replacingLinesName path random) = none := by
            by_contra occupied
            have exists_temp : loop.fs.fileExists (replacingLinesName path random) = true :=
              Option.isSome_iff_ne_none.mpr occupied
            simp [replaceMarkedLinesInFile, replaceMarkedLinesInFileInternal, held, exists_temp,
              eacces] at succeeds
            split_ifs at succeeds with same
            · exact absurd (same.trans succeeds) (by decide)
            · cases succeeds
          have pieces : ∀ line ∈ fgetsLines content, IsPiece line := fun _ =>
            isPiece_of_mem_fgetsLines (noNul content held)
          rw [replaceMarkedLinesInFile_pieces held pieces free some_module plain long short]
          refine ⟨touches_write _ (by simp), FileSystem.read_write_self.trans ?_⟩
          rw [Option.map_some, editedPamFile]
          split
          next marked => exact congrArg some (replaceFirst_eq marked).symm
          · rfl

theorem mem_pamConfigurations_iff (path : ByteString) :
    path ∈ pamConfigurations ↔ path ∈ pamFiles := by
  have first : pamConfigurations.Perm
      [etcPamdSystemAuth, etcPamdLogin, etcPamdPasswordAuth, etcPamdCommonAuth] :=
    List.Perm.swap _ _ _
  have second : List.Perm [etcPamdSystemAuth, etcPamdLogin, etcPamdPasswordAuth, etcPamdCommonAuth]
      pamFiles :=
    (List.Perm.swap _ _ _).cons _
  exact (first.trans second).mem_iff

theorem pamFiles_apart : ∀ pamFile ∈ pamFiles, IsLasting pamFile ∧
    basename pamFile ≠ basename etcSecurityFaillockConf := by
  decide +kernel

/-- The modules are looked for where the remediation writes nothing. -/
theorem pamModuleForLockout_congr
    (same : ∀ pamSo ∈ [pamFaillockSo, pamTally2So, pamTallySo, pamDenySo],
      ∀ path ∈ pamModulePaths pamSo, fs'.read path = fs.read path) :
    pamModuleForLockout fs' = pamModuleForLockout fs := by
  have found : ∀ pamSo ∈ [pamFaillockSo, pamTally2So, pamTallySo, pamDenySo],
      findPamModule pamSo fs' = findPamModule pamSo fs := by
    intro pamSo mem
    apply List.find?_congr
    intro path inside
    rw [FileSystem.fileExists, FileSystem.fileExists, same pamSo mem path inside]
  rw [pamModuleForLockout, pamModuleForLockout, found _ (by simp), found _ (by simp),
    found _ (by simp), found _ (by simp)]

theorem Touches.pamModuleForLockout {paths : List ByteString} (touches : Touches paths fs fs')
    (known : paths ⊆ etcSecurityFaillockConf :: pamConfigurations) :
    pamModuleForLockout fs' = pamModuleForLockout fs := by
  -- The names of the modules end in another letter.
  have modules : ∀ pamSo ∈ [pamFaillockSo, pamTally2So, pamTallySo, pamDenySo],
      ∀ path ∈ pamModulePaths pamSo, IsLasting path ∧ (basename path).getLast? = some 111 := by
    decide +kernel
  have written : ∀ path ∈ etcSecurityFaillockConf :: pamConfigurations,
      (basename path).getLast? ≠ some 111 := by
    decide +kernel
  apply pamModuleForLockout_congr
  intro pamSo mem path inside
  rcases modules pamSo mem path inside with ⟨lasting, last⟩
  apply touches.read path lasting
  exact fun touched touches same => written touched (known touches) (same ▸ last)

theorem setLockoutInPamFiles_spec {random : ℕ → ℕ} {paths : List ByteString} {i : ℕ}
    {loop : LockoutLoop} (known : paths ⊆ pamConfigurations) (once : (paths.map basename).Nodup)
    (noNul : ∀ path ∈ paths, ∀ content, loop.fs.read path = some content → 0 ∉ content)
    (succeeds : (setLockoutInPamFiles random i loop paths).status = 0) :
    Touches paths loop.fs (setLockoutInPamFiles random i loop paths).fs ∧
      ∀ path ∈ paths, (setLockoutInPamFiles random i loop paths).fs.read path =
        (loop.fs.read path).map (editedPamFile (pamModuleForLockout loop.fs)) := by
  have lasting (path : ByteString) (mem : path ∈ pamConfigurations) : IsLasting path :=
    (pamFiles_apart path ((mem_pamConfigurations_iff path).mp mem)).1
  induction paths generalizing i loop with
  | nil => exact ⟨.refl, by simp⟩
  | cons path rest ih =>
      rw [List.forall_mem_cons] at noNul
      rw [List.map_cons, List.nodup_cons] at once
      rw [List.cons_subset] at known
      rw [setLockoutInPamFiles] at succeeds ⊢
      rcases setLockoutInPamFile_spec noNul.1 (status_of_setLockoutInPamFiles succeeds) with
        ⟨touches, read⟩
      have chosen := touches.pamModuleForLockout (by simpa using List.mem_cons_of_mem _ known.1)
      generalize setLockoutInPamFile loop path (random i) = next at *
      have restRead : ∀ other ∈ rest, next.fs.read other = loop.fs.read other := by
        intro other mem
        apply touches.read other (lasting other (known.2 mem))
        rw [List.forall_mem_singleton]
        exact fun same => once.1 (same ▸ List.mem_map_of_mem mem)
      rcases ih known.2 once.2 (fun other mem content held =>
        noNul.2 other mem content (restRead other mem ▸ held)) succeeds with ⟨later, reads⟩
      refine ⟨(touches.mono (by simp)).trans (later.mono (List.subset_cons_self _ _)), ?_⟩
      rw [List.forall_mem_cons]
      constructor
      · rw [later.read path (lasting path known.1), read]
        exact fun other mem same => once.1 (same ▸ List.mem_map_of_mem mem)
      · intro other mem
        rw [reads other mem, restRead other mem, chosen]

end Loop

section Remediation

variable {fs fs' : FileSystem} {random : ℕ → ℕ} {install : FileSystem → FileSystem}

/-- There is a PAM file to write, and a module that can be named in it. -/
def CanLockOut (fs : FileSystem) : Prop :=
  (pamModuleForLockout fs).isSome = true ∧ ∃ pamFile ∈ pamFiles, fs.fileExists pamFile = true

theorem checkLineFound_congr {path : ByteString} (same : fs'.read path = fs.read path) :
    checkLineFoundNotCommentedOut path 35 pamFaillockSo fs' =
      checkLineFoundNotCommentedOut path 35 pamFaillockSo fs := by
  have exists_eq : fs'.fileExists path = fs.fileExists path := by
    rw [FileSystem.fileExists, FileSystem.fileExists, same]
  have load_eq : loadStringFromFile path fs' = loadStringFromFile path fs := by
    rw [loadStringFromFile, loadStringFromFile, same]
  rw [checkLineFoundNotCommentedOut, checkLineFoundNotCommentedOut, isLineNotFoundOrCommentedOut,
    isLineNotFoundOrCommentedOut, exists_eq, load_eq]

theorem modernModel_congr (same : ∀ pamFile ∈ pamFiles, fs'.read pamFile = fs.read pamFile)
    (conf : fs'.fileExists etcSecurityFaillockConf = fs.fileExists etcSecurityFaillockConf) :
    ModernModel fs' ↔ ModernModel fs := by
  rw [ModernModel, ModernModel, conf]
  apply and_congr_right
  intro _
  constructor
  · rintro ⟨pamFile, mem, found⟩
    exact ⟨pamFile, mem, checkLineFound_congr (same pamFile mem) ▸ found⟩
  · rintro ⟨pamFile, mem, found⟩
    exact ⟨pamFile, mem, (checkLineFound_congr (same pamFile mem)).trans found⟩

theorem legacyModel_congr (same : ∀ pamFile ∈ pamFiles, fs'.read pamFile = fs.read pamFile) :
    LegacyModel fs' ↔ LegacyModel fs := by
  simp only [LegacyModel, LocksOut]
  constructor
  · rintro ⟨pamSo, known, pamFile, mem, locks⟩
    exact ⟨pamSo, known, pamFile, mem, same pamFile mem ▸ locks⟩
  · rintro ⟨pamSo, known, pamFile, mem, locks⟩
    exact ⟨pamSo, known, pamFile, mem, (same pamFile mem).symm ▸ locks⟩

/-- A file that was written sets up the lockout. -/
theorem locksOut_of_lockedContent {path content : ByteString} {pair : ByteString × ByteString}
    (chosen : pair ∈ lockoutLines) (text : IsText content)
    (read : fs.read path = some (lockedContent (some pair) content)) :
    ∃ pamSo ∈ lockoutModules, LocksOut pamSo path fs := by
  rcases lockoutLines_spec chosen with ⟨known, -, -, newText, line, mem, sets⟩
  refine ⟨pair.1, known, _, read, line, ?_, sets⟩
  rw [lockedContent, (isText_replacedLines text newText).map_cString,
    fgetsLines_replacedLines text newText, mem_replacedLines]
  exact .inr (.inl mem)

def setLockoutInLegacyModel (random : ℕ → ℕ) (fs : FileSystem) : ℤ × FileSystem :=
  let loop := setLockoutInPamFiles random 0 ⟨0, 0, fs⟩ pamConfigurations
  if loop.fs.fileExists etcSecurityFaillockConf then
    let (status, fs) :=
      setLockoutForFailedPasswordAttemptsViaFaillockConf etcSecurityFaillockConf 3 900
        (fun call => random (call + 4)) loop.fs
    (if status ≠ 0 ∧ status ≠ loop.status then status else loop.status, fs)
  else (loop.status, loop.fs)

theorem setLockoutForFailedPasswordAttempts_eq :
    setLockoutForFailedPasswordAttempts install random fs =
      if ModernModel (install fs) then
        setLockoutForFailedPasswordAttemptsViaFaillockConf etcSecurityFaillockConf 3 900 random
          (install fs)
      else setLockoutInLegacyModel random (install fs) := by
  rw [setLockoutForFailedPasswordAttempts]
  simp only [checkModernModel_iff mem_pamConfigurations_iff]
  rfl

theorem setLockoutInLegacyModel_cases (succeeds : (setLockoutInLegacyModel random fs).1 = 0) :
    let loop := setLockoutInPamFiles random 0 ⟨0, 0, fs⟩ pamConfigurations
    loop.status = 0 ∧
      (loop.fs.fileExists etcSecurityFaillockConf = true ∧ (setLockoutInLegacyModel random fs).2 =
          (setLockoutForFailedPasswordAttemptsViaFaillockConf etcSecurityFaillockConf 3 900
            (fun call => random (call + 4)) loop.fs).2 ∨
        loop.fs.fileExists etcSecurityFaillockConf = false ∧
          (setLockoutInLegacyModel random fs).2 = loop.fs) := by
  intro loop
  have outcome : setLockoutInLegacyModel random fs =
      if loop.fs.fileExists etcSecurityFaillockConf then
        let (status, fs) :=
          setLockoutForFailedPasswordAttemptsViaFaillockConf etcSecurityFaillockConf 3 900
            (fun call => random (call + 4)) loop.fs
        (if status ≠ 0 ∧ status ≠ loop.status then status else loop.status, fs)
      else (loop.status, loop.fs) := rfl
  rw [outcome] at succeeds ⊢
  split at succeeds
  next there =>
    rw [if_pos there]
    refine ⟨?_, .inl ⟨there, rfl⟩⟩
    simp only at succeeds
    split_ifs at succeeds with failed
    · exact absurd succeeds failed.1
    · exact succeeds
  next missing =>
    rw [if_neg missing]
    exact ⟨succeeds, .inr ⟨eq_false_of_ne_true missing, rfl⟩⟩

/-- The loop goes through the PAM files and leaves `faillock.conf` alone. -/
theorem setLockoutInPamFiles_pamConfigurations
    (noNul : ∀ path ∈ pamConfigurations, ∀ content, fs.read path = some content → 0 ∉ content)
    (ended : (setLockoutInPamFiles random 0 ⟨0, 0, fs⟩ pamConfigurations).status = 0) :
    let looped := (setLockoutInPamFiles random 0 ⟨0, 0, fs⟩ pamConfigurations).fs
    Touches pamConfigurations fs looped ∧
      looped.read etcSecurityFaillockConf = fs.read etcSecurityFaillockConf ∧
        ∀ pamFile ∈ pamFiles, looped.read pamFile =
          (fs.read pamFile).map (editedPamFile (pamModuleForLockout fs)) := by
  rcases setLockoutInPamFiles_spec (List.Subset.refl _) (by decide +kernel) noNul ended with
    ⟨touches, reads⟩
  refine ⟨touches, touches.read _ (by decide) ?_, ?_⟩
  · intro touched mem same
    exact (pamFiles_apart touched ((mem_pamConfigurations_iff touched).mp mem)).2 same.symm
  · exact fun pamFile mem => reads pamFile ((mem_pamConfigurations_iff pamFile).mpr mem)

theorem setLockoutInLegacyModel_spec
    (texts : ∀ path ∈ etcSecurityFaillockConf :: pamConfigurations, ∀ content,
      fs.read path = some content → IsText content)
    (succeeds : (setLockoutInLegacyModel random fs).1 = 0) :
    let final := (setLockoutInLegacyModel random fs).2
    final.fileExists etcSecurityFaillockConf = fs.fileExists etcSecurityFaillockConf ∧
      (fs.fileExists etcSecurityFaillockConf = true → ValuesComply etcSecurityFaillockConf final) ∧
        ∀ pamFile ∈ pamFiles, final.read pamFile =
          (fs.read pamFile).map (lockedContent (pamModuleForLockout fs)) := by
  intro final
  rw [List.forall_mem_cons] at texts
  rcases setLockoutInLegacyModel_cases succeeds with ⟨ended, cases⟩
  rcases setLockoutInPamFiles_pamConfigurations
    (fun path mem content held => (texts.2 path mem content held).noNul) ended with
    ⟨-, confRead, edited⟩
  generalize (setLockoutInPamFiles random 0 ⟨0, 0, fs⟩ pamConfigurations).fs = looped at *
  have reads : ∀ pamFile ∈ pamFiles, looped.read pamFile =
      (fs.read pamFile).map (lockedContent (pamModuleForLockout fs)) := by
    intro pamFile mem
    rw [edited pamFile mem]
    cases held : fs.read pamFile with
    | none => rfl
    | some content =>
        have text := texts.2 pamFile ((mem_pamConfigurations_iff pamFile).mpr mem) content held
        rw [Option.map_some, Option.map_some, editedPamFile_eq_lockedContent text]
  have confExists :
      looped.fileExists etcSecurityFaillockConf = fs.fileExists etcSecurityFaillockConf := by
    rw [FileSystem.fileExists, FileSystem.fileExists, confRead]
  rw [← confExists]
  rcases cases with ⟨there, final_eq⟩ | ⟨missing, final_eq⟩
  · obtain ⟨content, held⟩ := FileSystem.fileExists_iff.mp there
    rcases setLockoutViaFaillockConf_spec (fun call => random (call + 4)) held with ⟨-, kept, comply, confTouches⟩
    rw [← final_eq] at kept comply confTouches
    refine ⟨kept.trans there.symm, fun _ => comply, ?_⟩
    intro pamFile mem
    rcases pamFiles_apart pamFile mem with ⟨pamLasting, differs⟩
    rw [confTouches.read pamFile pamLasting (by simpa using differs), reads pamFile mem]
  · have unchanged : final = looped := final_eq
    rw [unchanged]
    exact ⟨rfl, fun there => absurd there (by simp [missing]), reads⟩

/-- If the remediation succeeds, the audit passes exactly if the modern model was in use, or a PAM file
set up the lockout before, or there was a file and a module to set it up with. -/
theorem lockout_passes_audit_iff
    (texts : ∀ path ∈ etcSecurityFaillockConf :: pamConfigurations, ∀ content,
      (install fs).read path = some content → IsText content)
    (succeeds : (setLockoutForFailedPasswordAttempts install random fs).1 = 0) :
    (auditEnsureLockoutForFailedPasswordAttempts
        (setLockoutForFailedPasswordAttempts install random fs).2).any passed = true ↔
      ModernModel (install fs) ∨ LegacyModel (install fs) ∨ CanLockOut (install fs) := by
  rw [setLockoutForFailedPasswordAttempts_eq] at succeeds ⊢
  generalize install fs = started at *
  rw [audit_passes_iff]
  by_cases modern : ModernModel started
  · -- The PAM files are left alone, so the modern model stays in use.
    rw [if_pos modern] at succeeds ⊢
    obtain ⟨content, held⟩ := FileSystem.fileExists_iff.mp modern.1
    rcases setLockoutViaFaillockConf_spec random held with
      ⟨-, kept, comply, touches⟩
    generalize (setLockoutForFailedPasswordAttemptsViaFaillockConf etcSecurityFaillockConf 3 900
      random started).2 = final at *
    have same : ∀ pamFile ∈ pamFiles, final.read pamFile = started.read pamFile := by
      intro pamFile mem
      rcases pamFiles_apart pamFile mem with ⟨lasting, differs⟩
      exact touches.read pamFile lasting (by simpa using differs)
    have stays := (modernModel_congr same (kept.trans modern.1.symm)).mpr modern
    rw [if_pos stays]
    exact ⟨fun _ => .inl modern, fun _ => comply⟩
  · rw [if_neg modern] at succeeds ⊢
    rcases setLockoutInLegacyModel_spec texts succeeds with ⟨kept, comply, reads⟩
    generalize (setLockoutInLegacyModel random started).2 = final at *
    by_cases usable : CanLockOut started
    · rcases usable with ⟨some_module, pamFile, mem, exists_file⟩
      obtain ⟨pair, chosen⟩ := Option.isSome_iff_exists.mp some_module
      obtain ⟨content, held⟩ := FileSystem.fileExists_iff.mp exists_file
      have read := reads pamFile mem
      rw [held, chosen, Option.map_some] at read
      have text := texts pamFile (List.mem_cons_of_mem _ ((mem_pamConfigurations_iff _).mpr mem))
      obtain ⟨pamSo, known, locks⟩ :=
        locksOut_of_lockedContent (mem_lockoutLines chosen) (text content held) read
      have passes : if ModernModel final then ValuesComply etcSecurityFaillockConf final
          else LegacyModel final := by
        split_ifs with inUse
        · exact comply (kept ▸ inUse.1)
        · exact ⟨pamSo, known, pamFile, mem, locks⟩
      exact ⟨fun _ => .inr (.inr ⟨some_module, pamFile, mem, exists_file⟩), fun _ => passes⟩
    · -- Nothing is written to the PAM files.
      have same : ∀ pamFile ∈ pamFiles, final.read pamFile = started.read pamFile := by
        intro pamFile mem
        rw [reads pamFile mem]
        cases held : started.read pamFile with
        | none => rfl
        | some content =>
            cases chosen : pamModuleForLockout started with
            | none => rfl
            | some pair =>
                have exists_file : started.fileExists pamFile = true := by simp [held]
                exact absurd ⟨by simp [chosen], pamFile, mem, exists_file⟩ usable
      rw [if_neg (mt (modernModel_congr same kept).mp modern), legacyModel_congr same]
      simp [modern, usable]

/-- A machine with a blank PAM file and a module for the lockout. -/
def blankLogin : FileSystem :=
  (oneFile (bytes "/lib/security/pam_faillock.so") (bytes "ELF")).write etcPamdLogin (bytes "\n")

theorem lockout_passes_audit_iff_blankLogin :
    (auditEnsureLockoutForFailedPasswordAttempts
        (setLockoutForFailedPasswordAttempts id id blankLogin).2).any passed = true ↔
      ModernModel blankLogin ∨ LegacyModel blankLogin ∨ CanLockOut blankLogin := by
  have contents : ∀ path ∈ etcSecurityFaillockConf :: pamConfigurations,
      blankLogin.read path = none ∨ blankLogin.read path = some (bytes "\n") := by
    decide +kernel
  apply lockout_passes_audit_iff
  · intro path mem content held
    have blank : content = bytes "\n" := by
      rcases contents path mem with missing | there
      · exact absurd (held.symm.trans missing) (Option.some_ne_none content)
      · exact Option.some.inj (held.symm.trans there)
    subst blank
    exact ⟨by decide, by decide⟩
  · decide +kernel

/-- Without a module the remediation reports success and the audit fails. -/
theorem lockout_without_modules :
    let outcome := setLockoutForFailedPasswordAttempts id id (oneFile etcPamdLogin (bytes "\n"))
    ¬ (outcome.1 = 0 →
      (auditEnsureLockoutForFailedPasswordAttempts outcome.2).any passed = true) := by
  decide +kernel

end Remediation

end OsConfig.CommonUtils
