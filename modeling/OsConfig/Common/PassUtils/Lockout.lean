import OsConfig.Common.PassUtils
import OsConfig.Common.FileUtils.Comments

/-!
# Lockout for failed password attempts

The lockout is set up in one of two ways. In the legacy model a line of a PAM file
names the module and carries the values. In the modern model the line only names
`pam_faillock.so`, and the values stand in `faillock.conf`. The audit and the
remediation both ask the files which of the models is in use.
-/

namespace OsConfig.CommonUtils

def etcSecurityFaillockConf : ByteString :=
  bytes "/etc/security/faillock.conf"

def etcPamdLogin : ByteString :=
  bytes "/etc/pam.d/login"

def etcPamdSystemAuth : ByteString :=
  bytes "/etc/pam.d/system-auth"

def etcPamdPasswordAuth : ByteString :=
  bytes "/etc/pam.d/password-auth"

def etcPamdCommonAuth : ByteString :=
  bytes "/etc/pam.d/common-auth"

def pamFaillockSo : ByteString :=
  bytes "pam_faillock.so"

def pamTally2So : ByteString :=
  bytes "pam_tally2.so"

def pamTallySo : ByteString :=
  bytes "pam_tally.so"

def pamDenySo : ByteString :=
  bytes "pam_deny.so"

/-- In the order in which the remediation goes through them. -/
def pamConfigurations : List ByteString :=
  [etcPamdLogin, etcPamdSystemAuth, etcPamdPasswordAuth, etcPamdCommonAuth]

/-- In the order in which the audit goes through them. -/
def pamFiles : List ByteString :=
  [etcPamdSystemAuth, etcPamdPasswordAuth, etcPamdLogin, etcPamdCommonAuth]

section Legacy

/-- What the lines that were passed over have shown. -/
structure LockoutScan where
  foundUncommented : Bool
  deny : BitVec 32
  unlockTime : BitVec 32

/-- Reads the lines up to the first that sets up the lockout. Of the other lines an option is only
read if all that is checked before it is as required. -/
def scanLockoutLines (pamSo : ByteString) (commentCharacter : UInt8) :
    LockoutScan → List ByteString → Bool × LockoutScan
  | scan, [] => (false, scan)
  | scan, line :: rest =>
      if line.head? = some commentCharacter ∨ line.head? = some 10 then
        scanLockoutLines pamSo commentCharacter scan rest
      else if bytes "auth" <:+: line ∧ pamSo <:+: line ∧
          getStringOptionFromBuffer line (bytes "auth") 32 35 = some (bytes "required") then
        let deny := getIntegerOptionFromBuffer line (bytes "deny") 61 35
        if 0 ≤ deny.toInt ∧ deny.toInt ≤ 5 then
          let unlockTime := getIntegerOptionFromBuffer line (bytes "unlock_time") 61 35
          if 0 < unlockTime.toInt then (true, ⟨true, deny, unlockTime⟩)
          else scanLockoutLines pamSo commentCharacter ⟨true, deny, unlockTime⟩ rest
        else scanLockoutLines pamSo commentCharacter ⟨true, deny, scan.unlockTime⟩ rest
      else scanLockoutLines pamSo commentCharacter { scan with foundUncommented := true } rest

/-- The reason for an option that no line sets as required. -/
def captureLockoutOption (option expected fileName pamSo : ByteString) (value : BitVec 32)
    (reason : Option ByteString) : Option ByteString :=
  let place := bytes " in '" ++ fileName ++ bytes "' for '" ++ pamSo ++ bytes "'"
  if value = intEnoent then
    captureReason reason (bytes "'" ++ option ++ bytes "' not found" ++ place)
  else
    captureReason reason (bytes "'" ++ option ++ bytes "' found set to " ++ printInt value ++
      place ++ bytes " instead of " ++ expected)

def checkLockoutForFailedPasswordAttempts (fileName pamSo : ByteString) (commentCharacter : UInt8)
    (reason : Option ByteString) (fs : FileSystem) : ℤ × Option ByteString :=
  let (status, reason) := checkFileExists fileName reason fs
  if status ≠ 0 then (enoent, reason)
  else
    let lines := (fgetsLines ((fs.read fileName).getD [])).map ByteString.cString
    let (found, scan) :=
      scanLockoutLines pamSo commentCharacter ⟨false, intEnoent, intEnoent⟩ lines
    if found then
      (0, captureSuccessReason reason (bytes "'auth required " ++ pamSo ++
        bytes "' found uncommented with 'deny' set to " ++ printInt scan.deny ++
          bytes " and 'unlock_time' set to " ++ printInt scan.unlockTime ++ bytes " in '" ++
            fileName ++ bytes "'"))
    else if !scan.foundUncommented then
      (enoent, captureReason reason (bytes "All lines in '" ++ fileName ++
        bytes "' are commented out or blank, no '" ++ pamSo ++
          bytes "' configuration is active"))
    else
      let reason := captureLockoutOption (bytes "deny") (bytes "a value between 0 and 5") fileName
        pamSo scan.deny reason
      (enoent, captureLockoutOption (bytes "unlock_time") (bytes "a positive value") fileName pamSo
        scan.unlockTime reason)

end Legacy

section FaillockConf

/-- The first significant character of a line, and what follows it. -/
def firstNonWhitespace (line : ByteString) : ByteString :=
  line.dropWhile fun byte => byte = 32 ∨ byte = 9

/-- Whether the first token of a line is the key. -/
def isKeyLine (key line : ByteString) : Bool :=
  let token := firstNonWhitespace line
  let tokenEnd := token.drop key.length
  token.head? ≠ none && token.head? ≠ some 35 && key <+: token &&
    (tokenEnd.head? = none || tokenEnd.head? = some 32 || tokenEnd.head? = some 9 ||
      tokenEnd.head? = some 61)

/-- What follows the key and the separator on a line. -/
def keyLineValue (key line : ByteString) : ByteString :=
  ((firstNonWhitespace line).drop key.length).dropWhile fun byte =>
    byte = 32 ∨ byte = 9 ∨ byte = 61

/-- The text from the first value of the key on. The number in front of it is read from the text as a
whole, not from the line. -/
def findFaillockConfValue (key : ByteString) : List ByteString → Option ByteString
  | [] => none
  | line :: rest =>
      if isKeyLine key line ∧ keyLineValue key line ≠ [] then
        some ((bytes "\n").intercalate (keyLineValue key line :: rest))
      else findFaillockConfValue key rest

def getFaillockConfIntegerOption (fileName key : ByteString) (fs : FileSystem) : BitVec 32 :=
  match loadStringFromFile fileName fs with
  | some contents =>
      match findFaillockConfValue key (contents.splitOn 10) with
      | some value => BitVec.ofInt 32 (strtol value)
      | none => intEnoent
  | none => intEnoent

def faillockConfLine (key : ByteString) (value : BitVec 32) : ByteString :=
  key ++ bytes " = " ++ printInt value ++ bytes "\n"

/-- Puts the new line in the place of the first line with the key. -/
def replaceKeyLine (key formatted : ByteString) : Bool → List ByteString → Bool × ByteString
  | replaced, [] => (replaced, [])
  | replaced, line :: rest =>
      if !replaced && isKeyLine key line then
        let (replaced, others) := replaceKeyLine key formatted true rest
        (replaced, formatted ++ others)
      else
        let (replaced, others) := replaceKeyLine key formatted replaced rest
        -- The last part of the text has no newline behind it.
        (replaced, line ++ (if rest = [] then [] else bytes "\n") ++ others)

def setFaillockConfOption (fileName key : ByteString) (value : BitVec 32) (random : ℕ)
    (fs : FileSystem) : ℤ × FileSystem :=
  match loadStringFromFile fileName fs with
  | none => (enoent, fs)
  | some originalContents =>
      let formatted := faillockConfLine key value
      let (replaced, newContents) :=
        replaceKeyLine key formatted false (originalContents.splitOn 10)
      let newContents :=
        if replaced then newContents
        else if newContents ≠ [] ∧ newContents.getLast? ≠ some 10 then
          newContents ++ bytes "\n" ++ formatted
        else newContents ++ formatted
      let (saved, fs) := secureSaveToFile fileName newContents random fs
      (if saved then 0 else eacces, fs)

/-- The checks of `CheckLockoutForFailedPasswordAttemptsViaFaillockConf` for the files and, one after
the other, for the values of `deny` and `unlock_time`. -/
def checkLockoutForFailedPasswordAttemptsViaFaillockConf (pamFile faillockConf : ByteString)
    (reason : Option ByteString) (fs : FileSystem) : ℤ × Option ByteString :=
  let denyValue := getFaillockConfIntegerOption faillockConf (bytes "deny") fs
  let unlockTimeValue := getFaillockConfIntegerOption faillockConf (bytes "unlock_time") fs
  if !fs.fileExists faillockConf then
    (enoent, captureReason reason (bytes "'" ++ faillockConf ++ bytes "' does not exist"))
  else if checkLineFoundNotCommentedOut pamFile 35 pamFaillockSo fs ≠ 0 then
    (enoent, captureReason reason (bytes "'" ++ pamFaillockSo ++
      bytes "' is not referenced uncommented in '" ++ pamFile ++ bytes "'"))
  else if denyValue ≠ intEnoent ∧ 5 < denyValue.toInt then
    (enoent, captureReason reason (bytes "'deny' from '" ++ faillockConf ++ bytes "' is " ++
      printInt denyValue ++ bytes ", expected a value less than or equal to 5"))
  else if unlockTimeValue ≠ intEnoent ∧ unlockTimeValue.toInt ≤ 0 then
    (enoent, captureReason reason (bytes "'unlock_time' from '" ++ faillockConf ++ bytes "' is " ++
      printInt unlockTimeValue ++ bytes ", expected a positive value"))
  else
    -- What is not set has the defaults of the module.
    let denyValue := if denyValue = intEnoent then 3 else denyValue
    let unlockTimeValue := if unlockTimeValue = intEnoent then 600 else unlockTimeValue
    (0, captureSuccessReason reason (bytes "'" ++ pamFaillockSo ++
      bytes "' is referenced uncommented in '" ++ pamFile ++ bytes "' and '" ++ faillockConf ++
        bytes "' has 'deny' set to " ++ printInt denyValue ++
          bytes " (less than or equal to 5) and 'unlock_time' set to " ++
            printInt unlockTimeValue ++ bytes " (greater than 0)"))

def setLockoutForFailedPasswordAttemptsViaFaillockConf (faillockConf : ByteString)
    (deny unlockTime : BitVec 32) (random : ℕ → ℕ) (fs : FileSystem) : ℤ × FileSystem :=
  let (status, fs) := setFaillockConfOption faillockConf (bytes "deny") deny (random 0) fs
  let (status', fs) :=
    setFaillockConfOption faillockConf (bytes "unlock_time") unlockTime (random 1) fs
  (if status = 0 then status' else status, fs)

end FaillockConf

def checkPamFaillockModernModelInUse (pamFiles : List ByteString) (faillockConf : ByteString)
    (fs : FileSystem) : ℤ :=
  if pamFiles = [] then einval
  else if !fs.fileExists faillockConf then enoent
  else if pamFiles.any fun pamFile => fs.fileExists pamFile &&
      checkLineFoundNotCommentedOut pamFile 35 pamFaillockSo fs = 0 then 0
  else enoent

section Remediation

def pamFailLockLine (pamModulePath : ByteString) : ByteString :=
  bytes "auth required " ++ pamModulePath ++
    bytes " preauth silent audit deny=3 unlock_time=900 even_deny_root\n"

def pamTally2Line (pamModulePath : ByteString) : ByteString :=
  bytes "auth required " ++ pamModulePath ++
    bytes " file=/var/log/tallylog onerr=fail audit silent deny=5 unlock_time=900 even_deny_root\n"

def pamTallyDenyLine (pamModulePath pamModulePath2 : ByteString) : ByteString :=
  bytes "auth required " ++ pamModulePath ++ bytes " onerr=fail deny=3 unlock_time=900\n" ++
    bytes "auth required " ++ pamModulePath2 ++ bytes "\n"

/-- The module that the lockout is left to, and the line for it. -/
def pamModuleForLockout (fs : FileSystem) : Option (ByteString × ByteString) :=
  match findPamModule pamFaillockSo fs with
  | some pamModulePath => some (pamFaillockSo, pamFailLockLine pamModulePath)
  | none =>
      match findPamModule pamTally2So fs with
      | some pamModulePath => some (pamTally2So, pamTally2Line pamModulePath)
      | none =>
          match findPamModule pamTallySo fs, findPamModule pamDenySo fs with
          | some pamModulePath, some pamModulePath2 =>
              some (pamTallySo, pamTallyDenyLine pamModulePath pamModulePath2)
          | _, _ => none

/-- The variables of the loop over the PAM files. -/
structure LockoutLoop where
  status : ℤ
  last : ℤ
  fs : FileSystem

/-- One round of the loop. Without a module the status of the round before is taken again. -/
def setLockoutInPamFile (loop : LockoutLoop) (pamFile : ByteString) (random : ℕ) : LockoutLoop :=
  if loop.fs.fileExists pamFile then
    let (last, fs) :=
      match pamModuleForLockout loop.fs with
      | some (pamModule, line) =>
          replaceMarkedLinesInFile pamFile pamModule (some line) 35 random loop.fs
      | none => (loop.last, loop.fs)
    ⟨if last ≠ 0 ∧ last ≠ loop.status then last else loop.status, last, fs⟩
  else loop

/-- The loop, with the number of the first file. -/
def setLockoutInPamFiles (random : ℕ → ℕ) : ℕ → LockoutLoop → List ByteString → LockoutLoop
  | _, loop, [] => loop
  | i, loop, pamFile :: rest =>
      setLockoutInPamFiles random (i + 1) (setLockoutInPamFile loop pamFile (random i)) rest

/-- `SetLockoutForFailedPasswordAttempts`, with what the installation of the PAM packages does and
the numbers that the calls of `rand` return. -/
def setLockoutForFailedPasswordAttempts
    (ensurePamModulePackagesAreInstalled : FileSystem → FileSystem) (random : ℕ → ℕ)
    (fs : FileSystem) : ℤ × FileSystem :=
  let fs := ensurePamModulePackagesAreInstalled fs
  let desiredDeny : BitVec 32 := 3
  let desiredUnlockTime : BitVec 32 := 900
  if checkPamFaillockModernModelInUse pamConfigurations etcSecurityFaillockConf fs = 0 then
    setLockoutForFailedPasswordAttemptsViaFaillockConf etcSecurityFaillockConf desiredDeny
      desiredUnlockTime random fs
  else
    let loop := setLockoutInPamFiles random 0 ⟨0, 0, fs⟩ pamConfigurations
    if loop.fs.fileExists etcSecurityFaillockConf then
      let (status, fs) :=
        setLockoutForFailedPasswordAttemptsViaFaillockConf etcSecurityFaillockConf desiredDeny
          desiredUnlockTime (fun call => random (call + 4)) loop.fs
      (if status ≠ 0 ∧ status ≠ loop.status then status else loop.status, fs)
    else (loop.status, loop.fs)

end Remediation

section Audit

/-- `RETURN_REASON_IF_ZERO` for one check after the other. -/
def returnReasonIfZero (fs : FileSystem) :
    List (Option ByteString → FileSystem → ℤ × Option ByteString) → Option ByteString →
      Option (Option ByteString)
  | [], _ => none
  | check :: rest, reason =>
      let (status, reason) := check reason fs
      if status = 0 then some reason else returnReasonIfZero fs rest reason

def lockoutModules : List ByteString :=
  [pamFaillockSo, pamTally2So, pamTallySo]

/-- The checks of the audit in the model that is in use. -/
def lockoutChecks (modern : Bool) :
    List (Option ByteString → FileSystem → ℤ × Option ByteString) :=
  if modern then
    pamFiles.map fun pamFile =>
      checkLockoutForFailedPasswordAttemptsViaFaillockConf pamFile etcSecurityFaillockConf
  else
    lockoutModules.flatMap fun pamSo => pamFiles.map fun pamFile =>
      checkLockoutForFailedPasswordAttempts pamFile pamSo 35

/-- The reason of the audit where no check succeeds. -/
def noLockoutReason : ByteString :=
  bytes "Neither pam_faillock.so, pam_tally2.so or pam_tally.so PAM modules are configured for " ++
    bytes "failed-login lockout on this system. Manually set lockout for failed password " ++
      bytes "attempts following specific instructions for this distribution. Automatic " ++
        bytes "remediation is not possible"

def auditEnsureLockoutForFailedPasswordAttempts (fs : FileSystem) : Option ByteString :=
  let modern := checkPamFaillockModernModelInUse pamFiles etcSecurityFaillockConf fs = 0
  (returnReasonIfZero fs (lockoutChecks modern) none).getD (some noLockoutReason)

end Audit

end OsConfig.CommonUtils
