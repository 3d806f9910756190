import OsConfig.Common.FileUtils.Options

/-!
# Password creation requirements

The requirements are met by one line of `common-password` or by the lines of
`pwquality.conf`. The audit takes the first file that meets them. The
remediation writes both, as far as they exist, for the first PAM module that is
installed.

Installing packages is left to a parameter. A PAM module is installed if its file
exists in one of the known directories.
-/

namespace OsConfig.CommonUtils

def etcPamdCommonPassword : ByteString :=
  bytes "/etc/pam.d/common-password"

def etcSecurityPwQualityConf : ByteString :=
  bytes "/etc/security/pwquality.conf"

def pamUnixSo : ByteString :=
  bytes "pam_unix.so"

def pamPwQualitySo : ByteString :=
  bytes "pam_pwquality.so"

def pamCrackLibSo : ByteString :=
  bytes "pam_cracklib.so"

/-- The files that a PAM module may be installed as. -/
def pamModulePaths (pamModule : ByteString) : List ByteString :=
  [bytes "/usr/lib/x86_64-linux-gnu/security/" ++ pamModule,
    bytes "/usr/lib/security/" ++ pamModule,
    bytes "/lib/security/" ++ pamModule,
    bytes "/lib64/security/" ++ pamModule,
    bytes "/lib/x86_64-linux-gnu/security/" ++ pamModule]

def findPamModule (pamModule : ByteString) (fs : FileSystem) : Option ByteString :=
  (pamModulePaths pamModule).find? fs.fileExists

/-- The values that the requirements are to have. -/
structure PasswordRequirements where
  retry : BitVec 32
  minlen : BitVec 32
  minclass : BitVec 32
  dcredit : BitVec 32
  ucredit : BitVec 32
  ocredit : BitVec 32
  lcredit : BitVec 32

/-- An option that a line of `common-password` must set, with the wording of its reasons. -/
structure CommonPasswordOption where
  name : ByteString
  desired : BitVec 32
  verb : ByteString
  quote : ByteString

namespace PasswordRequirements

variable (requirements : PasswordRequirements)

/-- In the order in which they are read. -/
def commonPasswordOptions : List CommonPasswordOption :=
  [⟨bytes "retry", requirements.retry, bytes "is ", []⟩,
    ⟨bytes "minlen", requirements.minlen, bytes "is ", []⟩,
    ⟨bytes "dcredit", requirements.dcredit, bytes "is ", bytes "'"⟩,
    ⟨bytes "ucredit", requirements.ucredit, [], bytes "'"⟩,
    ⟨bytes "ocredit", requirements.ocredit, [], bytes "'"⟩,
    ⟨bytes "lcredit", requirements.lcredit, [], bytes "'"⟩]

/-- In the order in which a line of `pwquality.conf` is searched for them. -/
def pwQualityConfOptions : List (ByteString × BitVec 32) :=
  [(bytes "retry", requirements.retry), (bytes "minlen", requirements.minlen),
    (bytes "minclass", requirements.minclass), (bytes "dcredit", requirements.dcredit),
    (bytes "ucredit", requirements.ucredit), (bytes "lcredit", requirements.lcredit),
    (bytes "ocredit", requirements.ocredit)]

/-- In the order in which they are written to `pwquality.conf`. -/
def entries : List (ByteString × BitVec 32) :=
  [(bytes "retry", requirements.retry), (bytes "minlen", requirements.minlen),
    (bytes "minclass", requirements.minclass), (bytes "dcredit", requirements.dcredit),
    (bytes "ucredit", requirements.ucredit), (bytes "ocredit", requirements.ocredit),
    (bytes "lcredit", requirements.lcredit)]

end PasswordRequirements

/-- The options are read one by one up to the first that is not as desired. What is not read keeps
its initial value. -/
def readOptions (line : ByteString) : List CommonPasswordOption → List (BitVec 32)
  | [] => []
  | option :: rest =>
      let value := getIntegerOptionFromBuffer line option.name 61 35
      value :: if value = option.desired then readOptions line rest else rest.map fun _ => 0

/-- The reason for one option of a line, if it is not as desired. -/
def captureOption (reason : Option ByteString) (option : CommonPasswordOption)
    (value : BitVec 32) : Option ByteString :=
  let place := bytes "In '" ++ etcPamdCommonPassword ++ bytes "' '" ++ option.name ++ bytes "' "
  if value = intEnoent then captureReason reason (place ++ option.verb ++ bytes "missing")
  else if value ≠ option.desired then
    captureReason reason (place ++ option.verb ++ bytes "set to " ++ option.quote ++
      printInt value ++ option.quote ++ bytes " instead of " ++ printInt option.desired)
  else reason

/-- A line of `common-password` that sets requirements. -/
def isRequirementsLine (line : ByteString) : Bool :=
  line.head? ≠ some 35 && line.head? ≠ some 10 &&
    (bytes "password" <:+: line && bytes "requisite" <:+: line &&
      (pamPwQualitySo <:+: line || pamCrackLibSo <:+: line || pamUnixSo <:+: line))

/-- The options of a line, as the reason of a success lists them. -/
def describeOptions (options : List (CommonPasswordOption × BitVec 32)) : ByteString :=
  (bytes ", ").intercalate
    (options.map fun (option, value) => option.name ++ bytes ": " ++ printInt value)

/-- `CheckRequirementsForCommonPassword`. The first line that sets requirements decides. -/
def checkRequirementsForCommonPassword (requirements : PasswordRequirements)
    (reason : Option ByteString) (fs : FileSystem) : ℤ × Option ByteString :=
  match fs.read etcPamdCommonPassword with
  | none => (enoent, captureReason reason (etcPamdCommonPassword ++ bytes "' does not exist"))
  | some content =>
      match ((fgetsLines content).map ByteString.cString).find? isRequirementsLine with
      | some line =>
          let options := requirements.commonPasswordOptions
          let values := readOptions line options
          if values = options.map (·.desired) then
            (0, captureSuccessReason reason (bytes "'" ++ etcPamdCommonPassword ++
              bytes "' contains uncommented 'password requisite' with the expected password " ++
                bytes "creation requirements (" ++ describeOptions (options.zip values) ++ bytes ")"))
          else
            (enoent, (options.zip values).foldl
              (fun reason (option, value) => captureOption reason option value) reason)
      | none =>
          (enoent, captureReason reason (bytes "'" ++ etcPamdCommonPassword ++
            bytes "' does not contain a line 'password requisite' with retry, minlen, dcredit, " ++
              bytes "ucredit, ocredit, lcredit password creation options"))

def checkPasswordRequirementFromBuffer (buffer option fileName : ByteString)
    (separator comment : UInt8) (desired : BitVec 32) (reason : Option ByteString) :
    ℤ × Option ByteString :=
  let value := getIntegerOptionFromBuffer buffer option separator 35
  let place := bytes "'" ++ option ++ bytes "' is set to "
  if desired = value then
    let correct := place ++ bytes "correct value " ++ printInt value ++ bytes " in '" ++ fileName
    if buffer.head? = some comment then
      (enoent, captureReason reason (correct ++ bytes "' but it's commented out"))
    else (0, captureSuccessReason reason (correct ++ bytes "'"))
  else
    let wrong := place ++ printInt value ++ bytes " instead of " ++ printInt desired ++
      bytes " in '" ++ fileName
    if buffer.head? = some comment then
      (enoent, captureReason reason (wrong ++ bytes "' and it's commented out"))
    else (enoent, captureReason reason (wrong ++ bytes "'"))

/-- What the check of `pwquality.conf` has found so far: its status, that of the last line with an
option, and the reason. -/
structure ConfCheck where
  status : ℤ
  last : ℤ
  reason : Option ByteString

def checkPwQualityConfLine (requirements : PasswordRequirements) (check : ConfCheck)
    (line : ByteString) : ConfCheck :=
  let (last, reason) :=
    match requirements.pwQualityConfOptions.find? fun (name, _) => name <:+: line with
    | some (name, desired) =>
        checkPasswordRequirementFromBuffer line name etcSecurityPwQualityConf 61 35 desired
          check.reason
    | none => (check.last, check.reason)
  ⟨if last ≠ 0 ∧ check.status = 0 then last else check.status, last, reason⟩

def checkRequirementsForPwQualityConf (requirements : PasswordRequirements)
    (reason : Option ByteString) (fs : FileSystem) : ℤ × Option ByteString :=
  match fs.read etcSecurityPwQualityConf with
  | none =>
      (enoent, captureReason reason
        (bytes "'" ++ etcSecurityPwQualityConf ++ bytes "' does not exist"))
  | some content =>
      let check := ((fgetsLines content).map ByteString.cString).foldl
        (checkPwQualityConfLine requirements) ⟨0, 0, reason⟩
      (check.status, check.reason)

def checkPasswordCreationRequirements (requirements : PasswordRequirements)
    (reason : Option ByteString) (fs : FileSystem) : ℤ × Option ByteString :=
  let commonPasswordExists := fs.fileExists etcPamdCommonPassword
  let pwQualityConfExists := fs.fileExists etcSecurityPwQualityConf
  if !commonPasswordExists && !pwQualityConfExists then
    (enoent, captureReason reason (bytes "Neither '" ++ etcPamdCommonPassword ++ bytes "' or '" ++
      etcSecurityPwQualityConf ++ bytes "' exist"))
  else
    let (status, reason) :=
      if commonPasswordExists then checkRequirementsForCommonPassword requirements reason fs
      else (enoent, reason)
    if status ≠ 0 ∧ pwQualityConfExists then
      checkRequirementsForPwQualityConf requirements reason fs
    else (status, reason)

/-- The module that the line of `common-password` names, and its file. -/
def pamModuleForPasswords (fs : FileSystem) : Option (ByteString × ByteString) :=
  [pamPwQualitySo, pamCrackLibSo, pamUnixSo].findSome? fun pamModule =>
    (findPamModule pamModule fs).map fun path => (pamModule, path)

def etcPamdCommonPasswordLine (pamModulePath : ByteString) (requirements : PasswordRequirements) :
    ByteString :=
  bytes "password requisite " ++ pamModulePath ++
    bytes " retry=" ++ printInt requirements.retry ++
    bytes " minlen=" ++ printInt requirements.minlen ++
    bytes " lcredit=" ++ printInt requirements.lcredit ++
    bytes " ucredit=" ++ printInt requirements.ucredit ++
    bytes " ocredit=" ++ printInt requirements.ocredit ++
    bytes " dcredit=" ++ printInt requirements.dcredit ++ bytes "\n"

def etcSecurityPwQualityConfLine (name : ByteString) (value : BitVec 32) : ByteString :=
  name ++ bytes " = " ++ printInt value ++ bytes "\n"

/-- Writes the entries one after the other; the status is that of the last. -/
def writePwQualityConfEntries (entries : List (ByteString × BitVec 32)) (random : ℕ → ℕ)
    (fs : FileSystem) : ℤ × FileSystem :=
  (entries.zipIdx 1).foldl
    (fun (_, fs) ((name, value), call) =>
      replaceMarkedLinesInFile etcSecurityPwQualityConf name
        (some (etcSecurityPwQualityConfLine name value)) 35 (random call) fs)
    (0, fs)

/-- The first part of `SetPasswordCreationRequirements`. -/
def setCommonPasswordRequirements
    (ensurePamModulePackagesAreInstalled : FileSystem → FileSystem)
    (requirements : PasswordRequirements) (random : ℕ → ℕ) (fs : FileSystem) : ℤ × FileSystem :=
  if fs.fileExists etcPamdCommonPassword then
    let fs := ensurePamModulePackagesAreInstalled fs
    match pamModuleForPasswords fs with
    | some (pamModule, pamModulePath) =>
        replaceMarkedLinesInFile etcPamdCommonPassword pamModule
          (some (etcPamdCommonPasswordLine pamModulePath requirements)) 35 (random 0) fs
    | none => (enoent, fs)
  else (0, fs)

/-- The second part of `SetPasswordCreationRequirements`. -/
def setPwQualityConfRequirements (requirements : PasswordRequirements) (random : ℕ → ℕ)
    (fs : FileSystem) : ℤ × FileSystem :=
  if fs.fileExists etcSecurityPwQualityConf then
    writePwQualityConfEntries requirements.entries random fs
  else (0, fs)

/-- `SetPasswordCreationRequirements`, with what the installation of the PAM packages does and the
numbers that the calls of `rand` return. -/
def setPasswordCreationRequirements (ensurePamModulePackagesAreInstalled : FileSystem → FileSystem)
    (requirements : PasswordRequirements) (random : ℕ → ℕ) (fs : FileSystem) : ℤ × FileSystem :=
  let (status, fs) :=
    setCommonPasswordRequirements ensurePamModulePackagesAreInstalled requirements random fs
  let (status', fs) := setPwQualityConfRequirements requirements random fs
  (if status' = 0 ∨ status = 0 then status' else status, fs)

end OsConfig.CommonUtils
