import OsConfig.ComplianceEngine.Procedures.Task

/-!
# Procedures that check many files

`UserDotFilePermissions`, `UserHomeDirectoryPermissions` and
`LogFilePermissions` call a permission procedure for every file they find, each
call under a node of its own that the caller pushes and pops, and fold the
results into one status.
-/

namespace OsConfig.ComplianceEngine

open OsConfig ByteString

variable {σ : Type} (surroundings : Surroundings σ)

/-- `S_ISREG`. -/
def isRegular (mode : BitVec 16) : Bool :=
  mode &&& 0o170000 = 0o100000

/-- `S_ISDIR`. -/
def isDirectory (mode : BitVec 16) : Bool :=
  mode &&& 0o170000 = 0o040000

/-- `S_ISLNK`. -/
def isLink (mode : BitVec 16) : Bool :=
  mode &&& 0o170000 = 0o120000

namespace UserDotFilePermissions

/-- The part of `checkFile` and `remediateFile` that calls the permission procedure and updates
`result`. -/
def checkPermissions (action : Action) (node : HandlerNode) (params : FilePermissionsParams)
    (result : Result Status) : Task σ (Result Status) := do
  match ← Task.underNode surroundings action node params with
  | .error failure => pure (.error failure)
  | .ok verdict =>
      if verdict = .nonCompliant then pure (.ok verdict.status) else pure result

/-- `checkFile` of the audit. -/
def checkFile (user : Passwd) (path : ByteString) (mask : BitVec 32) (result : Result Status) :
    Task σ (Result Status) := do
  let groupName ← Logged.ask surroundings.groupName
  match ← Task.attempt (Task.makePattern surroundings groupName) with
  | .error failure => pure (.error failure)
  | .ok groupPattern =>
      match ← Task.attempt (Task.makePattern surroundings user.name) with
      | .error failure => pure (.error failure)
      | .ok pwdPattern =>
          checkPermissions surroundings .audit .auditFilePermissions
            { path, owner := some [pwdPattern], group := some [groupPattern], mask := some mask }
            result

/-- `remediateFile` of the remediation. `groupFound` is false where `group` is null. -/
def remediateFile (user : Passwd) (groupFound : Bool) (path : ByteString) (mask : BitVec 32)
    (result : Result Status) : Task σ (Result Status) := do
  match ← Task.attempt (Task.makePattern surroundings user.name) with
  | .error failure => pure (.error failure)
  | .ok pwdPattern =>
      if groupFound then
        let groupName ← Logged.ask surroundings.groupName
        match ← Task.attempt (Task.makePattern surroundings groupName) with
        | .error failure => pure (.error failure)
        | .ok groupPattern =>
            checkPermissions surroundings .remediate .remediateFilePermissions
              { path, owner := some [pwdPattern], group := some [groupPattern],
                mask := some mask }
              result
      else
        -- `group->gr_name` through a null pointer
        Logged.leave .aborted

/-- The tests of both callbacks that come before the permissions; `check` follows them. -/
def selectFile (user : Passwd) (filename : ByteString) (mode : BitVec 16)
    (check : Task σ Status) : Task σ Status := do
  if ¬isRegular mode then pure .compliant
  else if ¬startsWith filename (bytes ".") then pure .compliant
  else if filename = bytes ".forward" ∨ filename = bytes ".rhost" then
    Task.write (.addIndicator
      (bytes "'" ++ filename ++ bytes "' exists in home directory '" ++ user.dir ++ bytes "'")
      .nonCompliant)
    pure .nonCompliant
  else check

/-- Run a check while the result so far holds a value. -/
def whileValue (condition : Prop) [Decidable condition]
    (check : Result Status → Task σ (Result Status)) (result : Result Status) :
    Task σ (Result Status) :=
  match result with
  | .ok _ => if condition then check result else pure result
  | .error _ => pure result

/-- `ftwCallback` of the audit. -/
def auditCallback (user : Passwd) (directory filename : ByteString) (mode : BitVec 16) :
    Task σ Status :=
  selectFile user filename mode do
    let path := directory ++ bytes "/" ++ filename
    let result ← whileValue (filename = bytes ".netrc")
      (checkFile surroundings user path 0o177) (.ok .compliant)
    let result ← whileValue (filename = bytes ".bash_history")
      (checkFile surroundings user path 0o177) result
    let result ← whileValue True (checkFile surroundings user path 0o133) result
    Task.ofResult result

/-- `ftwCallback` of the remediation. -/
def remediateCallback (user : Passwd) (groupFound : Bool) (directory filename : ByteString)
    (mode : BitVec 16) : Task σ Status :=
  selectFile user filename mode do
    let path := directory ++ bytes "/" ++ filename
    let result ← whileValue (filename = bytes ".netrc" ∨ filename = bytes ".bash_history")
      (remediateFile surroundings user groupFound path 0o177) (.ok .compliant)
    let result ← whileValue True (remediateFile surroundings user groupFound path 0o133) result
    Task.ofResult result

/-- An error of the walk counts as `NonCompliant`, and the loop continues. -/
def absorb (walk : Task σ Status) (status : Status) : Task σ Status := do
  match ← Task.attempt walk with
  | .error _ => pure .nonCompliant
  | .ok result => if result = .nonCompliant then pure .nonCompliant else pure status

def auditUser (user : Passwd) (status : Status) : Task σ Status := do
  if ← Logged.ask (surroundings.getgrgid user.gid) then
    absorb (fileTreeWalk surroundings (auditCallback surroundings user) true user.dir) status
  else
    let errno ← Logged.ask surroundings.errno
    Task.refuse
      { message := bytes "Failed to get group for user: " ++ surroundings.strerror errno
        code := errno }

/-- Unlike the audit, the remediation goes on without a group. -/
def remediateUser (user : Passwd) (status : Status) : Task σ Status := do
  let groupFound ← Logged.ask (surroundings.getgrgid user.gid)
  absorb
    (fileTreeWalk surroundings (remediateCallback surroundings user groupFound) false user.dir)
    (if groupFound then status else .nonCompliant)

/-- `AuditUserDotFilePermissions`. -/
def audit : Task σ Status :=
  overUsers surroundings (auditUser surroundings)

/-- `RemediateUserDotFilePermissions`. -/
def remediate : Task σ Status :=
  overUsers surroundings (remediateUser surroundings)

end UserDotFilePermissions

namespace UserHomeDirectoryPermissions

def statError (errno : ℤ) : Error where
  message := bytes "Failed to stat home directory: " ++ surroundings.strerror errno
  code := errno

/-- The arguments for the permission procedure, made from the entries of user and group. -/
def homeParams (user : Passwd) : Task σ FilePermissionsParams := do
  if ← Logged.ask (surroundings.getgrgid user.gid) then
    let pwdPattern ← Task.makePattern surroundings user.name
    let groupName ← Logged.ask surroundings.groupName
    let groupPattern ← Task.makePattern surroundings groupName
    pure
      { path := user.dir
        mask := some 0o27
        owner := some [pwdPattern]
        group := some [groupPattern] }
  else
    let errno ← Logged.ask surroundings.errno
    Task.refuse
      { message := bytes "Failed to get group for user: " ++ surroundings.strerror errno
        code := errno }

def auditHome (user : Passwd) : Task σ Verdict := do
  let params ← homeParams surroundings user
  let subResult ← Task.underNode surroundings .audit .ensureFilePermissions params
  Task.ofResult subResult

def auditUser (user : Passwd) (result : Status) : Task σ Status := do
  match ← Logged.ask (surroundings.stat user.dir) with
  | some errno =>
      if errno = Errno.ENOENT then
        Task.write (.addIndicator
          (bytes "User's '" ++ user.name ++ bytes "' home directory '" ++ user.dir ++
            bytes "' does not exist") .nonCompliant)
        pure .nonCompliant
      else
        Task.refuse (statError surroundings errno)
  | none =>
      let verdict ← auditHome surroundings user
      if verdict = .nonCompliant then
        Task.write (.addIndicator
          (bytes "User's '" ++ user.name ++ bytes "' home directory '" ++ user.dir ++
            bytes "' has incorrect permissions") .nonCompliant)
        pure .nonCompliant
      else
        pure result

/-- The home directory is created where it is missing. -/
def ensureHome (user : Passwd) : Task σ Unit := do
  match ← Logged.ask (surroundings.stat user.dir) with
  | none => pure ()
  | some errno =>
      if errno = Errno.ENOENT then
        match ← Logged.ask (surroundings.mkdir user.dir 0o750) with
        | none => pure ()
        | some errno =>
            Task.refuse
              { message := bytes "Failed to create home directory: " ++ surroundings.strerror errno
                code := errno }
      else
        Task.refuse (statError surroundings errno)

/-- After an error, `result` is set and the value of the sub-result is read all the same. -/
def remediateHome (params : FilePermissionsParams) (result : Status) : Task σ Status := do
  Task.write (.push HandlerNode.ensureFilePermissions.name)
  let subResult ← Task.permissions surroundings .remediate params
  let result :=
    match subResult with
    | .error _ => .nonCompliant
    | .ok _ => result
  let verdict ← Task.valueOf subResult
  Task.write (.close verdict.status)
  pure result

def remediateUser (user : Passwd) (result : Status) : Task σ Status := do
  ensureHome surroundings user
  let params ← homeParams surroundings user
  remediateHome surroundings params result

/-- `AuditUserHomeDirectoryPermissions`. -/
def audit : Task σ Status :=
  overUsers surroundings (auditUser surroundings)

/-- `RemediateUserHomeDirectoryPermissions`. -/
def remediate : Task σ Status :=
  overUsers surroundings (remediateUser surroundings)

end UserHomeDirectoryPermissions

namespace LogFilePermissions

/-- The permission arguments for a kind of log file. -/
structure LogfileArgs where
  owner : List ByteString
  group : List ByteString
  mask : BitVec 32

def loginArgs : LogfileArgs where
  owner := [bytes "root"]
  group := [bytes "root", bytes "utmp"]
  mask := 0o113

def agentArgs : LogfileArgs where
  owner := [bytes "root", bytes "syslog"]
  group := [bytes "root", bytes "adm"]
  mask := 0o133

/-- `g_defaultLogfileArgs`. -/
def defaultLogfileArgs : LogfileArgs where
  owner := [bytes "root", bytes "syslog"]
  group := [bytes "root", bytes "adm"]
  mask := 0o137

def sssdArgs : LogfileArgs where
  owner := [bytes "root", bytes "SSSD"]
  group := [bytes "root", bytes "SSSD"]
  mask := 0o117

def gdmArgs : LogfileArgs where
  owner := [bytes "root"]
  group := [bytes "root", bytes "gdm", bytes "gdm3"]
  mask := 0o117

def journalArgs : LogfileArgs where
  owner := [bytes "root"]
  group := [bytes "root", bytes "systemd-journal"]
  mask := 0o137

/-- `g_logfilePatterns`, in the order in which the map is iterated. -/
def logfilePatterns : List (ByteString × LogfileArgs) :=
  [(bytes "*.journal", journalArgs), (bytes "*.journal~", journalArgs),
    (bytes "README", loginArgs), (bytes "SSSD", sssdArgs),
    (bytes "auth.log", defaultLogfileArgs), (bytes "btmp", loginArgs),
    (bytes "btmp-*", loginArgs), (bytes "btmp.*", loginArgs),
    (bytes "cloud-init.log*", agentArgs), (bytes "gdm", gdmArgs), (bytes "gdm3", gdmArgs),
    (bytes "lastlog", loginArgs), (bytes "lastlog.*", loginArgs),
    (bytes "localmessages*", agentArgs), (bytes "messages", defaultLogfileArgs),
    (bytes "secure\x7b,*.*,.*,-*\x7d", defaultLogfileArgs), (bytes "sssd", sssdArgs),
    (bytes "syslog", defaultLogfileArgs), (bytes "waagent.log*", agentArgs),
    (bytes "wtmp", loginArgs), (bytes "wtmp-*", loginArgs), (bytes "wtmp.*", loginArgs)]

/-- `GetFilePermissionsParams`: it throws if a name of the table does not compile. -/
def getFilePermissionsParams (path : ByteString) (args : LogfileArgs) :
    Task σ FilePermissionsParams :=
  if (args.owner ++ args.group).all fun name => (surroundings.regexFailure name).isNone then
    pure { path, owner := some args.owner, group := some args.group, mask := some args.mask }
  else
    Logged.leave (.thrown (bytes "invalid static permissions map"))

def getFilePermissionArgs (filename fullPath : ByteString) : Task σ FilePermissionsParams :=
  match logfilePatterns.find? fun entry => surroundings.fnmatch entry.1 (cString filename) with
  | some entry => getFilePermissionsParams surroundings fullPath entry.2
  | none => getFilePermissionsParams surroundings fullPath defaultLogfileArgs

/-- The part of `ProcessLogfile` that calls the permission procedure. -/
def processRegular (action : Action) (fullPath : ByteString) (params : FilePermissionsParams) :
    Task σ Status := do
  match ← Task.underNode surroundings action (.filePermissionsCheck fullPath) params with
  | .error failure => Task.fail failure
  | .ok verdict =>
      if verdict ≠ .compliant then pure .nonCompliant else pure verdict.status

def processLogfile (action : Action) (path filename : ByteString) (mode : BitVec 16) :
    Task σ Status := do
  if isDirectory mode then pure .compliant
  else if isLink mode then pure .compliant
  else if ¬isRegular mode then pure .compliant
  else
    let fullPath := path ++ bytes "/" ++ filename
    let params ← getFilePermissionArgs surroundings filename fullPath
    processRegular surroundings action fullPath params

/-- The frame of both procedures: the walk and the closing indicator. -/
def processTree (action : Action) (good bad : ByteString × ByteString)
    (path : Option ByteString) : Task σ Status := do
  match path with
  -- `assert(params.path.HasValue())`
  | none => Logged.leave .aborted
  | some path =>
      let result ← fileTreeWalk surroundings (processLogfile surroundings action) false path
      if result = .compliant then
        Task.write (.addIndicator (good.1 ++ path ++ good.2) .compliant)
        pure .compliant
      else
        Task.write (.addIndicator (bad.1 ++ path ++ bad.2) .nonCompliant)
        pure .nonCompliant

/-- `AuditLogFilePermissions`. -/
def audit (path : Option ByteString) : Task σ Status :=
  processTree surroundings .audit
    (bytes "All logfiles in ", bytes " have correct access permissions")
    (bytes "One or more logfiles in ", bytes " have incorrect access permissions") path

/-- `RemediateLogFilePermissions`. -/
def remediate (path : Option ByteString) : Task σ Status :=
  processTree surroundings .remediate
    (bytes "Successfully set correct access permissions for all logfiles in ", [])
    (bytes "Failed to set correct access permissions for one or more logfiles in ", []) path

end LogFilePermissions

/-- The procedures that check many files. -/
inductive Aggregate where
  | userDotFilePermissions
  | userHomeDirectoryPermissions
  | logFilePermissions (path : Option ByteString)

/-- The handlers of the procedures. -/
def Aggregate.task (aggregate : Aggregate) (action : Action) : Task σ Status :=
  match aggregate, action with
  | .userDotFilePermissions, .audit => UserDotFilePermissions.audit surroundings
  | .userDotFilePermissions, .remediate => UserDotFilePermissions.remediate surroundings
  | .userHomeDirectoryPermissions, .audit => UserHomeDirectoryPermissions.audit surroundings
  | .userHomeDirectoryPermissions, .remediate =>
      UserHomeDirectoryPermissions.remediate surroundings
  | .logFilePermissions path, .audit => LogFilePermissions.audit surroundings path
  | .logFilePermissions path, .remediate => LogFilePermissions.remediate surroundings path

end OsConfig.ComplianceEngine
