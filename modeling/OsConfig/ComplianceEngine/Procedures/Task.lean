import OsConfig.Common.Streams
import OsConfig.ComplianceEngine.Procedures
import OsConfig.ComplianceEngine.Procedures.FilePermissions
import OsConfig.Library.Logged

/-!
# Procedures over the running system

The procedures that check the files of all users or of a whole directory read
the account files, walk directory trees and call the permission procedures.
They are computations over the state of the system; what the system answers is
given by an `Surroundings`, whose answers may change the state, so that nothing
is assumed about what happens between two calls.

The log of a run holds the writes to the indicators tree and, for statements to
refer to, the answers that decide how a run goes on: the results of the
permission procedures, the failed calls, and the accesses to the value of a
result without one.
-/

namespace OsConfig.ComplianceEngine

open OsConfig ByteString

/-- An entry of the log of a run. -/
inductive Mark where
  | op (op : TreeOp)
  /-- A permission procedure returned. -/
  | permissions (result : Result Verdict)
  /-- A call to the system or to a constructor failed. -/
  | refused (failure : Error)
  /-- `Result::Value()` was called on a result that holds an error. -/
  | valueOfError (failure : Error)
  deriving DecidableEq

/-- The ways to leave a function other than by returning a value. -/
inductive Leaving where
  | error (failure : Error)
  | thrown (what : ByteString)
  | aborted
  deriving DecidableEq

/-- A computation of a procedure. -/
abbrev Task (σ : Type) := Logged Mark σ Leaving

/-- An entry of the user database. -/
structure Passwd where
  name : ByteString
  uid : UInt32
  gid : UInt32
  dir : ByteString
  shell : ByteString

/-- What iterating over the user database yields, and the error reading it ends in, if any. -/
structure UsersRange where
  entries : List Passwd
  failure : Option ℤ := none

/-- `struct dirent`. -/
structure DirectoryEntry where
  name : ByteString
  isDirectory : Bool

/-- What reading a directory yields; `errno` is zero when the end is reached. -/
structure Directory where
  entries : List DirectoryEntry
  errno : ℤ := 0

/-- The answers of the system. -/
structure Surroundings (σ : Type) where
  strerror : ℤ → ByteString
  /-- The contents of `/etc/shells`, if it can be opened. -/
  shellsFile : σ → Option ByteString × σ
  /-- The user database, or the error with which opening it fails. -/
  users : σ → Except ℤ UsersRange × σ
  /-- Whether `getgrgid` finds the group. -/
  getgrgid : UInt32 → σ → Bool × σ
  /-- The name in the entry `getgrgid` answers. It is in static storage and read when needed. -/
  groupName : σ → ByteString × σ
  /-- What is thrown when a regular expression does not compile. -/
  regexFailure : ByteString → Option ByteString
  /-- `fnmatch` with `FNM_CASEFOLD`. -/
  fnmatch : ByteString → ByteString → Bool
  errno : σ → ℤ × σ
  /-- The error of `stat`, if it fails. -/
  stat : ByteString → σ → Option ℤ × σ
  /-- The error of `mkdir`, if it fails. -/
  mkdir : ByteString → BitVec 32 → σ → Option ℤ × σ
  opendir : ByteString → σ → Except ℤ Directory × σ
  /-- The mode `lstat` answers. -/
  lstat : ByteString → σ → Except ℤ (BitVec 16) × σ
  /-- `AuditFilePermissions` and `RemediateFilePermissions`. -/
  permissions : Action → FilePermissionsParams → σ → Report σ

namespace Task

variable {σ α : Type}

def write (op : TreeOp) : Task σ Unit :=
  Logged.emit (.op op)

/-- Return an error. -/
def fail (failure : Error) : Task σ α :=
  Logged.leave (.error failure)

/-- Return an error because a call failed. -/
def refuse (failure : Error) : Task σ α := do
  Logged.emit (.refused failure)
  fail failure

/-- The caller's view of a function: its `Result`. -/
def attempt (inner : Task σ α) : Task σ (Result α) :=
  inner.intercept fun ending =>
    match ending with
    | .ok value => .ok (.ok value)
    | .error (.error failure) => .ok (.error failure)
    | .error left => .error left

/-- Return a `Result`. -/
def ofResult (result : Result α) : Task σ α :=
  match result with
  | .ok value => pure value
  | .error failure => fail failure

/-- `Result::Value()`. -/
def valueOf (result : Result α) : Task σ α :=
  match result with
  | .ok value => pure value
  | .error failure => do
      Logged.emit (.valueOfError failure)
      Logged.leave (.thrown (bytes "Result: unchecked access to Value"))

/-- Call a permission procedure. -/
def permissions (surroundings : Surroundings σ) (action : Action)
    (params : FilePermissionsParams) : Task σ (Result Verdict) :=
  fun state =>
    let report := surroundings.permissions action params state
    { ending := .ok report.result
      log := report.indicators.map (fun indicator =>
          Mark.op (.addIndicator indicator.message indicator.status)) ++
        [.permissions report.result]
      state := report.context }

/-- Call a permission procedure under a node of its own. The node is closed only if the procedure
returns a status; an error is handled by the caller, with the node still open. -/
def underNode (surroundings : Surroundings σ) (action : Action) (node : HandlerNode)
    (params : FilePermissionsParams) : Task σ (Result Verdict) := do
  write (.push node.name)
  match ← permissions surroundings action params with
  | .error failure => pure (.error failure)
  | .ok verdict =>
      write (.close verdict.status)
      pure (.ok verdict)

/-- `Pattern::Make`. -/
def makePattern (surroundings : Surroundings σ) (text : ByteString) : Task σ ByteString :=
  match surroundings.regexFailure text with
  | none => pure text
  | some what =>
      refuse
        { message := bytes "Regular expression '" ++ text ++ bytes "' compilation failed: " ++ what
          code := Errno.EINVAL }

/-- The end of a procedure, as the evaluator sees it. -/
def outcome : Except Leaving α → Outcome α
  | .ok value => .value value
  | .error (.error failure) => .error failure
  | .error (.thrown what) => .thrown what
  | .error .aborted => .aborted

end Task

/-- The writes to the indicators tree in a log. -/
def Mark.ops (log : List Mark) : List TreeOp :=
  log.filterMap fun mark =>
    match mark with
    | .op write => some write
    | _ => none

section Accounts

/-- The part of a line from its last `/` on. -/
def fromLastSlash (line : ByteString) : ByteString :=
  if 47 ∈ line then line.drop (line.length - 1 - line.reverse.idxOf 47) else line

/-- The shells a file like `/etc/shells` lists. -/
def validShells (text : ByteString) : List ByteString :=
  ((getLines text).map fun line => line.takeWhile (· ≠ 35)).filter fun line =>
    ¬bytes "nologin" <:+: fromLastSlash line

variable {σ : Type} (surroundings : Surroundings σ)

def listValidShells : Task σ (List ByteString) := do
  match ← Logged.ask surroundings.shellsFile with
  | none =>
      Task.refuse { message := bytes "Failed to open /etc/shells file", code := Errno.EINVAL }
  | some text => pure (validShells text)

/-- `UsersRange::Make`. -/
def usersRange : Task σ UsersRange := do
  match ← Logged.ask surroundings.users with
  | .error errno =>
      Task.refuse
        { message := bytes "Failed to create UsersRange: " ++ surroundings.strerror errno
          code := errno }
  | .ok range => pure range

/-- The loop over the users with a valid shell. -/
def forUsers (body : Passwd → Status → Task σ Status) (shells : List ByteString)
    (failure : Option ℤ) (users : List Passwd) (status : Status) : Task σ Status := do
  match users with
  | [] =>
      match failure with
      | none => pure status
      | some errno =>
          -- the iterator throws
          let what := bytes "Failed to read next entry: " ++ surroundings.strerror errno
          Logged.emit (.refused { message := what, code := errno })
          Logged.leave (.thrown what)
  | user :: rest =>
      if user.shell ∈ shells then
        let status ← body user status
        forUsers body shells failure rest status
      else
        forUsers body shells failure rest status

/-- The common frame of the procedures that go through the users. -/
def overUsers (body : Passwd → Status → Task σ Status) : Task σ Status := do
  let shells ← listValidShells surroundings
  let range ← usersRange surroundings
  forUsers surroundings body shells range.failure range.entries .compliant

end Accounts

section FileTreeWalk

variable {σ : Type} (surroundings : Surroundings σ)
  (callback : ByteString → ByteString → BitVec 16 → Task σ Status) (breakOnNonCompliant : Bool)

def iterationError (path : ByteString) (errno : ℤ) : Error where
  message :=
    bytes "Failed to iterate directory '" ++ path ++ bytes "': " ++ surroundings.strerror errno
  code := errno

/-- What follows a `break` on a status that is not `Compliant`: `errno` is then whatever the
last call left there. -/
def breakIteration (path : ByteString) : Task σ Status := do
  let errno ← Logged.ask surroundings.errno
  if errno ≠ 0 then Task.refuse (iterationError surroundings path errno) else pure .nonCompliant

/-- `lstat` on an entry and the call of the callback. -/
def visitEntry (path : ByteString) (entry : DirectoryEntry) : Task σ Status := do
  match ← Logged.ask (surroundings.lstat (path ++ bytes "/" ++ entry.name)) with
  | .error errno =>
      Task.refuse
        { message := bytes "Failed to lstat '" ++ path ++ bytes "/" ++ entry.name ++ bytes "': " ++
            surroundings.strerror errno
          code := errno }
  | .ok mode => callback path entry.name mode

def walkBelow (descend : ByteString → Task σ Status) (path : ByteString)
    (entry : DirectoryEntry) : Task σ Status :=
  if entry.isDirectory then descend (path ++ bytes "/" ++ entry.name) else pure .compliant

/-- The loop over the entries of a directory. `descend` walks a subdirectory. -/
def walkEntries (descend : ByteString → Task σ Status) (path : ByteString) (errno : ℤ)
    (entries : List DirectoryEntry) (result : Status) : Task σ Status := do
  match entries with
  | [] =>
      if errno ≠ 0 then Task.refuse (iterationError surroundings path errno) else pure result
  | entry :: rest =>
      if entry.isDirectory ∧ (entry.name = bytes "." ∨ entry.name = bytes "..") then
        walkEntries descend path errno rest result
      else
        let below ← walkBelow descend path entry
        if below ≠ .compliant ∧ breakOnNonCompliant then
          breakIteration surroundings path
        else
          let here ← visitEntry surroundings callback path entry
          if here ≠ .compliant ∧ breakOnNonCompliant then
            breakIteration surroundings path
          else
            walkEntries descend path errno rest
              (if below ≠ .compliant ∨ here ≠ .compliant then .nonCompliant else result)

/-- `FileTreeWalk` with the number of levels that are left. -/
def walkTree (levels : ℕ) (path : ByteString) : Task σ Status := do
  match levels with
  | 0 => Task.fail { message := bytes "Maximum recursion depth reached" }
  | levels + 1 =>
      match ← Logged.ask (surroundings.opendir path) with
      | .error errno =>
          if errno = Errno.ENOENT then pure .compliant
          else
            Task.refuse
              { message := bytes "Failed to open directory '" ++ path ++ bytes "': " ++
                  surroundings.strerror errno
                code := errno }
      | .ok directory =>
          walkEntries surroundings callback breakOnNonCompliant (walkTree levels) path
            directory.errno directory.entries .compliant

def maxDepth : ℕ := 32

def fileTreeWalk (path : ByteString) : Task σ Status :=
  walkTree surroundings callback breakOnNonCompliant (maxDepth + 1) path

end FileTreeWalk

end OsConfig.ComplianceEngine
