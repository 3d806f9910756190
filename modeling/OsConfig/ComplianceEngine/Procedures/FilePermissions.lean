import OsConfig.ComplianceEngine.Procedures
import OsConfig.Library.BitMasks

/-!
# The file permission procedures

`AuditFilePermissions` compares owner, group and mode of a file with what is
required; `RemediateFilePermissions` changes them. The file system is the state
of the two procedures. The account databases and what the kernel takes from the
mode of a file whose ownership changes do not change; they form the `Host`.

A mode has sixteen bits: the file type and the twelve bits that `chmod` sets.
The arguments are 32-bit numbers, and the remediation computes the new mode in
sixteen bits.
-/

namespace OsConfig.ComplianceEngine

open OsConfig ByteString BitMasks

inductive Behavior where
  | checkIfExists
  | atLeastOneExists
  | allExist
  | anyExist
  | noneExist
  | onlyOneExists
  deriving DecidableEq

/-- `FilePermissionsParams`. A pattern is given by its text. -/
structure FilePermissionsParams where
  path : ByteString
  owner : Option (List ByteString) := none
  group : Option (List ByteString) := none
  permissions : Option (BitVec 32) := none
  mask : Option (BitVec 32) := none
  behavior : Option Behavior := some .atLeastOneExists

def Separated.toString (items : List ByteString) : ByteString :=
  items.foldl (fun text item => text ++ (if text.length > 0 then bytes "|" else []) ++ item) []

/-- The statuses the permission procedures return. -/
inductive Verdict where
  | compliant
  | nonCompliant
  deriving DecidableEq

def Verdict.status : Verdict → Status
  | .compliant => .compliant
  | .nonCompliant => .nonCompliant

/-- What a permission procedure returns, the indicators it adds, and the state it leaves. It
opens no nodes of its own. -/
structure Report (σ : Type) where
  result : Result Verdict
  indicators : List Indicator
  context : σ

/-- The last statement of a permission procedure: what it returns, and the indicator that says
why. -/
structure Ending where
  result : Result Verdict
  indicators : List Indicator := []

namespace Ending

/-- `return indicators.Compliant(message)`. -/
def compliant (message : ByteString) : Ending where
  result := .ok .compliant
  indicators := [{ message, status := .compliant }]

/-- `return indicators.NonCompliant(message)`. -/
def nonCompliant (message : ByteString) : Ending where
  result := .ok .nonCompliant
  indicators := [{ message, status := .nonCompliant }]

/-- `return Error(message, code)`. -/
def failure (message : ByteString) (code : ℤ) : Ending where
  result := .error { message, code }

def after {σ : Type} (ending : Ending) (indicators : List Indicator) (context : σ) :
    Report σ where
  result := ending.result
  indicators := indicators ++ ending.indicators
  context

end Ending

/-- A user or a group database. -/
structure Accounts where
  /-- `getpwuid`, `getgrgid`. -/
  nameOf : UInt32 → Option ByteString
  /-- `getpwnam`, `getgrnam`. -/
  idOf : ByteString → Option UInt32

/-- What `stat` answers for a file. -/
structure FileState where
  uid : UInt32
  gid : UInt32
  mode : BitVec 16
  deriving DecidableEq

/-- What the procedures rely on and do not change. -/
structure Host where
  users : Accounts
  groups : Accounts
  strerror : ℤ → ByteString
  /-- The bits a change of ownership takes from a file of the given mode. -/
  chownClears : BitVec 16 → BitVec 16
  /-- They are the set-user-ID and set-group-ID bits at most. -/
  chownClears_within : ∀ mode, Within (chownClears mode) 0o6000

/-- The set-user-ID and set-group-ID bits of a regular executable file. -/
def linuxChownClears (mode : BitVec 16) : BitVec 16 :=
  if mode &&& 0o170000 = 0o100000 ∧ mode &&& 0o111 ≠ 0 then 0o6000 else 0

theorem linuxChownClears_within (mode : BitVec 16) : Within (linuxChownClears mode) 0o6000 := by
  unfold linuxChownClears
  split
  · exact fun _ bit => bit
  · intro i bit
    simp at bit

namespace FileState

/-- The id that `(uid_t)-1` stands for: the one the file has. -/
def chownId (current id : UInt32) : UInt32 :=
  if id = 0xFFFFFFFF then current else id

/-- The effect of `chown`. -/
def chown (host : Host) (uid gid : UInt32) (file : FileState) : FileState where
  uid := chownId file.uid uid
  gid := chownId file.gid gid
  mode := file.mode &&& ~~~host.chownClears file.mode

/-- The effect of `chmod`: the file type stays. -/
def chmod (mode : BitVec 16) (file : FileState) : FileState :=
  { file with mode := (file.mode &&& ~~~low 16 12) ||| (mode &&& low 16 12) }

end FileState

/-- The file system as the permission procedures use it. -/
structure FileSystem where
  /-- `stat`, with the error number when it fails. -/
  stat : ByteString → Except ℤ FileState
  /-- The error with which `chown` fails on a path, if it does. -/
  chownFailure : ByteString → Option ℤ := fun _ => none
  /-- The error with which `chmod` fails on a path, if it does. -/
  chmodFailure : ByteString → Option ℤ := fun _ => none

namespace FileSystem

def write (path : ByteString) (file : FileState) (files : FileSystem) : FileSystem :=
  { files with stat := Function.update files.stat path (.ok file) }

/-- A call that changes the file at a path, unless it fails. -/
def change (failure : Option ℤ) (path : ByteString) (effect : FileState → FileState)
    (files : FileSystem) : Except ℤ FileSystem :=
  match failure, files.stat path with
  | some errno, _ => .error errno
  | none, .error errno => .error errno
  | none, .ok file => .ok (files.write path (effect file))

def chown (host : Host) (path : ByteString) (uid gid : UInt32) (files : FileSystem) :
    Except ℤ FileSystem :=
  files.change (files.chownFailure path) path (FileState.chown host uid gid)

def chmod (path : ByteString) (mode : BitVec 16) (files : FileSystem) : Except ℤ FileSystem :=
  files.change (files.chmodFailure path) path (FileState.chmod mode)

end FileSystem

namespace FilePermissions

/-- A way to end that does not report compliance. -/
inductive Refusal where
  | nonCompliant (message : ByteString)
  | failure (message : ByteString) (code : ℤ)

def Refusal.ending : Refusal → Ending
  | .nonCompliant message => .nonCompliant message
  | .failure message code => .failure message code

/-- The error both procedures return when `stat` fails with anything but `ENOENT`. -/
def statError (host : Host) (errno : ℤ) : Ending :=
  .failure (bytes "Stat error '" ++ host.strerror errno ++ bytes "'") errno

/-- The indicator of a statement `indicators.Compliant(message)`. -/
def matched (message : ByteString) : Indicator where
  message
  status := .compliant

/-- The same bits are set in the required and the forbidden permissions. -/
def conflicting (params : FilePermissionsParams) : Bool :=
  match params.permissions, params.mask with
  | some permissions, some mask => permissions &&& mask ≠ 0
  | _, _ => false

section Audit

/-- A check of the audit: it ends the procedure, or passes and may add an indicator. -/
inductive Check where
  | stops (refusal : Refusal)
  | passes (indicators : List Indicator)

/-- Run checks in turn; `last` is what follows the last of them. -/
def runChecks (checks : List Check) (last : Ending) : Ending :=
  match checks with
  | [] => last
  | .stops refusal :: _ => refusal.ending
  | .passes indicators :: rest =>
      let ending := runChecks rest last
      { ending with indicators := indicators ++ ending.indicators }

/-- The check of the owner and of the group. `noun` is what the messages call the account and
`unknown` the message about an id without a name. -/
def accountCheck (accounts : Accounts) (noun unknown : ByteString) (path : ByteString)
    (required : Option (List ByteString)) (id : UInt32) : Check :=
  match required with
  | none => .passes []
  | some items =>
      match accounts.nameOf id with
      | none => .stops (.nonCompliant (unknown ++ toDecimal id.toNat))
      | some name =>
          if items.any (· = name) then
            .passes [matched
              (path ++ bytes " " ++ noun ++ bytes " matches expected value '" ++
                Separated.toString items ++ bytes "'")]
          else
            .stops (.nonCompliant
              (bytes "Invalid " ++ noun ++ bytes " on '" ++ path ++ bytes "' - is '" ++ name ++
                bytes "' should be '" ++ Separated.toString items ++ bytes "'"))

def ownerCheck (host : Host) (params : FilePermissionsParams) (file : FileState) : Check :=
  accountCheck host.users (bytes "owner") (bytes "No user with uid ") params.path params.owner
    file.uid

def groupCheck (host : Host) (params : FilePermissionsParams) (file : FileState) : Check :=
  accountCheck host.groups (bytes "group") (bytes "No group with gid ") params.path params.group
    file.gid

/-- The error has no code of its own here, unlike in the remediation. -/
def conflictCheck (params : FilePermissionsParams) : Check :=
  if conflicting params then
    .stops (.failure (bytes "Invalid permissions and mask - same bits set in both") (-1))
  else
    .passes []

/-- `st_mode & displayMask` printed in octal. -/
def displayed (mode : BitVec 32) : ByteString :=
  toOctal (mode &&& 0xFFF).toNat

/-- Pad to a width of three with zeros. -/
def padded (text : ByteString) : ByteString :=
  List.replicate (3 - text.length) 48 ++ text

def permissionsCheck (params : FilePermissionsParams) (mode : BitVec 32) : Check :=
  match params.permissions with
  | none => .passes []
  | some permissions =>
      if permissions ≠ mode &&& permissions then
        .stops (.nonCompliant
          (bytes "Invalid permissions on '" ++ params.path ++ bytes "' - are " ++ displayed mode ++
            bytes " should be at least " ++ toOctal permissions.toNat))
      else
        .passes [matched
          (params.path ++ bytes " matches expected permissions " ++ toOctal permissions.toNat)]

def maskCheck (params : FilePermissionsParams) (mode : BitVec 32) : Check :=
  match params.mask with
  | none => .passes []
  | some mask =>
      if mode &&& mask ≠ 0 then
        .stops (.nonCompliant
          (bytes "Invalid permissions on '" ++ params.path ++ bytes "' - are " ++ displayed mode ++
            bytes " should be set to " ++ padded (displayed (mode &&& ~~~mask)) ++
            bytes " or a more restrictive value"))
      else
        .passes [matched
          (params.path ++ bytes " mask matches expected mask " ++ toOctal mask.toNat)]

/-- The part of the audit that looks at an existing file. -/
def auditFile (host : Host) (params : FilePermissionsParams) (file : FileState) : Ending :=
  runChecks
    [ownerCheck host params file, groupCheck host params file, conflictCheck params,
      permissionsCheck params (file.mode.setWidth 32), maskCheck params (file.mode.setWidth 32)]
    (.compliant (bytes "File '" ++ params.path ++
      bytes "' has correct permissions and ownership as expected"))

def auditEnding (host : Host) (params : FilePermissionsParams) (behavior : Behavior)
    (stat : Except ℤ FileState) : Ending :=
  match stat with
  | .error errno =>
      if errno = Errno.ENOENT then
        if behavior = .noneExist ∨ behavior = .checkIfExists then
          .compliant (bytes "File '" ++ params.path ++ bytes "' does not exist as it should")
        else
          .nonCompliant (bytes "File '" ++ params.path ++ bytes "' does not exist but it should")
      else
        statError host errno
  | .ok file =>
      if behavior = .noneExist then
        .nonCompliant (bytes "File '" ++ params.path ++ bytes "' exist but it should not")
      else
        auditFile host params file

end Audit

/-- `AuditFilePermissions`. Nothing is answered where the assertion that a behavior is given
fails. -/
def auditFilePermissions (host : Host) (params : FilePermissionsParams) (files : FileSystem) :
    Option (Report FileSystem) :=
  params.behavior.map fun behavior =>
    (auditEnding host params behavior (files.stat (cString params.path))).after [] files

section Remediation

/-- The id the file shall have, or the way the procedure ends when there is none: the current
one if its name is among the required ones, otherwise that of the first required name. -/
def settle (accounts : Accounts) (empty : ByteString) (unknown : ByteString → ByteString)
    (required : Option (List ByteString)) (current : UInt32) : Except Refusal UInt32 :=
  match required with
  | none => .ok current
  | some [] => .error (.failure empty Errno.EINVAL)
  | some (first :: rest) =>
      if (first :: rest).any (fun item => accounts.nameOf current = some item) then
        .ok current
      else
        match accounts.idOf (cString first) with
        | none => .error (.nonCompliant (unknown first))
        | some id => .ok id

def settleOwner (host : Host) (params : FilePermissionsParams) (file : FileState) :
    Except Refusal UInt32 :=
  settle host.users (bytes "Empty list of owners provided")
    (fun first => bytes "No user with name " ++ first) params.owner file.uid

/-- The message about a missing group gives the number of the group the file has. -/
def settleGroup (host : Host) (params : FilePermissionsParams) (file : FileState) :
    Except Refusal UInt32 :=
  settle host.groups (bytes "Empty list of groups provided")
    (fun _ => bytes "No group with gid " ++ toDecimal file.gid.toNat) params.group file.gid

/-- The `chown` of the remediation, if an id changed. -/
def changeOwnership (host : Host) (params : FilePermissionsParams) (file : FileState)
    (uid gid : UInt32) (files : FileSystem) : Except Refusal (List Indicator × FileSystem) :=
  if uid ≠ file.uid ∨ gid ≠ file.gid then
    match files.chown host (cString params.path) uid gid with
    | .error errno => .error (.failure (bytes "Chown error: " ++ host.strerror errno) errno)
    | .ok changed =>
        .ok ([matched
          (params.path ++ bytes " owner changed to " ++ toDecimal uid.toNat ++ bytes ":" ++
            toDecimal gid.toNat)], changed)
  else
    .ok ([], files)

/-- `new_perms`, computed from the mode `stat` returned at the start. -/
def newPerms (params : FilePermissionsParams) (mode : BitVec 16) : BitVec 16 :=
  let required :=
    match params.permissions with
    | none => mode
    | some permissions => (mode.setWidth 32 ||| permissions).setWidth 16
  match params.mask with
  | none => required
  | some mask => (required.setWidth 32 &&& ~~~mask).setWidth 16

/-- The part of the remediation after the change of ownership. -/
def changePermissions (host : Host) (params : FilePermissionsParams) (file : FileState)
    (indicators : List Indicator) (files : FileSystem) : Report FileSystem :=
  if conflicting params then
    (Ending.failure (bytes "Invalid permissions and mask - same bits set in both")
      Errno.EINVAL).after indicators files
  else if newPerms params file.mode ≠ file.mode then
    match files.chmod (cString params.path) (newPerms params file.mode) with
    | .error errno =>
        (Ending.failure (bytes "Chmod error: " ++ host.strerror errno) errno).after indicators
          files
    | .ok changed =>
        { result := .ok .compliant
          indicators := indicators ++ [matched
            (params.path ++ bytes " permissions changed to " ++
              toDecimal (newPerms params file.mode).toNat)]
          context := changed }
  else
    { result := .ok .compliant, indicators, context := files }

/-- The part of the remediation that works on an existing file. -/
def remediateFile (host : Host) (params : FilePermissionsParams) (file : FileState)
    (files : FileSystem) : Report FileSystem :=
  match settleOwner host params file with
  | .error refusal => refusal.ending.after [] files
  | .ok uid =>
      match settleGroup host params file with
      | .error refusal => refusal.ending.after [] files
      | .ok gid =>
          match changeOwnership host params file uid gid files with
          | .error refusal => refusal.ending.after [] files
          | .ok (indicators, changed) => changePermissions host params file indicators changed

end Remediation

def remediateFilePermissions (host : Host) (params : FilePermissionsParams)
    (files : FileSystem) : Report FileSystem :=
  match files.stat (cString params.path) with
  | .error errno =>
      if errno = Errno.ENOENT then
        (Ending.nonCompliant
          (bytes "File '" ++ params.path ++ bytes "' does not exist")).after [] files
      else
        (statError host errno).after [] files
  | .ok file => remediateFile host params file files

/-- The permission procedures, for callers that leave the default behavior in place. -/
def procedures (host : Host) (action : Action) (params : FilePermissionsParams)
    (files : FileSystem) : Report FileSystem :=
  match action with
  | .audit =>
      (auditEnding host params (params.behavior.getD .atLeastOneExists)
        (files.stat (cString params.path))).after [] files
  | .remediate => remediateFilePermissions host params files

end FilePermissions

end OsConfig.ComplianceEngine
