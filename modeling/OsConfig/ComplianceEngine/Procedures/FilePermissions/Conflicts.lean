import OsConfig.ComplianceEngine.Procedures.FilePermissions.Compliance

/-!
# Conflicting permissions and the ownership step

The remediation refuses permissions and a mask with a bit in common. It looks at
them after `chown`, so the refusal may leave the file with another owner, another
group, or without the bits that `chown` takes.
-/

namespace OsConfig.ComplianceEngine

open OsConfig ByteString BitMasks

namespace Accounts

/-- There is an id to settle on. -/
def Settles (accounts : Accounts) (required : Option (List ByteString)) (current : UInt32) :
    Prop :=
  accounts.Accepts required current ∨ (accounts.firstId required).isSome

/-- The id in place is not accepted, and `chown` puts that of the first required name there. -/
def Replaces (accounts : Accounts) (required : Option (List ByteString)) (current : UInt32) :
    Prop :=
  ¬accounts.Accepts required current ∧
    ∃ id, accounts.firstId required = some id ∧ id ≠ current ∧ id ≠ 0xFFFFFFFF

end Accounts

namespace FilePermissions

/-- What the remediation returns for conflicting permissions and mask. -/
def conflictError : Error where
  message := bytes "Invalid permissions and mask - same bits set in both"
  code := Errno.EINVAL

/-- The arguments and the file with which the ownership step changes the file before the
conflict is seen. -/
structure ChangedFirst (host : Host) (params : FilePermissionsParams) (files : FileSystem)
    (file : FileState) : Prop where
  conflict : conflicting params = true
  owner : host.users.Settles params.owner file.uid
  group : host.groups.Settles params.group file.gid
  moves : host.users.Moves params.owner file.uid ∨ host.groups.Moves params.group file.gid
  permitted : files.chownFailure (cString params.path) = none
  visible : host.users.Replaces params.owner file.uid ∨
    host.groups.Replaces params.group file.gid ∨ file.mode &&& host.chownClears file.mode ≠ 0

section Ids

variable {accounts : Accounts} {items : Option (List ByteString)} {current id : UInt32}

theorem settles_iff (empty : ByteString) (unknown : ByteString → ByteString) :
    accounts.Settles items current ↔
      ∃ id, settle accounts empty unknown items current = .ok id := by
  constructor
  · intro settles
    unfold settle
    split
    next => exact ⟨current, rfl⟩
    next => simp [Accounts.Settles, Accounts.Accepts, Accounts.firstId] at settles
    next first rest =>
      split
      next => exact ⟨current, rfl⟩
      next missing =>
        have refused : ¬accounts.Accepts (some (first :: rest)) current := by
          simpa [Accounts.Accepts] using missing
        have known := settles.resolve_left refused
        rcases Option.isSome_iff_exists.mp known with ⟨id, first_id⟩
        have found : accounts.idOf (cString first) = some id := by
          simpa [Accounts.firstId] using first_id
        exact ⟨id, by simp [found]⟩
  · rintro ⟨id, settled⟩
    rcases settle_ok settled with ⟨accepted, -⟩ | ⟨-, first⟩
    · exact Or.inl accepted
    · exact Or.inr (Option.isSome_iff_exists.mpr ⟨id, first⟩)

/-- The id that `chown` leaves differs from the one in place exactly if it is replaced. -/
theorem replaces_iff
    (settled : (accounts.Accepts items current ∧ id = current) ∨
      (¬accounts.Accepts items current ∧ accounts.firstId items = some id)) :
    accounts.Replaces items current ↔ FileState.chownId current id ≠ current := by
  unfold FileState.chownId Accounts.Replaces
  rcases settled with ⟨accepted, rfl⟩ | ⟨refused, first⟩
  · simp [accepted]
  · simp only [refused, not_false_eq_true, true_and, first, Option.some.injEq, exists_eq_left']
    split
    next unset => simp [unset]
    next given => simp [given]

end Ids

section Remediation

variable {host : Host} {params : FilePermissionsParams} {files : FileSystem} {file : FileState}
  {uid gid : UInt32}

theorem chown_eq_self_iff : file.chown host uid gid = file ↔
    FileState.chownId file.uid uid = file.uid ∧ FileState.chownId file.gid gid = file.gid ∧
      file.mode &&& host.chownClears file.mode = 0 := by
  rw [← and_not_eq_self_iff]
  constructor
  · intro same
    exact ⟨congrArg FileState.uid same, congrArg FileState.gid same, congrArg FileState.mode same⟩
  · rintro ⟨sameUid, sameGid, sameMode⟩
    unfold FileState.chown
    rw [sameUid, sameGid, sameMode]

theorem remediateFile_of_changes {indicators : List Indicator} {changed : FileSystem}
    (owner : settleOwner host params file = .ok uid)
    (group : settleGroup host params file = .ok gid)
    (changes : changeOwnership host params file uid gid files = .ok (indicators, changed)) :
    remediateFile host params file files =
      changePermissions host params file indicators changed := by
  unfold remediateFile
  simp only [owner, group, changes]

theorem remediateFile_cases (host : Host) (params : FilePermissionsParams) (file : FileState)
    (files : FileSystem) :
    (remediateFile host params file files).context = files ∨
      ∃ uid gid indicators changed, settleOwner host params file = .ok uid ∧
        settleGroup host params file = .ok gid ∧
        changeOwnership host params file uid gid files = .ok (indicators, changed) := by
  unfold remediateFile
  cases owner : settleOwner host params file with
  | error refusal => exact Or.inl rfl
  | ok uid =>
      cases group : settleGroup host params file with
      | error refusal => exact Or.inl rfl
      | ok gid =>
          cases changes : changeOwnership host params file uid gid files with
          | error refusal =>
              left
              simp only [changes]
              rfl
          | ok result =>
              rcases result with ⟨indicators, changed⟩
              exact Or.inr ⟨uid, gid, indicators, changed, rfl, rfl, changes⟩

theorem changePermissions_conflictError {indicators : List Indicator}
    (reported :
      (changePermissions host params file indicators files).result = .error conflictError) :
    conflicting params = true := by
  by_contra clear
  unfold changePermissions at reported
  rw [if_neg clear] at reported
  split at reported
  · split at reported
    next errno failed =>
      have sameMessage := congrArg Error.message (Except.error.inj reported)
      have first : some (67 : UInt8) = some 73 := congrArg List.head? sameMessage
      exact absurd first (by decide)
    next => cases reported
  · cases reported

/-- A conflict is reported, and the files are those that the ownership step leaves. -/
theorem changePermissions_of_conflict {indicators : List Indicator}
    (conflict : conflicting params = true) :
    changePermissions host params file indicators files =
      { result := .error conflictError, indicators, context := files } := by
  unfold changePermissions
  rw [if_pos conflict]
  simp [Ending.after, Ending.failure, conflictError]

/-- The ownership step changes the file exactly if an id moves, `chown` is permitted and has a
visible effect. -/
theorem changeOwnership_stat_ne_iff {indicators : List Indicator} {changed : FileSystem}
    (found : files.stat (cString params.path) = .ok file)
    (owner : settleOwner host params file = .ok uid)
    (group : settleGroup host params file = .ok gid)
    (changes : changeOwnership host params file uid gid files = .ok (indicators, changed)) :
    changed.stat (cString params.path) ≠ files.stat (cString params.path) ↔
      (host.users.Moves params.owner file.uid ∨ host.groups.Moves params.group file.gid) ∧
      (host.users.Replaces params.owner file.uid ∨ host.groups.Replaces params.group file.gid ∨
        file.mode &&& host.chownClears file.mode ≠ 0) := by
  have ownerSettled := settle_ok owner
  have groupSettled := settle_ok group
  rw [changeOwnership_ok found changes, found, moves_iff ownerSettled, moves_iff groupSettled,
    replaces_iff ownerSettled, replaces_iff groupSettled]
  unfold ownedFile
  by_cases moved : uid ≠ file.uid ∨ gid ≠ file.gid
  · rw [if_pos moved]
    simp only [ne_eq, Except.ok.injEq, chown_eq_self_iff, moved, true_and]
    tauto
  · rw [if_neg moved]
    simp [moved]

theorem changeOwnership_permitted {indicators : List Indicator} {changed : FileSystem}
    (moved : uid ≠ file.uid ∨ gid ≠ file.gid)
    (changes : changeOwnership host params file uid gid files = .ok (indicators, changed)) :
    files.chownFailure (cString params.path) = none := by
  unfold changeOwnership at changes
  rw [if_pos moved] at changes
  cases failure : files.chownFailure (cString params.path) with
  | none => rfl
  | some errno => simp [FileSystem.chown, FileSystem.change, failure] at changes

theorem changeOwnership_of_permitted (found : files.stat (cString params.path) = .ok file)
    (permitted : files.chownFailure (cString params.path) = none) :
    ∃ indicators changed,
      changeOwnership host params file uid gid files = .ok (indicators, changed) := by
  unfold changeOwnership
  split
  · simp [FileSystem.chown, FileSystem.change, permitted, found]
  · exact ⟨[], files, rfl⟩

/-- The file changes before the conflict is seen exactly if there is one and the steps before
succeed and change it. -/
theorem changedFirst_iff (found : files.stat (cString params.path) = .ok file) :
    ChangedFirst host params files file ↔
      conflicting params = true ∧
      ∃ uid gid indicators changed, settleOwner host params file = .ok uid ∧
        settleGroup host params file = .ok gid ∧
        changeOwnership host params file uid gid files = .ok (indicators, changed) ∧
        changed.stat (cString params.path) ≠ files.stat (cString params.path) := by
  constructor
  · rintro ⟨conflict, ownerSettles, groupSettles, moves, permitted, visible⟩
    rcases (settles_iff _ _).mp ownerSettles with ⟨uid, owner⟩
    rcases (settles_iff _ _).mp groupSettles with ⟨gid, group⟩
    have owned : ∃ indicators changed,
        changeOwnership host params file uid gid files = .ok (indicators, changed) :=
      changeOwnership_of_permitted found permitted
    rcases owned with ⟨indicators, changed, changes⟩
    exact ⟨conflict, uid, gid, indicators, changed, owner, group, changes,
      (changeOwnership_stat_ne_iff found owner group changes).mpr ⟨moves, visible⟩⟩
  · rintro ⟨conflict, uid, gid, indicators, changed, owner, group, changes, differs⟩
    rcases (changeOwnership_stat_ne_iff found owner group changes).mp differs with
      ⟨moves, visible⟩
    have moved := moves
    rw [moves_iff (settle_ok owner), moves_iff (settle_ok group)] at moved
    exact ⟨conflict, (settles_iff _ _).mpr ⟨uid, owner⟩, (settles_iff _ _).mpr ⟨gid, group⟩,
      moves, changeOwnership_permitted moved changes, visible⟩

theorem remediateFile_unchanged_iff (found : files.stat (cString params.path) = .ok file) :
    ((remediateFile host params file files).result = .error conflictError →
      (remediateFile host params file files).context.stat (cString params.path) =
        files.stat (cString params.path)) ↔
    ¬ChangedFirst host params files file := by
  rw [changedFirst_iff found]
  constructor
  · rintro unchanged ⟨conflict, uid, gid, indicators, changed, owner, group, changes, differs⟩
    rw [remediateFile_of_changes owner group changes, changePermissions_of_conflict conflict]
      at unchanged
    exact differs (unchanged rfl)
  · intro notFirst reported
    rcases remediateFile_cases host params file files with
      untouched | ⟨uid, gid, indicators, changed, owner, group, changes⟩
    · rw [untouched]
    · rw [remediateFile_of_changes owner group changes] at reported ⊢
      have conflict := changePermissions_conflictError reported
      rw [changePermissions_of_conflict conflict]
      by_contra differs
      exact notFirst ⟨conflict, uid, gid, indicators, changed, owner, group, changes, differs⟩

end Remediation

/-- When a conflict that is reported has left the file as it was. -/
theorem unchanged_of_conflictError_iff (host : Host) (params : FilePermissionsParams)
    (files : FileSystem) :
    ((remediateFilePermissions host params files).result = .error conflictError →
      (remediateFilePermissions host params files).context.stat (cString params.path) =
        files.stat (cString params.path)) ↔
    ¬∃ file, files.stat (cString params.path) = .ok file ∧
      ChangedFirst host params files file := by
  cases found : files.stat (cString params.path) with
  | error errno =>
      refine iff_of_true (fun _ => ?_) (by simp)
      unfold remediateFilePermissions
      simp only [found]
      split
      · exact found
      · exact found
  | ok file =>
      have ownFile : (∃ other, (Except.ok file : Except ℤ FileState) = .ok other ∧
          ChangedFirst host params files other) ↔ ChangedFirst host params files file := by
        simp
      have same : remediateFilePermissions host params files =
          remediateFile host params file files := by
        unfold remediateFilePermissions
        rw [found]
      rw [ownFile, ← found, same]
      exact remediateFile_unchanged_iff found

/-- `root` shall own a program of `daemon`, and the bits of the group are both required and
forbidden. -/
def contradictoryParams : FilePermissionsParams where
  path := bytes "/usr/bin/su"
  owner := some [bytes "root"]
  permissions := some 0o770
  mask := some 0o077

/-- The conflict is reported, and the program belongs to `root` from then on. -/
theorem conflict_reported_after_chown :
    (programFiles 0o100755).stat (cString contradictoryParams.path) =
      .ok { uid := 1, gid := 0, mode := 0o100755 } ∧
    (remediateFilePermissions linuxHost contradictoryParams (programFiles 0o100755)).result =
      .error conflictError ∧
    (remediateFilePermissions linuxHost contradictoryParams
      (programFiles 0o100755)).context.stat (cString contradictoryParams.path) =
      .ok { uid := 0, gid := 0, mode := 0o100755 } := by
  decide

end FilePermissions

end OsConfig.ComplianceEngine
