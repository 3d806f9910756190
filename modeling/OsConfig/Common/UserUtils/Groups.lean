import OsConfig.Common.UserUtils

/-!
# The groups that users refer to

The groups of a user are looked up one by one, and a group that does not exist is
left out of the list. So the check whether all of them exist never sees a missing
one. It fails for other reasons: an enumeration that fails, a group that the
enumeration of all groups has no room for, or a record left blank behind a group
without a name.
-/

namespace OsConfig.UserUtils

open CommonUtils

/-- The database of groups: its entries, the lookup of one by its id, and the ids of the groups that
a user is in. -/
structure GroupDatabase where
  entries : List Group
  getgrgid : UInt32 → Lookup Group
  memberships : ByteString → UInt32 → List UInt32

def maxGroupsUserCanBeIn : ℕ := 32

/-- `getgrouplist`: what it returns, the ids that it stores, and the number of all ids. -/
def getgrouplist (groups : List UInt32) (ngroups : ℕ) : ℤ × List UInt32 × ℕ :=
  if groups.length ≤ ngroups then (groups.length, groups, groups.length)
  else (-1, groups.take ngroups, groups.length)

/-- The calls of `getgrouplist`, with a status. If the list has no room for all ids, a longer one
is taken. -/
def groupIdsOf (database : GroupDatabase) (username : ByteString) (groupId : UInt32) :
    ℤ × List UInt32 :=
  let groups := database.memberships username groupId
  let (result, groupIds, numberOfGroups) := getgrouplist groups maxGroupsUserCanBeIn
  if result = -1 then
    if 0 < numberOfGroups then (0, (getgrouplist groups numberOfGroups).2.1) else (enoent, [])
  else (0, groupIds)

/-- The loop over the ids: the status, the size of the list and its cells. A group without a name
does not take its cell for good. -/
def collectGroups (getgrgid : UInt32 → Lookup Group) :
    List UInt32 → ℕ → ℕ → List SimplifiedGroup → ℤ × ℕ × List SimplifiedGroup
  | [], _, size, array => (0, size, array)
  | groupId :: rest, j, size, array =>
      match getgrgid groupId with
      | .found groupEntry =>
          let groupName := copyText groupEntry.name
          let array := array.set j ⟨groupName, groupEntry.gid, true⟩
          collectGroups getgrgid rest (if groupName.isSome then j + 1 else j) size array
      | .missing => collectGroups getgrgid rest j (size - 1) array
      | .failed errno => (errno, size, array)

def enumerateUserGroups (database : GroupDatabase) (user : SimplifiedUser)
    (reason : Option ByteString) : ℤ × List SimplifiedGroup × Option ByteString :=
  match user.username with
  | none => (enoent, [], reason)
  | some username =>
      let (status, groupIds) := groupIdsOf database username user.groupId
      let (status, size, array) :=
        if status = 0 ∧ groupIds ≠ [] then
          collectGroups database.getgrgid groupIds 0 groupIds.length
            (List.replicate groupIds.length .zero)
        else (status, 0, [])
      (status, array.take size, captureEnumeration (bytes "groups for users") (bytes "User") reason
        status)

/-- The loop over the groups of a user. -/
def checkUserGroups (groupList : List SimplifiedGroup) (user : SimplifiedUser) :
    List SimplifiedGroup → Option ByteString → ℤ × Option ByteString
  | [], reason => (0, reason)
  | group :: rest, reason =>
      if groupList.any fun listed => group.groupId = listed.groupId then
        checkUserGroups groupList user rest reason
      else
        (enoent, captureReason reason (bytes "Group " ++ toDecimal group.groupId.toNat ++
          bytes " of user " ++ toDecimal user.userId.toNat ++ bytes " not found in '/etc/group'"))

/-- The loop over the users, which ends at the first failure. -/
def checkUsersGroups (database : GroupDatabase) (groupList : List SimplifiedGroup) :
    List SimplifiedUser → Option ByteString → ℤ × Option ByteString
  | [], reason => (0, reason)
  | user :: rest, reason =>
      let (status, userGroupList, reason) := enumerateUserGroups database user reason
      let (status, reason) :=
        if status = 0 then checkUserGroups groupList user userGroupList reason else (status, reason)
      if status = 0 then checkUsersGroups database groupList rest reason else (status, reason)

def checkAllEtcPasswdGroupsExistInEtcGroup (users : UserDatabase) (groups : GroupDatabase)
    (reason : Option ByteString) (fs : FileSystem) : Option (ℤ × Option ByteString) :=
  (enumerateUsers users reason fs).bind fun (userList, reason) =>
    (if userList.status = 0 then
      (enumerateAllGroups groups.entries reason fs).map fun (groupList, reason) =>
        if groupList.status = 0 then
          checkUsersGroups groups groupList.records userList.records reason
        else (groupList.status, reason)
    else some (userList.status, reason)).map fun (status, reason) =>
      (status, if status = 0 then
        captureSuccessReason reason (bytes "All user groups in '/etc/passwd' exist in '/etc/group'")
      else reason)

section Collecting

variable {database : GroupDatabase} {getgrgid : UInt32 → Lookup Group}

/-- What the lookup of an id answers if it does not fail. -/
def Answers (database : GroupDatabase) : Prop :=
  ∀ groupId, database.getgrgid groupId =
    match database.entries.find? fun entry => entry.gid = groupId with
    | some entry => .found entry
    | none => .missing

def existing (database : GroupDatabase) (groupIds : List UInt32) : List Group :=
  groupIds.filterMap fun groupId => database.entries.find? fun entry => entry.gid = groupId

/-- The ids in the records of existing groups. A group without a name gives its cell to the next
one, and a cell at the end is left blank. -/
def recordedIds : List Group → List UInt32
  | [] => []
  | [entry] => [entry.gid]
  | entry :: next :: rest =>
      if (copyText entry.name).isSome then entry.gid :: recordedIds (next :: rest)
      else recordedIds (next :: rest) ++ [0]

theorem length_recordedIds (entries : List Group) :
    (recordedIds entries).length = entries.length := by
  fun_induction recordedIds entries with
  | case1 => rfl
  | case2 => rfl
  | case3 entry next rest named ih => simp [ih]
  | case4 entry next rest nameless ih => simp [ih]

theorem groupIdsOf_eq (database : GroupDatabase) (username : ByteString) (groupId : UInt32) :
    groupIdsOf database username groupId = (0, database.memberships username groupId) := by
  by_cases fits : (database.memberships username groupId).length ≤ maxGroupsUserCanBeIn
  · have counted : ((database.memberships username groupId).length : ℤ) ≠ -1 := by omega
    simp [groupIdsOf, getgrouplist, fits, counted]
  · have some_groups : 0 < (database.memberships username groupId).length := by omega
    simp [groupIdsOf, getgrouplist, fits, List.length_pos_iff.mp some_groups]

theorem existing_cons (groupId : UInt32) (rest : List UInt32) :
    existing database (groupId :: rest) =
      (database.entries.find? fun entry => entry.gid = groupId).toList ++ existing database rest := by
  rw [existing, List.filterMap_cons]
  cases database.entries.find? fun entry => entry.gid = groupId <;> rfl

/-- Missing groups only make the list shorter. -/
theorem collectGroups_of_missing (answers : Answers database) {groupIds : List UInt32}
    (missing : existing database groupIds = []) (j size : ℕ) (array : List SimplifiedGroup) :
    collectGroups database.getgrgid groupIds j size array = (0, size - groupIds.length, array) := by
  induction groupIds generalizing size with
  | nil => rfl
  | cons groupId rest ih =>
      rw [existing_cons, List.append_eq_nil_iff, Option.toList_eq_nil_iff] at missing
      rw [collectGroups, answers groupId, missing.1]
      simp only
      rw [ih missing.2, List.length_cons, Nat.sub_sub, Nat.add_comm]

theorem collectGroups_spec (answers : Answers database) {groupIds : List UInt32}
    (some_exist : existing database groupIds ≠ []) (done : List SimplifiedGroup)
    (cell : SimplifiedGroup) {size rest : ℕ}
    (room : (existing database groupIds).length ≤ rest + 1) (sized : groupIds.length ≤ size) :
    ∃ array, collectGroups database.getgrgid groupIds done.length size
        (done ++ cell :: List.replicate rest .zero) =
          (0, size - groupIds.length + (existing database groupIds).length, array) ∧
      array.map SimplifiedGroup.groupId =
        done.map SimplifiedGroup.groupId ++ (recordedIds (existing database groupIds) ++
          List.replicate (rest + 1 - (existing database groupIds).length) 0) := by
  induction groupIds generalizing done cell size rest with
  | nil => exact absurd rfl some_exist
  | cons groupId others ih =>
      rw [List.length_cons] at sized
      rw [existing_cons] at some_exist room ⊢
      cases lookup : database.entries.find? fun entry => entry.gid = groupId with
      | none =>
          rw [lookup, Option.toList_none, List.nil_append] at some_exist room
          have fewer : others.length ≤ size - 1 := by omega
          rcases ih some_exist done cell room fewer with ⟨array, outcome, ids⟩
          refine ⟨array, ?_, ids⟩
          rw [collectGroups, answers groupId, lookup, Option.toList_none, List.nil_append,
            List.length_cons]
          simp only
          rw [outcome, Nat.sub_sub, Nat.add_comm 1]
      | some entry =>
          rw [lookup, Option.toList_some, List.singleton_append, List.length_cons] at room
          rw [collectGroups, answers groupId, lookup, Option.toList_some, List.singleton_append,
            List.length_cons, List.length_cons]
          simp only
          let record : SimplifiedGroup := ⟨copyText entry.name, entry.gid, true⟩
          have written : (done ++ cell :: List.replicate rest .zero).set done.length record =
              done ++ record :: List.replicate rest .zero := by
            rw [List.set_append_right _ _ le_rfl, Nat.sub_self, List.set_cons_zero]
          rw [written]
          cases later : existing database others with
          | nil =>
              rw [collectGroups_of_missing answers later]
              refine ⟨_, by simp only [List.length_nil]; congr 2; omega, ?_⟩
              simp [recordedIds, record, SimplifiedGroup.zero]
          | cons next more =>
              have some_later : existing database others ≠ [] := by simp [later]
              rw [later, List.length_cons] at room
              have fits : others.length ≤ size := by omega
              by_cases named : (copyText entry.name).isSome = true
              · rcases Nat.exists_eq_add_of_lt (show 0 < rest by omega) with ⟨fewer, rest_eq⟩
                rw [Nat.zero_add] at rest_eq
                have longer : done.length + 1 = (done ++ [record]).length := by simp
                have moved : done ++ record :: List.replicate rest SimplifiedGroup.zero =
                    done ++ [record] ++ .zero :: List.replicate fewer .zero := by
                  rw [rest_eq, List.replicate_succ, List.append_assoc, List.singleton_append]
                have roomFewer : (existing database others).length ≤ fewer + 1 := by
                  rw [later, List.length_cons]
                  omega
                rcases ih some_later (done ++ [record]) .zero roomFewer fits with
                  ⟨array, outcome, ids⟩
                refine ⟨array, ?_, ?_⟩
                · rw [if_pos named, longer, moved, outcome, later, List.length_cons]
                  congr 2
                  omega
                · have slots : fewer + 1 - (more.length + 1) = rest + 1 - (more.length + 1 + 1) := by
                    omega
                  rw [ids, later, recordedIds, if_pos named, List.length_cons, slots]
                  simp [record]
              · have roomRest : (existing database others).length ≤ rest + 1 := by
                  rw [later, List.length_cons]
                  omega
                rcases ih some_later done record roomRest fits with ⟨array, outcome, ids⟩
                refine ⟨array, ?_, ?_⟩
                · rw [if_neg named, outcome, later, List.length_cons]
                  congr 2
                  omega
                · have slots : rest + 1 - (more.length + 1) = rest + 1 - (more.length + 1 + 1) + 1 := by
                    omega
                  rw [ids, later, recordedIds, if_neg named, List.length_cons, slots,
                    List.replicate_succ]
                  simp

theorem enumerateUserGroups_spec (answers : Answers database) {user : SimplifiedUser}
    {username : ByteString} (name : user.username = some username) (reason : Option ByteString) :
    ∃ groups, enumerateUserGroups database user reason = (0, groups, reason) ∧
      groups.map SimplifiedGroup.groupId =
        recordedIds (existing database (database.memberships username user.groupId)) := by
  rw [enumerateUserGroups, name]
  simp only [groupIdsOf_eq, true_and]
  generalize database.memberships username user.groupId = groupIds
  by_cases nothing : existing database groupIds = []
  · by_cases empty : groupIds = []
    · exact ⟨[], by simp [empty, captureEnumeration], by simp [nothing, recordedIds]⟩
    · rw [if_pos empty, collectGroups_of_missing answers nothing, nothing, Nat.sub_self]
      exact ⟨[], by simp [captureEnumeration], rfl⟩
  · have some_groups : groupIds ≠ [] := by
      rintro rfl
      exact nothing rfl
    rcases List.exists_cons_of_ne_nil some_groups with ⟨first, others, groupIds_eq⟩
    have count : groupIds.length = others.length + 1 := by rw [groupIds_eq, List.length_cons]
    have fewer : (existing database groupIds).length ≤ groupIds.length := List.length_filterMap_le _ _
    have array_eq : List.replicate groupIds.length SimplifiedGroup.zero =
        [] ++ .zero :: List.replicate others.length .zero := by
      rw [groupIds_eq, List.length_cons, List.replicate_succ, List.nil_append]
    have room : (existing database groupIds).length ≤ others.length + 1 := by omega
    rcases collectGroups_spec answers nothing [] .zero room le_rfl with ⟨array, outcome, ids⟩
    rw [List.length_nil] at outcome
    rw [if_pos some_groups, array_eq, outcome, Nat.sub_self, Nat.zero_add]
    refine ⟨array.take (existing database groupIds).length, by simp [captureEnumeration], ?_⟩
    rw [List.map_take, ids, List.map_nil, List.nil_append, List.take_left']
    exact length_recordedIds _

end Collecting

section Checking

variable {users : UserDatabase} {groups : GroupDatabase} {fs : FileSystem}

theorem checkUserGroups_status_eq_zero_iff (groupList : List SimplifiedGroup) (user : SimplifiedUser)
    (userGroups : List SimplifiedGroup) (reason : Option ByteString) :
    (checkUserGroups groupList user userGroups reason).1 = 0 ↔
      ∀ groupId ∈ userGroups.map SimplifiedGroup.groupId,
        groupId ∈ groupList.map SimplifiedGroup.groupId := by
  induction userGroups generalizing reason with
  | nil => simp [checkUserGroups]
  | cons group rest ih =>
      have listed : (groupList.any fun listed => group.groupId = listed.groupId) = true ↔
          group.groupId ∈ groupList.map SimplifiedGroup.groupId := by
        simp only [List.any_eq_true, decide_eq_true_eq, List.mem_map]
        exact exists_congr fun _ => and_congr_right fun _ => eq_comm
      rw [checkUserGroups, List.map_cons, List.forall_mem_cons, ← listed]
      split
      next here => rw [ih, and_iff_right here]
      next elsewhere =>
        refine iff_of_false ?_ fun all => elsewhere all.1
        exact show enoent ≠ 0 by decide

def recordedFor (groups : GroupDatabase) (username : ByteString) (groupId : UInt32) : List UInt32 :=
  recordedIds (existing groups (groups.memberships username groupId))

theorem checkUsersGroups_status_eq_zero_iff (answers : Answers groups)
    (groupList : List SimplifiedGroup) {userList : List SimplifiedUser}
    (named : ∀ user ∈ userList, user.username.isSome = true) (reason : Option ByteString) :
    (checkUsersGroups groups groupList userList reason).1 = 0 ↔
      ∀ user ∈ userList, ∀ username ∈ user.username,
        ∀ groupId ∈ recordedFor groups username user.groupId,
          groupId ∈ groupList.map SimplifiedGroup.groupId := by
  induction userList generalizing reason with
  | nil => simp [checkUsersGroups]
  | cons user rest ih =>
      rcases Option.isSome_iff_exists.mp (named user List.mem_cons_self) with ⟨username, name⟩
      rcases enumerateUserGroups_spec answers name reason with ⟨userGroups, outcome, ids⟩
      have here := checkUserGroups_status_eq_zero_iff groupList user userGroups reason
      have others := ih fun other mem => named other (List.mem_cons_of_mem _ mem)
      rw [ids] at here
      have only : (∀ username' ∈ user.username,
          ∀ groupId ∈ recordedFor groups username' user.groupId,
            groupId ∈ groupList.map SimplifiedGroup.groupId) ↔
          ∀ groupId ∈ recordedFor groups username user.groupId,
            groupId ∈ groupList.map SimplifiedGroup.groupId := by
        simp [name]
      rw [List.forall_mem_cons, only, recordedFor, ← here, checkUsersGroups, outcome]
      simp only [if_true]
      split
      next succeeded => rw [others, and_iff_right succeeded]
      next failed => exact iff_of_false failed fun all => failed all.1

/-- The check fails for another reason than a missing group: an enumeration fails, or a group is
recorded for a user that is not among the enumerated ones. -/
def Disturbed (users : UserDatabase) (groups : GroupDatabase) (fs : FileSystem) : Prop :=
  getNumberOfLinesInFile passwdFile fs = 0 ∨ getNumberOfLinesInFile groupFile fs = 0 ∨
    ∃ entry ∈ users.entries.take (getNumberOfLinesInFile passwdFile fs),
      ¬Readable users.getspnam entry ∨
        ∃ username ∈ copyText entry.name, ∃ groupId ∈ recordedFor groups username entry.gid,
          groupId ∉ (groups.entries.take (getNumberOfLinesInFile groupFile fs)).map Group.gid

def AllGroupsExist (users : UserDatabase) (groups : GroupDatabase) : Prop :=
  ∀ entry ∈ users.entries, ∀ groupId,
    groupId = entry.gid ∨ groupId ∈ groups.memberships (entry.name.getD []) entry.gid →
      groupId ∈ groups.entries.map Group.gid

/-- Whether a group is missing does not matter for the result. -/
theorem check_status_eq_zero_iff (answers : Answers groups) (users : UserDatabase)
    (reason : Option ByteString) (fs : FileSystem) :
    ∃ status captured, checkAllEtcPasswdGroupsExistInEtcGroup users groups reason fs =
        some (status, captured) ∧
      (status = 0 ↔ ¬Disturbed users groups fs) := by
  rcases enumerate_spec passwdFile (userRecord users.getspnam) .zero users.entries fs with
    ⟨userList, usersOutcome, userRecords, usersStatus⟩
  rcases enumerate_spec groupFile (fun entry => ((0 : ℤ), groupRecord entry)) .zero groups.entries fs
    with ⟨groupList, groupsOutcome, groupRecords, groupsStatus⟩
  simp only [userRecord_status_eq_zero_iff] at usersStatus
  simp only [implies_true, and_true] at groupsStatus
  rw [checkAllEtcPasswdGroupsExistInEtcGroup, enumerateUsers, usersOutcome, Option.map_some,
    Option.bind_some]
  by_cases usersListed : userList.status = 0
  · obtain ⟨some_lines, readable⟩ := usersStatus.mp usersListed
    simp only [usersListed, if_true, enumerateAllGroups, groupsOutcome, Option.map_some]
    refine ⟨_, _, rfl, ?_⟩
    by_cases groupsListed : groupList.status = 0
    · have some_groups := groupsStatus.mp groupsListed
      simp only [groupsListed, if_true]
      have whole : accepted (userRecord users.getspnam)
          (users.entries.take (getNumberOfLinesInFile passwdFile fs)) =
            users.entries.take (getNumberOfLinesInFile passwdFile fs) :=
        accepted_eq_self_iff.mpr fun entry mem =>
          (userRecord_status_eq_zero_iff _ _).mpr (readable entry mem)
      have listed : groupList.records.map SimplifiedGroup.groupId =
          (groups.entries.take (getNumberOfLinesInFile groupFile fs)).map Group.gid := by
        rw [groupRecords, accepted_eq_self_iff.mpr fun _ _ => rfl, List.map_map]
        rfl
      have named : ∀ user ∈ userList.records, user.username.isSome = true := by
        intro user mem
        rw [userRecords, whole] at mem
        rcases List.mem_map.mp mem with ⟨entry, inside, rfl⟩
        rcases readable entry inside with ⟨username, name, -⟩
        rw [(isUserRecord_userRecord users.getspnam entry).username, name, Option.isSome_some]
      rw [checkUsersGroups_status_eq_zero_iff answers groupList.records named, listed, userRecords,
        whole, List.forall_mem_map, Disturbed]
      simp only [some_lines, some_groups, false_or, not_exists, not_and, not_or, not_not]
      refine forall₂_congr fun entry mem => ?_
      have record := isUserRecord_userRecord users.getspnam entry
      rw [record.username, record.groupId, and_iff_right (readable entry mem)]
    · simp only [groupsListed, if_false]
      refine iff_of_false not_false (not_not.mpr (.inr (.inl ?_)))
      by_contra some_groups
      exact groupsListed (groupsStatus.mpr some_groups)
  · simp only [usersListed, if_false, Option.map_some]
    refine ⟨_, _, rfl, iff_of_false usersListed (not_not.mpr ?_)⟩
    by_contra undisturbed
    rw [Disturbed, not_or, not_or] at undisturbed
    refine usersListed (usersStatus.mpr ⟨undisturbed.1, fun entry mem => ?_⟩)
    by_contra unreadable
    exact undisturbed.2.2 ⟨entry, mem, .inl unreadable⟩

/-- The check tells whether all groups exist exactly if a group is missing just when the check is
disturbed by something else. -/
theorem check_tells_iff (answers : Answers groups) (users : UserDatabase)
    (reason : Option ByteString) (fs : FileSystem) :
    ∃ status captured, checkAllEtcPasswdGroupsExistInEtcGroup users groups reason fs =
        some (status, captured) ∧
      ((status = 0 ↔ AllGroupsExist users groups) ↔
        (¬AllGroupsExist users groups ↔ Disturbed users groups fs)) := by
  rcases check_status_eq_zero_iff answers users reason fs with
    ⟨status, captured, outcome, zero_iff⟩
  refine ⟨status, captured, outcome, ?_⟩
  rw [zero_iff]
  constructor
  · intro tells
    rw [← tells, not_not]
  · intro disturbs
    rw [← disturbs, not_not]

def rootGroup : GroupDatabase where
  entries := [⟨some root, 0, none⟩]
  getgrgid := fun groupId =>
    match [(⟨some root, 0, none⟩ : Group)].find? fun entry => entry.gid = groupId with
    | some entry => .found entry
    | none => .missing
  memberships := fun _ groupId => [groupId]

/-- The files of two users and one group, with a newline for each. -/
def sampleFiles : FileSystem :=
  (oneFile passwdFile (bytes "root:x:0:0::/root:/bin/sh\nada:x:1000:1000::/home/ada:/bin/sh\n")).write
    groupFile (bytes "root:x:0:\n")

theorem check_tells_iff_root :
    ∃ status captured, checkAllEtcPasswdGroupsExistInEtcGroup sampleUsers rootGroup none sampleFiles =
        some (status, captured) ∧
      ((status = 0 ↔ AllGroupsExist sampleUsers rootGroup) ↔
        (¬AllGroupsExist sampleUsers rootGroup ↔ Disturbed sampleUsers rootGroup sampleFiles)) :=
  check_tells_iff (fun _ => rfl) sampleUsers none sampleFiles

/-- The group 1000 of a user does not exist, and the check passes. -/
theorem missing_group_passes :
    ¬∀ status captured, checkAllEtcPasswdGroupsExistInEtcGroup sampleUsers rootGroup none
        sampleFiles = some (status, captured) →
      (status = 0 ↔ AllGroupsExist sampleUsers rootGroup) := by
  intro tells
  have passes : (checkAllEtcPasswdGroupsExistInEtcGroup sampleUsers rootGroup none sampleFiles).any
      (fun outcome => outcome.1 = 0) = true := by
    decide +kernel
  rcases (Option.any_eq_true _ _).mp passes with ⟨⟨status, captured⟩, returned, zero⟩
  have all := (tells status captured returned).mp (of_decide_eq_true zero)
  have mem := all ⟨some (bytes "ada"), 1000, 1000, some (bytes "/home/ada"), some (bytes "/bin/sh")⟩
    (by simp [sampleUsers]) 1000 (.inl rfl)
  revert mem
  simp [rootGroup]

end Checking

end OsConfig.UserUtils
