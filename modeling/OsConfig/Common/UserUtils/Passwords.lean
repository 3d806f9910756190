import OsConfig.Common.UserUtils

/-!
# Users without passwords

Users who can log in and have no password are deleted. Whether a user has a
password is judged by the first letter of the field in the shadow database, and
a field with any other first letter counts as no password.
-/

namespace OsConfig.UserUtils

open CommonUtils

/-- The status of a removal, and the users for whom `userdel` was run. -/
structure Removal where
  status : ℤ
  deleted : List SimplifiedUser

def removeUser (executeCommand : ByteString → ℤ) (user : SimplifiedUser) : Removal :=
  match user.username with
  | none => ⟨einval, []⟩
  | some username =>
      if user.userId = 0 then ⟨eperm, []⟩
      else if user.notInShadow then ⟨eperm, []⟩
      else ⟨executeCommand (bytes "userdel -f " ++ username), [user]⟩

/-- The loop over the users. The outcomes of the commands are given by the positions of the users
in the list. -/
def removeUsers (executeCommand : ℕ → ByteString → ℤ) :
    ℕ → List SimplifiedUser → Removal → Removal
  | _, [], removal => removal
  | i, user :: rest, removal =>
      if user.hasPassword then removeUsers executeCommand (i + 1) rest removal
      else if user.noLogin then removeUsers executeCommand (i + 1) rest removal
      else if user.isLocked then removeUsers executeCommand (i + 1) rest removal
      else if user.cannotLogin then removeUsers executeCommand (i + 1) rest removal
      else if user.notInShadow then removeUsers executeCommand (i + 1) rest removal
      else if user.userId = 0 then
        removeUsers executeCommand (i + 1) rest { removal with status := eperm }
      else
        let removed := removeUser (executeCommand i) user
        removeUsers executeCommand (i + 1) rest
          { status :=
              if removed.status ≠ 0 ∧ removal.status = 0 then removed.status else removal.status
            deleted := removal.deleted ++ removed.deleted }

def removeUsersWithoutPasswords (executeCommand : ℕ → ByteString → ℤ) (database : UserDatabase)
    (fs : FileSystem) : Option Removal :=
  (enumerateUsers database none fs).map fun (enumeration, _) =>
    if enumeration.status = 0 then removeUsers executeCommand 0 enumeration.records ⟨0, []⟩
    else ⟨enumeration.status, []⟩

section Deletions

variable {executeCommand : ℕ → ByteString → ℤ} {getspnam : ByteString → Lookup Spwd}

/-- The user is taken for one who can log in without a password. -/
def IsTaken (user : SimplifiedUser) : Prop :=
  user.hasPassword = false ∧ user.noLogin = false ∧ user.isLocked = false ∧
    user.cannotLogin = false ∧ user.notInShadow = false ∧ user.userId ≠ 0 ∧
    user.username.isSome = true

theorem mem_deleted_removeUsers (executeCommand : ℕ → ByteString → ℤ)
    (users : List SimplifiedUser) (i : ℕ) (removal : Removal) (user : SimplifiedUser) :
    user ∈ (removeUsers executeCommand i users removal).deleted ↔
      user ∈ removal.deleted ∨ user ∈ users ∧ IsTaken user := by
  induction users generalizing i removal with
  | nil => simp [removeUsers]
  | cons first rest ih =>
      have spared (not_taken : ¬IsTaken first) :
          (user ∈ removal.deleted ∨ user ∈ first :: rest ∧ IsTaken user ↔
            user ∈ removal.deleted ∨ user ∈ rest ∧ IsTaken user) := by
        rw [List.mem_cons]
        constructor
        · rintro (before | ⟨rfl | later, taken⟩)
          · exact .inl before
          · exact absurd taken not_taken
          · exact .inr ⟨later, taken⟩
        · rintro (before | ⟨later, taken⟩)
          · exact .inl before
          · exact .inr ⟨.inr later, taken⟩
      rw [removeUsers]
      split_ifs with password noLogin locked cannot missing zero
      · rw [ih, spared (by simp [IsTaken, password])]
      · rw [ih, spared (by simp [IsTaken, noLogin])]
      · rw [ih, spared (by simp [IsTaken, locked])]
      · rw [ih, spared (by simp [IsTaken, cannot])]
      · rw [ih, spared (by simp [IsTaken, missing])]
      · rw [ih, spared (by simp [IsTaken, zero])]
      · rw [ih]
        cases name : first.username with
        | none => simpa [removeUser, name] using (spared (by simp [IsTaken, name])).symm
        | some username =>
            have taken : IsTaken first := by simp_all [IsTaken]
            simp only [removeUser, name, if_neg zero, if_neg missing, List.mem_append,
              List.mem_cons]
            constructor
            · rintro ((before | rfl | nothing) | ⟨later, also⟩)
              · exact .inl before
              · exact .inr ⟨.inl rfl, taken⟩
              · cases nothing
              · exact .inr ⟨.inr later, also⟩
            · rintro (before | ⟨rfl | later, also⟩)
              · exact .inl (.inl before)
              · exact .inl (.inr (.inl rfl))
              · exact .inr ⟨later, also⟩

/-- The account may be deleted: it is not the one with the uid 0, it has a login shell, and its
field in the shadow database is empty. -/
def LacksPassword (getspnam : ByteString → Lookup Spwd) (user : SimplifiedUser) : Prop :=
  user.userId ≠ 0 ∧ user.shell.getD [] ∉ noLoginShell ∧
    ∃ username shadowEntry, user.username = some username ∧
      getspnam username = .found shadowEntry ∧ shadowEntry.pwdp.getD [] = []

/-- A field whose first letter is none of those that are recognized. -/
def IsUnrecognized (pwdp : Option ByteString) : Prop :=
  ∀ first ∈ (pwdp.getD []).head?, first ≠ 36 ∧ first ≠ 33 ∧ first ≠ 42

/-- An account that is deleted and should not be: its field is not empty, or its shell is. -/
def Misjudged (getspnam : ByteString → Lookup Spwd) (entry : Passwd) : Prop :=
  entry.uid ≠ 0 ∧ isUserNonLogin (copyUserEntry entry) = false ∧
    ∃ username shadowEntry, copyText entry.name = some username ∧
      getspnam username = .found shadowEntry ∧ IsUnrecognized shadowEntry.pwdp ∧
      (shadowEntry.pwdp.getD [] ≠ [] ∨ copyText entry.shell = none)

theorem noteShadowEntry_isTaken_iff (user : SimplifiedUser) (shadowEntry : Spwd)
    (fresh : user.hasPassword = false ∧ user.isLocked = false ∧ user.cannotLogin = false) :
    ((noteShadowEntry user shadowEntry).hasPassword = false ∧
        (noteShadowEntry user shadowEntry).isLocked = false ∧
        (noteShadowEntry user shadowEntry).cannotLogin = false) ↔
      IsUnrecognized shadowEntry.pwdp := by
  rw [noteShadowEntry, IsUnrecognized]
  split
  next rest field => simp [field]
  next rest field => simp [field]
  next rest field => simp [field]
  next dollar locked starred =>
    refine iff_of_true ⟨rfl, fresh.2.1, fresh.2.2⟩ ?_
    intro first head
    cases field : shadowEntry.pwdp with
    | none => simp [field] at head
    | some text =>
        cases text with
        | nil => simp [field] at head
        | cons letter rest =>
            rw [field] at head
            have same : letter = first := by simpa using head
            subst same
            refine ⟨?_, ?_, ?_⟩
            · rintro rfl
              exact dollar rest field
            · rintro rfl
              exact locked rest field
            · rintro rfl
              exact starred rest field

theorem userRecord_of_found {entry : Passwd} {username : ByteString} {shadowEntry : Spwd}
    (name : copyText entry.name = some username)
    (open_login : isUserNonLogin (copyUserEntry entry) = false)
    (found : getspnam username = .found shadowEntry) :
    (userRecord getspnam entry).2 =
      noteShadowEntry { copyUserEntry entry with noLogin := false } shadowEntry := by
  have named : (copyUserEntry entry).username = some username := name
  simp [userRecord, checkIfUserHasPassword, named, open_login, found]

theorem isTaken_userRecord_iff {entry : Passwd} (readable : Readable getspnam entry) :
    IsTaken (userRecord getspnam entry).2 ↔
      entry.uid ≠ 0 ∧ isUserNonLogin (copyUserEntry entry) = false ∧
        ∃ username shadowEntry, copyText entry.name = some username ∧
          getspnam username = .found shadowEntry ∧ IsUnrecognized shadowEntry.pwdp := by
  rcases readable with ⟨username, name, answers⟩
  have named : (copyUserEntry entry).username = some username := name
  simp only [name, Option.some.injEq, exists_and_left, exists_eq_left']
  cases open_login : isUserNonLogin (copyUserEntry entry) with
  | true => simp [IsTaken, userRecord, checkIfUserHasPassword, named, open_login]
  | false =>
      rw [open_login] at answers
      simp only [Bool.false_eq_true, false_or] at answers
      cases answer : getspnam username with
      | missing => simp [IsTaken, userRecord, checkIfUserHasPassword, named, open_login, answer]
      | failed errno => exact absurd answer (answers errno)
      | found shadowEntry =>
          let user := { copyUserEntry entry with noLogin := false }
          have same := noteShadowEntry_same user shadowEntry
          have noted := noteShadowEntry_isTaken_iff user shadowEntry ⟨rfl, rfl, rfl⟩
          rw [userRecord_of_found name open_login answer, IsTaken, same.1, same.2.1,
            same.2.2.2.2.2.1, same.2.2.2.2.2.2]
          constructor
          · rintro ⟨password, -, locked, cannot, -, nonzero, -⟩
            exact ⟨nonzero, rfl, shadowEntry, rfl, noted.mp ⟨password, locked, cannot⟩⟩
          · rintro ⟨nonzero, -, other, other_eq, unrecognized⟩
            cases other_eq
            obtain ⟨password, locked, cannot⟩ := noted.mpr unrecognized
            have some_name : user.username.isSome = true := Option.isSome_of_eq_some name
            exact ⟨password, rfl, locked, cannot, rfl, nonzero, some_name⟩

/-- A user who is taken for such may be deleted exactly if the entry is not misjudged. -/
theorem lacksPassword_iff {entry : Passwd} (readable : Readable getspnam entry)
    (taken : IsTaken (userRecord getspnam entry).2) :
    LacksPassword getspnam (userRecord getspnam entry).2 ↔ ¬Misjudged getspnam entry := by
  have record := isUserRecord_userRecord getspnam entry
  obtain ⟨nonzero, open_login, username, shadowEntry, name, found, unrecognized⟩ :=
    (isTaken_userRecord_iff readable).mp taken
  rw [LacksPassword, Misjudged, record.userId, record.shell, record.username, name]
  have empty_shell : ([] : ByteString) ∈ noLoginShell := by
    rw [noLoginShell]
    simp [bytes]
  have shell : (copyText entry.shell).getD [] ∉ noLoginShell ↔ copyText entry.shell ≠ none := by
    have copied : (copyUserEntry entry).shell = copyText entry.shell := rfl
    rw [isUserNonLogin, copied] at open_login
    cases text : copyText entry.shell with
    | none => simpa using empty_shell
    | some shell =>
        rw [text] at open_login
        simpa using open_login
  rw [shell]
  constructor
  · rintro ⟨-, some_shell, name', field, name_eq, field_eq, empty⟩ ⟨-, -, other, entry', same, found',
      -, full | no_shell⟩
    · cases name_eq
      cases same
      rw [found'] at field_eq
      cases field_eq
      exact full empty
    · exact some_shell no_shell
  · intro judged
    refine ⟨nonzero, ?_, username, shadowEntry, rfl, found, ?_⟩
    · intro no_shell
      exact judged ⟨nonzero, open_login, username, shadowEntry, rfl, found, unrecognized,
        .inr no_shell⟩
    · by_contra full
      exact judged ⟨nonzero, open_login, username, shadowEntry, rfl, found, unrecognized, .inl full⟩

/-- Every account that is deleted may be, exactly if no account that is looked at is misjudged, or
the users cannot be enumerated at all. -/
theorem deleted_lackPassword_iff (executeCommand : ℕ → ByteString → ℤ) (database : UserDatabase)
    (fs : FileSystem) :
    ∃ removal, removeUsersWithoutPasswords executeCommand database fs = some removal ∧
      ((∀ user ∈ removal.deleted, LacksPassword database.getspnam user) ↔
        ((∀ entry ∈ database.entries.take (getNumberOfLinesInFile passwdFile fs),
            Readable database.getspnam entry) →
          ∀ entry ∈ database.entries.take (getNumberOfLinesInFile passwdFile fs),
            ¬Misjudged database.getspnam entry)) := by
  let listed := database.entries.take (getNumberOfLinesInFile passwdFile fs)
  rcases enumerate_spec passwdFile (userRecord database.getspnam) .zero database.entries fs with
    ⟨enumeration, outcome, records, status⟩
  have enumerated : removeUsersWithoutPasswords executeCommand database fs =
      some (if enumeration.status = 0 then
        removeUsers executeCommand 0 enumeration.records ⟨0, []⟩
      else ⟨enumeration.status, []⟩) := by
    rw [removeUsersWithoutPasswords, enumerateUsers, outcome, Option.map_some, Option.map_some]
  refine ⟨_, enumerated, ?_⟩
  simp only [userRecord_status_eq_zero_iff] at status
  by_cases all : ∀ entry ∈ listed, Readable database.getspnam entry
  · have whole : accepted (userRecord database.getspnam) listed = listed :=
      accepted_eq_self_iff.mpr fun entry mem =>
        (userRecord_status_eq_zero_iff _ _).mpr (all entry mem)
    rw [whole] at records
    refine Iff.trans ?_ (forall_prop_of_true all).symm
    split
    next succeeded =>
      rw [records]
      constructor
      · intro lack entry mem misjudged
        have taken : IsTaken (userRecord database.getspnam entry).2 := by
          obtain ⟨nonzero, open_login, username, shadowEntry, name, found, unrecognized, -⟩ :=
            misjudged
          exact (isTaken_userRecord_iff (all entry mem)).mpr
            ⟨nonzero, open_login, username, shadowEntry, name, found, unrecognized⟩
        have deleted := (mem_deleted_removeUsers executeCommand
          (listed.map fun entry => (userRecord database.getspnam entry).2) 0 ⟨0, []⟩ _).mpr
            (.inr ⟨List.mem_map_of_mem mem, taken⟩)
        exact (lacksPassword_iff (all entry mem) taken).mp (lack _ deleted) misjudged
      · intro judged user mem
        rcases (mem_deleted_removeUsers _ _ 0 ⟨0, []⟩ user).mp mem with before | ⟨among, taken⟩
        · cases before
        · rcases List.mem_map.mp among with ⟨entry, inside, rfl⟩
          exact (lacksPassword_iff (all entry inside) taken).mpr (judged entry inside)
    next failed =>
      -- No entry is looked at: the file has no line.
      have empty : getNumberOfLinesInFile passwdFile fs = 0 := by
        by_contra some_lines
        exact failed (status.mpr ⟨some_lines, all⟩)
      simp [empty]
  · have failed : enumeration.status ≠ 0 := fun succeeded => all (status.mp succeeded).2
    rw [if_neg failed]
    exact iff_of_true (by simp) fun readable => absurd readable all

/-- An account whose password is kept as a traditional hash. -/
def hashedUsers : UserDatabase where
  entries := [⟨some (bytes "ada"), 1000, 1000, some (bytes "/home/ada"), some (bytes "/bin/sh")⟩]
  getspnam := fun _ => .found ⟨some (bytes "abJnggxhB/yWI"), 0, 0, 0, 0, 0, 0⟩

def hashedPasswd : FileSystem :=
  oneFile passwdFile (bytes "ada:x:1000:1000::/home/ada:/bin/sh\n")

/-- The account has a password, and `userdel` is run for it. -/
theorem hashed_account_deleted :
    ¬∀ removal, removeUsersWithoutPasswords (fun _ _ => 0) hashedUsers hashedPasswd = some removal →
      ∀ user ∈ removal.deleted, LacksPassword hashedUsers.getspnam user := by
  intro lack
  have outcome : (removeUsersWithoutPasswords (fun _ _ => 0) hashedUsers hashedPasswd).any
      (fun removal => removal.deleted ≠ []) = true := by
    decide +kernel
  rcases (Option.any_eq_true _ _).mp outcome with ⟨removal, returned, some_deleted⟩
  rcases List.exists_mem_of_ne_nil _ (of_decide_eq_true some_deleted) with ⟨user, mem⟩
  obtain ⟨-, -, username, shadowEntry, -, found, empty⟩ := lack removal returned user mem
  rw [← Lookup.found.inj found, bytes_ofList] at empty
  exact absurd empty (by decide)

end Deletions

end OsConfig.UserUtils
