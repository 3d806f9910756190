import OsConfig.Common.FileUtils.Appending
import OsConfig.Common.Reasons
import OsConfig.Library.Buffers

/-!
# Users and groups

The users and groups are enumerated into arrays. An array has as many cells as
there are newlines in the file of the database, and the entries come from the
database itself, so the array may have no cell for the last of them.

What the system answers is a parameter: the entries, and the lookups of single
ones. Memory does not run out.
-/

namespace OsConfig.UserUtils

open CommonUtils

def eperm : ℤ := 1

def root : ByteString := bytes "root"

def passwdFile : ByteString := bytes "/etc/passwd"

def groupFile : ByteString := bytes "/etc/group"

def noLoginShell : List ByteString :=
  [bytes "/usr/sbin/nologin", bytes "/sbin/nologin", bytes "/bin/false", bytes "/bin/true",
    bytes "/usr/bin/true", bytes "/usr/bin/false", bytes "/dev/null", bytes ""]

section Records

/-- `struct passwd` -/
structure Passwd where
  name : Option ByteString
  uid : UInt32
  gid : UInt32
  dir : Option ByteString
  shell : Option ByteString
  deriving DecidableEq

/-- `struct spwd` -/
structure Spwd where
  pwdp : Option ByteString
  lstchg : Int64
  min : Int64
  max : Int64
  warn : Int64
  inact : Int64
  expire : Int64
  deriving DecidableEq

/-- `struct group` -/
structure Group where
  name : Option ByteString
  gid : UInt32
  mem : Option (List ByteString)
  deriving DecidableEq

inductive PasswordEncryption where
  | unknown
  | md5
  | blowfish
  | eksBlowfish
  | unknownBlowfish
  | sha256
  | sha512
  deriving DecidableEq

structure SimplifiedUser where
  username : Option ByteString
  userId : UInt32
  groupId : UInt32
  home : Option ByteString
  shell : Option ByteString
  isRoot : Bool
  isLocked : Bool
  noLogin : Bool
  cannotLogin : Bool
  hasPassword : Bool
  notInShadow : Bool
  passwordEncryption : PasswordEncryption
  lastPasswordChange : Int64
  minimumPasswordAge : Int64
  maximumPasswordAge : Int64
  warningPeriod : Int64
  inactivityPeriod : Int64
  expirationDate : Int64
  deriving DecidableEq

structure SimplifiedGroup where
  groupName : Option ByteString
  groupId : UInt32
  hasUsers : Bool
  deriving DecidableEq

/-- A cell of a new array of users. -/
def SimplifiedUser.zero : SimplifiedUser where
  username := none
  userId := 0
  groupId := 0
  home := none
  shell := none
  isRoot := false
  isLocked := false
  noLogin := false
  cannotLogin := false
  hasPassword := false
  notInShadow := false
  passwordEncryption := .unknown
  lastPasswordChange := 0
  minimumPasswordAge := 0
  maximumPasswordAge := 0
  warningPeriod := 0
  inactivityPeriod := 0
  expirationDate := 0

/-- A cell of a new array of groups. -/
def SimplifiedGroup.zero : SimplifiedGroup := ⟨none, 0, false⟩

def resetUserEntry : SimplifiedUser :=
  { SimplifiedUser.zero with userId := -1, groupId := -1 }

/-- The copy of a text, which an empty one does not get. -/
def copyText (text : Option ByteString) : Option ByteString :=
  text.filter (· ≠ [])

def copyUserEntry (source : Passwd) : SimplifiedUser :=
  { resetUserEntry with
    username := copyText source.name
    userId := source.uid
    groupId := source.gid
    isRoot := source.uid = 0 && source.gid = 0
    home := copyText source.dir
    shell := copyText source.shell }

def isUserNonLogin (user : SimplifiedUser) : Bool :=
  match user.shell with
  | some shell => shell ∈ noLoginShell
  | none => false

/-- What a lookup in a database answers. -/
inductive Lookup (α : Type) where
  | found (entry : α)
  | missing
  | failed (errno : ℤ)

/-- The encryption that a field names which starts with a dollar sign. -/
def encryptionOf : ByteString → PasswordEncryption
  | _ :: 49 :: _ => .md5
  | _ :: 50 :: 97 :: _ => .blowfish
  | _ :: 50 :: 121 :: _ => .eksBlowfish
  | _ :: 50 :: _ => .unknownBlowfish
  | _ :: 53 :: _ => .sha256
  | _ :: 54 :: _ => .sha512
  | _ => .unknown

/-- What `CheckIfUserHasPassword` notes of an entry in the shadow database. -/
def noteShadowEntry (user : SimplifiedUser) (shadowEntry : Spwd) : SimplifiedUser :=
  match shadowEntry.pwdp with
  | some (36 :: rest) =>
      { user with
        passwordEncryption := encryptionOf (36 :: rest)
        hasPassword := true
        lastPasswordChange := shadowEntry.lstchg
        minimumPasswordAge := shadowEntry.min
        maximumPasswordAge := shadowEntry.max
        warningPeriod := shadowEntry.warn
        inactivityPeriod := shadowEntry.inact
        expirationDate := shadowEntry.expire }
  | some (33 :: _) => { user with hasPassword := false, isLocked := true }
  | some (42 :: _) => { user with hasPassword := false, cannotLogin := true }
  | _ => { user with hasPassword := false }

def checkIfUserHasPassword (getspnam : ByteString → Lookup Spwd) (user : SimplifiedUser) :
    ℤ × SimplifiedUser :=
  match user.username with
  | none => (einval, user)
  | some username =>
      let user := { user with noLogin := isUserNonLogin user }
      if user.noLogin then (0, user)
      else
        match getspnam username with
        | .found shadowEntry => (0, noteShadowEntry user shadowEntry)
        | .missing => (0, { user with hasPassword := false, notInShadow := true })
        | .failed _ => (enoent, user)

end Records

section Enumerating

/-- `GetNumberOfCharacterInstancesInFile`. The size of the file is kept in an `int`. -/
def getNumberOfCharacterInstancesInFile (fileName : ByteString) (what : UInt8) (fs : FileSystem) :
    ℕ :=
  match fs.read fileName with
  | some content =>
      let fileSize := (BitVec.ofNat 32 content.length).toInt
      (content.take fileSize.toNat).count what
  | none => 0

def getNumberOfLinesInFile (fileName : ByteString) (fs : FileSystem) : ℕ :=
  getNumberOfCharacterInstancesInFile fileName 10 fs

/-- The outcome of an enumeration: the array, and the number of its cells that are used. -/
structure Enumeration (α : Type) where
  status : ℤ
  array : List α
  size : ℕ

variable {α ε : Type}

/-- What the caller of an enumeration looks at. -/
def Enumeration.records (enumeration : Enumeration α) : List α :=
  enumeration.array.take enumeration.size

/-- The loop over the entries, each of which makes a record and a status. There is no result if a
record is written beyond the array. -/
def fillArray (record : ε → ℤ × α) (size : ℕ) : List ε → ℕ → List α → Option (Enumeration α)
  | [], i, array => some ⟨0, array, i⟩
  | entry :: rest, i, array =>
      if i < size then
        (Buffers.store array i [(record entry).2]).bind fun array =>
          if (record entry).1 ≠ 0 then some ⟨(record entry).1, array, i⟩
          else fillArray record size rest (i + 1) array
      else some ⟨0, array, i⟩

/-- The array is as large as the file has lines. -/
def enumerate (fileName : ByteString) (record : ε → ℤ × α) (zero : α) (entries : List ε)
    (fs : FileSystem) : Option (Enumeration α) :=
  let size := getNumberOfLinesInFile fileName fs
  if size ≠ 0 then fillArray record size entries 0 (List.replicate size zero)
  else some ⟨eperm, [], 0⟩

def captureEnumeration (what database : ByteString) (reason : Option ByteString) (status : ℤ) :
    Option ByteString :=
  if status ≠ 0 then
    captureReason reason (bytes "Failed to enumerate " ++ what ++ bytes " (" ++
      Numerals.renderInt 10 status ++ bytes "). " ++ database ++
      bytes " database may be corrupt. Automatic remediation is not possible")
  else reason

/-- The databases of users and of passwords. -/
structure UserDatabase where
  entries : List Passwd
  getspnam : ByteString → Lookup Spwd

/-- The record of a user, as far as it can be made. -/
def userRecord (getspnam : ByteString → Lookup Spwd) (userEntry : Passwd) : ℤ × SimplifiedUser :=
  checkIfUserHasPassword getspnam (copyUserEntry userEntry)

def enumerateUsers (database : UserDatabase) (reason : Option ByteString) (fs : FileSystem) :
    Option (Enumeration SimplifiedUser × Option ByteString) :=
  (enumerate passwdFile (userRecord database.getspnam) .zero database.entries fs).map
    fun enumeration => (enumeration,
      captureEnumeration (bytes "users") (bytes "User") reason enumeration.status)

def groupRecord (groupEntry : Group) : SimplifiedGroup where
  groupName := copyText groupEntry.name
  groupId := groupEntry.gid
  hasUsers :=
    match groupEntry.mem with
    | some ((_ :: _) :: _) => true
    | _ => false

def enumerateAllGroups (entries : List Group) (reason : Option ByteString) (fs : FileSystem) :
    Option (Enumeration SimplifiedGroup × Option ByteString) :=
  (enumerate groupFile (fun entry => (0, groupRecord entry)) .zero entries fs).map
    fun enumeration => (enumeration,
      captureEnumeration (bytes "user groups") (bytes "User group") reason enumeration.status)

end Enumerating

section Filling

variable {α ε : Type} {record : ε → ℤ × α} {size : ℕ} {entries : List ε}

/-- The entries in front of the first one whose record cannot be made. -/
def accepted (record : ε → ℤ × α) (entries : List ε) : List ε :=
  entries.takeWhile fun entry => (record entry).1 = 0

/-- The status of the first entry whose record cannot be made. -/
def firstFailure (record : ε → ℤ × α) (entries : List ε) : ℤ :=
  ((entries.find? fun entry => (record entry).1 ≠ 0).map fun entry => (record entry).1).getD 0

theorem firstFailure_eq_zero_iff :
    firstFailure record entries = 0 ↔ ∀ entry ∈ entries, (record entry).1 = 0 := by
  rw [firstFailure]
  cases found : entries.find? fun entry => (record entry).1 ≠ 0 with
  | none =>
      have none_fails := List.find?_eq_none.mp found
      simpa using none_fails
  | some entry =>
      have fails := List.find?_some found
      have mem := List.mem_of_find?_eq_some found
      simp only [decide_eq_true_eq] at fails
      simp only [Option.map_some, Option.getD_some, fails, false_iff]
      exact fun all => fails (all entry mem)

theorem accepted_eq_self_iff :
    accepted record entries = entries ↔ ∀ entry ∈ entries, (record entry).1 = 0 := by
  rw [accepted, List.takeWhile_eq_self_iff]
  simp

theorem fillArray_spec (record : ε → ℤ × α) (entries : List ε) {i : ℕ} {array written : List α}
    (sized : array.length = size) (count : written.length = i)
    (holds : Buffers.Holds array written) :
    ∃ array', Buffers.Holds array' (written ++
        (accepted record (entries.take (size - i))).map fun entry => (record entry).2) ∧
      fillArray record size entries i array =
        some ⟨firstFailure record (entries.take (size - i)), array',
          i + (accepted record (entries.take (size - i))).length⟩ := by
  induction entries generalizing i array written with
  | nil => exact ⟨array, by simpa [accepted] using holds, by simp [fillArray, accepted, firstFailure]⟩
  | cons entry rest ih =>
      by_cases inside : i < size
      · have room : written.length + [(record entry).2].length ≤ array.length := by
          rw [List.length_singleton]
          omega
        rcases Buffers.exists_store holds room with ⟨array', stored, sized', holds'⟩
        rw [count] at stored
        have taken : (entry :: rest).take (size - i) = entry :: rest.take (size - (i + 1)) := by
          have step : size - i = (size - (i + 1)) + 1 := by omega
          rw [step, List.take_succ_cons]
        rw [taken, fillArray, if_pos inside, stored, Option.bind_some]
        by_cases fails : (record entry).1 = 0
        · rcases ih (sized'.trans sized) (i := i + 1) (by simp [count]) holds' with
            ⟨filled, filled_holds, outcome⟩
          refine ⟨filled, ?_, ?_⟩
          · simpa [accepted, fails] using filled_holds
          · rw [if_neg (not_not.mpr fails), outcome]
            simp only [accepted, firstFailure, fails, List.takeWhile_cons, decide_true, if_true,
              List.length_cons, ne_eq, not_true_eq_false, decide_false, Bool.false_eq_true,
              not_false_eq_true, List.find?_cons_of_neg, Option.some.injEq, Enumeration.mk.injEq,
              true_and]
            omega
        · refine ⟨array', ?_, ?_⟩
          · simpa [accepted, fails] using holds'.of_append
          · simp [accepted, firstFailure, fails]
      · have nothing : size - i = 0 := by omega
        rw [nothing, List.take_zero, fillArray, if_neg inside]
        exact ⟨array, by simpa [accepted] using holds, by simp [accepted, firstFailure]⟩

theorem enumerate_spec (fileName : ByteString) (record : ε → ℤ × α) (zero : α) (entries : List ε)
    (fs : FileSystem) :
    ∃ enumeration, enumerate fileName record zero entries fs = some enumeration ∧
      enumeration.records =
        (accepted record (entries.take (getNumberOfLinesInFile fileName fs))).map
          (fun entry => (record entry).2) ∧
      (enumeration.status = 0 ↔ getNumberOfLinesInFile fileName fs ≠ 0 ∧
        ∀ entry ∈ entries.take (getNumberOfLinesInFile fileName fs), (record entry).1 = 0) := by
  rw [enumerate]
  by_cases empty : getNumberOfLinesInFile fileName fs = 0
  · refine ⟨⟨eperm, [], 0⟩, by simp [empty], ?_, ?_⟩
    · simp [Enumeration.records, empty, accepted]
    · simp [empty, eperm]
  · have unwritten : ([] : List α).length = 0 := rfl
    rcases fillArray_spec record entries
      (List.length_replicate (n := getNumberOfLinesInFile fileName fs) (a := zero)) unwritten
      (Buffers.holds_nil _) with ⟨array, holds, outcome⟩
    rw [Nat.sub_zero, List.nil_append] at holds
    rw [Nat.sub_zero, Nat.zero_add] at outcome
    refine ⟨_, by rw [if_pos empty, outcome], ?_, ?_⟩
    · rw [Enumeration.records, List.prefix_iff_eq_take.mp holds, List.length_map]
    · rw [firstFailure_eq_zero_iff]
      simp [empty]

end Filling

section Completeness

variable {database : UserDatabase} {reason : Option ByteString} {fs : FileSystem}

/-- The record is one of the entry. -/
structure IsUserRecord (entry : Passwd) (user : SimplifiedUser) : Prop where
  username : user.username = copyText entry.name
  userId : user.userId = entry.uid
  groupId : user.groupId = entry.gid
  home : user.home = copyText entry.dir
  shell : user.shell = copyText entry.shell

structure IsGroupRecord (entry : Group) (group : SimplifiedGroup) : Prop where
  groupName : group.groupName = copyText entry.name
  groupId : group.groupId = entry.gid

def Readable (getspnam : ByteString → Lookup Spwd) (entry : Passwd) : Prop :=
  ∃ username, copyText entry.name = some username ∧
    (isUserNonLogin (copyUserEntry entry) = true ∨ ∀ errno, getspnam username ≠ .failed errno)

theorem noteShadowEntry_same (user : SimplifiedUser) (shadowEntry : Spwd) :
    (noteShadowEntry user shadowEntry).username = user.username ∧
      (noteShadowEntry user shadowEntry).userId = user.userId ∧
      (noteShadowEntry user shadowEntry).groupId = user.groupId ∧
      (noteShadowEntry user shadowEntry).home = user.home ∧
      (noteShadowEntry user shadowEntry).shell = user.shell ∧
      (noteShadowEntry user shadowEntry).noLogin = user.noLogin ∧
      (noteShadowEntry user shadowEntry).notInShadow = user.notInShadow := by
  rw [noteShadowEntry]
  split <;> exact ⟨rfl, rfl, rfl, rfl, rfl, rfl, rfl⟩

theorem isUserRecord_userRecord (getspnam : ByteString → Lookup Spwd) (entry : Passwd) :
    IsUserRecord entry (userRecord getspnam entry).2 := by
  rw [userRecord, checkIfUserHasPassword]
  split
  · exact ⟨rfl, rfl, rfl, rfl, rfl⟩
  · simp only
    split
    · exact ⟨rfl, rfl, rfl, rfl, rfl⟩
    · split
      next shadowEntry _ =>
        have same := noteShadowEntry_same
          { copyUserEntry entry with noLogin := isUserNonLogin (copyUserEntry entry) } shadowEntry
        exact ⟨same.1, same.2.1, same.2.2.1, same.2.2.2.1, same.2.2.2.2.1⟩
      · exact ⟨rfl, rfl, rfl, rfl, rfl⟩
      · exact ⟨rfl, rfl, rfl, rfl, rfl⟩

theorem userRecord_status_eq_zero_iff (getspnam : ByteString → Lookup Spwd) (entry : Passwd) :
    (userRecord getspnam entry).1 = 0 ↔ Readable getspnam entry := by
  have name : (copyUserEntry entry).username = copyText entry.name := rfl
  rw [userRecord, checkIfUserHasPassword, Readable, name]
  cases copyText entry.name with
  | none => simp [einval]
  | some username =>
      cases nonLogin : isUserNonLogin (copyUserEntry entry) with
      | true => simp
      | false => cases answer : getspnam username <;> simp [enoent, answer]

theorem length_accepted_le {α ε : Type} (record : ε → ℤ × α) (entries : List ε) :
    (accepted record entries).length ≤ entries.length :=
  (List.takeWhile_prefix _).length_le

theorem forall₂_records_iff {α ε : Type} {record : ε → ℤ × α} {entries : List ε} {lines : ℕ}
    {Matches : ε → α → Prop} (matching : ∀ entry, Matches entry (record entry).2) :
    List.Forall₂ Matches entries
        ((accepted record (entries.take lines)).map fun entry => (record entry).2) ↔
      entries.length ≤ lines ∧ ∀ entry ∈ entries, (record entry).1 = 0 := by
  constructor
  · intro complete
    have length := complete.length_eq
    have some_accepted := length_accepted_le record (entries.take lines)
    rw [List.length_map] at length
    rw [List.length_take] at some_accepted
    have room : entries.length ≤ lines := by omega
    rw [List.take_of_length_le room] at length
    exact ⟨room, accepted_eq_self_iff.mp ((List.takeWhile_prefix _).eq_of_length length.symm)⟩
  · rintro ⟨room, all⟩
    rw [List.take_of_length_le room, accepted_eq_self_iff.mpr all, List.forall₂_map_right_iff,
      List.forall₂_same]
    exact fun entry _ => matching entry

/-- No enumeration writes beyond its array. It is complete exactly if there is a newline for each
entry and, for users, each entry has a name and the lookup of its password does not fail. -/
theorem enumerations_complete_iff (database : UserDatabase) (groups : List Group)
    (reason : Option ByteString) (fs : FileSystem) :
    (∃ enumeration captured, enumerateUsers database reason fs = some (enumeration, captured) ∧
      (List.Forall₂ IsUserRecord database.entries enumeration.records ↔
        database.entries.length ≤ getNumberOfLinesInFile passwdFile fs ∧
          ∀ entry ∈ database.entries, Readable database.getspnam entry)) ∧
    ∃ enumeration captured, enumerateAllGroups groups reason fs = some (enumeration, captured) ∧
      (List.Forall₂ IsGroupRecord groups enumeration.records ↔
        groups.length ≤ getNumberOfLinesInFile groupFile fs) := by
  constructor
  · rcases enumerate_spec passwdFile (userRecord database.getspnam) .zero database.entries fs with
      ⟨enumeration, outcome, records, -⟩
    refine ⟨enumeration, _, by rw [enumerateUsers, outcome, Option.map_some], ?_⟩
    rw [records, forall₂_records_iff (isUserRecord_userRecord database.getspnam)]
    simp only [userRecord_status_eq_zero_iff]
  · rcases enumerate_spec groupFile (fun entry => ((0 : ℤ), groupRecord entry)) .zero groups fs with
      ⟨enumeration, outcome, records, -⟩
    refine ⟨enumeration, _, by rw [enumerateAllGroups, outcome, Option.map_some], ?_⟩
    rw [records, forall₂_records_iff fun entry => ⟨rfl, rfl⟩]
    simp

/-- Two accounts that can log in and have passwords. -/
def sampleUsers : UserDatabase where
  entries := [⟨some (bytes "root"), 0, 0, some (bytes "/root"), some (bytes "/bin/sh")⟩,
    ⟨some (bytes "ada"), 1000, 1000, some (bytes "/home/ada"), some (bytes "/bin/sh")⟩]
  getspnam := fun _ => .found ⟨some (bytes "$6$"), 0, 0, 0, 0, 0, 0⟩

/-- The file of the two accounts, without a newline at its end. -/
def samplePasswd : FileSystem :=
  oneFile passwdFile (bytes "root:x:0:0::/root:/bin/sh\nada:x:1000:1000::/home/ada:/bin/sh")

theorem lines_samplePasswd : getNumberOfLinesInFile passwdFile samplePasswd = 1 := by
  have held : samplePasswd.read passwdFile =
      some (bytes "root:x:0:0::/root:/bin/sh\nada:x:1000:1000::/home/ada:/bin/sh") :=
    FileSystem.read_write_self
  rw [getNumberOfLinesInFile, getNumberOfCharacterInstancesInFile, held, bytes_ofList]
  decide

/-- The last account is missed. -/
theorem last_account_missed :
    ¬∃ enumeration captured, enumerateUsers sampleUsers none samplePasswd =
        some (enumeration, captured) ∧
      List.Forall₂ IsUserRecord sampleUsers.entries enumeration.records := by
  rintro ⟨enumeration, captured, outcome, complete⟩
  rcases enumerate_spec passwdFile (userRecord sampleUsers.getspnam) .zero sampleUsers.entries
    samplePasswd with ⟨returned, enumerated, records, -⟩
  rw [enumerateUsers, enumerated, Option.map_some, Option.some.injEq, Prod.mk.injEq] at outcome
  rw [← outcome.1, records] at complete
  have room := ((forall₂_records_iff (isUserRecord_userRecord sampleUsers.getspnam)).mp complete).1
  rw [lines_samplePasswd] at room
  exact absurd room (by decide)

end Completeness

end OsConfig.UserUtils
