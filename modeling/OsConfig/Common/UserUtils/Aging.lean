import OsConfig.Common.UserUtils

/-!
# Remediations of accounts

Each remediation goes through the users, attempts an operation for those who need
it, and keeps the status of the first failure. Three of them then set a default
in `/etc/login.defs`. They were written one after the other, and two differ from
the rest in how they guard the status.
-/

namespace OsConfig.UserUtils

open CommonUtils

/-- The outcome of reading the user database. -/
structure UserList where
  status : ℤ
  users : List SimplifiedUser

/-- What a remediation returns, and the results of the operations that it has attempted. -/
structure Remediation where
  status : ℤ
  attempted : List ℤ

/-- A command for a user, with a number of days. -/
def chage (option : ByteString) (days : Int64) (user : SimplifiedUser) : ByteString :=
  bytes "chage " ++ option ++ bytes " " ++ Numerals.renderInt 10 days.toInt ++ bytes " " ++
    user.username.getD (bytes "(null)")

/-- The loop over the users who have a password. The outcomes of the commands are given by the
positions of the users. -/
def changeAges (needs : SimplifiedUser → Bool) (command : SimplifiedUser → ByteString)
    (executeCommand : ℕ → ByteString → ℤ) :
    ℕ → List SimplifiedUser → Remediation → Remediation
  | _, [], remediation => remediation
  | i, user :: rest, remediation =>
      if user.hasPassword && needs user then
        let status := executeCommand i (command user)
        changeAges needs command executeCommand (i + 1) rest
          { status := if remediation.status = 0 then status else remediation.status
            attempted := remediation.attempted ++ [status] }
      else changeAges needs command executeCommand (i + 1) rest remediation

/-- The part of a remediation that goes through the users. -/
def changeAllAges (needs : SimplifiedUser → Bool) (command : SimplifiedUser → ByteString)
    (executeCommand : ℕ → ByteString → ℤ) (userList : UserList) : Remediation :=
  if userList.status = 0 then changeAges needs command executeCommand 0 userList.users ⟨0, []⟩
  else ⟨userList.status, []⟩

/-- The setting in `login.defs` is attempted in any case. -/
def andSet (setting : ℤ) (remediation : Remediation) : Remediation where
  status := if setting ≠ 0 ∧ remediation.status = 0 then setting else remediation.status
  attempted := remediation.attempted ++ [setting]

/-- `SetMinDaysBetweenPasswordChanges`; `setPassMinDays` is the outcome of the setting. -/
def setMinDaysBetweenPasswordChanges (executeCommand : ℕ → ByteString → ℤ) (setPassMinDays : ℤ)
    (days : Int64) (userList : UserList) : Remediation :=
  andSet setPassMinDays (changeAllAges (fun user => user.minimumPasswordAge < days)
    (chage (bytes "-m") days) executeCommand userList)

/-- `SetMaxDaysBetweenPasswordChanges`. The guard is a bitwise conjunction, so the outcome of the
setting counts only if it is odd. -/
def setMaxDaysBetweenPasswordChanges (executeCommand : ℕ → ByteString → ℤ) (setPassMaxDays : ℤ)
    (days : Int64) (userList : UserList) : Remediation :=
  let remediation := changeAllAges
    (fun user => decide (user.maximumPasswordAge > days) || decide (user.maximumPasswordAge < 0))
    (chage (bytes "-M") days) executeCommand userList
  { status :=
      if (BitVec.ofInt 32 setPassMaxDays &&& (if remediation.status = 0 then 1 else 0)) ≠ 0 then
        setPassMaxDays
      else remediation.status
    attempted := remediation.attempted ++ [setPassMaxDays] }

def setPasswordExpirationWarning (executeCommand : ℕ → ByteString → ℤ) (setPassWarnAge : ℤ)
    (days : Int64) (userList : UserList) : Remediation :=
  andSet setPassWarnAge (changeAllAges (fun user => user.warningPeriod < days)
    (chage (bytes "-W") days) executeCommand userList)

/-- What the system answers about the home directory of a user: whether it is there at first, what
`mkdir` returns and leaves in `errno`, whether it is there then, and what setting its access
returns. -/
structure HomeDirectory where
  existsFirst : Bool
  mkdir : ℤ
  errno : ℤ
  existsThen : Bool
  setDirectoryAccess : ℤ

def homeOperations (home : HomeDirectory) : List ℤ :=
  (if home.existsFirst then [] else [home.mkdir]) ++
    if home.existsThen then [home.setDirectoryAccess] else []

/-- The loop over the users who can log in; `_status` is what the last operation has left. -/
def setHomes (homes : ℕ → HomeDirectory) :
    ℕ → List SimplifiedUser → ℤ → Remediation → Remediation
  | _, [], _, remediation => remediation
  | i, user :: rest, last, remediation =>
      if user.noLogin || user.cannotLogin || user.isLocked then
        setHomes homes (i + 1) rest last remediation
      else
        match user.home with
        | none => setHomes homes (i + 1) rest last remediation
        | some _ =>
            let home := homes i
            let last :=
              if home.existsFirst then last
              else if home.mkdir = 0 then 0
              else if home.errno = 0 then eacces
              else home.errno
            let last := if home.existsThen then home.setDirectoryAccess else last
            setHomes homes (i + 1) rest last
              { status := if last ≠ 0 ∧ remediation.status ≠ 0 then last else remediation.status
                attempted := remediation.attempted ++ homeOperations home }

def setUserHomeDirectories (homes : ℕ → HomeDirectory) (userList : UserList) : Remediation :=
  if userList.status = 0 then setHomes homes 0 userList.users 0 ⟨0, []⟩
  else ⟨userList.status, []⟩

section Reports

variable {needs : SimplifiedUser → Bool} {command : SimplifiedUser → ByteString}
  {executeCommand : ℕ → ByteString → ℤ} {userList : UserList}

/-- The status is zero exactly if the enumeration and every attempted operation succeeded. -/
def Remediation.Reports (remediation : Remediation) (enumeration : ℤ) : Prop :=
  remediation.status = 0 ↔ enumeration = 0 ∧ ∀ result ∈ remediation.attempted, result = 0

theorem changeAges_status_eq_zero_iff (users : List SimplifiedUser) (i : ℕ)
    {remediation : Remediation}
    (so_far : remediation.status = 0 ↔ ∀ result ∈ remediation.attempted, result = 0) :
    (changeAges needs command executeCommand i users remediation).status = 0 ↔
      ∀ result ∈ (changeAges needs command executeCommand i users remediation).attempted,
        result = 0 := by
  induction users generalizing i remediation with
  | nil => exact so_far
  | cons user rest ih =>
      rw [changeAges]
      split
      · apply ih
        simp only [List.forall_mem_append, List.forall_mem_singleton, ← so_far]
        split
        next before => rw [and_iff_right before]
        next before => exact iff_of_false before fun both => before both.1
      · exact ih (i + 1) so_far

theorem changeAllAges_reports :
    (changeAllAges needs command executeCommand userList).Reports userList.status := by
  rw [Remediation.Reports, changeAllAges]
  split
  next listed =>
    rw [and_iff_right listed]
    exact changeAges_status_eq_zero_iff userList.users 0 (by simp)
  next failed => exact iff_of_false failed fun both => failed both.1

theorem andSet_reports {remediation : Remediation} {enumeration : ℤ} (setting : ℤ)
    (reports : remediation.Reports enumeration) :
    (andSet setting remediation).Reports enumeration := by
  rw [Remediation.Reports] at reports ⊢
  simp only [andSet, List.forall_mem_append, List.forall_mem_singleton]
  rw [← and_assoc, ← reports]
  split
  next fails => exact iff_of_false fails.1 fun both => fails.1 both.2
  next settled =>
    rw [not_and, imp_not_comm, not_not] at settled
    exact ⟨fun zero => ⟨zero, settled zero⟩, fun both => both.1⟩

/-- The guard lets odd outcomes through. -/
theorem and_one_ne_zero_iff (setting : ℤ) :
    BitVec.ofInt 32 setting &&& 1 ≠ 0 ↔ setting % 2 = 1 := by
  have parity : (BitVec.ofInt 32 setting &&& 1).toNat = (setting % 2 ^ 32).toNat % 2 := by
    rw [BitVec.toNat_and, BitVec.toNat_ofInt]
    exact Nat.and_one_is_mod _
  have zero : (0 : BitVec 32).toNat = 0 := rfl
  rw [ne_eq, ← BitVec.toNat_inj, parity, zero]
  omega

theorem mem_attempted_changeAges {result : ℤ} (users : List SimplifiedUser) (start : ℕ)
    (remediation : Remediation) :
    result ∈ (changeAges needs command executeCommand start users remediation).attempted ↔
      result ∈ remediation.attempted ∨ ∃ i user, users[i]? = some user ∧
        (user.hasPassword && needs user) = true ∧
          result = executeCommand (start + i) (command user) := by
  induction users generalizing start remediation with
  | nil => simp [changeAges]
  | cons user rest ih =>
      have later : (∃ i other, (user :: rest)[i]? = some other ∧
          (other.hasPassword && needs other) = true ∧
            result = executeCommand (start + i) (command other)) ↔
          ((user.hasPassword && needs user) = true ∧
            result = executeCommand start (command user)) ∨
          ∃ i other, rest[i]? = some other ∧ (other.hasPassword && needs other) = true ∧
            result = executeCommand (start + 1 + i) (command other) := by
        constructor
        · rintro ⟨i, other, at_i, needed, result_eq⟩
          cases i with
          | zero =>
              cases at_i
              exact .inl ⟨needed, result_eq⟩
          | succ i =>
              refine .inr ⟨i, other, at_i, needed, ?_⟩
              rw [result_eq, Nat.add_assoc, Nat.add_comm 1]
        · rintro (⟨needed, result_eq⟩ | ⟨i, other, at_i, needed, result_eq⟩)
          · exact ⟨0, user, rfl, needed, result_eq⟩
          · refine ⟨i + 1, other, at_i, needed, ?_⟩
            rw [result_eq, Nat.add_assoc, Nat.add_comm 1]
      rw [changeAges, later]
      split
      next needed =>
        rw [ih, List.mem_append, List.mem_singleton, or_assoc, and_iff_right needed]
      next spared =>
        rw [ih]
        exact or_congr_right (or_iff_right fun both => spared both.1).symm

def CommandsSucceed (needs : SimplifiedUser → Bool) (command : SimplifiedUser → ByteString)
    (executeCommand : ℕ → ByteString → ℤ) (users : List SimplifiedUser) : Prop :=
  ∀ i user, users[i]? = some user → (user.hasPassword && needs user) = true →
    executeCommand i (command user) = 0

theorem changeAllAges_status_eq_zero_iff :
    (changeAllAges needs command executeCommand userList).status = 0 ↔
      userList.status = 0 ∧ CommandsSucceed needs command executeCommand userList.users := by
  have reports : (changeAllAges needs command executeCommand userList).Reports userList.status :=
    changeAllAges_reports
  rw [Remediation.Reports] at reports
  rw [reports]
  refine and_congr_right fun listed => ?_
  rw [changeAllAges, if_pos listed]
  simp only [mem_attempted_changeAges, List.not_mem_nil, false_or, Nat.zero_add]
  constructor
  · intro all i user at_i needed
    exact all _ ⟨i, user, at_i, needed, rfl⟩
  · rintro all result ⟨i, user, at_i, needed, rfl⟩
    exact all i user at_i needed

/-- The home directory of a user who can log in. -/
def hasHome (user : SimplifiedUser) : Bool :=
  !(user.noLogin || user.cannotLogin || user.isLocked) && user.home.isSome

/-- No failure gets into the status. -/
theorem setHomes_status (homes : ℕ → HomeDirectory) (users : List SimplifiedUser) (i : ℕ) (last : ℤ)
    {remediation : Remediation} (zero : remediation.status = 0) :
    (setHomes homes i users last remediation).status = 0 := by
  induction users generalizing i last remediation with
  | nil => exact zero
  | cons user rest ih =>
      rw [setHomes]
      split
      · exact ih (i + 1) last zero
      · split
        · exact ih (i + 1) last zero
        · exact ih (i + 1) _ (by simp [zero])

theorem mem_attempted_setHomes {result : ℤ} (homes : ℕ → HomeDirectory)
    (users : List SimplifiedUser) (start : ℕ) (last : ℤ) (remediation : Remediation) :
    result ∈ (setHomes homes start users last remediation).attempted ↔
      result ∈ remediation.attempted ∨ ∃ i user, users[i]? = some user ∧ hasHome user = true ∧
        result ∈ homeOperations (homes (start + i)) := by
  induction users generalizing start last remediation with
  | nil => simp [setHomes]
  | cons user rest ih =>
      have later : (∃ i other, (user :: rest)[i]? = some other ∧ hasHome other = true ∧
          result ∈ homeOperations (homes (start + i))) ↔
          (hasHome user = true ∧ result ∈ homeOperations (homes start)) ∨
          ∃ i other, rest[i]? = some other ∧ hasHome other = true ∧
            result ∈ homeOperations (homes (start + 1 + i)) := by
        constructor
        · rintro ⟨i, other, at_i, needed, mem⟩
          cases i with
          | zero =>
              cases at_i
              exact .inl ⟨needed, mem⟩
          | succ i =>
              refine .inr ⟨i, other, at_i, needed, ?_⟩
              rwa [Nat.add_assoc, Nat.add_comm 1]
        · rintro (⟨needed, mem⟩ | ⟨i, other, at_i, needed, mem⟩)
          · exact ⟨0, user, rfl, needed, mem⟩
          · refine ⟨i + 1, other, at_i, needed, ?_⟩
            rwa [Nat.add_assoc, Nat.add_comm 1] at mem
      rw [setHomes, later]
      split
      next refused =>
        have no_home : hasHome user = false := by simp [hasHome, refused]
        rw [ih, no_home]
        simp
      next allowed =>
        rw [Bool.not_eq_true] at allowed
        split
        next missing =>
          have no_home : hasHome user = false := by simp [hasHome, missing]
          rw [ih, no_home]
          simp
        next present =>
          have has_home : hasHome user = true := by simp [hasHome, allowed, present]
          rw [ih, List.mem_append, or_assoc, and_iff_right has_home]

/-- Two remediations report every failure. The third misses an even outcome of its setting if all
else succeeds, and the fourth misses every failure behind the enumeration. -/
theorem remediations_report_iff (executeCommand : ℕ → ByteString → ℤ) (homes : ℕ → HomeDirectory)
    (setting : ℤ) (days : Int64) (userList : UserList) :
    (setMinDaysBetweenPasswordChanges executeCommand setting days userList).Reports
        userList.status ∧
      ((setMaxDaysBetweenPasswordChanges executeCommand setting days userList).Reports
          userList.status ↔
        ¬(userList.status = 0 ∧
          CommandsSucceed (fun user => decide (user.maximumPasswordAge > days) ||
            decide (user.maximumPasswordAge < 0)) (chage (bytes "-M") days) executeCommand
            userList.users ∧ setting ≠ 0 ∧ setting % 2 = 0)) ∧
      (setPasswordExpirationWarning executeCommand setting days userList).Reports
        userList.status ∧
      ((setUserHomeDirectories homes userList).Reports userList.status ↔
        ¬(userList.status = 0 ∧ ∃ i user, userList.users[i]? = some user ∧ hasHome user = true ∧
          ∃ result ∈ homeOperations (homes i), result ≠ 0)) := by
  refine ⟨andSet_reports setting changeAllAges_reports, ?_,
    andSet_reports setting changeAllAges_reports, ?_⟩
  · have reports : (changeAllAges (fun user => decide (user.maximumPasswordAge > days) ||
        decide (user.maximumPasswordAge < 0)) (chage (bytes "-M") days) executeCommand
        userList).Reports userList.status := changeAllAges_reports
    rw [← and_assoc, ← changeAllAges_status_eq_zero_iff, Remediation.Reports]
    rw [Remediation.Reports] at reports
    simp only [setMaxDaysBetweenPasswordChanges, List.forall_mem_append, List.forall_mem_singleton]
    rw [← and_assoc, ← reports]
    generalize (changeAllAges _ _ _ _).status = status
    by_cases zero : status = 0
    · simp only [zero, if_true, true_and]
      by_cases odd : setting % 2 = 1
      · rw [if_pos ((and_one_ne_zero_iff setting).mpr odd)]
        exact iff_of_true Iff.rfl fun missed => by omega
      · rw [if_neg fun lets => odd ((and_one_ne_zero_iff setting).mp lets)]
        simp only [true_iff]
        omega
    · simp [zero]
  · rw [Remediation.Reports, setUserHomeDirectories]
    by_cases listed : userList.status = 0
    · rw [if_pos listed]
      have unfailed : (setHomes homes 0 userList.users 0 ⟨0, []⟩).status = 0 :=
        setHomes_status homes userList.users 0 0 rfl
      simp only [unfailed, listed, true_iff, true_and, mem_attempted_setHomes, List.not_mem_nil,
        false_or, Nat.zero_add]
      constructor
      · rintro all ⟨i, user, at_i, home, result, mem, fails⟩
        exact fails (all result ⟨i, user, at_i, home, mem⟩)
      · rintro none_fails result ⟨i, user, at_i, home, mem⟩
        by_contra fails
        exact none_fails ⟨i, user, at_i, home, result, mem, fails⟩
    · simp [listed]

/-- A setting that fails with 2, which is the usual status of a missing file, is not reported. -/
theorem even_setting_unreported :
    ¬∀ (executeCommand : ℕ → ByteString → ℤ) (setting : ℤ) (days : Int64) (userList : UserList),
      (setMaxDaysBetweenPasswordChanges executeCommand setting days userList).Reports
        userList.status := by
  intro all
  have reports := all (fun _ _ => 0) 2 90 ⟨0, []⟩
  revert reports
  rw [Remediation.Reports]
  decide

end Reports

end OsConfig.UserUtils
