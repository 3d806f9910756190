import OsConfig.Common.PasswordAging

/-!
# Verdicts on password aging

The status remembers a failure, the reason does not: whatever is captured last decides whether it
starts with `PASS`. So a setting that complies hides all users who do not, and without a setting
the last user who has a password hides all others.
-/

namespace OsConfig.CommonUtils

/-- A reason that an audit reports as a success. A reason that was never captured is none. -/
def reportsPass (reason : Option ByteString) : Bool :=
  reason.any passed

/-- The reported verdict is the computed one. -/
def VerdictsAgree (result : ℤ × Option ByteString) : Prop :=
  reportsPass result.2 = true ↔ result.1 = 0

instance (result : ℤ × Option ByteString) : Decidable (VerdictsAgree result) :=
  inferInstanceAs (Decidable (_ ↔ _))

/-- The text of a failure does not pass for a success. -/
def Finding.Honest (finding : Finding) : Prop :=
  finding.complies = false → passed finding.text = false

theorem reportsPass_captureFinding {finding : Finding} (honest : finding.Honest)
    (reason : Option ByteString) :
    reportsPass (captureFinding reason finding) = finding.complies := by
  rw [captureFinding]
  cases complies : finding.complies with
  | false => exact any_passed_captureReason reason (honest complies)
  | true => exact any_passed_captureSuccessReason reason finding.text

/-- The last finding decides the reason; the status needs all of them. -/
theorem verdictsAgree_foldFinding {finding : Finding} (honest : finding.Honest)
    (result : ℤ × Option ByteString) :
    VerdictsAgree (foldFinding result finding) ↔ (finding.complies = true → result.1 = 0) := by
  rw [VerdictsAgree, foldFinding, reportsPass_captureFinding honest]
  cases finding.complies <;> simp [enoent]

section Users

variable {judge : SimplifiedUser → Finding} {complies : SimplifiedUser → Prop}

def AllComply (complies : SimplifiedUser → Prop) (users : List SimplifiedUser) : Prop :=
  ∀ user ∈ users, user.hasPassword = true → complies user

def LastComplies (complies : SimplifiedUser → Prop) (users : List SimplifiedUser) : Prop :=
  ∃ user ∈ (users.filter SimplifiedUser.hasPassword).getLast?, complies user

theorem allComply_cons (user : SimplifiedUser) (rest : List SimplifiedUser) :
    AllComply complies (user :: rest) ↔
      (user.hasPassword = true → complies user) ∧ AllComply complies rest :=
  List.forall_mem_cons

theorem allComply_perm {users reordered : List SimplifiedUser} (perm : users.Perm reordered) :
    AllComply complies users ↔ AllComply complies reordered := by
  constructor
  · intro all user mem
    exact all user (perm.mem_iff.mpr mem)
  · intro all user mem
    exact all user (perm.mem_iff.mp mem)

theorem checkUsers_status (users : List SimplifiedUser) (result : ℤ × Option ByteString) :
    (checkUsers judge users result).1 = 0 ↔ result.1 = 0 ∧ AllComply (fun user => (judge user).complies = true) users := by
  induction users generalizing result with
  | nil => simp [checkUsers, AllComply]
  | cons user rest ih =>
      rw [checkUsers, allComply_cons]
      cases password : user.hasPassword with
      | false => simpa using ih result
      | true =>
          rw [if_neg (by simp), ih, foldFinding]
          cases (judge user).complies <;> simp [enoent]

theorem reportsPass_checkUsers (honest : ∀ user, (judge user).Honest)
    (users : List SimplifiedUser) (result : ℤ × Option ByteString) :
    reportsPass (checkUsers judge users result).2 =
      match (users.filter SimplifiedUser.hasPassword).getLast? with
      | some user => (judge user).complies
      | none => reportsPass result.2 := by
  induction users generalizing result with
  | nil => rfl
  | cons user rest ih =>
      rw [checkUsers]
      cases password : user.hasPassword with
      | false => simpa [password] using ih result
      | true =>
          rw [if_neg (by simp), ih, List.filter_cons_of_pos password, List.getLast?_cons]
          cases (rest.filter SimplifiedUser.hasPassword).getLast? with
          | none => exact reportsPass_captureFinding (honest user) result.2
          | some last => rfl

@[simp]
theorem captureAllComply_status (allComply : ByteString) (result : ℤ × Option ByteString) :
    (captureAllComply allComply result).1 = result.1 := by
  rw [captureAllComply]
  split <;> rfl

theorem verdictsAgree_captureAllComply (allComply : ByteString)
    (result : ℤ × Option ByteString) :
    VerdictsAgree (captureAllComply allComply result) ↔
      (reportsPass result.2 = true → result.1 = 0) := by
  rw [VerdictsAgree, captureAllComply_status, captureAllComply]
  split
  next complies => simp [complies, reportsPass, any_passed_captureSuccessReason]
  next fails => simp [fails]

theorem passed_enumeration_failure (status : ℤ) :
    passed (bytes "Failed to enumerate users (" ++ Numerals.renderInt 10 status ++
      bytes "). User database may be corrupt. Automatic remediation is not possible") = false := by
  rw [List.append_assoc, passed_append (by decide)]
  decide

theorem checkAllUsers_of_enumerated {enumeration : UserEnumeration}
    (enumerated : enumeration.status = 0) (allComply : ByteString) (reason : Option ByteString) :
    checkAllUsers judge allComply enumeration reason =
      captureAllComply allComply (checkUsers judge enumeration.users (0, reason)) := by
  have started : enumerateUsers enumeration reason = (0, reason) := by
    rw [enumerateUsers, if_neg (not_not_intro enumerated)]
  rw [checkAllUsers, started, if_pos rfl]

theorem checkAllUsers_of_failed {enumeration : UserEnumeration} (failed : enumeration.status ≠ 0)
    (allComply : ByteString) (reason : Option ByteString) :
    (checkAllUsers judge allComply enumeration reason).1 = enumeration.status ∧
      reportsPass (checkAllUsers judge allComply enumeration reason).2 = false := by
  rw [checkAllUsers, enumerateUsers, if_pos failed, if_neg failed, captureAllComply,
    if_neg failed]
  exact ⟨rfl, any_passed_captureReason reason (passed_enumeration_failure _)⟩

theorem checkAllUsers_status (allComply : ByteString) (enumeration : UserEnumeration)
    (reason : Option ByteString) :
    (checkAllUsers judge allComply enumeration reason).1 = 0 ↔
      enumeration.status = 0 ∧
        AllComply (fun user => (judge user).complies = true) enumeration.users := by
  by_cases enumerated : enumeration.status = 0
  · rw [checkAllUsers_of_enumerated enumerated, captureAllComply_status, checkUsers_status]
    simp [enumerated]
  · simp [(checkAllUsers_of_failed enumerated allComply reason).1, enumerated]

theorem verdictsAgree_checkAllUsers (honest : ∀ user, (judge user).Honest)
    (allComply : ByteString) (enumeration : UserEnumeration) :
    VerdictsAgree (checkAllUsers judge allComply enumeration none) ↔
      (enumeration.status = 0 →
        LastComplies (fun user => (judge user).complies = true) enumeration.users →
          AllComply (fun user => (judge user).complies = true) enumeration.users) := by
  by_cases enumerated : enumeration.status = 0
  · rw [checkAllUsers_of_enumerated enumerated, verdictsAgree_captureAllComply, checkUsers_status,
      reportsPass_checkUsers honest, LastComplies]
    cases (enumeration.users.filter SimplifiedUser.hasPassword).getLast? with
    | none => simp [enumerated, reportsPass]
    | some last => simp [enumerated]
  · rcases @checkAllUsers_of_failed judge _ enumerated allComply none with ⟨status, reported⟩
    simp [VerdictsAgree, status, reported, enumerated]

theorem verdictsAgree_setting {setting : Finding} (honest : setting.Honest)
    (allComply : ByteString) (enumeration : UserEnumeration) :
    VerdictsAgree (foldFinding (checkAllUsers judge allComply enumeration none) setting) ↔
      (setting.complies = true →
        enumeration.status = 0 ∧
          AllComply (fun user => (judge user).complies = true) enumeration.users) := by
  rw [verdictsAgree_foldFinding honest, checkAllUsers_status]

end Users

section Findings

variable (days : Int64)

theorem expirationOf_honest (currentDate : Int64) (user : SimplifiedUser) :
    (expirationOf days currentDate user).Honest := by
  have quiet : ∀ rest, passed (bytes "Password for user " ++ rest) = false := by
    intro rest
    rw [passed_append (by decide)]
    decide
  intro fails
  rw [expirationOf] at fails ⊢
  split at fails
  next unlimited =>
    simp only [if_pos unlimited, List.append_assoc, quiet]
  next limited =>
    split at fails
    next unrecorded =>
      simp only [if_neg limited, if_pos unrecorded, List.append_assoc, quiet]
    next recorded =>
      simp only [if_neg limited, if_neg recorded] at fails ⊢
      split at fails
      next ahead =>
        split at fails
        · cases fails
        next late =>
          simp only [if_pos ahead, if_neg late, List.append_assoc, quiet]
      · cases fails

theorem passMinDays_honest (etcLoginDefsDays : Int64) :
    (passMinDays days etcLoginDefsDays).Honest := by
  intro fails
  rw [passMinDays] at fails ⊢
  split
  · decide +kernel
  next configured =>
    rw [if_neg configured] at fails
    split
    · decide +kernel
    next enabled =>
      rw [if_neg enabled] at fails
      split
      · simp only [List.append_assoc]
        rw [passed_append (by decide +kernel)]
        decide +kernel
      next enough =>
        rw [if_neg enough] at fails
        cases fails

theorem passMaxDays_honest (etcLoginDefsDays : Int64) :
    (passMaxDays days etcLoginDefsDays).Honest := by
  intro fails
  rw [passMaxDays] at fails ⊢
  split
  · decide +kernel
  next configured =>
    rw [if_neg configured] at fails
    split
    · simp only [List.append_assoc]
      rw [passed_append (by decide +kernel)]
      decide +kernel
    next enough =>
      rw [if_neg enough] at fails
      cases fails

theorem passWarnAge_honest (etcLoginDefsDays : Int64) :
    (passWarnAge days etcLoginDefsDays).Honest := by
  intro fails
  rw [passWarnAge] at fails ⊢
  split
  · decide +kernel
  next configured =>
    rw [if_neg configured] at fails
    split
    · simp only [List.append_assoc]
      rw [passed_append (by decide +kernel)]
      decide +kernel
    next enough =>
      rw [if_neg enough] at fails
      cases fails

end Findings

/-- The checks of password aging that the audits are made of. -/
inductive AgingCheck where
  | minDaysBetweenPasswordChanges
  | maxDaysBetweenPasswordChanges
  | passwordExpirationLessThan
  | passwordExpirationWarning

namespace AgingCheck

variable (check : AgingCheck) (days etcLoginDefsDays currentDate : Int64)

/-- A check as an audit runs it, on a reason that is initially `NULL`. -/
def run (enumeration : UserEnumeration) : ℤ × Option ByteString :=
  match check with
  | minDaysBetweenPasswordChanges =>
      checkMinDaysBetweenPasswordChanges days etcLoginDefsDays enumeration none
  | maxDaysBetweenPasswordChanges =>
      checkMaxDaysBetweenPasswordChanges days etcLoginDefsDays enumeration none
  | passwordExpirationLessThan => checkPasswordExpirationLessThan days currentDate enumeration none
  | passwordExpirationWarning =>
      checkPasswordExpirationWarning days etcLoginDefsDays enumeration none

/-- What the check asks of a user who has a password. -/
def Complies (user : SimplifiedUser) : Prop :=
  match check with
  | minDaysBetweenPasswordChanges => days ≤ user.minimumPasswordAge
  | maxDaysBetweenPasswordChanges =>
      ¬user.maximumPasswordAge < 0 ∧ user.maximumPasswordAge ≤ days
  | passwordExpirationLessThan =>
      ¬user.maximumPasswordAge < 0 ∧ ¬user.lastPasswordChange < 0 ∧
        (currentDate ≤ user.lastPasswordChange + user.maximumPasswordAge →
          user.lastPasswordChange + user.maximumPasswordAge - currentDate ≤ days)
  | passwordExpirationWarning => days ≤ user.warningPeriod

/-- What the check asks of `/etc/login.defs`, if it looks at it. -/
def SettingComplies : Prop :=
  match check with
  | minDaysBetweenPasswordChanges =>
      etcLoginDefsDays ≠ -1 ∧ etcLoginDefsDays ≠ 0 ∧ ¬etcLoginDefsDays < days
  | maxDaysBetweenPasswordChanges => etcLoginDefsDays ≠ -1 ∧ ¬etcLoginDefsDays > days
  | passwordExpirationLessThan => True
  | passwordExpirationWarning => etcLoginDefsDays ≠ -1 ∧ ¬etcLoginDefsDays < days

/-- No failure is hidden behind the finding that is captured last: the setting, where the check
looks at one, and otherwise the last user who has a password. -/
def NothingHidden (enumeration : UserEnumeration) : Prop :=
  match check with
  | passwordExpirationLessThan =>
      enumeration.status = 0 →
        LastComplies (check.Complies days currentDate) enumeration.users →
          AllComply (check.Complies days currentDate) enumeration.users
  | _ =>
      check.SettingComplies days etcLoginDefsDays →
        enumeration.status = 0 ∧ AllComply (check.Complies days currentDate) enumeration.users

theorem run_status_perm {enumeration : UserEnumeration} {reordered : List SimplifiedUser}
    (perm : enumeration.users.Perm reordered) :
    (check.run days etcLoginDefsDays currentDate enumeration).1 = 0 ↔
      (check.run days etcLoginDefsDays currentDate { enumeration with users := reordered }).1 =
        0 := by
  have settled : ∀ (judge : SimplifiedUser → Finding) (allComply : ByteString),
      (checkAllUsers judge allComply enumeration none).1 = 0 ↔
        (checkAllUsers judge allComply { enumeration with users := reordered } none).1 = 0 := by
    intro judge allComply
    rw [checkAllUsers_status, checkAllUsers_status, allComply_perm perm]
  have folded : ∀ (setting : Finding) (judge : SimplifiedUser → Finding) (allComply : ByteString),
      (foldFinding (checkAllUsers judge allComply enumeration none) setting).1 = 0 ↔
        (foldFinding (checkAllUsers judge allComply { enumeration with users := reordered } none)
          setting).1 = 0 := by
    intro setting judge allComply
    rw [foldFinding, foldFinding]
    cases setting.complies with
    | false => exact Iff.rfl
    | true => exact settled judge allComply
  cases check with
  | minDaysBetweenPasswordChanges => exact folded _ _ _
  | maxDaysBetweenPasswordChanges => exact folded _ _ _
  | passwordExpirationLessThan => exact settled _ _
  | passwordExpirationWarning => exact folded _ _ _

theorem complies_minimumAgeOf : (fun user => (minimumAgeOf days user).complies = true) =
    minDaysBetweenPasswordChanges.Complies days currentDate := by
  funext user
  simp only [minimumAgeOf, Complies, eq_iff_iff]
  split <;> simp_all

theorem complies_maximumAgeOf : (fun user => (maximumAgeOf days user).complies = true) =
    maxDaysBetweenPasswordChanges.Complies days currentDate := by
  funext user
  simp only [maximumAgeOf, Complies, eq_iff_iff]
  split
  · simp_all
  · split <;> simp_all

theorem complies_expirationOf : (fun user => (expirationOf days currentDate user).complies = true) =
    passwordExpirationLessThan.Complies days currentDate := by
  funext user
  simp only [expirationOf, Complies, eq_iff_iff]
  split
  · simp_all
  · split
    · simp_all
    · split
      · split <;> simp_all
      · simp_all

theorem complies_warningPeriodOf : (fun user => (warningPeriodOf days user).complies = true) =
    passwordExpirationWarning.Complies days currentDate := by
  funext user
  simp only [warningPeriodOf, Complies, eq_iff_iff]
  split <;> simp_all

theorem complies_passMinDays : (passMinDays days etcLoginDefsDays).complies = true ↔
    minDaysBetweenPasswordChanges.SettingComplies days etcLoginDefsDays := by
  simp only [passMinDays, SettingComplies]
  split
  · simp_all
  · split
    · simp_all
    · split <;> simp_all

theorem complies_passMaxDays : (passMaxDays days etcLoginDefsDays).complies = true ↔
    maxDaysBetweenPasswordChanges.SettingComplies days etcLoginDefsDays := by
  simp only [passMaxDays, SettingComplies]
  split
  · simp_all
  · split <;> simp_all

theorem complies_passWarnAge : (passWarnAge days etcLoginDefsDays).complies = true ↔
    passwordExpirationWarning.SettingComplies days etcLoginDefsDays := by
  simp only [passWarnAge, SettingComplies]
  split
  · simp_all
  · split <;> simp_all

theorem verdictsAgree_run (enumeration : UserEnumeration) :
    VerdictsAgree (check.run days etcLoginDefsDays currentDate enumeration) ↔
      check.NothingHidden days etcLoginDefsDays currentDate enumeration := by
  cases check with
  | minDaysBetweenPasswordChanges =>
      rw [run, checkMinDaysBetweenPasswordChanges,
        verdictsAgree_setting (passMinDays_honest days etcLoginDefsDays), complies_passMinDays,
        complies_minimumAgeOf days currentDate]
      rfl
  | maxDaysBetweenPasswordChanges =>
      rw [run, checkMaxDaysBetweenPasswordChanges,
        verdictsAgree_setting (passMaxDays_honest days etcLoginDefsDays), complies_passMaxDays,
        complies_maximumAgeOf days currentDate]
      rfl
  | passwordExpirationLessThan =>
      rw [run, checkPasswordExpirationLessThan,
        verdictsAgree_checkAllUsers (expirationOf_honest days currentDate),
        complies_expirationOf days currentDate]
      rfl
  | passwordExpirationWarning =>
      rw [run, checkPasswordExpirationWarning,
        verdictsAgree_setting (passWarnAge_honest days etcLoginDefsDays), complies_passWarnAge,
        complies_warningPeriodOf days currentDate]
      rfl

/-- The verdict that is reported is the one that is computed exactly when no failure is hidden,
and then it does not depend on the order of the users. -/
theorem reported_verdict_iff (enumeration : UserEnumeration) :
    (VerdictsAgree (check.run days etcLoginDefsDays currentDate enumeration) ↔
      check.NothingHidden days etcLoginDefsDays currentDate enumeration) ∧
    ∀ reordered, enumeration.users.Perm reordered →
      VerdictsAgree (check.run days etcLoginDefsDays currentDate enumeration) →
      VerdictsAgree
        (check.run days etcLoginDefsDays currentDate { enumeration with users := reordered }) →
      reportsPass (check.run days etcLoginDefsDays currentDate enumeration).2 =
        reportsPass (check.run days etcLoginDefsDays currentDate
          { enumeration with users := reordered }).2 := by
  constructor
  · exact check.verdictsAgree_run days etcLoginDefsDays currentDate enumeration
  · intro reordered perm agree agree_reordered
    have settled := check.run_status_perm days etcLoginDefsDays currentDate perm
    exact Bool.eq_iff_iff.mpr ((agree.trans settled).trans agree_reordered.symm)

/-- Two users whose passwords can be changed after a week, in either order. -/
theorem reported_verdict_iff_compliant_users :
    reportsPass (minDaysBetweenPasswordChanges.run 7 7 0
        ⟨0, [⟨1000, true, 20000, 7, 90, 7⟩, ⟨1001, true, 20000, 10, 90, 7⟩]⟩).2 =
      reportsPass (minDaysBetweenPasswordChanges.run 7 7 0
        ⟨0, [⟨1001, true, 20000, 10, 90, 7⟩, ⟨1000, true, 20000, 7, 90, 7⟩]⟩).2 := by
  apply (minDaysBetweenPasswordChanges.reported_verdict_iff 7 7 0
    ⟨0, [⟨1000, true, 20000, 7, 90, 7⟩, ⟨1001, true, 20000, 10, 90, 7⟩]⟩).2
  · exact List.Perm.swap _ _ _
  · decide
  · decide

/-- A password that never expires is reported as a failure after a password that expires in time,
and as a success before it. -/
theorem last_user_decides :
    let unlimited : SimplifiedUser := ⟨1000, true, 20000, 7, -1, 7⟩
    let limited : SimplifiedUser := ⟨1001, true, 20000, 7, 90, 7⟩
    let checked := fun users => passwordExpirationLessThan.run 90 0 20010 ⟨0, users⟩
    (checked [unlimited, limited]).1 = enoent ∧
      reportsPass (checked [unlimited, limited]).2 = true ∧
      (checked [limited, unlimited]).1 = enoent ∧
      reportsPass (checked [limited, unlimited]).2 = false := by
  decide

end AgingCheck

end OsConfig.CommonUtils
