import OsConfig.Common.FileUtils
import OsConfig.Common.Reasons
import OsConfig.Library.Numerals

/-!
# Password aging

Each check goes through the users who have a password and then, all but one, looks at a setting
of `/etc/login.defs`. What it finds is folded twice: into a status, which one failure settles, and
into the reason, which is all that an audit reports.

Reading the user database and `login.defs` is left to the caller of a check.
-/

namespace OsConfig.CommonUtils

/-- What the checks use of a `SimplifiedUser`. -/
structure SimplifiedUser where
  userId : UInt32
  hasPassword : Bool
  lastPasswordChange : Int64
  minimumPasswordAge : Int64
  maximumPasswordAge : Int64
  warningPeriod : Int64

/-- The outcome of reading the user database. -/
structure UserEnumeration where
  status : ℤ
  users : List SimplifiedUser

/-- What a check finds out about a user or about a setting. -/
structure Finding where
  complies : Bool
  text : ByteString

/-- `printf` with `%u`. -/
def printUnsigned (number : UInt32) : ByteString :=
  Numerals.render 10 number.toNat

/-- `printf` with `%ld`. -/
def printLong (number : Int64) : ByteString :=
  Numerals.renderInt 10 number.toInt

/-- A finding is captured as a success or as a failure. -/
def captureFinding (reason : Option ByteString) (finding : Finding) : Option ByteString :=
  if finding.complies then captureSuccessReason reason finding.text
  else captureReason reason finding.text

def enumerateUsers (enumeration : UserEnumeration) (reason : Option ByteString) :
    ℤ × Option ByteString :=
  if enumeration.status ≠ 0 then
    (enumeration.status, captureReason reason (bytes "Failed to enumerate users (" ++
      Numerals.renderInt 10 enumeration.status ++
      bytes "). User database may be corrupt. Automatic remediation is not possible"))
  else (0, reason)

/-- A finding settles the status if it is a failure. -/
def foldFinding (result : ℤ × Option ByteString) (finding : Finding) : ℤ × Option ByteString :=
  (if finding.complies then result.1 else enoent, captureFinding result.2 finding)

/-- The loop over the users. -/
def checkUsers (judge : SimplifiedUser → Finding) :
    List SimplifiedUser → ℤ × Option ByteString → ℤ × Option ByteString
  | [], result => result
  | user :: rest, result =>
      if user.hasPassword = false then checkUsers judge rest result
      else checkUsers judge rest (foldFinding result (judge user))

/-- What is captured after the loop, if all users who have a password comply. -/
def captureAllComply (allComply : ByteString) (result : ℤ × Option ByteString) :
    ℤ × Option ByteString :=
  if result.1 = 0 then (result.1, captureSuccessReason result.2 allComply) else result

/-- The part of a check that looks at the users. -/
def checkAllUsers (judge : SimplifiedUser → Finding) (allComply : ByteString)
    (enumeration : UserEnumeration) (reason : Option ByteString) : ℤ × Option ByteString :=
  let enumerated := enumerateUsers enumeration reason
  captureAllComply allComply
    (if enumerated.1 = 0 then checkUsers judge enumeration.users enumerated else enumerated)

section Checks

variable (days : Int64)

/-- What `CheckMinDaysBetweenPasswordChanges` finds out about a user. -/
def minimumAgeOf (user : SimplifiedUser) : Finding :=
  if user.minimumPasswordAge ≥ days then
    ⟨true, bytes "User " ++ printUnsigned user.userId ++
      bytes " has a minimum time between password changes of " ++
      printLong user.minimumPasswordAge ++ bytes " days (requested: " ++ printLong days ++
      bytes ")"⟩
  else
    ⟨false, bytes "User " ++ printUnsigned user.userId ++
      bytes " minimum time between password changes of " ++ printLong user.minimumPasswordAge ++
      bytes " days is less than requested " ++ printLong days ++ bytes " days"⟩

/-- What `CheckMinDaysBetweenPasswordChanges` finds out about `PASS_MIN_DAYS`. -/
def passMinDays (etcLoginDefsDays : Int64) : Finding :=
  if etcLoginDefsDays = -1 then
    ⟨false, bytes "There is no configured 'PASS_MIN_DAYS' in '/etc/login.defs'"⟩
  else if etcLoginDefsDays = 0 then
    ⟨false, bytes ("'PASS_MIN_DAYS' is configured to default 0 in '/etc/login.defs' " ++
      "meaning disabled restriction")⟩
  else if etcLoginDefsDays < days then
    ⟨false, bytes "Configured 'PASS_MIN_DAYS' in '/etc/login.defs' of " ++
      printLong etcLoginDefsDays ++ bytes " days is less than requested " ++ printLong days ++
      bytes " days"⟩
  else
    ⟨true, bytes "'PASS_MIN_DAYS' is set to " ++ printLong etcLoginDefsDays ++
      bytes " days in '/etc/login.defs' (requested: " ++ printLong days ++ bytes ")"⟩

def checkMinDaysBetweenPasswordChanges (etcLoginDefsDays : Int64) (enumeration : UserEnumeration)
    (reason : Option ByteString) : ℤ × Option ByteString :=
  foldFinding
    (checkAllUsers (minimumAgeOf days)
      (bytes "All users who have passwords have correct number of minimum days (" ++
        printLong days ++ bytes ") between changes") enumeration reason)
    (passMinDays days etcLoginDefsDays)

/-- What `CheckMaxDaysBetweenPasswordChanges` finds out about a user. -/
def maximumAgeOf (user : SimplifiedUser) : Finding :=
  if user.maximumPasswordAge < 0 then
    ⟨false, bytes "User " ++ printUnsigned user.userId ++
      bytes " has unlimited time between password changes of " ++
      printLong user.maximumPasswordAge ++ bytes " days(requested: " ++ printLong days ++
      bytes ")"⟩
  else if user.maximumPasswordAge ≤ days then
    ⟨true, bytes "User " ++ printUnsigned user.userId ++
      bytes " has a maximum time between password changes of " ++
      printLong user.maximumPasswordAge ++ bytes " days(requested: " ++ printLong days ++
      bytes ")"⟩
  else
    ⟨false, bytes "User " ++ printUnsigned user.userId ++
      bytes " maximum time between password changes of " ++ printLong user.maximumPasswordAge ++
      bytes " days is more than requested " ++ printLong days ++ bytes " days"⟩

/-- What `CheckMaxDaysBetweenPasswordChanges` finds out about `PASS_MAX_DAYS`. -/
def passMaxDays (etcLoginDefsDays : Int64) : Finding :=
  if etcLoginDefsDays = -1 then
    ⟨false, bytes "'PASS_MAX_DAYS' is not configured in '/etc/login.defs'"⟩
  else if etcLoginDefsDays > days then
    ⟨false, bytes "Configured 'PASS_MAX_DAYS' in '/etc/login.defs' of " ++
      printLong etcLoginDefsDays ++ bytes " days is more than requested " ++ printLong days ++
      bytes " days"⟩
  else
    ⟨true, bytes "'PASS_MAX_DAYS' is set to " ++ printLong etcLoginDefsDays ++
      bytes " days in '/etc/login.defs' (requested: " ++ printLong days ++ bytes ")"⟩

def checkMaxDaysBetweenPasswordChanges (etcLoginDefsDays : Int64) (enumeration : UserEnumeration)
    (reason : Option ByteString) : ℤ × Option ByteString :=
  foldFinding
    (checkAllUsers (maximumAgeOf days)
      (bytes "All users who have passwords have correct number of maximum days (" ++
        printLong days ++ bytes ") between changes") enumeration reason)
    (passMaxDays days etcLoginDefsDays)

/-- What `CheckPasswordExpirationLessThan` finds out about a user. An expired password complies. -/
def expirationOf (currentDate : Int64) (user : SimplifiedUser) : Finding :=
  if user.maximumPasswordAge < 0 then
    ⟨false, bytes "Password for user " ++ printUnsigned user.userId ++
      bytes " has no expiration date (" ++ printLong user.maximumPasswordAge ++ bytes ")"⟩
  else if user.lastPasswordChange < 0 then
    ⟨false, bytes "Password for user " ++ printUnsigned user.userId ++
      bytes " has no recorded last change date (" ++ printLong user.lastPasswordChange ++
      bytes ")"⟩
  else
    let passwordExpirationDate := user.lastPasswordChange + user.maximumPasswordAge
    if passwordExpirationDate ≥ currentDate then
      if passwordExpirationDate - currentDate ≤ days then
        ⟨true, bytes "Password for user " ++ printUnsigned user.userId ++
          bytes " will expire in " ++ printLong (passwordExpirationDate - currentDate) ++
          bytes " days (requested maximum: " ++ printLong days ++ bytes ")"⟩
      else
        ⟨false, bytes "Password for user " ++ printUnsigned user.userId ++
          bytes " will expire in " ++ printLong (passwordExpirationDate - currentDate) ++
          bytes " days, more than requested maximum of " ++ printLong days ++ bytes " days"⟩
    else
      ⟨true, bytes "Password for user '" ++ printUnsigned user.userId ++ bytes ")  expired " ++
        printLong (currentDate - passwordExpirationDate) ++ bytes " days ago (current date: " ++
        printLong currentDate ++ bytes ", expiration date: " ++ printLong passwordExpirationDate ++
        bytes " days since the epoch)"⟩

/-- `CheckPasswordExpirationLessThan`, the check that looks at no setting. -/
def checkPasswordExpirationLessThan (currentDate : Int64) (enumeration : UserEnumeration)
    (reason : Option ByteString) : ℤ × Option ByteString :=
  checkAllUsers (expirationOf days currentDate)
    (bytes "Passwords for all users who have them will expire in " ++ printLong days ++
      bytes " days or less") enumeration reason

/-- What `CheckPasswordExpirationWarning` finds out about a user. -/
def warningPeriodOf (user : SimplifiedUser) : Finding :=
  if user.warningPeriod ≥ days then
    ⟨true, bytes "User " ++ printUnsigned user.userId ++
      bytes " has a password expiration warning time of " ++ printLong user.warningPeriod ++
      bytes " days (requested: " ++ printLong days ++ bytes ")"⟩
  else
    ⟨false, bytes "User " ++ printUnsigned user.userId ++
      bytes " password expiration warning time is " ++ printLong user.warningPeriod ++
      bytes " days, less than requested " ++ printLong days ++ bytes " days"⟩

/-- What `CheckPasswordExpirationWarning` finds out about `PASS_WARN_AGE`. -/
def passWarnAge (etcLoginDefsDays : Int64) : Finding :=
  if etcLoginDefsDays = -1 then
    ⟨false, bytes "'PASS_WARN_AGE' is not configured in '/etc/login.defs'"⟩
  else if etcLoginDefsDays < days then
    ⟨false, bytes "Configured 'PASS_WARN_AGE' in '/etc/login.defs' of " ++
      printLong etcLoginDefsDays ++ bytes " days is less than requested " ++ printLong days ++
      bytes " days"⟩
  else
    ⟨true, bytes "'PASS_WARN_AGE' is set to " ++ printLong etcLoginDefsDays ++
      bytes " days in '/etc/login.defs' (requested: " ++ printLong days ++ bytes ")"⟩

def checkPasswordExpirationWarning (etcLoginDefsDays : Int64) (enumeration : UserEnumeration)
    (reason : Option ByteString) : ℤ × Option ByteString :=
  foldFinding
    (checkAllUsers (warningPeriodOf days)
      (bytes ("All users who have passwords have correct have correct password expiration " ++
        "warning time of ") ++ printLong days ++ bytes " days") enumeration reason)
    (passWarnAge days etcLoginDefsDays)

end Checks

end OsConfig.CommonUtils
