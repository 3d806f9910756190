import OsConfig.Common.FileUtils
import OsConfig.Common.Formatting
import OsConfig.Common.Reasons

/-!
# Audit and remediation of the SSH server

A session starts with the default values of the options, and checks that
initialize or remediate an option replace its value. Audits only read the
values. The cleanup at the end writes them to the configuration of the server,
unless the session has audited only.

The version of the server, its answers and the outcome of every action on the
device are parameters. Owners and access rights are left out as for all files.
-/

namespace OsConfig.SshUtils

open CommonUtils

section Constants

def sshServerConfiguration : ByteString := bytes "/etc/ssh/sshd_config"

def sshServerConfigurationBackup : ByteString := bytes "/etc/ssh/sshd_config.bak"

def osconfigRemediationConf : ByteString := bytes "/etc/ssh/sshd_config.d/osconfig_remediation.conf"

def sshdConfigRemediationHeader : ByteString := bytes "# Azure OSConfig Remediation"

def sshPort : ByteString := bytes "Port"

def sshProtocol : ByteString := bytes "Protocol"

def sshIgnoreHosts : ByteString := bytes "IgnoreRhosts"

def sshLogLevel : ByteString := bytes "LogLevel"

def sshMaxAuthTries : ByteString := bytes "MaxAuthTries"

def sshAllowUsers : ByteString := bytes "AllowUsers"

def sshDenyUsers : ByteString := bytes "DenyUsers"

def sshAllowGroups : ByteString := bytes "AllowGroups"

def sshDenyGroups : ByteString := bytes "DenyGroups"

def sshHostBasedAuthentication : ByteString := bytes "HostBasedAuthentication"

def sshPermitRootLogin : ByteString := bytes "PermitRootLogin"

def sshPermitEmptyPasswords : ByteString := bytes "PermitEmptyPasswords"

def sshClientAliveCountMax : ByteString := bytes "ClientAliveCountMax"

def sshLoginGraceTime : ByteString := bytes "LoginGraceTime"

def sshClientAliveInterval : ByteString := bytes "ClientAliveInterval"

def sshMacs : ByteString := bytes "MACs"

def sshPermitUserEnvironment : ByteString := bytes "PermitUserEnvironment"

def sshBanner : ByteString := bytes "Banner"

def sshCiphers : ByteString := bytes "Ciphers"

def sshDefaultSshSshdConfigAccess : ByteString := bytes "600"

def sshDefaultSshPort : ByteString := bytes "22"

def sshDefaultSshProtocol : ByteString := bytes "2"

def sshDefaultSshYes : ByteString := bytes "yes"

def sshDefaultSshNo : ByteString := bytes "no"

def sshDefaultSshLogLevel : ByteString := bytes "INFO"

def sshDefaultSshMaxAuthTries : ByteString := bytes "6"

def sshDefaultSshAllowUsers : ByteString := bytes "*@*"

def sshDefaultSshDenyUsers : ByteString := bytes "root"

def sshDefaultSshAllowGroups : ByteString := bytes "*"

def sshDefaultSshDenyGroups : ByteString := bytes "root"

def sshDefaultSshClientIntervalCountMax : ByteString := bytes "3"

def sshDefaultSshClientAliveInterval : ByteString := bytes "300"

def sshDefaultSshLoginGraceTime : ByteString := bytes "60"

def sshDefaultSshMacs : ByteString :=
  bytes "hmac-sha2-256,hmac-sha2-256-etm@openssh.com,hmac-sha2-512,hmac-sha2-512-etm@openssh.com"

def sshDefaultSshCiphers : ByteString := bytes "aes128-ctr,aes192-ctr,aes256-ctr"

def sshBannerFile : ByteString := bytes "/etc/azsec/banner.txt"

def sshDefaultSshBannerText : ByteString :=
  bytes "#######################################################################\n\n" ++
    bytes "Authorized access only!\n\n" ++
    bytes "If you are not authorized to access or use this system, disconnect now!\n\n" ++
    bytes "#######################################################################\n"

end Constants

/-- The global variables with the desired values. -/
inductive Desired where
  | permissionsOnEtcSshSshdConfig
  | sshPort
  | sshBestPracticeProtocol
  | sshBestPracticeIgnoreRhosts
  | sshLogLevelIsSet
  | sshMaxAuthTriesIsSet
  | allowUsersIsConfigured
  | denyUsersIsConfigured
  | allowGroupsIsConfigured
  | denyGroupsConfigured
  | sshHostbasedAuthenticationIsDisabled
  | sshPermitRootLoginIsDisabled
  | sshPermitEmptyPasswordsIsDisabled
  | sshClientIntervalCountMaxIsConfigured
  | sshClientAliveIntervalIsConfigured
  | sshLoginGraceTimeIsSet
  | onlyApprovedMacAlgorithmsAreUsed
  | sshWarningBannerIsEnabled
  | usersCannotSetSshEnvironmentOptions
  | appropriateCiphersForSsh
  deriving DecidableEq

structure SshSession where
  desired : Desired → Option ByteString
  auditOnlySession : Bool

namespace SshSession

def set (session : SshSession) (target : Desired) (value : Option ByteString) : SshSession :=
  { session with desired := Function.update session.desired target value }

/-- `desired ? desired : default` -/
def desiredOr (session : SshSession) (target : Desired) (default : ByteString) : ByteString :=
  (session.desired target).getD default

end SshSession

/-- The value that `InitializeSshAudit` gives to a variable. -/
def initialValue : Desired → ByteString
  | .permissionsOnEtcSshSshdConfig => sshDefaultSshSshdConfigAccess
  | .sshPort => sshDefaultSshPort
  | .sshBestPracticeProtocol => sshDefaultSshProtocol
  | .sshBestPracticeIgnoreRhosts => sshDefaultSshYes
  | .sshLogLevelIsSet => sshDefaultSshLogLevel
  | .sshMaxAuthTriesIsSet => sshDefaultSshMaxAuthTries
  | .allowUsersIsConfigured => sshDefaultSshAllowUsers
  | .denyUsersIsConfigured => sshDefaultSshDenyUsers
  | .allowGroupsIsConfigured => sshDefaultSshAllowGroups
  | .denyGroupsConfigured => sshDefaultSshDenyGroups
  | .sshHostbasedAuthenticationIsDisabled => sshDefaultSshNo
  | .sshPermitRootLoginIsDisabled => sshDefaultSshNo
  | .sshPermitEmptyPasswordsIsDisabled => sshDefaultSshNo
  | .sshClientIntervalCountMaxIsConfigured => sshDefaultSshClientIntervalCountMax
  | .sshClientAliveIntervalIsConfigured => sshDefaultSshClientAliveInterval
  | .sshLoginGraceTimeIsSet => sshDefaultSshLoginGraceTime
  | .onlyApprovedMacAlgorithmsAreUsed => sshDefaultSshMacs
  | .sshWarningBannerIsEnabled => sshDefaultSshBannerText
  | .usersCannotSetSshEnvironmentOptions => sshDefaultSshNo
  | .appropriateCiphersForSsh => sshDefaultSshCiphers

def initializeSshAudit : SshSession where
  desired := fun target => some (initialValue target)
  auditOnlySession := true

section Initialization

/-- `isValidValue ? value : default` -/
def validOr (default : ByteString) : Option ByteString → ByteString
  | some (byte :: rest) => byte :: rest
  | _ => default

def duplicateOr (default : ByteString) (value : Option ByteString) : Option ByteString :=
  some (validOr default value)

/-- The loop of `RepairBrokenEolCharactersIfAny`. -/
def repairEol : ByteString → ByteString
  | 92 :: 110 :: rest => 10 :: repairEol rest
  | byte :: rest => byte :: repairEol rest
  | [] => []

def repairBrokenEolCharactersIfAny (value : ByteString) : Option ByteString :=
  if value.length ≤ 2 then none else some (repairEol value)

/-- The banner text may be given with escaped ends of line. -/
def duplicateBannerText (value : Option ByteString) : Option ByteString :=
  let text := validOr [] value
  if bytes "\\n" <:+: text then repairBrokenEolCharactersIfAny text
  else duplicateOr sshDefaultSshBannerText value

/-- A branch of `InitializeSshAuditCheck`. -/
structure InitializationBranch where
  remediate : ByteString
  init : ByteString
  desired : Desired
  duplicate : Option ByteString → Option ByteString

def initializationBranches : List InitializationBranch :=
  [ { remediate := bytes "remediateEnsurePermissionsOnEtcSshSshdConfig"
      init := bytes "initEnsurePermissionsOnEtcSshSshdConfig"
      desired := .permissionsOnEtcSshSshdConfig
      duplicate := duplicateOr sshDefaultSshSshdConfigAccess },
    { remediate := bytes "remediateEnsureSshPortIsConfigured"
      init := bytes "initEnsureSshPortIsConfigured"
      desired := .sshPort
      duplicate := duplicateOr sshDefaultSshPort },
    { remediate := bytes "remediateEnsureSshBestPracticeProtocol"
      init := bytes "initEnsureSshBestPracticeProtocol"
      desired := .sshBestPracticeProtocol
      duplicate := duplicateOr sshDefaultSshProtocol },
    { remediate := bytes "remediateEnsureSshBestPracticeIgnoreRhosts"
      init := bytes "initEnsureSshBestPracticeIgnoreRhosts"
      desired := .sshBestPracticeIgnoreRhosts
      duplicate := duplicateOr sshDefaultSshYes },
    { remediate := bytes "remediateEnsureSshLogLevelIsSet"
      init := bytes "initEnsureSshLogLevelIsSet"
      desired := .sshLogLevelIsSet
      duplicate := duplicateOr sshDefaultSshLogLevel },
    { remediate := bytes "remediateEnsureSshMaxAuthTriesIsSet"
      init := bytes "initEnsureSshMaxAuthTriesIsSet"
      desired := .sshMaxAuthTriesIsSet
      duplicate := duplicateOr sshDefaultSshMaxAuthTries },
    { remediate := bytes "remediateEnsureAllowUsersIsConfigured"
      init := bytes "initEnsureAllowUsersIsConfigured"
      desired := .allowUsersIsConfigured
      duplicate := duplicateOr sshDefaultSshAllowUsers },
    { remediate := bytes "remediateEnsureDenyUsersIsConfigured"
      init := bytes "initEnsureDenyUsersIsConfigured"
      desired := .denyUsersIsConfigured
      duplicate := duplicateOr sshDefaultSshDenyUsers },
    { remediate := bytes "remediateEnsureAllowGroupsIsConfigured"
      init := bytes "initEnsureAllowGroupsIsConfigured"
      desired := .allowGroupsIsConfigured
      duplicate := duplicateOr sshDefaultSshAllowGroups },
    { remediate := bytes "remediateEnsureDenyGroupsConfigured"
      init := bytes "initEnsureDenyGroupsConfigured"
      desired := .denyGroupsConfigured
      duplicate := duplicateOr sshDefaultSshDenyGroups },
    { remediate := bytes "remediateEnsureSshHostbasedAuthenticationIsDisabled"
      init := bytes "initEnsureSshHostbasedAuthenticationIsDisabled"
      desired := .sshHostbasedAuthenticationIsDisabled
      duplicate := duplicateOr sshDefaultSshNo },
    { remediate := bytes "remediateEnsureSshPermitRootLoginIsDisabled"
      init := bytes "initEnsureSshPermitRootLoginIsDisabled"
      desired := .sshPermitRootLoginIsDisabled
      duplicate := duplicateOr sshDefaultSshNo },
    { remediate := bytes "remediateEnsureSshPermitEmptyPasswordsIsDisabled"
      init := bytes "initEnsureSshPermitEmptyPasswordsIsDisabled"
      desired := .sshPermitEmptyPasswordsIsDisabled
      duplicate := duplicateOr sshDefaultSshNo },
    { remediate := bytes "remediateEnsureSshClientIntervalCountMaxIsConfigured"
      init := bytes "initEnsureSshClientIntervalCountMaxIsConfigured"
      desired := .sshClientIntervalCountMaxIsConfigured
      duplicate := duplicateOr sshDefaultSshClientIntervalCountMax },
    { remediate := bytes "remediateEnsureSshClientAliveIntervalIsConfigured"
      init := bytes "initEnsureSshClientAliveIntervalIsConfigured"
      desired := .sshClientAliveIntervalIsConfigured
      duplicate := duplicateOr sshDefaultSshClientAliveInterval },
    { remediate := bytes "remediateEnsureSshLoginGraceTimeIsSet"
      init := bytes "initEnsureSshLoginGraceTimeIsSet"
      desired := .sshLoginGraceTimeIsSet
      duplicate := duplicateOr sshDefaultSshLoginGraceTime },
    { remediate := bytes "remediateEnsureOnlyApprovedMacAlgorithmsAreUsed"
      init := bytes "initEnsureOnlyApprovedMacAlgorithmsAreUsed"
      desired := .onlyApprovedMacAlgorithmsAreUsed
      duplicate := duplicateOr sshDefaultSshMacs },
    { remediate := bytes "remediateEnsureSshWarningBannerIsEnabled"
      init := bytes "initEnsureSshWarningBannerIsEnabled"
      desired := .sshWarningBannerIsEnabled
      duplicate := duplicateBannerText },
    { remediate := bytes "remediateEnsureUsersCannotSetSshEnvironmentOptions"
      init := bytes "initEnsureUsersCannotSetSshEnvironmentOptions"
      desired := .usersCannotSetSshEnvironmentOptions
      duplicate := duplicateOr sshDefaultSshNo },
    { remediate := bytes "remediateEnsureAppropriateCiphersForSsh"
      init := bytes "initEnsureAppropriateCiphersForSsh"
      desired := .appropriateCiphersForSsh
      duplicate := duplicateOr sshDefaultSshCiphers }]

def initializeSshAuditCheck (name value : Option ByteString) (session : SshSession) :
    ℤ × SshSession :=
  match name with
  | none => (einval, session)
  | some name =>
      match initializationBranches.find? fun branch =>
        name = branch.remediate || name = branch.init with
      | none => (einval, session)
      | some branch =>
          (if (branch.duplicate value).isSome then 0 else enomem,
            session.set branch.desired (branch.duplicate value))

end Initialization

section Processing

/-- What a check asks or does on the device. -/
inductive SshAction where
  | checkFileAccess (access : ByteString)
  | checkSshOptionIsSet (option expectedValue : ByteString)
  | checkSshProtocol (protocol : ByteString)
  | checkSshMaxAuthTries (value : ByteString)
  | checkAllowDenyUsersGroups (lowercase expectedValue : ByteString)
  | checkSshClientAliveInterval
  | checkSshLoginGraceTime (value : ByteString)
  | checkOnlyApprovedMacAlgorithmsAreUsed (macs : ByteString)
  | checkSshWarningBanner
  | checkAppropriateCiphersForSsh (ciphers : ByteString)
  | setFileAccess (access : ByteString)
  | setSshWarningBanner (access : ByteString) (bannerText : Option ByteString)
  deriving DecidableEq

/-- `DuplicateStringToLowercase` -/
def lowercase (text : ByteString) : ByteString :=
  text.map toLower

/-- The branches of `ProcessSshAuditCheck` that audit. -/
def auditBranches : List (ByteString × (SshSession → SshAction)) :=
  [(bytes "auditEnsurePermissionsOnEtcSshSshdConfig", fun session =>
      .checkFileAccess
        (session.desiredOr .permissionsOnEtcSshSshdConfig sshDefaultSshSshdConfigAccess)),
    (bytes "auditEnsureSshPortIsConfigured", fun session =>
      .checkSshOptionIsSet (lowercase sshPort) (session.desiredOr .sshPort sshDefaultSshPort)),
    (bytes "auditEnsureSshBestPracticeProtocol", fun session =>
      .checkSshProtocol (session.desiredOr .sshBestPracticeProtocol sshDefaultSshProtocol)),
    (bytes "auditEnsureSshBestPracticeIgnoreRhosts", fun session =>
      .checkSshOptionIsSet (lowercase sshIgnoreHosts)
        (session.desiredOr .sshBestPracticeIgnoreRhosts sshDefaultSshYes)),
    (bytes "auditEnsureSshLogLevelIsSet", fun session =>
      .checkSshOptionIsSet (lowercase sshLogLevel)
        (session.desiredOr .sshLogLevelIsSet sshDefaultSshLogLevel)),
    (bytes "auditEnsureSshMaxAuthTriesIsSet", fun session =>
      .checkSshMaxAuthTries (session.desiredOr .sshMaxAuthTriesIsSet sshDefaultSshMaxAuthTries)),
    (bytes "auditEnsureAllowUsersIsConfigured", fun session =>
      .checkAllowDenyUsersGroups (lowercase sshAllowUsers)
        (session.desiredOr .allowUsersIsConfigured sshDefaultSshAllowUsers)),
    (bytes "auditEnsureDenyUsersIsConfigured", fun session =>
      .checkAllowDenyUsersGroups (lowercase sshDenyUsers)
        (session.desiredOr .denyUsersIsConfigured sshDefaultSshDenyUsers)),
    (bytes "auditEnsureAllowGroupsIsConfigured", fun session =>
      .checkAllowDenyUsersGroups (lowercase sshAllowGroups)
        (session.desiredOr .allowGroupsIsConfigured sshDefaultSshAllowGroups)),
    (bytes "auditEnsureDenyGroupsConfigured", fun session =>
      .checkAllowDenyUsersGroups (lowercase sshDenyGroups)
        (session.desiredOr .denyGroupsConfigured sshDefaultSshDenyGroups)),
    (bytes "auditEnsureSshHostbasedAuthenticationIsDisabled", fun session =>
      .checkSshOptionIsSet (lowercase sshHostBasedAuthentication)
        (session.desiredOr .sshHostbasedAuthenticationIsDisabled sshDefaultSshNo)),
    (bytes "auditEnsureSshPermitRootLoginIsDisabled", fun session =>
      .checkSshOptionIsSet (lowercase sshPermitRootLogin)
        (session.desiredOr .sshPermitRootLoginIsDisabled sshDefaultSshNo)),
    (bytes "auditEnsureSshPermitEmptyPasswordsIsDisabled", fun session =>
      .checkSshOptionIsSet (lowercase sshPermitEmptyPasswords)
        (session.desiredOr .sshPermitEmptyPasswordsIsDisabled sshDefaultSshNo)),
    (bytes "auditEnsureSshClientIntervalCountMaxIsConfigured", fun session =>
      .checkSshOptionIsSet (lowercase sshClientAliveCountMax)
        (session.desiredOr .sshClientIntervalCountMaxIsConfigured
          sshDefaultSshClientIntervalCountMax)),
    (bytes "auditEnsureSshClientAliveIntervalIsConfigured", fun _ =>
      .checkSshClientAliveInterval),
    (bytes "auditEnsureSshLoginGraceTimeIsSet", fun session =>
      .checkSshLoginGraceTime
        (session.desiredOr .sshLoginGraceTimeIsSet sshDefaultSshLoginGraceTime)),
    (bytes "auditEnsureOnlyApprovedMacAlgorithmsAreUsed", fun session =>
      .checkOnlyApprovedMacAlgorithmsAreUsed
        (session.desiredOr .onlyApprovedMacAlgorithmsAreUsed sshDefaultSshMacs)),
    (bytes "auditEnsureSshWarningBannerIsEnabled", fun _ => .checkSshWarningBanner),
    (bytes "auditEnsureUsersCannotSetSshEnvironmentOptions", fun session =>
      .checkSshOptionIsSet (lowercase sshPermitUserEnvironment)
        (session.desiredOr .usersCannotSetSshEnvironmentOptions sshDefaultSshNo)),
    (bytes "auditEnsureAppropriateCiphersForSsh", fun session =>
      .checkAppropriateCiphersForSsh
        (session.desiredOr .appropriateCiphersForSsh sshDefaultSshCiphers))]

/-- The remediations of `ProcessSshAuditCheck` that only initialize their check. -/
def plainRemediations : List ByteString :=
  [bytes "remediateEnsureSshPortIsConfigured",
    bytes "remediateEnsureSshBestPracticeProtocol",
    bytes "remediateEnsureSshBestPracticeIgnoreRhosts",
    bytes "remediateEnsureSshLogLevelIsSet",
    bytes "remediateEnsureSshMaxAuthTriesIsSet",
    bytes "remediateEnsureAllowUsersIsConfigured",
    bytes "remediateEnsureDenyUsersIsConfigured",
    bytes "remediateEnsureAllowGroupsIsConfigured",
    bytes "remediateEnsureDenyGroupsConfigured",
    bytes "remediateEnsureSshHostbasedAuthenticationIsDisabled",
    bytes "remediateEnsureSshPermitRootLoginIsDisabled",
    bytes "remediateEnsureSshPermitEmptyPasswordsIsDisabled",
    bytes "remediateEnsureSshClientIntervalCountMaxIsConfigured",
    bytes "remediateEnsureSshClientAliveIntervalIsConfigured",
    bytes "remediateEnsureSshLoginGraceTimeIsSet",
    bytes "remediateEnsureOnlyApprovedMacAlgorithmsAreUsed",
    bytes "remediateEnsureUsersCannotSetSshEnvironmentOptions",
    bytes "remediateEnsureAppropriateCiphersForSsh"]

/-- What a call has returned, the actions it has taken and the session behind it. -/
structure Processed where
  status : ℤ
  actions : List SshAction
  session : SshSession

/-- A remediation that acts on the device once its check is initialized. -/
def initializeAndAct (perform : SshAction → ℤ) (name : ByteString) (value : Option ByteString)
    (action : SshSession → SshAction) (session : SshSession) : Processed :=
  let (status, session) := initializeSshAuditCheck (some name) value session
  if status = 0 then
    { status := perform (action session), actions := [action session], session }
  else { status, actions := [], session }

/-- The branches of `ProcessSshAuditCheck`. -/
def processBranch (perform : SshAction → ℤ) (name : ByteString) (value : Option ByteString)
    (session : SshSession) : Processed :=
  match auditBranches.find? fun branch => name = branch.1 with
  | some branch => { status := 0, actions := [branch.2 session], session }
  | none =>
      if name = bytes "remediateEnsurePermissionsOnEtcSshSshdConfig" then
        initializeAndAct perform name value (fun session =>
          .setFileAccess
            (session.desiredOr .permissionsOnEtcSshSshdConfig sshDefaultSshSshdConfigAccess))
          session
      else if name ∈ plainRemediations then
        let (status, session) := initializeSshAuditCheck (some name) value session
        { status, actions := [], session }
      else if name = bytes "remediateEnsureSshWarningBannerIsEnabled" then
        initializeAndAct perform name value (fun session =>
          .setSshWarningBanner
            (session.desiredOr .permissionsOnEtcSshSshdConfig sshDefaultSshSshdConfigAccess)
            (session.desired .sshWarningBannerIsEnabled)) session
      else { status := 0, actions := [], session }

/-- `ProcessSshAuditCheck`; `reason` says whether the caller passes a place for the reason. A
value without such a place makes the session more than an audit, whatever the name. -/
def processSshAuditCheck (perform : SshAction → ℤ) (name value : Option ByteString)
    (reason : Bool) (session : SshSession) : Processed :=
  match name with
  | none => { status := einval, actions := [], session }
  | some name =>
      let processed := processBranch perform name value session
      if value.isSome && !reason then
        { processed with session := { processed.session with auditOnlySession := false } }
      else processed

end Processing

section Remediation

def remediationTemplate : ByteString :=
  bytes "%s\n%s %s\n%s %s\n%s %s\n%s %s\n%s %s\n%s %s\n%s %s\n%s %s\n%s %s\n%s %s\n" ++
    bytes "%s %s\n%s %s\n%s %s\n%s %s\n%s %s\n%s %s\n%s %s\n%s %s\n%s %s\n"

/-- The texts whose lengths make up the size of the buffer. -/
def sizedTexts (session : SshSession) : List ByteString :=
  [sshdConfigRemediationHeader,
    sshPort, session.desiredOr .sshPort sshDefaultSshPort,
    sshProtocol, session.desiredOr .sshBestPracticeProtocol sshDefaultSshProtocol,
    sshIgnoreHosts, session.desiredOr .sshBestPracticeIgnoreRhosts sshDefaultSshYes,
    sshLogLevel, session.desiredOr .sshLogLevelIsSet sshDefaultSshLogLevel,
    sshMaxAuthTries, session.desiredOr .sshMaxAuthTriesIsSet sshDefaultSshMaxAuthTries,
    sshAllowUsers, session.desiredOr .allowUsersIsConfigured sshDefaultSshAllowUsers,
    sshDenyUsers, session.desiredOr .denyUsersIsConfigured sshDefaultSshDenyUsers,
    sshAllowGroups, session.desiredOr .allowGroupsIsConfigured sshDefaultSshAllowGroups,
    sshDenyGroups, session.desiredOr .denyGroupsConfigured sshDefaultSshDenyGroups,
    sshHostBasedAuthentication, session.desiredOr .sshHostbasedAuthenticationIsDisabled
      sshDefaultSshNo,
    sshPermitRootLogin, session.desiredOr .sshPermitRootLoginIsDisabled sshDefaultSshNo,
    sshPermitEmptyPasswords, session.desiredOr .sshPermitEmptyPasswordsIsDisabled sshDefaultSshNo,
    sshClientAliveCountMax, session.desiredOr .sshClientIntervalCountMaxIsConfigured
      sshDefaultSshClientIntervalCountMax,
    sshClientAliveInterval, session.desiredOr .sshClientAliveIntervalIsConfigured
      sshDefaultSshClientAliveInterval,
    sshLoginGraceTime, session.desiredOr .sshLoginGraceTimeIsSet sshDefaultSshLoginGraceTime,
    sshPermitUserEnvironment, session.desiredOr .usersCannotSetSshEnvironmentOptions
      sshDefaultSshNo,
    sshBanner, sshBannerFile,
    sshMacs, session.desiredOr .onlyApprovedMacAlgorithmsAreUsed sshDefaultSshMacs,
    sshCiphers, session.desiredOr .appropriateCiphersForSsh sshDefaultSshCiphers]

def printedTexts (session : SshSession) : List ByteString :=
  [sshdConfigRemediationHeader,
    sshPort, session.desiredOr .sshPort sshDefaultSshPort,
    sshProtocol, session.desiredOr .sshBestPracticeProtocol sshDefaultSshProtocol,
    sshIgnoreHosts, session.desiredOr .sshBestPracticeIgnoreRhosts sshDefaultSshYes,
    sshLogLevel, session.desiredOr .sshLogLevelIsSet sshDefaultSshLogLevel,
    sshMaxAuthTries, session.desiredOr .sshMaxAuthTriesIsSet sshDefaultSshMaxAuthTries,
    sshAllowUsers, session.desiredOr .allowUsersIsConfigured sshDefaultSshAllowUsers,
    sshDenyUsers, session.desiredOr .denyUsersIsConfigured sshDefaultSshDenyUsers,
    sshAllowGroups, session.desiredOr .allowGroupsIsConfigured sshDefaultSshAllowGroups,
    sshDenyGroups, session.desiredOr .denyGroupsConfigured sshDefaultSshDenyGroups,
    sshHostBasedAuthentication, session.desiredOr .sshHostbasedAuthenticationIsDisabled
      sshDefaultSshNo,
    sshPermitRootLogin, session.desiredOr .sshPermitRootLoginIsDisabled sshDefaultSshNo,
    sshPermitEmptyPasswords, session.desiredOr .sshPermitEmptyPasswordsIsDisabled sshDefaultSshNo,
    sshClientAliveCountMax, session.desiredOr .sshClientIntervalCountMaxIsConfigured
      sshDefaultSshClientIntervalCountMax,
    sshClientAliveInterval, session.desiredOr .sshClientAliveIntervalIsConfigured
      sshDefaultSshClientAliveInterval,
    sshLoginGraceTime, session.desiredOr .sshLoginGraceTimeIsSet sshDefaultSshLoginGraceTime,
    sshPermitUserEnvironment, session.desiredOr .usersCannotSetSshEnvironmentOptions
      sshDefaultSshNo,
    sshBanner, sshBannerFile,
    sshMacs, session.desiredOr .onlyApprovedMacAlgorithmsAreUsed sshDefaultSshMacs,
    sshCiphers, session.desiredOr .appropriateCiphersForSsh sshDefaultSshCiphers]

def remediationSize (session : SshSession) : ℕ :=
  remediationTemplate.length + ((sizedTexts session).map List.length).sum + 1

def formatRemediationValues (session : SshSession) : ByteString :=
  snprintf (remediationSize session) remediationTemplate (printedTexts session)

def inclusionTemplate : ByteString := bytes "%s\nInclude %s\n"

def formatInclusionForRemediation : ByteString :=
  snprintf (inclusionTemplate.length + sshdConfigRemediationHeader.length +
    osconfigRemediationConf.length + 1) inclusionTemplate
    [sshdConfigRemediationHeader, osconfigRemediationConf]

/-- What the cleanup finds on the device: whether the server supports the directive `Include`,
the status of making the directory for included files, and the numbers that `rand` returns. -/
structure SshServer where
  includeSupported : Bool
  directoryStatus : ℤ
  random : ℕ

/-- The buffer of a new configuration, which is saved with its size and so with the zeros behind
the text. -/
def newConfiguration (front originalConfiguration : ByteString) : ByteString :=
  let size := (bytes "%s%s").length + front.length + originalConfiguration.length + 1
  let text := snprintf size (bytes "%s%s") [front, originalConfiguration]
  text ++ List.replicate (size - text.length) 0

def includeRemediationSshConfFile (server : SshServer) (fs : FileSystem) : ℤ × FileSystem :=
  if !fs.fileExists sshServerConfiguration then (eexist, fs)
  else if server.directoryStatus ≠ 0 then (server.directoryStatus, fs)
  else
    match loadStringFromFile sshServerConfiguration fs with
    | none => (eexist, fs)
    | some originalConfiguration =>
        if ByteString.startsWith originalConfiguration formatInclusionForRemediation then (0, fs)
        else
          let (saved, fs) := secureSaveToFile sshServerConfiguration
            (newConfiguration formatInclusionForRemediation originalConfiguration) server.random fs
          (if saved then 0 else enoent, fs)

def saveRemediationToConfFile (session : SshSession) (fs : FileSystem) : ℤ × FileSystem :=
  let newRemediation := formatRemediationValues session
  if newRemediation = [] then (enomem, fs)
  else if (loadStringFromFile osconfigRemediationConf fs).any
      (ByteString.startsWith · newRemediation) then (0, fs)
  else
    let (saved, fs) := saveToFile osconfigRemediationConf .write newRemediation fs
    (if saved then 0 else enoent, fs)

def backupSshdConfig (configuration : ByteString) (fs : FileSystem) : ℤ × FileSystem :=
  if !fs.fileExists sshServerConfigurationBackup && configuration ≠ [] then
    let (saved, fs) := saveToFile sshServerConfigurationBackup .write configuration fs
    (if saved then 0 else enoent, fs)
  else (0, fs)

def saveRemediationToSshdConfig (server : SshServer) (session : SshSession) (fs : FileSystem) :
    ℤ × FileSystem :=
  let remediation := formatRemediationValues session
  if !fs.fileExists sshServerConfiguration then (eexist, fs)
  else if remediation = [] then (enomem, fs)
  else
    match loadStringFromFile sshServerConfiguration fs with
    | none => (eexist, fs)
    | some originalConfiguration =>
        let (status, fs) := backupSshdConfig originalConfiguration fs
        if status ≠ 0 then (status, fs)
        else if ByteString.startsWith originalConfiguration remediation then (0, fs)
        else
          match loadStringFromFile sshServerConfigurationBackup fs with
          | none => (eexist, fs)
          | some originalConfiguration =>
              let (saved, fs) := secureSaveToFile sshServerConfiguration
                (newConfiguration remediation originalConfiguration) server.random fs
              (if saved then 0 else enoent, fs)

/-- What the cleanup leaves behind: the files, and whether the server was told to reload. -/
structure Cleanup where
  fs : FileSystem
  configurationChanged : Bool
  session : SshSession

def sshAuditCleanup (server : SshServer) (session : SshSession) (fs : FileSystem) : Cleanup :=
  let (fs, configurationChanged) :=
    if session.auditOnlySession then (fs, false)
    else if server.includeSupported then
      let (_, fs) := includeRemediationSshConfFile server fs
      let (status, fs) := saveRemediationToConfFile session fs
      (fs, decide (status = 0))
    else
      let (status, fs) := saveRemediationToSshdConfig server session fs
      (fs, decide (status = 0))
  { fs, configurationChanged,
    session := { desired := fun _ => none, auditOnlySession := true } }

end Remediation

end OsConfig.SshUtils
