import Mathlib.Data.List.Nodup
import OsConfig.Common.SshUtils

/-!
# Sessions of audits and remediations

The options of the server are named four times: where their values are set,
where their checks are dispatched, where the room for the remediation text is
computed and where the text is printed. Here every option is described once, by
its keyword, the name of its check and its default. After any calls the text
has one line for each option, with the value of the last call that names it.
-/

namespace OsConfig.SshUtils

open CommonUtils

/-- An option that can be configured, and the variable that holds its value. -/
structure ConfigurableOption where
  keyword : ByteString
  check : String
  default : ByteString
  desired : Desired

/-- The options that stand in front of the banner in the remediation text. -/
def optionsBeforeBanner : List ConfigurableOption :=
  [⟨sshPort, "EnsureSshPortIsConfigured", sshDefaultSshPort, .sshPort⟩,
    ⟨sshProtocol, "EnsureSshBestPracticeProtocol", sshDefaultSshProtocol,
      .sshBestPracticeProtocol⟩,
    ⟨sshIgnoreHosts, "EnsureSshBestPracticeIgnoreRhosts", sshDefaultSshYes,
      .sshBestPracticeIgnoreRhosts⟩,
    ⟨sshLogLevel, "EnsureSshLogLevelIsSet", sshDefaultSshLogLevel, .sshLogLevelIsSet⟩,
    ⟨sshMaxAuthTries, "EnsureSshMaxAuthTriesIsSet", sshDefaultSshMaxAuthTries,
      .sshMaxAuthTriesIsSet⟩,
    ⟨sshAllowUsers, "EnsureAllowUsersIsConfigured", sshDefaultSshAllowUsers,
      .allowUsersIsConfigured⟩,
    ⟨sshDenyUsers, "EnsureDenyUsersIsConfigured", sshDefaultSshDenyUsers,
      .denyUsersIsConfigured⟩,
    ⟨sshAllowGroups, "EnsureAllowGroupsIsConfigured", sshDefaultSshAllowGroups,
      .allowGroupsIsConfigured⟩,
    ⟨sshDenyGroups, "EnsureDenyGroupsConfigured", sshDefaultSshDenyGroups,
      .denyGroupsConfigured⟩,
    ⟨sshHostBasedAuthentication, "EnsureSshHostbasedAuthenticationIsDisabled",
      sshDefaultSshNo, .sshHostbasedAuthenticationIsDisabled⟩,
    ⟨sshPermitRootLogin, "EnsureSshPermitRootLoginIsDisabled", sshDefaultSshNo,
      .sshPermitRootLoginIsDisabled⟩,
    ⟨sshPermitEmptyPasswords, "EnsureSshPermitEmptyPasswordsIsDisabled", sshDefaultSshNo,
      .sshPermitEmptyPasswordsIsDisabled⟩,
    ⟨sshClientAliveCountMax, "EnsureSshClientIntervalCountMaxIsConfigured",
      sshDefaultSshClientIntervalCountMax, .sshClientIntervalCountMaxIsConfigured⟩,
    ⟨sshClientAliveInterval, "EnsureSshClientAliveIntervalIsConfigured",
      sshDefaultSshClientAliveInterval, .sshClientAliveIntervalIsConfigured⟩,
    ⟨sshLoginGraceTime, "EnsureSshLoginGraceTimeIsSet", sshDefaultSshLoginGraceTime,
      .sshLoginGraceTimeIsSet⟩,
    ⟨sshPermitUserEnvironment, "EnsureUsersCannotSetSshEnvironmentOptions",
      sshDefaultSshNo, .usersCannotSetSshEnvironmentOptions⟩]

def optionsBehindBanner : List ConfigurableOption :=
  [⟨sshMacs, "EnsureOnlyApprovedMacAlgorithmsAreUsed", sshDefaultSshMacs,
      .onlyApprovedMacAlgorithmsAreUsed⟩,
    ⟨sshCiphers, "EnsureAppropriateCiphersForSsh", sshDefaultSshCiphers,
      .appropriateCiphersForSsh⟩]

def configurableOptions : List ConfigurableOption :=
  optionsBeforeBanner ++ optionsBehindBanner

/-- The header and the lines of the options, each with its value. The banner is always the same
file. -/
def remediationText (valueOf : ConfigurableOption → ByteString) : ByteString :=
  sshdConfigRemediationHeader ++ 10 ::
    optionLines (optionsBeforeBanner.map (fun option => (option.keyword, valueOf option)) ++
      (sshBanner, sshBannerFile) ::
        optionsBehindBanner.map fun option => (option.keyword, valueOf option))

inductive SshCall where
  | initializeCheck (name value : Option ByteString)
  | processCheck (name value : Option ByteString) (reason : Bool)
  deriving DecidableEq

namespace SshCall

def step (perform : SshAction → ℤ) (session : SshSession) : SshCall → SshSession
  | initializeCheck name value => (initializeSshAuditCheck name value session).2
  | processCheck name value reason => (processSshAuditCheck perform name value reason session).session

/-- The value that a call passes if it initializes or remediates a check. -/
def valueFor (check : String) : SshCall → Option (Option ByteString)
  | initializeCheck (some name) value =>
      if name = bytes ("init" ++ check) ∨ name = bytes ("remediate" ++ check) then some value
      else none
  | processCheck (some name) value _ =>
      if name = bytes ("remediate" ++ check) then some value else none
  | _ => none

end SshCall

/-- The session after `InitializeSshAudit` and some calls. -/
def sessionAfter (perform : SshAction → ℤ) (calls : List SshCall) : SshSession :=
  calls.foldl (SshCall.step perform) initializeSshAudit

/-- The value of the last call that names the option, if it is not empty, or the default. -/
def lastValue (calls : List SshCall) (option : ConfigurableOption) : ByteString :=
  match (calls.filterMap (SshCall.valueFor option.check)).getLast? with
  | some (some (byte :: rest)) => byte :: rest
  | _ => option.default

section Names

theorem name_injective (kind : String) : Function.Injective fun check => bytes (kind ++ check) := by
  intro first second same
  simp only [bytes_append] at same
  exact bytes_injective (List.append_cancel_left same)

theorem name_ne {kind kind' : String} {letter letter' : UInt8} {rest rest' : ByteString}
    (starts : bytes kind = letter :: rest) (starts' : bytes kind' = letter' :: rest')
    (different : letter ≠ letter') (check check' : String) :
    bytes (kind ++ check) ≠ bytes (kind' ++ check') := by
  intro same
  rw [bytes_append, bytes_append, starts, starts', List.cons_append, List.cons_append,
    List.cons.injEq] at same
  exact different same.1

theorem remediate_ne_init (check check' : String) :
    bytes ("remediate" ++ check) ≠ bytes ("init" ++ check') := by
  have starts : bytes "remediate" = 114 :: bytes "emediate" := by decide
  have starts' : bytes "init" = 105 :: bytes "nit" := by decide
  exact name_ne starts starts' (by decide) check check'

theorem remediate_ne_audit (check check' : String) :
    bytes ("remediate" ++ check) ≠ bytes ("audit" ++ check') := by
  have starts : bytes "remediate" = 114 :: bytes "emediate" := by decide
  have starts' : bytes "audit" = 97 :: bytes "udit" := by decide
  exact name_ne starts starts' (by decide) check check'

/-- The checks in the order of the branches. -/
def checkNames : List String :=
  ["EnsurePermissionsOnEtcSshSshdConfig", "EnsureSshPortIsConfigured",
    "EnsureSshBestPracticeProtocol", "EnsureSshBestPracticeIgnoreRhosts", "EnsureSshLogLevelIsSet",
    "EnsureSshMaxAuthTriesIsSet", "EnsureAllowUsersIsConfigured", "EnsureDenyUsersIsConfigured",
    "EnsureAllowGroupsIsConfigured", "EnsureDenyGroupsConfigured",
    "EnsureSshHostbasedAuthenticationIsDisabled", "EnsureSshPermitRootLoginIsDisabled",
    "EnsureSshPermitEmptyPasswordsIsDisabled", "EnsureSshClientIntervalCountMaxIsConfigured",
    "EnsureSshClientAliveIntervalIsConfigured", "EnsureSshLoginGraceTimeIsSet",
    "EnsureOnlyApprovedMacAlgorithmsAreUsed", "EnsureSshWarningBannerIsEnabled",
    "EnsureUsersCannotSetSshEnvironmentOptions", "EnsureAppropriateCiphersForSsh"]

theorem checkNames_nodup : checkNames.Nodup := by
  simp [checkNames]

theorem branches_remediate : initializationBranches.map InitializationBranch.remediate =
    checkNames.map fun check => bytes ("remediate" ++ check) := by
  simp only [initializationBranches, checkNames, List.map_cons, List.map_nil, String.reduceAppend]

theorem branches_init : initializationBranches.map InitializationBranch.init =
    checkNames.map fun check => bytes ("init" ++ check) := by
  simp only [initializationBranches, checkNames, List.map_cons, List.map_nil, String.reduceAppend]

theorem branches_desired : (initializationBranches.map InitializationBranch.desired).Nodup := by
  decide

theorem auditBranches_name : auditBranches.map Prod.fst =
    checkNames.map fun check => bytes ("audit" ++ check) := by
  simp only [auditBranches, checkNames, List.map_cons, List.map_nil, String.reduceAppend]

def ConfigurableOption.branch (option : ConfigurableOption) : InitializationBranch where
  remediate := bytes ("remediate" ++ option.check)
  init := bytes ("init" ++ option.check)
  desired := option.desired
  duplicate := duplicateOr option.default

theorem branch_mem {option : ConfigurableOption} (mem : option ∈ configurableOptions) :
    option.branch ∈ initializationBranches := by
  have all : configurableOptions.map ConfigurableOption.branch =
      [1, 2, 3, 4, 5, 6, 7, 8, 9, 10, 11, 12, 13, 14, 15, 18, 16, 19].filterMap
        (initializationBranches[·]?) := by
    rfl
  have found : option.branch ∈ configurableOptions.map ConfigurableOption.branch :=
    List.mem_map_of_mem mem
  rw [all, List.mem_filterMap] at found
  rcases found with ⟨index, -, here⟩
  exact List.mem_of_getElem? here

theorem plainRemediations_name : plainRemediations =
    ((checkNames.drop 1).take 16 ++ checkNames.drop 18).map
      fun check => bytes ("remediate" ++ check) := by
  rfl

theorem check_mem {option : ConfigurableOption} (mem : option ∈ configurableOptions) :
    option.check ∈ (checkNames.drop 1).take 16 ++ checkNames.drop 18 := by
  have all : ∀ option ∈ configurableOptions,
      option.check ∈ (checkNames.drop 1).take 16 ++ checkNames.drop 18 := by
    simp [configurableOptions, optionsBeforeBanner, optionsBehindBanner, checkNames]
  exact all option mem

end Names

section Initialization

theorem exists_names {branch : InitializationBranch} (mem : branch ∈ initializationBranches) :
    (∃ check, branch.remediate = bytes ("remediate" ++ check)) ∧
      ∃ check, branch.init = bytes ("init" ++ check) := by
  have remediate : branch.remediate ∈ initializationBranches.map InitializationBranch.remediate :=
    List.mem_map_of_mem mem
  have init : branch.init ∈ initializationBranches.map InitializationBranch.init :=
    List.mem_map_of_mem mem
  rw [branches_remediate, List.mem_map] at remediate
  rw [branches_init, List.mem_map] at init
  rcases remediate with ⟨check, -, remediate⟩
  rcases init with ⟨check', -, init⟩
  exact ⟨⟨check, remediate.symm⟩, ⟨check', init.symm⟩⟩

theorem branch_unique {branch other : InitializationBranch} {name : ByteString}
    (mem : branch ∈ initializationBranches) (other_mem : other ∈ initializationBranches)
    (names : name = branch.remediate ∨ name = branch.init)
    (names' : name = other.remediate ∨ name = other.init) : branch = other := by
  have remediate_nodup : (initializationBranches.map InitializationBranch.remediate).Nodup := by
    rw [branches_remediate]
    exact checkNames_nodup.map (name_injective "remediate")
  have init_nodup : (initializationBranches.map InitializationBranch.init).Nodup := by
    rw [branches_init]
    exact checkNames_nodup.map (name_injective "init")
  rcases exists_names mem with ⟨⟨check, remediate⟩, ⟨_, init⟩⟩
  rcases exists_names other_mem with ⟨⟨check', remediate'⟩, ⟨_, init'⟩⟩
  rcases names with rfl | rfl
  · rcases names' with same | crossed
    · exact List.inj_on_of_nodup_map remediate_nodup mem other_mem same
    · rw [remediate, init'] at crossed
      exact absurd crossed (remediate_ne_init _ _)
  · rcases names' with crossed | same
    · rw [init, remediate'] at crossed
      exact absurd crossed.symm (remediate_ne_init _ _)
    · exact List.inj_on_of_nodup_map init_nodup mem other_mem same

theorem initializeSshAuditCheck_desired {option : ConfigurableOption}
    (mem : option ∈ configurableOptions) (name : ByteString) (value : Option ByteString)
    (session : SshSession) :
    (initializeSshAuditCheck (some name) value session).2.desired option.desired =
      if name = bytes ("init" ++ option.check) ∨ name = bytes ("remediate" ++ option.check) then
        some (validOr option.default value)
      else session.desired option.desired := by
  have option_mem := branch_mem mem
  cases found : initializationBranches.find? fun branch =>
      name = branch.remediate || name = branch.init with
  | none =>
      have unnamed := List.find?_eq_none.mp found option.branch option_mem
      simp only [Bool.or_eq_true, decide_eq_true_eq, not_or] at unnamed
      have neither : ¬ (name = bytes ("init" ++ option.check) ∨
          name = bytes ("remediate" ++ option.check)) :=
        not_or.mpr ⟨unnamed.2, unnamed.1⟩
      rw [if_neg neither]
      simp only [initializeSshAuditCheck, found]
  | some branch =>
      have named := List.find?_some found
      have branch_mem := List.mem_of_find?_eq_some found
      simp only [Bool.or_eq_true, decide_eq_true_eq] at named
      simp only [initializeSshAuditCheck, found, SshSession.set]
      split
      next names =>
        have same := branch_unique branch_mem option_mem named names.symm
        subst same
        exact Function.update_self ..
      next unnamed =>
        have apart : option.desired ≠ branch.desired := by
          intro same
          have same_branch : option.branch = branch :=
            List.inj_on_of_nodup_map branches_desired option_mem branch_mem same
          subst same_branch
          exact unnamed named.symm
        exact Function.update_of_ne apart ..

theorem initializeSshAuditCheck_auditOnlySession (name value : Option ByteString)
    (session : SshSession) :
    (initializeSshAuditCheck name value session).2.auditOnlySession = session.auditOnlySession := by
  unfold initializeSshAuditCheck
  split
  · rfl
  · split <;> rfl

end Initialization

section Processing

variable (perform : SshAction → ℤ) (value : Option ByteString) (session : SshSession)

theorem initializeAndAct_session (name : ByteString) (action : SshSession → SshAction) :
    (initializeAndAct perform name value action session).session =
      (initializeSshAuditCheck (some name) value session).2 := by
  simp only [initializeAndAct]
  split <;> rfl

theorem processBranch_session (name : ByteString) :
    ((processBranch perform name value session).session = session ∧ name ∉ plainRemediations) ∨
      ((∃ check, name = bytes ("remediate" ++ check)) ∧
        (processBranch perform name value session).session =
          (initializeSshAuditCheck (some name) value session).2) := by
  unfold processBranch
  split
  next branch found =>
    left
    refine ⟨rfl, fun plain => ?_⟩
    have audit := List.mem_map_of_mem (f := Prod.fst) (List.mem_of_find?_eq_some found)
    have named := List.find?_some found
    simp only [decide_eq_true_eq] at named
    rw [auditBranches_name, List.mem_map] at audit
    rw [plainRemediations_name, List.mem_map] at plain
    rcases audit with ⟨check, -, audit⟩
    rcases plain with ⟨check', -, plain⟩
    apply remediate_ne_audit check' check
    rw [plain, audit, named]
  · split
    next permissions =>
      right
      refine ⟨⟨"EnsurePermissionsOnEtcSshSshdConfig", by rw [permissions]; rfl⟩, ?_⟩
      exact initializeAndAct_session perform value session name _
    · split
      next plain =>
        right
        rw [plainRemediations_name, List.mem_map] at plain
        rcases plain with ⟨check, -, named⟩
        exact ⟨⟨check, named.symm⟩, rfl⟩
      next other =>
        split
        next banner =>
          right
          refine ⟨⟨"EnsureSshWarningBannerIsEnabled", by rw [banner]; rfl⟩, ?_⟩
          exact initializeAndAct_session perform value session name _
        · exact .inl ⟨rfl, other⟩

theorem processSshAuditCheck_desired (name : ByteString) (reason : Bool) :
    (processSshAuditCheck perform (some name) value reason session).session.desired =
      (processBranch perform name value session).session.desired := by
  simp only [processSshAuditCheck]
  split <;> rfl

/-- What a call of `ProcessSshAuditCheck` does to the variable of an option. -/
theorem processBranch_desired {option : ConfigurableOption} (mem : option ∈ configurableOptions)
    (name : ByteString) :
    (processBranch perform name value session).session.desired option.desired =
      if name = bytes ("remediate" ++ option.check) then some (validOr option.default value)
      else session.desired option.desired := by
  rcases processBranch_session perform value session name with
    ⟨kept, notPlain⟩ | ⟨⟨check, remediates⟩, initialized⟩
  · rw [kept, if_neg]
    rintro rfl
    apply notPlain
    rw [plainRemediations_name]
    exact List.mem_map_of_mem (check_mem mem)
  · rw [initialized, initializeSshAuditCheck_desired mem]
    have noInit : name ≠ bytes ("init" ++ option.check) := by
      rw [remediates]
      exact remediate_ne_init _ _
    simp only [noInit, false_or]

theorem processSshAuditCheck_audit {name : ByteString} (audit : bytes "audit" <+: name)
    (reason : Bool) :
    (processSshAuditCheck perform (some name) value reason session).session.desired =
      session.desired := by
  rw [processSshAuditCheck_desired]
  rcases processBranch_session perform value session name with
    ⟨kept, -⟩ | ⟨⟨check, remediates⟩, -⟩
  · rw [kept]
  · rcases audit with ⟨rest, audit⟩
    rw [remediates, bytes_append] at audit
    have heads := congrArg List.head? audit
    have starts : bytes "remediate" = 114 :: bytes "emediate" := by decide
    have starts' : bytes "audit" = 97 :: bytes "udit" := by decide
    rw [starts, starts'] at heads
    simp at heads

theorem processBranch_auditOnlySession (name : ByteString) :
    (processBranch perform name value session).session.auditOnlySession =
      session.auditOnlySession := by
  rcases processBranch_session perform value session name with ⟨kept, -⟩ | ⟨-, initialized⟩
  · rw [kept]
  · rw [initialized, initializeSshAuditCheck_auditOnlySession]

end Processing

section Sessions

variable (perform : SshAction → ℤ)

theorem step_desired {option : ConfigurableOption} (mem : option ∈ configurableOptions)
    (session : SshSession) (call : SshCall) :
    (call.step perform session).desired option.desired =
      match call.valueFor option.check with
      | some value => some (validOr option.default value)
      | none => session.desired option.desired := by
  cases call with
  | initializeCheck name value =>
      cases name with
      | none => rfl
      | some name =>
          simp only [SshCall.step, SshCall.valueFor, initializeSshAuditCheck_desired mem]
          split <;> rfl
  | processCheck name value reason =>
      cases name with
      | none => rfl
      | some name =>
          simp only [SshCall.step, SshCall.valueFor, processSshAuditCheck_desired,
            processBranch_desired perform value session mem]
          split <;> rfl

theorem sessionAfter_append (calls : List SshCall) (call : SshCall) :
    sessionAfter perform (calls ++ [call]) = call.step perform (sessionAfter perform calls) := by
  rw [sessionAfter, List.foldl_append]
  rfl

theorem lastValue_append (calls : List SshCall) (call : SshCall) (option : ConfigurableOption) :
    lastValue (calls ++ [call]) option =
      match call.valueFor option.check with
      | some value => validOr option.default value
      | none => lastValue calls option := by
  rw [lastValue, lastValue, List.filterMap_append]
  cases named : call.valueFor option.check with
  | none => simp [named]
  | some value =>
      simp only [List.filterMap_cons, named, List.filterMap_nil, List.getLast?_concat]
      rcases value with _ | _ | ⟨byte, rest⟩ <;> rfl

theorem initialValue_desired {option : ConfigurableOption} (mem : option ∈ configurableOptions) :
    initialValue option.desired = option.default := by
  have all : configurableOptions.map (fun option => initialValue option.desired) =
      configurableOptions.map ConfigurableOption.default := by
    rfl
  exact List.map_inj_left.mp all option mem

theorem sessionAfter_desired {option : ConfigurableOption} (mem : option ∈ configurableOptions)
    (calls : List SshCall) :
    (sessionAfter perform calls).desired option.desired = some (lastValue calls option) := by
  induction calls using List.reverseRecOn with
  | nil => exact congrArg some (initialValue_desired mem)
  | append_singleton calls call ih =>
      rw [sessionAfter_append, step_desired perform mem, lastValue_append]
      cases call.valueFor option.check with
      | none => exact ih
      | some value => rfl

theorem step_auditOnlySession (session : SshSession) {call : SshCall}
    (audits : ∀ name value, call ≠ .processCheck name (some value) false) :
    (call.step perform session).auditOnlySession = session.auditOnlySession := by
  cases call with
  | initializeCheck name value =>
      exact initializeSshAuditCheck_auditOnlySession name value session
  | processCheck name value reason =>
      cases name with
      | none => rfl
      | some name =>
          have noValue : ¬ (value.isSome && !reason) = true := by
            intro both
            rw [Bool.and_eq_true, Option.isSome_iff_exists] at both
            rcases both with ⟨⟨text, rfl⟩, noReason⟩
            cases reason with
            | false => exact audits (some name) text rfl
            | true => cases noReason
          simp only [SshCall.step, processSshAuditCheck, if_neg noValue]
          exact processBranch_auditOnlySession perform value session name

theorem sessionAfter_auditOnlySession {calls : List SshCall}
    (audits : ∀ name value, .processCheck name (some value) false ∉ calls) :
    (sessionAfter perform calls).auditOnlySession = true := by
  induction calls using List.reverseRecOn with
  | nil => rfl
  | append_singleton calls call ih =>
      rw [sessionAfter_append, step_auditOnlySession]
      · apply ih
        intro name value mem
        exact audits name value (List.mem_append_left _ mem)
      · rintro name value rfl
        exact audits name value (by simp)

end Sessions

section Text

def sessionOptions (session : SshSession) : List (ByteString × ByteString) :=
  optionsBeforeBanner.map (fun option =>
      (option.keyword, session.desiredOr option.desired option.default)) ++
    (sshBanner, sshBannerFile) ::
      optionsBehindBanner.map fun option =>
        (option.keyword, session.desiredOr option.desired option.default)

theorem printedTexts_eq (session : SshSession) :
    printedTexts session =
      sshdConfigRemediationHeader ::
        (sessionOptions session).flatMap fun option => [option.1, option.2] := by
  simp only [printedTexts, sessionOptions, optionsBeforeBanner, optionsBehindBanner,
    List.map_cons, List.map_nil, List.cons_append, List.nil_append, List.flatMap_cons,
    List.flatMap_nil]

theorem sizedTexts_eq (session : SshSession) : sizedTexts session = printedTexts session := by
  simp only [sizedTexts, printedTexts]

theorem remediationTemplate_eq :
    remediationTemplate =
      37 :: 115 :: 10 :: (List.replicate 19 (bytes "%s %s\n")).flatten := by
  rw [remediationTemplate]
  repeat rw [bytes_ofList]
  decide +kernel

theorem formatRemediationValues_eq (session : SshSession) :
    formatRemediationValues session =
        sshdConfigRemediationHeader ++ 10 :: optionLines (sessionOptions session) ∧
      (formatRemediationValues session).length < remediationSize session := by
  have count : (sessionOptions session).length = 19 := rfl
  have expanded : expand remediationTemplate (printedTexts session) =
      sshdConfigRemediationHeader ++ 10 :: optionLines (sessionOptions session) := by
    rw [remediationTemplate_eq, printedTexts_eq, expand_text, expand_byte (by decide), ← count,
      expand_optionLines]
  have fits : (expand remediationTemplate (printedTexts session)).length <
      remediationSize session := by
    have line : (bytes "%s %s\n").length = 6 := by decide
    have template : remediationTemplate.length = 117 := by
      simp only [remediationTemplate_eq, List.length_cons, List.length_flatten, List.map_replicate,
        List.sum_replicate, line, smul_eq_mul]
    rw [expanded, remediationSize, sizedTexts_eq, printedTexts_eq, template, List.length_append,
      List.length_cons, length_optionLines, count, List.map_cons, List.sum_cons]
    omega
  have whole := snprintf_eq fits
  rw [formatRemediationValues, whole]
  exact ⟨expanded, fits⟩

theorem sessionOptions_sessionAfter (perform : SshAction → ℤ) (calls : List SshCall) :
    sshdConfigRemediationHeader ++ 10 ::
        optionLines (sessionOptions (sessionAfter perform calls)) =
      remediationText (lastValue calls) := by
  have values : ∀ option ∈ configurableOptions,
      (option.keyword, (sessionAfter perform calls).desiredOr option.desired option.default) =
        (option.keyword, lastValue calls option) := by
    intro option mem
    rw [SshSession.desiredOr, sessionAfter_desired perform mem]
    rfl
  have before := List.map_congr_left fun option mem =>
    values option (List.mem_append_left optionsBehindBanner mem)
  have behind := List.map_congr_left fun option mem =>
    values option (List.mem_append_right optionsBeforeBanner mem)
  rw [remediationText, sessionOptions, before, behind]

/-- After any calls the remediation text has the value of the last call for each option and fits
into its buffer, audits change no value, and the cleanup changes files only if a value was to be
applied. -/
theorem session_remediation (perform : SshAction → ℤ) (calls : List SshCall) :
    formatRemediationValues (sessionAfter perform calls) = remediationText (lastValue calls) ∧
      (remediationText (lastValue calls)).length < remediationSize (sessionAfter perform calls) ∧
      (∀ name value reason session, bytes "audit" <+: name →
        (processSshAuditCheck perform (some name) value reason session).session.desired =
          session.desired) ∧
      ((∃ name value, .processCheck name (some value) false ∈ calls) ∨
        ∀ server fs, (sshAuditCleanup server (sessionAfter perform calls) fs).fs = fs) := by
  have text := formatRemediationValues_eq (sessionAfter perform calls)
  rw [sessionOptions_sessionAfter] at text
  refine ⟨text.1, text.1 ▸ text.2, ?_, ?_⟩
  · intro name value reason session audit
    exact processSshAuditCheck_audit perform value session audit reason
  · by_cases applied : ∃ name value, .processCheck name (some value) false ∈ calls
    · exact .inl applied
    · right
      push Not at applied
      intro server fs
      rw [sshAuditCleanup, sessionAfter_auditOnlySession perform applied]
      rfl

end Text

end OsConfig.SshUtils
