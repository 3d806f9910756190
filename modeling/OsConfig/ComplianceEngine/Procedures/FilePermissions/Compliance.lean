import OsConfig.ComplianceEngine.Procedures.FilePermissions

/-!
# What a permission remediation achieves

`Meets` says what the audit requires of an existing file, and `settledFile` is
the file a successful remediation leaves. The two are compared part by part:
the ids through the account databases, the mode bit by bit.

The remediation reads the mode once, before `chown`, and leaves out the `chmod`
when that mode is already the required one. The bits `chown` took are then gone.
-/

namespace OsConfig.ComplianceEngine

open OsConfig ByteString BitMasks

/-- The name of the id is among the required ones. -/
def Accounts.Accepts (accounts : Accounts) (required : Option (List ByteString))
    (id : UInt32) : Prop :=
  ∀ items, required = some items → ∃ name ∈ items, accounts.nameOf id = some name

def Accounts.firstId (accounts : Accounts) (required : Option (List ByteString)) :
    Option UInt32 := do
  let items ← required
  let first ← items.head?
  accounts.idOf (cString first)

/-- An accepted id is there already, or is what the first required name stands for. -/
def Accounts.Reaches (accounts : Accounts) (required : Option (List ByteString))
    (current : UInt32) : Prop :=
  accounts.Accepts required current ∨
    ∃ id, accounts.firstId required = some id ∧ id ≠ 0xFFFFFFFF ∧ accounts.Accepts required id

/-- The id in place is not accepted, and the first required name stands for another. -/
def Accounts.Moves (accounts : Accounts) (required : Option (List ByteString))
    (current : UInt32) : Prop :=
  ¬accounts.Accepts required current ∧
    ∃ id, accounts.firstId required = some id ∧ id ≠ current

namespace FilePermissions

/-- The permissions a mode must have. -/
def required (params : FilePermissionsParams) : BitVec 32 :=
  params.permissions.getD 0

/-- The permissions a mode must not have. -/
def forbidden (params : FilePermissionsParams) : BitVec 32 :=
  params.mask.getD 0

/-- A mode has all the required permissions and none of the forbidden ones. -/
structure ModeMeets (params : FilePermissionsParams) (mode : BitVec 16) : Prop where
  has : Within (required params) (mode.setWidth 32)
  lacks : Apart (forbidden params) (mode.setWidth 32)

/-- What the audit requires of an existing file. -/
structure Meets (host : Host) (params : FilePermissionsParams) (file : FileState) : Prop where
  owner : host.users.Accepts params.owner file.uid
  group : host.groups.Accepts params.group file.gid
  mode : ModeMeets params file.mode

/-- What the mode of a file has to be for the remediation to settle it: `chmod` sets twelve
bits only, and it is left out when the mode is right already. -/
structure ModeSettles (host : Host) (params : FilePermissionsParams) (mode : BitVec 16)
    (moves : Prop) : Prop where
  has : Within (required params &&& ~~~low 32 12) (mode.setWidth 32)
  lacks : Apart (forbidden params &&& ~~~low 32 12) (mode.setWidth 32)
  keeps : moves → ModeMeets params mode →
    Apart (required params) ((host.chownClears mode).setWidth 32)

/-- The files on which a remediation that succeeds establishes what the audit requires. -/
structure Remediable (host : Host) (params : FilePermissionsParams) (file : FileState) :
    Prop where
  owner : host.users.Reaches params.owner file.uid
  group : host.groups.Reaches params.group file.gid
  mode : ModeSettles host params file.mode
    (host.users.Moves params.owner file.uid ∨ host.groups.Moves params.group file.gid)

section Audit

theorem Refusal.result_ne_compliant (refusal : Refusal) :
    refusal.ending.result ≠ .ok .compliant := by
  cases refusal with
  | nonCompliant message => simp [Refusal.ending, Ending.nonCompliant]
  | failure message code => simp [Refusal.ending, Ending.failure]

def Check.Passes (check : Check) : Prop :=
  ∃ indicators, check = .passes indicators

theorem runChecks_compliant_iff {checks : List Check} {last : Ending}
    (compliant : last.result = .ok .compliant) :
    (runChecks checks last).result = .ok .compliant ↔ ∀ check ∈ checks, check.Passes := by
  induction checks with
  | nil => simp [runChecks, compliant]
  | cons check rest ih =>
      rw [List.forall_mem_cons, ← ih]
      cases check with
      | stops refusal => simp [runChecks, Check.Passes, refusal.result_ne_compliant]
      | passes indicators => simp [runChecks, Check.Passes]

variable {accounts : Accounts} {noun unknown path : ByteString}
  {items : Option (List ByteString)} {id : UInt32} {params : FilePermissionsParams}
  {mode : BitVec 16}

theorem accountCheck_passes_iff :
    (accountCheck accounts noun unknown path items id).Passes ↔ accounts.Accepts items id := by
  unfold accountCheck Accounts.Accepts
  cases items with
  | none => simp [Check.Passes]
  | some names =>
      cases named : accounts.nameOf id with
      | none => simp [Check.Passes]
      | some name =>
          by_cases mem : name ∈ names
          · simp [Check.Passes, mem]
          · simp [Check.Passes, mem]

theorem conflicting_eq_false_iff :
    conflicting params = false ↔ Apart (required params) (forbidden params) := by
  rw [← and_eq_zero_iff_apart]
  unfold conflicting required forbidden
  rcases params.permissions with _ | permissions <;> rcases params.mask with _ | mask
  · simp
  · simp
  · simp
  · simp [BitVec.and_comm]

theorem conflictCheck_passes_iff :
    (conflictCheck params).Passes ↔ conflicting params = false := by
  unfold conflictCheck
  cases conflict : conflicting params with
  | false => simp [Check.Passes]
  | true => simp [Check.Passes]

theorem permissionsCheck_passes_iff : (permissionsCheck params (mode.setWidth 32)).Passes ↔
    Within (required params) (mode.setWidth 32) := by
  rw [← and_eq_iff_within]
  unfold permissionsCheck required
  cases params.permissions with
  | none => simp [Check.Passes]
  | some permissions =>
      by_cases met : mode.setWidth 32 &&& permissions = permissions
      · simp [Check.Passes, met]
      · simp [Check.Passes, met, Ne.symm met]

theorem maskCheck_passes_iff : (maskCheck params (mode.setWidth 32)).Passes ↔
    Apart (forbidden params) (mode.setWidth 32) := by
  rw [← and_eq_zero_iff_apart]
  unfold maskCheck forbidden
  cases params.mask with
  | none => simp [Check.Passes]
  | some mask =>
      by_cases met : mode.setWidth 32 &&& mask = 0#32
      · simp [Check.Passes, met]
      · simp [Check.Passes, met]

theorem auditFile_compliant_iff {host : Host} {file : FileState} :
    (auditFile host params file).result = .ok .compliant ↔
      conflicting params = false ∧ Meets host params file := by
  unfold auditFile
  rw [runChecks_compliant_iff rfl]
  simp only [List.forall_mem_cons, List.not_mem_nil, false_implies, implies_true, and_true]
  rw [ownerCheck, groupCheck, accountCheck_passes_iff, accountCheck_passes_iff,
    conflictCheck_passes_iff, permissionsCheck_passes_iff, maskCheck_passes_iff]
  constructor
  · rintro ⟨owner, group, clear, has, lacks⟩
    exact ⟨clear, owner, group, has, lacks⟩
  · rintro ⟨clear, owner, group, has, lacks⟩
    exact ⟨owner, group, clear, has, lacks⟩

end Audit

section Remediation

variable {host : Host} {params : FilePermissionsParams} {file : FileState} {uid gid : UInt32}
  {files changed : FileSystem} {indicators : List Indicator}

/-- The file after the change of ownership. -/
def ownedFile (host : Host) (file : FileState) (uid gid : UInt32) : FileState :=
  if uid ≠ file.uid ∨ gid ≠ file.gid then file.chown host uid gid else file

/-- The file a successful remediation leaves. -/
def settledFile (host : Host) (params : FilePermissionsParams) (file : FileState)
    (uid gid : UInt32) : FileState :=
  if newPerms params file.mode ≠ file.mode then
    (ownedFile host file uid gid).chmod (newPerms params file.mode)
  else
    ownedFile host file uid gid

theorem change_ok {failure : Option ℤ} {path : ByteString} {effect : FileState → FileState}
    (found : files.stat path = .ok file)
    (changes : files.change failure path effect = .ok changed) :
    changed.stat path = .ok (effect file) := by
  unfold FileSystem.change at changes
  rw [found] at changes
  cases failure with
  | some errno => cases changes
  | none =>
      cases changes
      simp [FileSystem.write]

theorem changeOwnership_ok (found : files.stat (cString params.path) = .ok file)
    (changes : changeOwnership host params file uid gid files = .ok (indicators, changed)) :
    changed.stat (cString params.path) = .ok (ownedFile host file uid gid) := by
  unfold changeOwnership at changes
  unfold ownedFile
  split at changes
  next moved =>
    rw [if_pos moved]
    cases chowned : files.chown host (cString params.path) uid gid with
    | error errno => simp [chowned] at changes
    | ok after =>
        simp only [chowned, Except.ok.injEq, Prod.mk.injEq] at changes
        rw [← changes.2]
        exact change_ok found chowned
  next stays =>
    rw [if_neg stays]
    simp only [Except.ok.injEq, Prod.mk.injEq] at changes
    rw [← changes.2]
    exact found

theorem changePermissions_compliant {owned : FileState}
    (found : files.stat (cString params.path) = .ok owned)
    (compliant : (changePermissions host params file indicators files).result = .ok .compliant) :
    conflicting params = false ∧
      (changePermissions host params file indicators files).context.stat (cString params.path) =
        .ok (if newPerms params file.mode ≠ file.mode then
          owned.chmod (newPerms params file.mode) else owned) := by
  unfold changePermissions at compliant ⊢
  cases conflict : conflicting params with
  | true => simp [conflict, Ending.after, Ending.failure] at compliant
  | false =>
      refine ⟨rfl, ?_⟩
      simp only [conflict, Bool.false_eq_true, if_false] at compliant ⊢
      by_cases differs : newPerms params file.mode ≠ file.mode
      · rw [if_pos differs] at compliant ⊢
        rw [if_pos differs]
        cases chmodded : files.chmod (cString params.path) (newPerms params file.mode) with
        | error errno => simp [chmodded, Ending.after, Ending.failure] at compliant
        | ok after => exact change_ok found chmodded
      · rw [if_neg differs, if_neg differs]
        exact found

/-- A remediation that reports compliance settled both ids and left the settled file. -/
theorem remediateFilePermissions_compliant
    (found : files.stat (cString params.path) = .ok file)
    (compliant : (remediateFilePermissions host params files).result = .ok .compliant) :
    ∃ uid gid, settleOwner host params file = .ok uid ∧ settleGroup host params file = .ok gid ∧
      conflicting params = false ∧
      (remediateFilePermissions host params files).context.stat (cString params.path) =
        .ok (settledFile host params file uid gid) := by
  unfold remediateFilePermissions at compliant ⊢
  simp only [found] at compliant ⊢
  unfold remediateFile at compliant ⊢
  cases owner : settleOwner host params file with
  | error refusal =>
      simp only [owner, Ending.after] at compliant
      exact absurd compliant refusal.result_ne_compliant
  | ok uid =>
      cases group : settleGroup host params file with
      | error refusal =>
          simp only [owner, group, Ending.after] at compliant
          exact absurd compliant refusal.result_ne_compliant
      | ok gid =>
          cases changes : changeOwnership host params file uid gid files with
          | error refusal =>
              simp only [owner, group, changes, Ending.after] at compliant
              exact absurd compliant refusal.result_ne_compliant
          | ok result =>
              rcases result with ⟨indicators, owned⟩
              simp only [owner, group, changes] at compliant ⊢
              have ownedFound := changeOwnership_ok found changes
              rcases changePermissions_compliant ownedFound compliant with ⟨clear, settled⟩
              exact ⟨uid, gid, rfl, rfl, clear, settled⟩

theorem settle_ok {accounts : Accounts} {empty : ByteString} {unknown : ByteString → ByteString}
    {items : Option (List ByteString)} {current id : UInt32}
    (settled : settle accounts empty unknown items current = .ok id) :
    (accounts.Accepts items current ∧ id = current) ∨
      (¬accounts.Accepts items current ∧ accounts.firstId items = some id) := by
  unfold settle at settled
  split at settled
  next =>
    cases settled
    exact Or.inl ⟨by simp [Accounts.Accepts], rfl⟩
  next => cases settled
  next first rest =>
    split at settled
    next present =>
      cases settled
      left
      simpa [Accounts.Accepts] using present
    next missing =>
      right
      constructor
      · simpa [Accounts.Accepts] using missing
      · cases first_id : accounts.idOf (cString first) with
        | none => simp [first_id] at settled
        | some found =>
            simp only [first_id, Except.ok.injEq] at settled
            simp [Accounts.firstId, first_id, settled]

section Ids

variable {accounts : Accounts} {items : Option (List ByteString)} {current id : UInt32}

theorem accepts_chownId_iff
    (settled : (accounts.Accepts items current ∧ id = current) ∨
      (¬accounts.Accepts items current ∧ accounts.firstId items = some id)) :
    accounts.Accepts items (FileState.chownId current id) ↔ accounts.Reaches items current := by
  unfold FileState.chownId Accounts.Reaches
  rcases settled with ⟨accepted, rfl⟩ | ⟨refused, first⟩
  · simp [accepted]
  · split
    next unchanged =>
      simp [refused, first, unchanged]
    next changed =>
      simp [refused, first, changed]

theorem moves_iff
    (settled : (accounts.Accepts items current ∧ id = current) ∨
      (¬accounts.Accepts items current ∧ accounts.firstId items = some id)) :
    accounts.Moves items current ↔ id ≠ current := by
  unfold Accounts.Moves
  rcases settled with ⟨accepted, rfl⟩ | ⟨refused, first⟩
  · simp [accepted]
  · simp [refused, first]

end Ids

section Modes

variable {mode : BitVec 16}

theorem getLsbD_newPerms (params : FilePermissionsParams) (mode : BitVec 16) (i : ℕ) :
    (newPerms params mode).getLsbD i =
      (decide (i < 16) && (mode.getLsbD i || (required params).getLsbD i) &&
        !(forbidden params).getLsbD i) := by
  unfold newPerms required forbidden
  by_cases inside : i < 16
  · have inside32 : i < 32 := by omega
    cases params.permissions <;> cases params.mask <;> simp [inside, inside32]
  · have outside : mode.getLsbD i = false := BitVec.getLsbD_of_ge _ _ (by omega)
    cases params.permissions <;> cases params.mask <;> simp [inside, outside]

theorem getLsbD_chownClears {i : ℕ} (taken : (host.chownClears mode).getLsbD i = true) :
    i < 12 := by
  have special : (0o6000 : BitVec 16).getLsbD i = true := host.chownClears_within mode i taken
  have settable : Within (0o6000 : BitVec 16) (low 16 12) := by decide
  have bit : (low 16 12).getLsbD i = true := settable i special
  simp only [getLsbD_low, Bool.and_eq_true, decide_eq_true_eq] at bit
  exact bit.2

theorem getLsbD_mode32 (i : ℕ) : (mode.setWidth 32).getLsbD i = mode.getLsbD i := by
  by_cases inside : i < 32
  · simp [inside]
  · rw [BitVec.getLsbD_of_ge _ _ (by omega), BitVec.getLsbD_of_ge _ _ (by omega)]

/-- Without a conflict, the mode is left alone exactly if its sixteen bits meet the arguments. -/
theorem newPerms_eq_iff (clear : Apart (required params) (forbidden params)) :
    newPerms params mode = mode ↔
      ∀ i < 16, ((required params).getLsbD i = true → mode.getLsbD i = true) ∧
        ((forbidden params).getLsbD i = true → mode.getLsbD i = false) := by
  constructor
  · intro same i inside
    have bit := getLsbD_newPerms params mode i
    rw [same] at bit
    constructor
    · intro isRequired
      simpa [inside, isRequired, clear i isRequired] using bit
    · intro isForbidden
      simpa [isForbidden] using bit
  · intro meets
    refine BitVec.eq_of_getLsbD_eq fun i inside => ?_
    rcases meets i inside with ⟨has, lacks⟩
    rw [getLsbD_newPerms]
    cases isRequired : (required params).getLsbD i <;>
      cases isForbidden : (forbidden params).getLsbD i <;> simp_all

theorem ownedFile_mode (i : ℕ) : (ownedFile host file uid gid).mode.getLsbD i =
    (file.mode.getLsbD i && !(decide (uid ≠ file.uid ∨ gid ≠ file.gid) &&
      (host.chownClears file.mode).getLsbD i)) := by
  unfold ownedFile
  by_cases moved : uid ≠ file.uid ∨ gid ≠ file.gid
  · rw [if_pos moved]
    by_cases inside : i < 16
    · simp [FileState.chown, moved, inside]
    · rw [BitVec.getLsbD_of_ge _ _ (by omega), BitVec.getLsbD_of_ge _ _ (by omega)]
      rfl
  · rw [if_neg moved]
    simp [moved]

/-- After a `chmod` the twelve low bits are the computed ones and the others those of before. -/
theorem settledFile_mode_of_ne (differs : newPerms params file.mode ≠ file.mode) (i : ℕ) :
    (settledFile host params file uid gid).mode.getLsbD i =
      if i < 12 then (newPerms params file.mode).getLsbD i else file.mode.getLsbD i := by
  unfold settledFile
  rw [if_pos differs]
  simp only [FileState.chmod, BitVec.getLsbD_or, BitVec.getLsbD_and, BitVec.getLsbD_not,
    getLsbD_low, ownedFile_mode]
  by_cases settable : i < 12
  · have inside : i < 16 := by omega
    simp [settable, inside]
  · have kept : (host.chownClears file.mode).getLsbD i = false := by
      by_contra taken
      exact settable (getLsbD_chownClears (Bool.eq_true_of_not_eq_false taken))
    rw [kept]
    by_cases inside : i < 16
    · simp [settable, inside]
    · simp [settable, inside, BitVec.getLsbD_of_ge file.mode i (by omega)]

theorem settledFile_mode_of_eq (same : newPerms params file.mode = file.mode) (i : ℕ) :
    (settledFile host params file uid gid).mode.getLsbD i =
      (file.mode.getLsbD i && !(decide (uid ≠ file.uid ∨ gid ≠ file.gid) &&
        (host.chownClears file.mode).getLsbD i)) := by
  unfold settledFile
  rw [if_neg (not_not.mpr same), ownedFile_mode]

theorem getLsbD_unsettable {bits : BitVec 32} {i : ℕ} :
    (bits &&& ~~~low 32 12).getLsbD i = true ↔ bits.getLsbD i = true ∧ ¬i < 12 := by
  rw [BitVec.getLsbD_and, BitVec.getLsbD_not, getLsbD_low]
  by_cases inside : i < 32
  · simp [inside]
  · simp [BitVec.getLsbD_of_ge bits i (by omega)]

/-- Without a `chmod` the sixteen bits meet the arguments, and what `chown` took is gone. -/
theorem modeMeets_settledFile_of_eq (clear : Apart (required params) (forbidden params))
    (same : newPerms params file.mode = file.mode) :
    ModeMeets params (settledFile host params file uid gid).mode ↔
      ModeSettles host params file.mode (uid ≠ file.uid ∨ gid ≠ file.gid) := by
  have meets := (newPerms_eq_iff clear).mp same
  have lacks : Apart (forbidden params) (file.mode.setWidth 32) := by
    intro i isForbidden
    rw [getLsbD_mode32]
    by_cases inside : i < 16
    · exact (meets i inside).2 isForbidden
    · exact BitVec.getLsbD_of_ge _ _ (by omega)
  constructor
  · rintro ⟨has, -⟩
    have settledHas : ∀ i, (required params).getLsbD i = true →
        file.mode.getLsbD i = true ∧ ((uid ≠ file.uid ∨ gid ≠ file.gid) →
          (host.chownClears file.mode).getLsbD i = false) := by
      intro i isRequired
      have bit := has i isRequired
      rw [getLsbD_mode32, settledFile_mode_of_eq same] at bit
      simp only [Bool.and_eq_true, Bool.not_eq_true', Bool.and_eq_false_iff,
        decide_eq_false_iff_not] at bit
      exact ⟨bit.1, fun moved => bit.2.resolve_left (not_not.mpr moved)⟩
    refine ⟨?_, ?_, ?_⟩
    · intro i unsettable
      rw [getLsbD_mode32]
      exact (settledHas i (getLsbD_unsettable.mp unsettable).1).1
    · intro i unsettable
      exact lacks i (getLsbD_unsettable.mp unsettable).1
    · intro moved _ i isRequired
      rw [getLsbD_mode32]
      exact (settledHas i isRequired).2 moved
  · rintro ⟨hasUnsettable, -, keeps⟩
    have has : Within (required params) (file.mode.setWidth 32) := by
      intro i isRequired
      by_cases settable : i < 12
      · rw [getLsbD_mode32]
        exact (meets i (by omega)).1 isRequired
      · exact hasUnsettable i (getLsbD_unsettable.mpr ⟨isRequired, settable⟩)
    constructor
    · intro i isRequired
      have hasBit := has i isRequired
      rw [getLsbD_mode32] at hasBit
      rw [getLsbD_mode32, settledFile_mode_of_eq same, hasBit, Bool.true_and]
      by_cases moved : uid ≠ file.uid ∨ gid ≠ file.gid
      · have keptBit := keeps moved ⟨has, lacks⟩ i isRequired
        rw [getLsbD_mode32] at keptBit
        simp [keptBit]
      · simp [moved]
    · intro i isForbidden
      have lacksBit := lacks i isForbidden
      rw [getLsbD_mode32] at lacksBit
      rw [getLsbD_mode32, settledFile_mode_of_eq same, lacksBit, Bool.false_and]

/-- After a `chmod` the bits it sets are right, and the others are those of before. -/
theorem modeMeets_settledFile_of_ne (clear : Apart (required params) (forbidden params))
    (differs : newPerms params file.mode ≠ file.mode) :
    ModeMeets params (settledFile host params file uid gid).mode ↔
      ModeSettles host params file.mode (uid ≠ file.uid ∨ gid ≠ file.gid) := by
  have unmet : ¬ModeMeets params file.mode := by
    rintro ⟨has, lacks⟩
    refine differs ((newPerms_eq_iff clear).mpr fun i _ => ⟨fun bit => ?_, fun bit => ?_⟩)
    · rw [← getLsbD_mode32]
      exact has i bit
    · rw [← getLsbD_mode32]
      exact lacks i bit
  constructor
  · rintro ⟨has, lacks⟩
    refine ⟨?_, ?_, fun _ meets => absurd meets unmet⟩
    · intro i unsettable
      rcases getLsbD_unsettable.mp unsettable with ⟨isRequired, above⟩
      have bit := has i isRequired
      rwa [getLsbD_mode32, settledFile_mode_of_ne differs, if_neg above, ← getLsbD_mode32] at bit
    · intro i unsettable
      rcases getLsbD_unsettable.mp unsettable with ⟨isForbidden, above⟩
      have bit := lacks i isForbidden
      rwa [getLsbD_mode32, settledFile_mode_of_ne differs, if_neg above, ← getLsbD_mode32] at bit
  · rintro ⟨hasUnsettable, lacksUnsettable, -⟩
    constructor
    · intro i isRequired
      rw [getLsbD_mode32, settledFile_mode_of_ne differs]
      by_cases settable : i < 12
      · have inside : i < 16 := by omega
        rw [if_pos settable, getLsbD_newPerms]
        simp [isRequired, clear i isRequired, inside]
      · rw [if_neg settable, ← getLsbD_mode32]
        exact hasUnsettable i (getLsbD_unsettable.mpr ⟨isRequired, settable⟩)
    · intro i isForbidden
      rw [getLsbD_mode32, settledFile_mode_of_ne differs]
      by_cases settable : i < 12
      · rw [if_pos settable, getLsbD_newPerms]
        simp [isForbidden]
      · rw [if_neg settable, ← getLsbD_mode32]
        exact lacksUnsettable i (getLsbD_unsettable.mpr ⟨isForbidden, settable⟩)

end Modes

theorem settledFile_uid : (settledFile host params file uid gid).uid =
    FileState.chownId file.uid uid := by
  have owned : (ownedFile host file uid gid).uid = FileState.chownId file.uid uid := by
    unfold ownedFile
    split
    next => rfl
    next stays =>
      push Not at stays
      simp [FileState.chownId, stays.1]
  unfold settledFile
  split
  · exact owned
  · exact owned

theorem settledFile_gid : (settledFile host params file uid gid).gid =
    FileState.chownId file.gid gid := by
  have owned : (ownedFile host file uid gid).gid = FileState.chownId file.gid gid := by
    unfold ownedFile
    split
    next => rfl
    next stays =>
      push Not at stays
      simp [FileState.chownId, stays.2]
  unfold settledFile
  split
  · exact owned
  · exact owned

theorem meets_settledFile_iff (owner : settleOwner host params file = .ok uid)
    (group : settleGroup host params file = .ok gid) (clear : conflicting params = false) :
    Meets host params (settledFile host params file uid gid) ↔ Remediable host params file := by
  have ownerSettled := settle_ok owner
  have groupSettled := settle_ok group
  have mode_iff : ModeMeets params (settledFile host params file uid gid).mode ↔
      ModeSettles host params file.mode
        (host.users.Moves params.owner file.uid ∨ host.groups.Moves params.group file.gid) := by
    rw [moves_iff ownerSettled, moves_iff groupSettled]
    have apart := conflicting_eq_false_iff.mp clear
    by_cases same : newPerms params file.mode = file.mode
    · exact modeMeets_settledFile_of_eq apart same
    · exact modeMeets_settledFile_of_ne apart same
  have owner_iff : host.users.Accepts params.owner (settledFile host params file uid gid).uid ↔
      host.users.Reaches params.owner file.uid := by
    rw [settledFile_uid]
    exact accepts_chownId_iff ownerSettled
  have group_iff : host.groups.Accepts params.group (settledFile host params file uid gid).gid ↔
      host.groups.Reaches params.group file.gid := by
    rw [settledFile_gid]
    exact accepts_chownId_iff groupSettled
  constructor
  · rintro ⟨ownerMet, groupMet, modeMet⟩
    exact ⟨owner_iff.mp ownerMet, group_iff.mp groupMet, mode_iff.mp modeMet⟩
  · rintro ⟨ownerReached, groupReached, modeSettles⟩
    exact ⟨owner_iff.mpr ownerReached, group_iff.mpr groupReached, mode_iff.mpr modeSettles⟩

end Remediation

/-- When a remediation that reports compliance has established it. -/
theorem audit_compliant_after_remediation_iff (host : Host) (params : FilePermissionsParams)
    (files : FileSystem) (file : FileState) (behavior : Behavior)
    (found : files.stat (cString params.path) = .ok file)
    (given : params.behavior = some behavior) (expected : behavior ≠ .noneExist)
    (compliant : (remediateFilePermissions host params files).result = .ok .compliant) :
    (auditFilePermissions host params
        (remediateFilePermissions host params files).context).map Report.result =
      some (.ok .compliant) ↔ Remediable host params file := by
  rcases remediateFilePermissions_compliant found compliant with
    ⟨uid, gid, owner, group, clear, settled⟩
  have audited : (auditFilePermissions host params
        (remediateFilePermissions host params files).context).map Report.result =
      some (auditFile host params (settledFile host params file uid gid)).result := by
    simp only [auditFilePermissions, given, settled, auditEnding, Option.map_some, Ending.after]
    rw [if_neg expected]
  rw [audited, Option.some.injEq, auditFile_compliant_iff,
    meets_settledFile_iff owner group clear]
  simp [clear]

section Program

/-- The accounts `root` and `daemon`. -/
def systemAccounts : Accounts where
  nameOf id :=
    if id = 0 then some (bytes "root") else if id = 1 then some (bytes "daemon") else none
  idOf name :=
    if name = bytes "root" then some 0 else if name = bytes "daemon" then some 1 else none

def linuxHost : Host where
  users := systemAccounts
  groups := systemAccounts
  strerror _ := bytes "error"
  chownClears := linuxChownClears
  chownClears_within := linuxChownClears_within

/-- A program of `daemon` with the given mode. -/
def programFiles (mode : BitVec 16) : FileSystem where
  stat path :=
    if path = bytes "/usr/bin/su" then .ok { uid := 1, gid := 0, mode } else .error Errno.ENOENT

/-- The program shall belong to `root` and run as its owner. -/
def programParams : FilePermissionsParams where
  path := bytes "/usr/bin/su"
  owner := some [bytes "root"]
  permissions := some 0o4755
  mask := some 0o022

/-- Without the set-user-ID bit at first, the program gets owner and mode. -/
theorem program_remediable :
    Remediable linuxHost programParams { uid := 1, gid := 0, mode := 0o100755 } :=
  (audit_compliant_after_remediation_iff linuxHost programParams (programFiles 0o100755) _
    .atLeastOneExists rfl rfl (by decide) (by decide)).mp (by decide)

/-- With the bit there already, the change of owner takes it away and nothing restores it. -/
theorem program_loses_setuid :
    (remediateFilePermissions linuxHost programParams (programFiles 0o104755)).result =
      .ok .compliant ∧
    (auditFilePermissions linuxHost programParams
      (remediateFilePermissions linuxHost programParams
        (programFiles 0o104755)).context).map Report.result = some (.ok .nonCompliant) := by
  decide

end Program

end FilePermissions

end OsConfig.ComplianceEngine
