import OsConfig.Common.FileUtils.Appending
import OsConfig.Common.FileUtils.Saving
import OsConfig.Common.SshUtils.Session

/-!
# The configuration of the server that the remediation leaves

The remediation is put in front of the configuration, either as the inclusion of
a file of its own or as a block. The buffer for the new text has room for the
template as well, and it is saved with its size: the zeros behind the text get
into the file. The block is put in front of the backup, which was taken once, and
not of what the file holds.
-/

namespace OsConfig.SshUtils

open CommonUtils

section Writing

variable {fs : FileSystem} {front originalConfiguration content : ByteString}

/-- The zeros that a new configuration is saved with. -/
def slack : ByteString := List.replicate 5 0

theorem newConfiguration_eq (front originalConfiguration : ByteString) :
    newConfiguration front originalConfiguration = front ++ (originalConfiguration ++ slack) := by
  have template : bytes "%s%s" = [37, 115, 37, 115] := by decide
  have expanded : expand (bytes "%s%s") [front, originalConfiguration] =
      front ++ originalConfiguration := by
    rw [template, expand_text, expand_text]
    simp [expand]
  have fits : (expand (bytes "%s%s") [front, originalConfiguration]).length <
      (bytes "%s%s").length + front.length + originalConfiguration.length + 1 := by
    rw [expanded, template, List.length_append]
    simp only [List.length_cons, List.length_nil]
    omega
  have room : (bytes "%s%s").length + front.length + originalConfiguration.length + 1 -
      (front ++ originalConfiguration).length = 5 := by
    rw [template, List.length_append]
    simp only [List.length_cons, List.length_nil]
    omega
  simp only [newConfiguration]
  rw [snprintf_eq fits, expanded, room, slack, List.append_assoc]

theorem startsWith_iff {text start : ByteString} :
    ByteString.startsWith text start = true ↔ start <+: text :=
  List.isPrefixOf_iff_prefix

/-- What is read of a file as a string starts with a text without zeros if the file does. -/
theorem prefix_cString_iff {text start : ByteString} (plain : 0 ∉ start) :
    start <+: text.cString ↔ start <+: text := by
  constructor
  · intro starts
    exact starts.trans (List.takeWhile_prefix _)
  · rintro ⟨rest, rfl⟩
    rw [ByteString.cString_append_of_not_mem plain]
    exact List.prefix_append _ _

theorem isLasting_sshServerConfiguration : IsLasting sshServerConfiguration := by
  rw [sshServerConfiguration, bytes_ofList]
  decide

theorem save_newConfiguration (fs : FileSystem) (front originalConfiguration : ByteString)
    (random : ℕ) :
    (secureSaveToFile sshServerConfiguration (newConfiguration front originalConfiguration) random
        fs).1 = true ∧
      (secureSaveToFile sshServerConfiguration (newConfiguration front originalConfiguration)
        random fs).2.read sshServerConfiguration =
          some (front ++ (originalConfiguration ++ slack)) := by
  have some_payload : newConfiguration front originalConfiguration ≠ [] := by
    rw [newConfiguration_eq]
    simp [slack]
  have saved := secureSaveToFile_spec fs random isLasting_sshServerConfiguration some_payload
  rw [newConfiguration_eq] at saved ⊢
  exact ⟨saved.1, saved.2.1⟩

end Writing

section Inclusion

variable {server : SshServer} {fs : FileSystem} {content : ByteString}

theorem plain_inclusion : 0 ∉ formatInclusionForRemediation := by
  have expanded : 0 ∉ expand inclusionTemplate
      [sshdConfigRemediationHeader, osconfigRemediationConf] := by
    rw [inclusionTemplate, sshdConfigRemediationHeader, osconfigRemediationConf]
    repeat rw [bytes_ofList]
    decide
  exact fun mem => expanded (List.mem_of_mem_take mem)

theorem includeRemediationSshConfFile_cases (held : fs.read sshServerConfiguration = some content)
    (made : server.directoryStatus = 0) :
    (formatInclusionForRemediation <+: content ∧
        includeRemediationSshConfFile server fs = (0, fs)) ∨
      (¬formatInclusionForRemediation <+: content ∧
        (includeRemediationSshConfFile server fs).1 = 0 ∧
        (includeRemediationSshConfFile server fs).2.read sshServerConfiguration =
          some (formatInclusionForRemediation ++ (content.cString ++ slack))) := by
  have present : fs.fileExists sshServerConfiguration = true :=
    FileSystem.fileExists_iff.mpr ⟨content, held⟩
  have loaded : loadStringFromFile sshServerConfiguration fs = some content.cString := by
    rw [loadStringFromFile, held, Option.map_some]
  have starts : ByteString.startsWith content.cString formatInclusionForRemediation = true ↔
      formatInclusionForRemediation <+: content :=
    startsWith_iff.trans (prefix_cString_iff plain_inclusion)
  by_cases here : formatInclusionForRemediation <+: content
  · left
    refine ⟨here, ?_⟩
    simp [includeRemediationSshConfFile, present, made, loaded, starts.mpr here]
  · right
    have absent : ByteString.startsWith content.cString formatInclusionForRemediation = false := by
      rw [Bool.eq_false_iff]
      exact fun started => here (starts.mp started)
    have saved := save_newConfiguration fs formatInclusionForRemediation content.cString
      server.random
    have outcome : includeRemediationSshConfFile server fs =
        (0, (secureSaveToFile sshServerConfiguration
          (newConfiguration formatInclusionForRemediation content.cString) server.random fs).2) := by
      simp [includeRemediationSshConfFile, present, made, loaded, absent, saved.1]
    rw [outcome]
    exact ⟨here, rfl, saved.2⟩

/-- The inclusion is there already, or it is put in front of what the file holds, and a second
call changes nothing. -/
def IncludesOnce (server again : SshServer) (fs : FileSystem) (content : ByteString) : Prop :=
  (includeRemediationSshConfFile server fs).1 = 0 →
    ((includeRemediationSshConfFile server fs).2.read sshServerConfiguration = some content ∧
        formatInclusionForRemediation <+: content ∨
      (includeRemediationSshConfFile server fs).2.read sshServerConfiguration =
        some (formatInclusionForRemediation ++ content)) ∧
    (includeRemediationSshConfFile again (includeRemediationSshConfFile server fs).2).2 =
      (includeRemediationSshConfFile server fs).2

/-- What the file holds is preserved exactly if the inclusion is there already, or if it happens
to end in the zeros that are added. -/
theorem includesOnce_iff (again : SshServer) (held : fs.read sshServerConfiguration = some content)
    (made : server.directoryStatus = 0) (made_again : again.directoryStatus = 0) :
    IncludesOnce server again fs content ↔
      formatInclusionForRemediation <+: content ∨ content = content.cString ++ slack := by
  rcases includeRemediationSshConfFile_cases held made with ⟨here, outcome⟩ |
    ⟨absent, status, written⟩
  · rcases includeRemediationSshConfFile_cases held made_again with ⟨-, second⟩ | ⟨elsewhere, -⟩
    · refine iff_of_true ?_ (.inl here)
      intro _
      rw [outcome, second]
      exact ⟨.inl ⟨held, here⟩, rfl⟩
    · exact absurd here elsewhere
  · have second : (includeRemediationSshConfFile again
        (includeRemediationSshConfFile server fs).2).2 =
          (includeRemediationSshConfFile server fs).2 := by
      rcases includeRemediationSshConfFile_cases written made_again with ⟨-, second⟩ | ⟨elsewhere, -⟩
      · rw [second]
      · exact absurd (List.prefix_append _ _) elsewhere
    constructor
    · intro includes
      right
      rcases (includes status).1 with ⟨-, here⟩ | preserved
      · exact absurd here absent
      · rw [written, Option.some.injEq] at preserved
        exact (List.append_cancel_left preserved).symm
    · intro condition _
      rcases condition with here | zeros
      · exact absurd here absent
      · refine ⟨.inr ?_, second⟩
        rw [written, ← zeros]

def sampleServer : SshServer := ⟨true, 0, 7⟩

theorem inclusion_port : ¬formatInclusionForRemediation <+: bytes "Port 22\n" := by
  have longer : ∃ rest, formatInclusionForRemediation = 35 :: rest := by
    rw [formatInclusionForRemediation, inclusionTemplate, sshdConfigRemediationHeader,
      osconfigRemediationConf]
    repeat rw [bytes_ofList]
    exact ⟨_, rfl⟩
  rcases longer with ⟨rest, inclusion_eq⟩
  rw [inclusion_eq, bytes_ofList]
  intro starts
  exact absurd (List.cons_prefix_cons.mp starts).1 (by decide)

theorem includesOnce_iff_port :
    IncludesOnce sampleServer sampleServer (oneFile sshServerConfiguration (bytes "Port 22\n"))
        (bytes "Port 22\n") ↔
      formatInclusionForRemediation <+: bytes "Port 22\n" ∨
        bytes "Port 22\n" = ByteString.cString (bytes "Port 22\n") ++ slack :=
  includesOnce_iff sampleServer FileSystem.read_write_self rfl rfl

/-- Zeros get into a file that has none. -/
theorem port_not_preserved :
    ¬IncludesOnce sampleServer sampleServer (oneFile sshServerConfiguration (bytes "Port 22\n"))
      (bytes "Port 22\n") := by
  intro includes
  have held : (oneFile sshServerConfiguration (bytes "Port 22\n")).read sshServerConfiguration =
      some (bytes "Port 22\n") := FileSystem.read_write_self
  have made : sampleServer.directoryStatus = 0 := rfl
  rcases includeRemediationSshConfFile_cases held made with ⟨here, -⟩ | ⟨absent, status, written⟩
  · exact inclusion_port here
  · rcases (includes status).1 with ⟨-, here⟩ | preserved
    · exact inclusion_port here
    · rw [written, Option.some.injEq] at preserved
      have zeros := List.append_cancel_left preserved
      rw [bytes_ofList] at zeros
      revert zeros
      decide

end Inclusion

section History

/-- What happens to the configuration: the administrator edits or removes it, or a session with
remediations ends. -/
inductive Event where
  | edit (content : Option ByteString)
  | run (server : SshServer) (session : SshSession)

/-- The files, and the block that the last successful run has left at the start. -/
structure Device where
  fs : FileSystem
  block : Option ByteString

/-- What the configuration holds. -/
def Device.held (device : Device) : ByteString :=
  (device.fs.read sshServerConfiguration).getD []

def Event.step (device : Device) : Event → Device
  | edit (some content) => { device with fs := device.fs.write sshServerConfiguration content }
  | edit none => { device with fs := device.fs.remove sshServerConfiguration }
  | run server session =>
      let (status, fs) := saveRemediationToSshdConfig server session device.fs
      { fs, block := if status = 0 then some (formatRemediationValues session) else device.block }

/-- A text less the first of some blocks that it starts with. -/
def withoutBlock (blocks : List ByteString) (text : ByteString) : ByteString :=
  match blocks.find? fun block => decide (block <+: text) with
  | some block => text.drop block.length
  | none => text

/-- What the administrator's part of the configuration is. -/
def Device.ownText (device : Device) (session : SshSession) : ByteString :=
  withoutBlock (formatRemediationValues session :: device.block.toList) device.held

/-- If the run succeeds, the block stands in front of the administrator's part. -/
def KeepsSettings (device : Device) (server : SshServer) (session : SshSession) : Prop :=
  (saveRemediationToSshdConfig server session device.fs).1 = 0 →
    (saveRemediationToSshdConfig server session device.fs).2.read sshServerConfiguration =
      some (formatRemediationValues session ++ device.ownText session)

/-- The text that the block is put in front of: the backup, which is taken now if there is none. -/
def Device.backup (device : Device) : Option ByteString :=
  match device.fs.read sshServerConfigurationBackup with
  | some text => some text.cString
  | none => if device.held.cString = [] then none else some device.held.cString

/-- The run has nothing to write, or the administrator's part is the backup with some zeros. -/
def Device.Undisturbed (device : Device) (session : SshSession) : Prop :=
  device.fs.read sshServerConfiguration = none ∨ formatRemediationValues session <+: device.held ∨
    ∀ text ∈ device.backup, device.ownText session = text ++ slack

variable {device : Device} {server : SshServer} {session : SshSession} {content : ByteString}

theorem cString_cString (text : ByteString) : text.cString.cString = text.cString := by
  rw [ByteString.cString, List.takeWhile_eq_self_iff]
  intro byte mem
  have nonzero := List.mem_takeWhile_imp mem
  exact nonzero

theorem formatRemediationValues_ne_nil (session : SshSession) :
    formatRemediationValues session ≠ [] := by
  rw [(formatRemediationValues_eq session).1]
  simp

theorem entry_backup_ne (fs : FileSystem) :
    fs.entry sshServerConfiguration ≠ fs.entry sshServerConfigurationBackup := by
  intro same
  rw [FileSystem.entry, FileSystem.entry, Prod.mk.injEq] at same
  have names : basename sshServerConfiguration ≠ basename sshServerConfigurationBackup := by
    rw [sshServerConfiguration, sshServerConfigurationBackup, bytes_ofList, bytes_ofList]
    decide
  exact names same.2

theorem backupSshdConfig_spec (held : device.fs.read sshServerConfiguration = some content) :
    (backupSshdConfig content.cString device.fs).1 = 0 ∧
      (backupSshdConfig content.cString device.fs).2.read sshServerConfiguration = some content ∧
      loadStringFromFile sshServerConfigurationBackup
        (backupSshdConfig content.cString device.fs).2 = device.backup := by
  have is_held : device.held = content := by rw [Device.held, held, Option.getD_some]
  cases saved : device.fs.read sshServerConfigurationBackup with
  | some text =>
      have present : device.fs.fileExists sshServerConfigurationBackup = true :=
        FileSystem.fileExists_iff.mpr ⟨text, saved⟩
      have outcome : backupSshdConfig content.cString device.fs = (0, device.fs) := by
        simp [backupSshdConfig, present]
      rw [outcome, Device.backup, loadStringFromFile, saved]
      exact ⟨rfl, held, rfl⟩
  | none =>
      have absent : device.fs.fileExists sshServerConfigurationBackup = false := by
        simp [FileSystem.fileExists, saved]
      rw [Device.backup, saved, is_held]
      by_cases empty : content.cString = []
      · have outcome : backupSshdConfig content.cString device.fs = (0, device.fs) := by
          simp [backupSshdConfig, empty]
        rw [outcome, loadStringFromFile, saved]
        exact ⟨rfl, held, by simp [empty]⟩
      · have outcome : backupSshdConfig content.cString device.fs =
            (0, device.fs.write sshServerConfigurationBackup content.cString) := by
          simp [backupSshdConfig, absent, empty, saveToFile]
        rw [outcome, loadStringFromFile, FileSystem.read_write_self,
          FileSystem.read_write_of_ne (entry_backup_ne device.fs)]
        exact ⟨rfl, held, by simp [empty, cString_cString]⟩

/-- What a run makes of the configuration. -/
theorem saveRemediationToSshdConfig_cases (server : SshServer)
    (held : device.fs.read sshServerConfiguration = some content)
    (plain : 0 ∉ formatRemediationValues session) :
    let outcome := saveRemediationToSshdConfig server session device.fs
    (formatRemediationValues session <+: content ∧ outcome.1 = 0 ∧
        outcome.2.read sshServerConfiguration = some content) ∨
      (¬formatRemediationValues session <+: content ∧ device.backup = none ∧ outcome.1 ≠ 0) ∨
      ¬formatRemediationValues session <+: content ∧ ∃ text, device.backup = some text ∧
        outcome.1 = 0 ∧ outcome.2.read sshServerConfiguration =
          some (formatRemediationValues session ++ (text ++ slack)) := by
  intro outcome
  have present : device.fs.fileExists sshServerConfiguration = true :=
    FileSystem.fileExists_iff.mpr ⟨content, held⟩
  have loaded : loadStringFromFile sshServerConfiguration device.fs = some content.cString := by
    rw [loadStringFromFile, held, Option.map_some]
  have some_block := formatRemediationValues_ne_nil session
  have starts : ByteString.startsWith content.cString (formatRemediationValues session) = true ↔
      formatRemediationValues session <+: content :=
    startsWith_iff.trans (prefix_cString_iff plain)
  obtain ⟨taken, kept, backup⟩ := backupSshdConfig_spec held
  by_cases here : formatRemediationValues session <+: content
  · have nothing : outcome = (0, (backupSshdConfig content.cString device.fs).2) := by
      simp [outcome, saveRemediationToSshdConfig, present, some_block, loaded, taken,
        starts.mpr here]
    rw [nothing]
    exact .inl ⟨here, rfl, kept⟩
  · have absent : ByteString.startsWith content.cString (formatRemediationValues session) = false := by
      rw [Bool.eq_false_iff]
      exact fun started => here (starts.mp started)
    cases saved : device.backup with
    | none =>
        have refused : outcome = (eexist, (backupSshdConfig content.cString device.fs).2) := by
          simp [outcome, saveRemediationToSshdConfig, present, some_block, loaded, taken, absent,
            backup, saved]
        rw [refused]
        exact .inr (.inl ⟨here, rfl, show eexist ≠ 0 by decide⟩)
    | some text =>
        have written := save_newConfiguration (backupSshdConfig content.cString device.fs).2
          (formatRemediationValues session) text server.random
        have replaced : outcome = (0, (secureSaveToFile sshServerConfiguration
            (newConfiguration (formatRemediationValues session) text) server.random
            (backupSshdConfig content.cString device.fs).2).2) := by
          simp [outcome, saveRemediationToSshdConfig, present, some_block, loaded, taken, absent,
            backup, saved, written.1]
        rw [replaced]
        exact .inr (.inr ⟨here, text, rfl, rfl, written.2⟩)

/-- A run keeps the administrator's part exactly if it has nothing to write or writes the same. -/
theorem keepsSettings_iff (plain : 0 ∉ formatRemediationValues session) :
    KeepsSettings device server session ↔ device.Undisturbed session := by
  cases held : device.fs.read sshServerConfiguration with
  | none =>
      have absent : device.fs.fileExists sshServerConfiguration = false := by
        simp [FileSystem.fileExists, held]
      have refused : (saveRemediationToSshdConfig server session device.fs).1 = eexist := by
        simp [saveRemediationToSshdConfig, absent]
      refine iff_of_true ?_ (.inl held)
      intro status
      rw [refused] at status
      cases status
  | some content =>
      have is_held : device.held = content := by rw [Device.held, held, Option.getD_some]
      rw [KeepsSettings, Device.Undisturbed, is_held]
      rcases saveRemediationToSshdConfig_cases server held plain with ⟨here, status, kept⟩ |
        ⟨elsewhere, unsaved, status⟩ | ⟨elsewhere, text, saved, status, written⟩
      · refine iff_of_true ?_ (.inr (.inl here))
        intro _
        have own : device.ownText session = content.drop (formatRemediationValues session).length := by
          simp [Device.ownText, withoutBlock, is_held, here]
        rw [kept, own, Option.some.injEq]
        rcases here with ⟨rest, rfl⟩
        simp
      · refine iff_of_true (fun zero => absurd zero status) (.inr (.inr ?_))
        simp [unsaved]
      · rw [written]
        simp only [status, forall_const, Option.some.injEq, held, reduceCtorEq, elsewhere,
          false_or, saved, Option.mem_def, forall_eq']
        constructor
        · exact fun same => (List.append_cancel_left same).symm
        · intro same
          rw [same]

/-- All desired values are C strings. -/
def HasCStrings (session : SshSession) : Prop :=
  ∀ target value, session.desired target = some value → 0 ∉ value

theorem plain_configurableOptions :
    ∀ option ∈ configurableOptions, 0 ∉ option.keyword ∧ 0 ∉ option.default := by
  decide +kernel

theorem plain_remediation (strings : HasCStrings session) :
    0 ∉ formatRemediationValues session := by
  have plain_value (target : Desired) {default : ByteString} (plain : 0 ∉ default) :
      0 ∉ session.desiredOr target default := by
    rw [SshSession.desiredOr]
    cases given : session.desired target with
    | none => exact plain
    | some value => exact strings target value given
  have configured : ∀ option ∈ configurableOptions, 0 ∉ option.keyword ∧
      0 ∉ session.desiredOr option.desired option.default := fun option mem =>
    ⟨(plain_configurableOptions option mem).1, plain_value _ (plain_configurableOptions option mem).2⟩
  have options : ∀ option ∈ sessionOptions session, 0 ∉ option.1 ∧ 0 ∉ option.2 := by
    intro option mem
    rw [sessionOptions, List.mem_append, List.mem_cons] at mem
    rcases mem with before | rfl | behind
    · rcases List.mem_map.mp before with ⟨configurable, inside, rfl⟩
      exact configured configurable (List.mem_append_left _ inside)
    · rw [sshBanner, sshBannerFile, bytes_ofList, bytes_ofList]
      decide
    · rcases List.mem_map.mp behind with ⟨configurable, inside, rfl⟩
      exact configured configurable (List.mem_append_right _ inside)
  have header : 0 ∉ sshdConfigRemediationHeader := by
    rw [sshdConfigRemediationHeader, bytes_ofList]
    decide
  rw [(formatRemediationValues_eq session).1, optionLines]
  intro mem
  simp only [List.mem_append, List.mem_cons, List.mem_flatMap, List.not_mem_nil, or_false] at mem
  rcases mem with inside | newline | ⟨option, among, name | blank | value | ended⟩
  · exact header inside
  · cases newline
  · exact (options option among).1 name
  · cases blank
  · exact (options option among).2 value
  · cases ended

theorem hasCStrings_initializeSshAudit : HasCStrings initializeSshAudit := by
  have plain : ∀ target, 0 ∉ initialValue target := by
    intro target
    cases target <;> decide +kernel
  rintro target value given
  rw [← Option.some.inj given]
  exact plain target

/-- A configuration with a backup from an earlier run, which the administrator then replaces. -/
def sampleDevice : Device where
  fs := (oneFile sshServerConfiguration (bytes "Port 22\n")).write sshServerConfigurationBackup
    (bytes "Port 22\n")
  block := none

def sampleEvents : List Event :=
  [.edit (some (bytes "X11Forwarding no\n")), .run sampleServer initializeSshAudit]

theorem sampleEvents_strings (server : SshServer) (session : SshSession)
    (mem : .run server session ∈ sampleEvents) : HasCStrings session := by
  rw [sampleEvents, List.mem_cons, List.mem_singleton] at mem
  rcases mem with edit | run
  · cases edit
  · cases run
    exact hasCStrings_initializeSshAudit

end History

end OsConfig.SshUtils
