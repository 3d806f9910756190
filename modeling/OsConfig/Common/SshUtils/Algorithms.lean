import OsConfig.Common.FileUtils.Appending
import OsConfig.Common.FileUtils.Options
import OsConfig.Common.SshUtils
import OsConfig.Library.Words

/-!
# Approved algorithms of the SSH server

The server reports its algorithms in a list with commas, and the approved ones
are given in another. The elements of one list are searched in the text of the
other, so an element passes that is only a part of an approved one.
-/

namespace OsConfig.SshUtils

open CommonUtils

def sshServerService : ByteString := bytes "sshd"

/-- `RemovePrefixUpToString`, which leaves a text alone that is no longer than the marker. -/
def removePrefixUpToString (marker text : ByteString) : ByteString :=
  if marker ≠ [] ∧ marker.length < text.length then (Substrings.search marker text).getD text
  else text

/-- The device that an audit of the server looks at: its files, its active services, and the
status and the output of the commands that it executes. -/
structure AuditedDevice where
  fs : FileSystem
  isDaemonActive : ByteString → Bool
  executeCommand : ByteString → ℤ × Option ByteString

def getSshServerState (device : AuditedDevice) (name : Option ByteString) : Option ByteString :=
  match name with
  | none =>
      let (status, textResult) := device.executeCommand (bytes "sshd -T")
      if status ≠ 0 then none else textResult
  | some name =>
      let (status, textResult) := device.executeCommand (bytes "sshd -T | grep  -m 1 -w " ++ name)
      if status ≠ 0 then none
      else
        textResult.map fun text =>
          if name <:+: text then
            removeTrailingBlanks (removePrefixBlanks
              (removePrefixUpTo 32 (removePrefixUpToString name text)))
          else text

def isSshServerActive (device : AuditedDevice) : ℤ :=
  if !device.fs.fileExists sshServerConfiguration then eexist
  else if !device.isDaemonActive sshServerService then eexist
  else 0

/-- The loop over a list with commas. What is captured for an element that does not occur in the
text is made of the list from this element on. -/
def searchElements (text : ByteString) (missing : ByteString → ByteString) (list : ByteString)
    (result : ℤ × Option ByteString) : ℤ × Option ByteString :=
  match list with
  | [] => result
  | byte :: rest =>
      let value := truncateAtFirst 44 (byte :: rest)
      searchElements text missing ((byte :: rest).drop (value.length + 1))
        (if value <:+: text then result
        else (enoent, captureReason result.2 (missing (byte :: rest))))
termination_by list.length
decreasing_by simp only [List.length_drop, List.length_cons]; omega

def checkOnlyApprovedMacAlgorithmsAreUsed (device : AuditedDevice) (macs reason : Option ByteString) :
    ℤ × Option ByteString :=
  match macs with
  | none => (einval, reason)
  | some macs =>
      let sshMacs := lowercase sshMacs
      if isSshServerActive device ≠ 0 then (0, reason)
      else
        match getSshServerState device (some sshMacs) with
        | none => (enoent, captureReason reason
            (bytes "'" ++ sshMacs ++ bytes "' not found in SSH Server response"))
        | some macsValue =>
            let (status, reason) := searchElements macs (fun list => bytes "'" ++
              truncateAtFirst 44 list ++
              bytes "' MAC algorithm found in SSH Server response is unapproved")
              macsValue (0, reason)
            if status = 0 then
              (status, captureSuccessReason reason (sshServerService ++ bytes " reports that '" ++
                sshMacs ++ bytes "' is set to '" ++ macsValue ++
                bytes "' (all approved MAC algorithms)"))
            else (status, reason)

def checkAppropriateCiphersForSsh (device : AuditedDevice) (ciphers reason : Option ByteString) :
    ℤ × Option ByteString :=
  match ciphers with
  | none => (einval, reason)
  | some ciphers =>
      let sshCiphers := lowercase sshCiphers
      if isSshServerActive device ≠ 0 then (0, reason)
      else
        match getSshServerState device (some sshCiphers) with
        | none => (enoent, captureReason reason
            (bytes "'" ++ sshCiphers ++ bytes "' not found in SSH Server response"))
        | some ciphersValue =>
            let unapproved := searchElements ciphers (fun list => bytes "Cipher '" ++
              truncateAtFirst 44 list ++ bytes "' found in SSH Server response is unapproved")
              ciphersValue (0, reason)
            -- What is captured for a required cipher names the rest of the list, too.
            let (status, reason) := searchElements ciphersValue (fun list => bytes "Cipher '" ++
              list ++ bytes "' is required and is not found in SSH Server response")
              ciphers unapproved
            if status = 0 then
              (status, captureSuccessReason reason (sshServerService ++ bytes " reports that '" ++
                sshCiphers ++ bytes "' is set to '" ++ ciphersValue ++
                bytes "' (only approved ciphers)"))
            else (status, reason)

def elements (list : ByteString) : List ByteString :=
  Words.words (· = 44) list

/-- Every element of a list is a part of some element of the other. -/
def PartsOf (list other : ByteString) : Prop :=
  ∀ element ∈ elements list, ∃ whole ∈ elements other, element <:+: whole

section Elements

variable {list other text : ByteString} {missing : ByteString → ByteString}

theorem truncateAtFirst_of_plain {before : ByteString}
    (plain : ∀ byte ∈ before, decide (byte = (44 : UInt8)) = false) (after : ByteString) :
    truncateAtFirst 44 before = before ∧
      truncateAtFirst 44 (before ++ 44 :: after) = before := by
  have letters : ∀ byte ∈ before, decide (byte ≠ (44 : UInt8)) = true := by
    intro byte mem
    simpa using plain byte mem
  rw [truncateAtFirst, truncateAtFirst, List.takeWhile_append_of_pos letters,
    List.takeWhile_cons_of_neg (by simp), List.append_nil, List.takeWhile_eq_self_iff]
  exact ⟨letters, rfl⟩

theorem searchElements_of_ne_nil (some_list : list ≠ []) (result : ℤ × Option ByteString) :
    searchElements text missing list result =
      searchElements text missing (list.drop ((truncateAtFirst 44 list).length + 1))
        (if truncateAtFirst 44 list <:+: text then result
        else (enoent, captureReason result.2 (missing list))) := by
  cases list with
  | nil => exact absurd rfl some_list
  | cons byte rest => rw [searchElements]

theorem forall_mem_elements_of_plain {before : ByteString}
    (plain : ∀ byte ∈ before, decide (byte = (44 : UInt8)) = false) :
    (∀ element ∈ elements before, element <:+: text) ↔ before <:+: text := by
  by_cases empty : before = []
  · subst empty
    simp [elements, List.nil_infix]
  · rw [elements, Words.words_of_isWord ⟨empty, plain⟩, List.forall_mem_singleton]

/-- The loop looks at the elements in front of a comma and goes on behind it. -/
theorem searchElements_status_eq_zero_iff (result : ℤ × Option ByteString) :
    (searchElements text missing list result).1 = 0 ↔
      result.1 = 0 ∧ ∀ element ∈ elements list, element <:+: text := by
  have searched (before list : ByteString) (result : ℤ × Option ByteString) :
      (if before <:+: text then result
        else (enoent, captureReason result.2 (missing list))).1 = 0 ↔
        result.1 = 0 ∧ before <:+: text := by
    split
    next inside => rw [and_iff_left inside]
    next outside => exact iff_of_false (by simp [enoent]) fun both => outside both.2
  induction list using Words.induction_on_separators (fun byte : UInt8 => decide (byte = 44))
    generalizing result with
  | run list plain =>
      by_cases empty : list = []
      · subst empty
        simp [searchElements, elements]
      · have nothing : list.drop (list.length + 1) = [] := List.drop_eq_nil_of_le (by omega)
        rw [searchElements_of_ne_nil empty, (truncateAtFirst_of_plain plain []).1, nothing,
          searchElements, searched, forall_mem_elements_of_plain plain]
  | separated before separator after plain separates ih =>
      have comma : separator = 44 := by simpa using separates
      subst comma
      have behind : (before ++ 44 :: after).drop (before.length + 1) = after := by
        rw [List.drop_append, List.drop_eq_nil_of_le (by omega)]
        simp
      have cut : elements (before ++ 44 :: after) = elements before ++ elements after :=
        Words.words_append_cons before after separates
      have rest (result : ℤ × Option ByteString) : (searchElements text missing after result).1 = 0 ↔
          result.1 = 0 ∧ ∀ element ∈ elements after, element <:+: text := ih result
      rw [searchElements_of_ne_nil (by simp), (truncateAtFirst_of_plain plain after).2, behind, rest,
        searched, cut, List.forall_mem_append, forall_mem_elements_of_plain plain, and_assoc]

theorem partsOf_iff : PartsOf list other ↔ ∀ element ∈ elements list, element <:+: other := by
  constructor
  · intro parts element mem
    rcases parts element mem with ⟨whole, whole_mem, inside⟩
    exact inside.trans (Words.isWord_of_mem whole_mem).2
  · intro inside element mem
    exact (Words.infix_iff_of_isWord (Words.isWord_of_mem mem).1).mp (inside element mem)

theorem partsOf_of_subset (subset : ∀ element ∈ elements list, element ∈ elements other) :
    PartsOf list other :=
  fun element mem => ⟨element, subset element mem, List.infix_rfl⟩

end Elements

section Audits

variable {device : AuditedDevice}

/-- The server is active, and it reports a list for a name. -/
structure Reports (device : AuditedDevice) (name list : ByteString) : Prop where
  active : isSshServerActive device = 0
  reported : getSshServerState device (some (lowercase name)) = some list

theorem checkOnlyApprovedMacAlgorithmsAreUsed_eq_zero_iff {macsValue : ByteString}
    (reports : Reports device sshMacs macsValue) (macs : ByteString) (reason : Option ByteString) :
    (checkOnlyApprovedMacAlgorithmsAreUsed device (some macs) reason).1 = 0 ↔
      PartsOf macsValue macs := by
  simp only [checkOnlyApprovedMacAlgorithmsAreUsed, reports.active, ne_eq, not_true_eq_false,
    if_false, reports.reported, apply_ite Prod.fst, ite_self]
  rw [partsOf_iff, searchElements_status_eq_zero_iff, and_iff_right rfl]

theorem checkAppropriateCiphersForSsh_eq_zero_iff {ciphersValue : ByteString}
    (reports : Reports device sshCiphers ciphersValue) (ciphers : ByteString)
    (reason : Option ByteString) :
    (checkAppropriateCiphersForSsh device (some ciphers) reason).1 = 0 ↔
      PartsOf ciphersValue ciphers ∧ PartsOf ciphers ciphersValue := by
  simp only [checkAppropriateCiphersForSsh, reports.active, ne_eq, not_true_eq_false, if_false,
    reports.reported, apply_ite Prod.fst, ite_self]
  rw [partsOf_iff, partsOf_iff, searchElements_status_eq_zero_iff,
    searchElements_status_eq_zero_iff, and_iff_right rfl]

/-- The audit of the MACs compares elements exactly if the reported ones are approved or one of them
is no part of an approved one; that of the ciphers exactly if the lists have the same elements or
one has an element that is no part of one of the other. -/
theorem audits_compare_iff {macsValue ciphersValue : ByteString}
    (macsReported : Reports device sshMacs macsValue)
    (ciphersReported : Reports device sshCiphers ciphersValue) (macs ciphers : ByteString)
    (reason : Option ByteString) :
    (((checkOnlyApprovedMacAlgorithmsAreUsed device (some macs) reason).1 = 0 ↔
          ∀ element ∈ elements macsValue, element ∈ elements macs) ↔
        ¬(PartsOf macsValue macs ∧ ∃ element ∈ elements macsValue, element ∉ elements macs)) ∧
      (((checkAppropriateCiphersForSsh device (some ciphers) reason).1 = 0 ↔
          ∀ element, element ∈ elements ciphersValue ↔ element ∈ elements ciphers) ↔
        ¬(PartsOf ciphersValue ciphers ∧ PartsOf ciphers ciphersValue ∧
          ∃ element, ¬(element ∈ elements ciphersValue ↔ element ∈ elements ciphers))) := by
  rw [checkOnlyApprovedMacAlgorithmsAreUsed_eq_zero_iff macsReported,
    checkAppropriateCiphersForSsh_eq_zero_iff ciphersReported]
  constructor
  · constructor
    · rintro ⟨approves, -⟩ ⟨parts, element, mem, unapproved⟩
      exact unapproved (approves parts element mem)
    · intro unmixed
      refine ⟨fun parts element mem => ?_, partsOf_of_subset⟩
      by_contra unapproved
      exact unmixed ⟨parts, element, mem, unapproved⟩
  · constructor
    · rintro ⟨same, -⟩ ⟨parts, parts', element, differs⟩
      exact differs (same ⟨parts, parts'⟩ element)
    · intro unmixed
      refine ⟨fun parts element => ?_, fun same => ?_⟩
      · by_contra differs
        exact unmixed ⟨parts.1, parts.2, element, differs⟩
      · exact ⟨partsOf_of_subset fun element => (same element).mp,
          partsOf_of_subset fun element => (same element).mpr⟩

/-- A server with one MAC and one cipher. -/
def reportingServer : AuditedDevice where
  fs := oneFile sshServerConfiguration []
  isDaemonActive name := name = sshServerService
  executeCommand command :=
    if bytes "-w macs" <:+ command then (0, some (bytes "macs hmac-sha2-512 "))
    else (0, some (bytes "ciphers aes128-ctr "))

theorem reportingServer_macs : Reports reportingServer sshMacs (bytes "hmac-sha2-512") :=
  ⟨by decide +kernel, by decide +kernel⟩

theorem reportingServer_ciphers : Reports reportingServer sshCiphers (bytes "aes128-ctr") :=
  ⟨by decide +kernel, by decide +kernel⟩

theorem audits_compare_sample :
    (((checkOnlyApprovedMacAlgorithmsAreUsed reportingServer (some sshDefaultSshMacs) none).1 = 0 ↔
          ∀ element ∈ elements (bytes "hmac-sha2-512"), element ∈ elements sshDefaultSshMacs) ↔
        ¬(PartsOf (bytes "hmac-sha2-512") sshDefaultSshMacs ∧
          ∃ element ∈ elements (bytes "hmac-sha2-512"), element ∉ elements sshDefaultSshMacs)) ∧
      (((checkAppropriateCiphersForSsh reportingServer (some sshDefaultSshCiphers) none).1 = 0 ↔
          ∀ element, element ∈ elements (bytes "aes128-ctr") ↔
            element ∈ elements sshDefaultSshCiphers) ↔
        ¬(PartsOf (bytes "aes128-ctr") sshDefaultSshCiphers ∧
          PartsOf sshDefaultSshCiphers (bytes "aes128-ctr") ∧
          ∃ element, ¬(element ∈ elements (bytes "aes128-ctr") ↔
            element ∈ elements sshDefaultSshCiphers))) :=
  audits_compare_iff reportingServer_macs reportingServer_ciphers _ _ none

/-- The server uses an algorithm that is only a part of the approved one. -/
theorem part_of_approved_accepted :
    ¬ ∀ (device : AuditedDevice) (macsValue ciphersValue macs ciphers : ByteString)
        (reason : Option ByteString), Reports device sshMacs macsValue →
      Reports device sshCiphers ciphersValue →
      ((checkOnlyApprovedMacAlgorithmsAreUsed device (some macs) reason).1 = 0 ↔
          ∀ element ∈ elements macsValue, element ∈ elements macs) ∧
        ((checkAppropriateCiphersForSsh device (some ciphers) reason).1 = 0 ↔
          ∀ element, element ∈ elements ciphersValue ↔ element ∈ elements ciphers) := by
  intro all
  have approved := (all reportingServer _ _ (bytes "hmac-sha2-512-etm@openssh.com") [] none
    reportingServer_macs reportingServer_ciphers).1
  revert approved
  decide +kernel

end Audits

end OsConfig.SshUtils
