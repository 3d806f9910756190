import OsConfig.ComplianceEngine.Procedures.FirewallOpenPorts

/-!
# The family of a rule

A rule is counted for IPv6 if the first mark `(v6)` of its line is at the
position four in front of the end. So it is the mark at the end that counts,
which the firewall prints in the column of the sources. Whether the column of
the destinations is marked does not matter.
-/

namespace OsConfig.ComplianceEngine.FirewallOpenPorts

open ByteString NetworkTools

def mark : ByteString :=
  bytes "(v6)"

/-- The lines behind the separator. -/
def ruleLines (output : ByteString) : List ByteString :=
  ((getLines output).dropWhile fun line => line ≠ bytes "--").drop 1

/-- The firewall is active, and there is a separator. -/
def ListsRules (output : ByteString) : Prop :=
  ∃ rules, readHeader none (getLines output) = .ok (some true, some rules)

/-- A line that is no shorter than the mark, and without a mark in front of the one at its end. -/
structure Regular (line : ByteString) : Prop where
  long : mark.length ≤ line.length
  alone : mark <:+ line → ¬mark <:+: line.dropLast

instance (line : ByteString) : Decidable (Regular line) :=
  decidable_of_iff (mark.length ≤ line.length ∧ (mark <:+ line → ¬mark <:+: line.dropLast))
    ⟨fun both => ⟨both.1, both.2⟩, fun regular => ⟨regular.long, regular.alone⟩⟩

/-- The words of the column of the destinations. -/
def toColumn (line : ByteString) : List ByteString :=
  (columns line).takeWhile fun word =>
    word ∉ [bytes "ALLOW", bytes "DENY", bytes "REJECT", bytes "LIMIT"]

section Positions

variable {line : ByteString}

/-- The position in front of the end does not underflow. -/
theorem toNat_markPosition (long : mark.length ≤ line.length) (fits : line.length < 2 ^ 63) :
    (markPosition line).toNat + mark.length = line.length := by
  have four : mark.length = 4 := by decide
  rw [four] at long ⊢
  unfold markPosition
  bv_omega

theorem toNat_findPosition {pattern text found : ByteString}
    (finds : Substrings.search pattern text = some found) (fits : text.length < 2 ^ 63) :
    (findPosition pattern text).toNat + found.length = text.length := by
  have short := (Substrings.suffix_of_search finds).1.length_le
  unfold findPosition
  rw [finds]
  simp only [BitVec.toNat_ofNat]
  omega

/-- A regular line is counted for IPv6 exactly if it ends in the mark. -/
theorem ruleFamily_eq_inet6_iff (regular : Regular line) (fits : line.length < 2 ^ 63) :
    ruleFamily line = .inet6 ↔ mark <:+ line := by
  have position := toNat_markPosition regular.long fits
  have decides : ruleFamily line = .inet6 ↔ findPosition mark line = markPosition line := by
    unfold ruleFamily
    split
    next same => exact iff_of_true rfl same
    next differs => exact iff_of_false (by simp) differs
  rw [decides]
  constructor
  · intro same
    cases finds : Substrings.search mark line with
    | none =>
        have nowhere : findPosition mark line = -1 := by rw [findPosition, finds]
        rw [nowhere] at same
        rw [← same] at position
        have highest : (-1 : BitVec 64).toNat = 2 ^ 64 - 1 := by decide
        omega
    | some found =>
        obtain ⟨ends, begins⟩ := Substrings.suffix_of_search finds
        have found_position := toNat_findPosition finds fits
        rw [same] at found_position
        have equal : mark = found := begins.eq_of_length (by omega)
        rw [equal]
        exact ends
  · intro ends
    have finds := Substrings.search_of_suffix ends (regular.alone ends)
    have found_position := toNat_findPosition finds fits
    apply BitVec.eq_of_toNat_eq
    omega

end Positions

section Ports

variable {rules : List ByteString} {isActive : Option Bool} {lines : List ByteString}

theorem readHeader_rules {active : Option Bool}
    (reads : readHeader isActive lines = .ok (active, some rules)) :
    rules = (lines.dropWhile fun line => line ≠ bytes "--").drop 1 := by
  induction lines generalizing isActive with
  | nil => cases reads
  | cons line lines ih =>
      have behind : line ≠ bytes "--" →
          ((line :: lines).dropWhile fun line => line ≠ bytes "--").drop 1 =
            (lines.dropWhile fun line => line ≠ bytes "--").drop 1 := by
        intro differs
        rw [List.dropWhile_cons_of_pos (by simpa using differs)]
      rw [readHeader] at reads
      by_cases status : startsWith line (bytes "Status: ") = true
      · rw [if_pos status] at reads
        have differs : line ≠ bytes "--" := by
          rintro rfl
          exact absurd status (by decide)
        rw [behind differs]
        split_ifs at reads
        · exact ih reads
        · exact ih reads
      · rw [if_neg status] at reads
        by_cases separator : line = bytes "--"
        · rw [if_pos separator] at reads
          cases reads
          simp [separator]
        · rw [if_neg separator] at reads
          rw [behind separator]
          exact ih reads

theorem mem_collectPorts_iff {family : AddressFamily} {port : BitVec 16} :
    port ∈ collectPorts family rules ↔
      ∃ line ∈ rules, rulePort line = some port ∧ ruleFamily line = family := by
  unfold collectPorts
  simp only [List.mem_filterMap, List.mem_filter, decide_eq_true_eq]
  constructor
  · rintro ⟨line, ⟨mem, isFamily⟩, isPort⟩
    exact ⟨line, mem, isPort, isFamily⟩
  · rintro ⟨line, mem, isPort, isFamily⟩
    exact ⟨line, ⟨mem, isFamily⟩, isPort⟩

theorem auditPorts_compliant_iff {openPorts : List OpenPort} :
    (auditPorts rules openPorts).result = .ok .compliant ↔
      ∀ port ∈ openPorts, ¬port.IsLocal → port.port ∈ collectPorts port.family rules := by
  have none_missing : openPorts.find? (fun port =>
        ¬port.IsLocal ∧ port.port ∉ collectPorts port.family rules) = none ↔
      ∀ port ∈ openPorts, ¬port.IsLocal → port.port ∈ collectPorts port.family rules := by
    simp only [List.find?_eq_none, decide_eq_true_eq, not_and, not_not]
  unfold auditPorts
  rw [← none_missing]
  dsimp only
  split
  next port found =>
    rw [found]
    simp [Ending.nonCompliant]
  next complete => exact iff_of_true rfl complete

end Ports

/-- The audit of `ufw` counts each regular rule for the family of the mark at the end of its
line, and is compliant exactly if each port has a rule that is counted for its family. -/
theorem auditUfwOpenPorts_counts {executeCommand : ByteString → Result ByteString}
    {openPorts : List OpenPort} (ports : getOpenPorts executeCommand = .ok openPorts)
    {output : ByteString} (printed : executeCommand (bytes "ufw status verbose") = .ok output)
    (fits : output.length < 2 ^ 63)
    (regular : ∀ line ∈ ruleLines output, (rulePort line).isSome → Regular line) :
    (∀ line ∈ ruleLines output, (rulePort line).isSome →
      (markPosition line).toNat + mark.length = line.length ∧
        (ruleFamily line = .inet6 ↔ mark <:+ line)) ∧
    ((auditUfwOpenPorts executeCommand).result = .ok .compliant ↔
      ListsRules output ∧ ∀ port ∈ openPorts, ¬port.IsLocal →
        ∃ line ∈ ruleLines output, rulePort line = some port.port ∧
          (port.family = .inet6 ↔ mark <:+ line)) := by
  have short : ∀ line ∈ ruleLines output, line.length < 2 ^ 63 := by
    intro line mem
    have inside : line ∈ getLines output :=
      (List.dropWhile_suffix _).subset (List.mem_of_mem_drop mem)
    exact (length_le_of_mem_getLines inside).trans_lt fits
  have families : ∀ line ∈ ruleLines output, (rulePort line).isSome →
      (ruleFamily line = .inet6 ↔ mark <:+ line) :=
    fun line mem counted => ruleFamily_eq_inet6_iff (regular line mem counted) (short line mem)
  refine ⟨fun line mem counted =>
    ⟨toNat_markPosition (regular line mem counted).long (short line mem),
      families line mem counted⟩, ?_⟩
  -- A port and a rule are of the same family if both or none are of IPv6.
  have same_family : ∀ line ∈ ruleLines output, ∀ port : OpenPort, (rulePort line).isSome →
      (ruleFamily line = port.family ↔ (port.family = .inet6 ↔ mark <:+ line)) := by
    intro line mem port counted
    rw [← families line mem counted]
    cases ruleFamily line <;> cases port.family <;> simp
  have unlisted : ∀ {result}, readHeader none (getLines output) = result →
      (∀ rules, result ≠ .ok (some true, some rules)) → ∀ message,
      ((Ending.nonCompliant message).result = .ok .compliant ↔
        ListsRules output ∧ ∀ port ∈ openPorts, ¬port.IsLocal →
          ∃ line ∈ ruleLines output, rulePort line = some port.port ∧
            (port.family = .inet6 ↔ mark <:+ line)) := by
    intro result header differs message
    refine iff_of_false (by simp [Ending.nonCompliant]) ?_
    rintro ⟨⟨rules, reads⟩, -⟩
    exact differs rules (header.symm.trans reads)
  unfold auditUfwOpenPorts
  simp only [ports, printed]
  split
  next message header => exact unlisted header (by simp) message
  next header => exact unlisted header (by simp) _
  next header => exact unlisted header (by simp) _
  next header => exact unlisted header (by simp) _
  next rules header =>
    have behind : rules = ruleLines output := readHeader_rules header
    have lists : ListsRules output := ⟨rules, header⟩
    rw [auditPorts_compliant_iff, behind, and_iff_right lists]
    refine forall₂_congr fun port _ => forall_congr' fun _ => ?_
    rw [mem_collectPorts_iff]
    refine exists_congr fun line => and_congr_right fun mem => and_congr_right fun isPort => ?_
    exact same_family line mem port (by rw [isPort]; rfl)

section WebServer

/-- The port is open to IPv4 and IPv6, and of the second rule only the column of the sources is
marked. -/
def webRules : ByteString :=
  bytes "Status: active\n\n--\n80/tcp ALLOW IN Anywhere\n80/tcp ALLOW IN Anywhere (v6)\n"

def ufwCommands (command : ByteString) : Result ByteString :=
  .ok (if command = bytes "ss -ptuln" then webSockets else webRules)

theorem getOpenPorts_ufwCommands : getOpenPorts ufwCommands = .ok webPorts := by
  apply getOpenPorts_webSockets
  simp [ufwCommands]

theorem auditUfwOpenPorts_counts_web :
    (∀ line ∈ ruleLines webRules, (rulePort line).isSome →
      (markPosition line).toNat + mark.length = line.length ∧
        (ruleFamily line = .inet6 ↔ mark <:+ line)) ∧
    ((auditUfwOpenPorts ufwCommands).result = .ok .compliant ↔
      ListsRules webRules ∧ ∀ port ∈ webPorts, ¬port.IsLocal →
        ∃ line ∈ ruleLines webRules, rulePort line = some port.port ∧
          (port.family = .inet6 ↔ mark <:+ line)) :=
  auditUfwOpenPorts_counts getOpenPorts_ufwCommands (by decide +kernel) (by decide +kernel)
    (by decide +kernel)

/-- The mark of the sources alone makes a rule count for IPv6. -/
theorem source_mark_counts :
    bytes "80/tcp ALLOW IN Anywhere (v6)" ∈ ruleLines webRules ∧
    rulePort (bytes "80/tcp ALLOW IN Anywhere (v6)") = some 80 ∧
    mark ∉ toColumn (bytes "80/tcp ALLOW IN Anywhere (v6)") ∧
    ruleFamily (bytes "80/tcp ALLOW IN Anywhere (v6)") = .inet6 ∧
    (auditUfwOpenPorts ufwCommands).result = .ok .compliant := by
  decide +kernel

end WebServer

end OsConfig.ComplianceEngine.FirewallOpenPorts
