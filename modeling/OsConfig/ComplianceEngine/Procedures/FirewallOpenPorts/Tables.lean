import OsConfig.ComplianceEngine.Procedures.FirewallOpenPorts

/-!
# What a listing of tables mentions

A listing is a list of lines. The line of a rule may give a destination port,
with other text in front of it and behind it; the text of any other line is free.
The audits look for a text and not for a rule. They find it in each rule whose
port begins with the same digits, and wherever else it is written.
-/

namespace OsConfig.ComplianceEngine.FirewallOpenPorts

open ByteString NetworkTools

/-- A line of a listing: that of a rule for a destination port, or any other. -/
inductive Line where
  | rule (before : ByteString) (dport : BitVec 16) (after : ByteString)
  | other (text : ByteString)

namespace Line

def text : Line → ByteString
  | .rule before dport after =>
      before ++ 32 :: (needle dport ++ if after = [] then [] else 32 :: after)
  | .other text => text

def dport : Line → Option (BitVec 16)
  | .rule _ dport _ => some dport
  | .other _ => none

/-- The text that the audits look for occurs in the line: the digits of the port begin those of
the destination port, or it is written elsewhere. -/
def Mentions (port : BitVec 16) : Line → Prop
  | .rule before dport after =>
      toDecimal port.toNat <+: toDecimal dport.toNat ∨ needle port <:+: before ∨
        needle port <:+: after
  | .other text => needle port <:+: text

end Line

def listing (lines : List Line) : ByteString :=
  lines.flatMap fun line => line.text ++ [10]

/-- Each port that the audit has to find has a rule of its own. -/
def Covered (family : AddressFamily) (lines : List Line) (openPorts : List OpenPort) : Prop :=
  ∀ port ∈ openPorts, Relevant family port → ∃ line ∈ lines, line.dport = some port.port

/-- A port that is mentioned nowhere decides the audit, or each port that is mentioned has a rule
of its own. -/
def Decisive (family : AddressFamily) (lines : List Line) (openPorts : List OpenPort) : Prop :=
  (∃ port ∈ openPorts, Relevant family port ∧ ¬∃ line ∈ lines, line.Mentions port.port) ∨
    ∀ port ∈ openPorts, Relevant family port →
      (∃ line ∈ lines, line.Mentions port.port) → ∃ line ∈ lines, line.dport = some port.port

section Needles

variable {port dport : BitVec 16} {line : Line} {lines : List Line}

theorem not_mem_needle {byte : UInt8} (noDigit : Numerals.isDecimal byte = false)
    (apart : byte ∉ bytes "dpt:") : byte ∉ needle port := by
  rw [needle, List.mem_append]
  rintro (letter | digit)
  · exact apart letter
  · have isDigit : Numerals.isDecimal byte = true := Numerals.isDecimal_of_mem_render digit
    rw [isDigit] at noDigit
    cases noDigit

theorem needle_ne_nil : needle port ≠ [] :=
  List.cons_ne_nil _ _

theorem blank_not_mem_needle : 32 ∉ needle port :=
  not_mem_needle (by decide) (by decide)

theorem newline_not_mem_needle : 10 ∉ needle port :=
  not_mem_needle (by decide) (by decide)

/-- The text of one port occurs in that of another only at its start, where the first letter
is. -/
theorem needle_infix_needle_iff :
    needle port <:+: needle dport ↔ toDecimal port.toNat <+: toDecimal dport.toNat := by
  have first : needle dport = 100 :: (bytes "pt:" ++ toDecimal dport.toNat) := rfl
  have begins : (100 : UInt8) ∈ needle port := by
    rw [needle]
    exact List.mem_append_left _ (by decide)
  have later : ¬needle port <:+: bytes "pt:" ++ toDecimal dport.toNat := by
    intro inside
    rcases List.mem_append.mp (inside.subset begins) with letter | digit
    · exact absurd letter (by decide)
    · have isDigit : Numerals.isDecimal 100 = true := Numerals.isDecimal_of_mem_render digit
      exact absurd isDigit (by decide)
  rw [first, List.infix_cons_iff, ← first, or_iff_left later, needle, needle,
    List.prefix_append_right_inj]

theorem infix_text_iff : needle port <:+: line.text ↔ line.Mentions port := by
  cases line with
  | other text => exact Iff.rfl
  | rule before dport after =>
      rw [Line.text, Line.Mentions, Substrings.infix_append_cons_iff blank_not_mem_needle,
        ← needle_infix_needle_iff]
      by_cases empty : after = []
      · have nowhere : ¬needle port <:+: [] := by
          rw [List.infix_nil]
          exact needle_ne_nil
        rw [if_pos empty, List.append_nil, empty]
        tauto
      · rw [if_neg empty, Substrings.infix_append_cons_iff blank_not_mem_needle]
        tauto

theorem infix_listing_iff :
    needle port <:+: listing lines ↔ ∃ line ∈ lines, line.Mentions port := by
  induction lines with
  | nil =>
      rw [listing, List.flatMap_nil, List.infix_nil]
      simp [needle_ne_nil]
  | cons line lines ih =>
      have split : listing (line :: lines) = line.text ++ 10 :: listing lines := by
        simp [listing]
      rw [split, Substrings.infix_append_cons_iff newline_not_mem_needle, infix_text_iff, ih,
        List.exists_mem_cons_iff]

theorem mentions_of_dport (own : line.dport = some port) : line.Mentions port := by
  cases line with
  | other text => cases own
  | rule before dport after =>
      cases own
      exact Or.inl (List.prefix_refl _)

end Needles

section Audits

variable {executeCommand : ByteString → Result ByteString} {tables : ByteString}
  {family : AddressFamily} {lines : List Line} {openPorts : List OpenPort}

theorem auditTables_compliant_iff (ports : getOpenPorts executeCommand = .ok openPorts)
    (listed : executeCommand (tables ++ bytes " -L INPUT -v -n") = .ok (listing lines)) :
    (auditTables executeCommand tables family).result = .ok .compliant ↔
      ∀ port ∈ openPorts, Relevant family port → ∃ line ∈ lines, line.Mentions port.port := by
  have none_missing : openPorts.find? (fun port =>
        Relevant family port ∧ ¬needle port.port <:+: listing lines) = none ↔
      ∀ port ∈ openPorts, Relevant family port → ∃ line ∈ lines, line.Mentions port.port := by
    simp only [List.find?_eq_none, decide_eq_true_eq, not_and, not_not, infix_listing_iff]
  unfold auditTables
  rw [← none_missing]
  simp only [ports, listed]
  split
  next port found =>
    rw [found]
    simp [Ending.nonCompliant]
  next complete => exact iff_of_true rfl complete

/-- The audit is exact unless every port is mentioned and one of them has no rule of its own. -/
theorem auditTables_exact_iff (ports : getOpenPorts executeCommand = .ok openPorts)
    (listed : executeCommand (tables ++ bytes " -L INPUT -v -n") = .ok (listing lines)) :
    ((auditTables executeCommand tables family).result = .ok .compliant ↔
      Covered family lines openPorts) ↔ Decisive family lines openPorts := by
  rw [auditTables_compliant_iff ports listed]
  constructor
  · intro exact
    by_cases complete : ∀ port ∈ openPorts, Relevant family port →
        ∃ line ∈ lines, line.Mentions port.port
    · right
      intro port mem relevant _
      exact exact.mp complete port mem relevant
    · left
      push Not at complete
      obtain ⟨port, mem, relevant, nowhere⟩ := complete
      exact ⟨port, mem, relevant, fun ⟨line, line_mem, mentions⟩ => nowhere line line_mem mentions⟩
  · intro decisive
    constructor
    · intro complete
      rcases decisive with ⟨port, mem, relevant, nowhere⟩ | own
      · exact absurd (complete port mem relevant) nowhere
      · exact fun port mem relevant => own port mem relevant (complete port mem relevant)
    · intro covered port mem relevant
      obtain ⟨line, line_mem, own⟩ := covered port mem relevant
      exact ⟨line, line_mem, mentions_of_dport own⟩

end Audits

/-- When the two audits of tables are exact. -/
theorem auditOpenPorts_exact_iff {executeCommand : ByteString → Result ByteString}
    {openPorts : List OpenPort} (ports : getOpenPorts executeCommand = .ok openPorts)
    (lines lines6 : List Line)
    (listed : executeCommand (bytes "iptables -L INPUT -v -n") = .ok (listing lines))
    (listed6 : executeCommand (bytes "ip6tables -L INPUT -v -n") = .ok (listing lines6)) :
    (((auditIptablesOpenPorts executeCommand).result = .ok .compliant ↔
        Covered .inet lines openPorts) ↔ Decisive .inet lines openPorts) ∧
      (((auditIp6tablesOpenPorts executeCommand).result = .ok .compliant ↔
        Covered .inet6 lines6 openPorts) ↔ Decisive .inet6 lines6 openPorts) :=
  ⟨auditTables_exact_iff ports listed, auditTables_exact_iff ports listed6⟩

section WebServer

/-- The only rule is for the port 8080. -/
def proxyRules : List Line :=
  [.other (bytes "Chain INPUT (policy DROP 0 packets, 0 bytes)"),
    .rule (bytes "    0     0 ACCEPT tcp -- * * 0.0.0.0/0 0.0.0.0/0 tcp") 8080 []]

def webCommands (command : ByteString) : Result ByteString :=
  .ok (if command = bytes "ss -ptuln" then webSockets else listing proxyRules)

theorem getOpenPorts_webCommands : getOpenPorts webCommands = .ok webPorts := by
  apply getOpenPorts_webSockets
  simp [webCommands]

theorem auditOpenPorts_exact_iff_web :
    (((auditIptablesOpenPorts webCommands).result = .ok .compliant ↔
        Covered .inet proxyRules webPorts) ↔ Decisive .inet proxyRules webPorts) ∧
      (((auditIp6tablesOpenPorts webCommands).result = .ok .compliant ↔
        Covered .inet6 proxyRules webPorts) ↔ Decisive .inet6 proxyRules webPorts) :=
  auditOpenPorts_exact_iff getOpenPorts_webCommands proxyRules proxyRules (by decide +kernel)
    (by decide +kernel)

/-- The port 80 passes for covered, because 8080 begins with its digits. -/
theorem auditIptablesOpenPorts_prefix :
    getOpenPorts webCommands = .ok webPorts ∧
    webCommands (bytes "iptables -L INPUT -v -n") = .ok (listing proxyRules) ∧
    (auditIptablesOpenPorts webCommands).result = .ok .compliant ∧
    ¬Covered .inet proxyRules webPorts := by
  refine ⟨getOpenPorts_webCommands, by decide +kernel, by decide +kernel, ?_⟩
  unfold Covered
  decide +kernel

end WebServer

end OsConfig.ComplianceEngine.FirewallOpenPorts
