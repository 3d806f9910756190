import OsConfig.ComplianceEngine.NetworkTools
import OsConfig.ComplianceEngine.Procedures.FilePermissions
import OsConfig.Library.Substrings

/-!
# Open ports and the firewall

Three audits look for the open ports in what a firewall lists. For `iptables`
and `ip6tables` the text `dpt:` with the number of the port must occur somewhere.
The lines of `ufw` are taken apart, and their ports are collected for each
family.

Positions in a text are 64-bit numbers, and a text that does not occur is at the
highest of them.
-/

namespace OsConfig.ComplianceEngine.FirewallOpenPorts

open ByteString NetworkTools

variable (executeCommand : ByteString → Result ByteString)

section Tables

/-- `"dpt:" + std::to_string(port)` -/
def needle (port : BitVec 16) : ByteString :=
  bytes "dpt:" ++ toDecimal port.toNat

/-- A port that the audit of a family has to find. -/
def Relevant (family : AddressFamily) (port : OpenPort) : Prop :=
  ¬port.IsLocal ∧ port.family = family

instance (family : AddressFamily) (port : OpenPort) : Decidable (Relevant family port) :=
  inferInstanceAs (Decidable (_ ∧ _))

def auditTables (tables : ByteString) (family : AddressFamily) : Ending :=
  match getOpenPorts executeCommand with
  | .error failure => { result := .error failure }
  | .ok openPorts =>
      match executeCommand (tables ++ bytes " -L INPUT -v -n") with
      | .error failure =>
          .nonCompliant (bytes "Failed to execute " ++ tables ++ bytes " command: " ++
            failure.message)
      | .ok listing =>
          let missing := openPorts.find? fun port =>
            Relevant family port ∧ ¬needle port.port <:+: listing
          match missing with
          | some port =>
              .nonCompliant (bytes "Port " ++ toDecimal port.port.toNat ++
                bytes " is open but not listed in iptables")
          | none => .compliant (bytes "All open ports are listed in iptables")

def auditIptablesOpenPorts : Ending :=
  auditTables executeCommand (bytes "iptables") .inet

/-- `AuditIp6tablesOpenPorts`. The messages about ports are those of the other audit. -/
def auditIp6tablesOpenPorts : Ending :=
  auditTables executeCommand (bytes "ip6tables") .inet6

end Tables

section Ufw

/-- The lines up to the separator: whether the firewall is active, and the lines behind the
separator. Where the status is neither, the message says so. -/
def readHeader (isActive : Option Bool) :
    List ByteString → Except ByteString (Option Bool × Option (List ByteString))
  | [] => .ok (isActive, none)
  | line :: rest =>
      if startsWith line (bytes "Status: ") then
        if startsWith (line.drop 8) (bytes "active") then readHeader (some true) rest
        else if startsWith (line.drop 8) (bytes "inactive") then readHeader (some false) rest
        else
          .error (bytes "Invalid output from ufw command, unrecognized status section '" ++ line ++
            bytes "'")
      else if line = bytes "--" then .ok (isActive, some rest)
      else readHeader isActive rest

/-- `std::stoi` on a field that holds a port, perhaps with a protocol. -/
def readPort (field : ByteString) : Option ℤ :=
  match readSigned 32 field with
  | none => none
  | some (port, rest) =>
      if rest = [] ∨ rest.head? = some 47 ∨ rest.head? = some 32 then some port else none

/-- The port of a rule, from the first or the second field. -/
def rulePort (line : ByteString) : Option (BitVec 16) :=
  if line = [] ∨ line.head? = some 10 ∨ line.head? = some 35 then none
  else
    match readWords 2 line with
    | some ([first, second], _) =>
        match (readPort first).or (readPort second) with
        | none => none
        | some port => if port < 1 ∨ port > 65535 then none else some (BitVec.ofInt 16 port)
    | _ => none

/-- `text.find(pattern)` -/
def findPosition (pattern text : ByteString) : BitVec 64 :=
  match Substrings.search pattern text with
  | none => -1
  | some found => BitVec.ofNat 64 (text.length - found.length)

/-- `line.length() - 4` -/
def markPosition (line : ByteString) : BitVec 64 :=
  BitVec.ofNat 64 line.length - 4

/-- The family for which the port of a rule is collected. -/
def ruleFamily (line : ByteString) : AddressFamily :=
  if findPosition (bytes "(v6)") line = markPosition line then .inet6 else .inet

/-- `v4ports` or `v6ports` -/
def collectPorts (family : AddressFamily) (rules : List ByteString) : List (BitVec 16) :=
  (rules.filter fun line => ruleFamily line = family).filterMap rulePort

/-- The last loop. -/
def auditPorts (rules : List ByteString) (openPorts : List OpenPort) : Ending :=
  let missing := openPorts.find? fun port =>
    ¬port.IsLocal ∧ port.port ∉ collectPorts port.family rules
  match missing with
  | some port =>
      let family := match port.family with
        | .inet => bytes "ipv4"
        | .inet6 => bytes "ipv6"
      .nonCompliant (bytes "Port " ++ toDecimal port.port.toNat ++
        bytes " is open but not listed in ufw for " ++ family)
  | none => .compliant (bytes "All open ports are listed in ufw")

def auditUfwOpenPorts : Ending :=
  match getOpenPorts executeCommand with
  | .error failure => { result := .error failure }
  | .ok openPorts =>
      match executeCommand (bytes "ufw status verbose") with
      | .error failure =>
          .nonCompliant (bytes "Failed to execute ufw command: " ++ failure.message)
      | .ok output =>
          match readHeader none (getLines output) with
          | .error message => .nonCompliant message
          | .ok (none, _) =>
              .nonCompliant (bytes "Invalid output from ufw command, missing status section")
          | .ok (some false, _) => .nonCompliant (bytes "UFW is inactive")
          | .ok (some true, none) =>
              .nonCompliant
                (bytes "Invalid output from ufw command, expected separator '--' not found")
          | .ok (some true, some rules) => auditPorts rules openPorts

end Ufw

end OsConfig.ComplianceEngine.FirewallOpenPorts
