import OsConfig.CommandRunner.Command
import OsConfig.Common.Formatting

/-!
# The firewall

Rules and default policies are read from JSON documents. Each rule becomes the
specification of a rule of `iptables`, and commands make the rules of the host
the desired ones. A rule whose description has an error is left out, and the
errors of a request become the status message that is reported later.

What a command answers is its exit status and what it printed, which is nothing
at all where it printed nothing.
-/

namespace OsConfig.Firewall

open CommandRunner (Json)

def einval : ℤ := 22

section Fields

/-- What is read of a field: its value, or an error. -/
abbrev Field := Except ByteString ByteString

/-- A field that `value.contains(name)` tells to be there is read; another one has a default. -/
def readField (value : Json) (name : ByteString) (missing : Field) (field : Json → Field) : Field :=
  match value.find name with
  | none => missing
  | some member => field member

/-- A field with one of the values of a `StringEnum`. -/
def enumField (values : List ByteString) (invalid notString : ByteString) (member : Json) : Field :=
  match member.getString with
  | none => .error notString
  | some text => if text ∈ values then .ok text else .error (invalid ++ text)

/-- A field with any text. -/
def stringField (notString : ByteString) (member : Json) : Field :=
  match member.getString with
  | none => .error notString
  | some text => .ok text

/-- A field with an integer, which is kept as `std::to_string` prints it. -/
def integerField (notInteger : ByteString) (member : Json) : Field :=
  match member.getInt with
  | none => .error notInteger
  | some number => .ok (Numerals.renderInt 10 number)

/-- A member keeps its default where the field has an error. -/
def Field.value : Field → ByteString
  | .ok text => text
  | .error _ => []

/-- The errors of fields, in their order. -/
def parseErrors (fields : List Field) : List ByteString :=
  fields.filterMap fun
    | .ok _ => none
    | .error error => some error

def missingField (name : ByteString) : Field :=
  .error (bytes "Rule must have a '" ++ name ++ bytes "' field")

/-- A member that is not given is empty. -/
def noField : Field := .ok []

end Fields

section Rules

def desiredStates : List ByteString := [bytes "present", bytes "absent"]
def actions : List ByteString := [bytes "accept", bytes "reject", bytes "drop"]
def directions : List ByteString := [bytes "in", bytes "out"]
def protocols : List ByteString := [bytes "any", bytes "tcp", bytes "udp", bytes "icmp"]

def desiredStateName : ByteString := bytes "desiredState"
def actionName : ByteString := bytes "action"
def directionName : ByteString := bytes "direction"
def protocolName : ByteString := bytes "protocol"
def sourceName : ByteString := bytes "sourceAddress"
def destinationName : ByteString := bytes "destinationAddress"
def sourcePortName : ByteString := bytes "sourcePort"
def destinationPortName : ByteString := bytes "destinationPort"

structure IpTablesRule where
  desiredState : ByteString := []
  action : ByteString := []
  direction : ByteString := []
  protocol : ByteString := []
  sourceAddress : ByteString := []
  destinationAddress : ByteString := []
  sourcePort : ByteString := []
  destinationPort : ByteString := []
  parseError : List ByteString := []
  deriving DecidableEq

def desiredStateField (value : Json) : Field :=
  readField value desiredStateName (missingField desiredStateName)
    (enumField desiredStates (bytes "Invalid desired state: ")
      (bytes "Desired state must be of type string"))

def actionField (value : Json) : Field :=
  readField value actionName (missingField actionName)
    (enumField actions (bytes "Invalid action: ") (bytes "Action must be of type string"))

def directionField (value : Json) : Field :=
  readField value directionName (missingField directionName)
    (enumField directions (bytes "Invalid direction: ") (bytes "Direction must be of type string"))

def protocolField (value : Json) : Field :=
  readField value protocolName noField
    (enumField protocols (bytes "Invalid protocol: ") (bytes "Protocol must be of type string"))

def sourceField (value : Json) : Field :=
  readField value sourceName noField (stringField (bytes "Source must be of type string"))

def destinationField (value : Json) : Field :=
  readField value destinationName noField (stringField (bytes "Destination must be of type string"))

def sourcePortField (value : Json) : Field :=
  readField value sourcePortName noField
    (integerField (bytes "Source port must be of type integer"))

def destinationPortField (value : Json) : Field :=
  readField value destinationPortName noField
    (integerField (bytes "Destination port must be of type integer"))

/-- `GenericRule::Parse` of a rule that has just been constructed. -/
def IpTablesRule.parse (value : Json) : IpTablesRule :=
  if value.isObject then
    { desiredState := (desiredStateField value).value
      action := (actionField value).value
      direction := (directionField value).value
      protocol := (protocolField value).value
      sourceAddress := (sourceField value).value
      destinationAddress := (destinationField value).value
      sourcePort := (sourcePortField value).value
      destinationPort := (destinationPortField value).value
      parseError := parseErrors [desiredStateField value, actionField value, directionField value,
        protocolField value, sourceField value, destinationField value, sourcePortField value,
        destinationPortField value] }
  else { parseError := [bytes "Rule JSON is not an object"] }

def chainName (direction : ByteString) : ByteString :=
  if direction = bytes "in" then bytes "INPUT"
  else if direction = bytes "out" then bytes "OUTPUT"
  else []

def targetName (action : ByteString) : ByteString :=
  if action = bytes "accept" then bytes "ACCEPT"
  else if action = bytes "drop" then bytes "DROP"
  else if action = bytes "reject" then bytes "REJECT"
  else []

/-- A flag with its value, where the value is not empty. -/
def flagText (flag text : ByteString) : ByteString :=
  if text = [] then [] else flag ++ bytes " " ++ text ++ bytes " "

/-- What is behind the chain in the specification of a rule. -/
def IpTablesRule.body (rule : IpTablesRule) : ByteString :=
  (if rule.protocol ≠ bytes "any" then bytes "-p " ++ rule.protocol ++ bytes " " else []) ++
    flagText (bytes "-s") rule.sourceAddress ++
    flagText (bytes "--source-port") rule.sourcePort ++
    flagText (bytes "-d") rule.destinationAddress ++
    flagText (bytes "--destination-port") rule.destinationPort ++
    (bytes "-j " ++ targetName rule.action)

def IpTablesRule.specification (rule : IpTablesRule) : ByteString :=
  chainName rule.direction ++ bytes " " ++ rule.body

structure IpTablesPolicy where
  action : ByteString := []
  direction : ByteString := []
  parseError : List ByteString := []

def policyActionField (value : Json) : Field :=
  readField value actionName (.error (bytes "Policy must contain action"))
    (enumField (actions.filter (· ≠ bytes "reject")) (bytes "Invalid action: ")
      (bytes "Policy action must be of type string"))

def policyDirectionField (value : Json) : Field :=
  readField value directionName (.error (bytes "Policy must contain direction"))
    (enumField directions (bytes "Invalid direction: ")
      (bytes "Policy direction must be of type string"))

/-- `GenericPolicy::Parse` of a policy that has just been constructed. -/
def IpTablesPolicy.parse (value : Json) : IpTablesPolicy where
  action := (policyActionField value).value
  direction := (policyDirectionField value).value
  parseError := parseErrors [policyActionField value, policyDirectionField value]

def IpTablesPolicy.specification (policy : IpTablesPolicy) : ByteString :=
  chainName policy.direction ++ bytes " " ++
    (if policy.action = bytes "accept" then bytes "ACCEPT"
      else if policy.action = bytes "drop" then bytes "DROP"
      else [])

/-- `ParseArray`. A document that is no array has no elements. -/
def parseArray {α : Type} (parse : Json → α) : Json → List α
  | .array items => items.map parse
  | _ => []

end Rules

section Parsing

theorem parseErrors_eq_nil_iff {fields : List Field} :
    parseErrors fields = [] ↔ ∀ field ∈ fields, ∃ text, field = .ok text := by
  rw [parseErrors, List.filterMap_eq_nil_iff]
  refine forall_congr' fun field => imp_congr_right fun _ => ?_
  cases field with
  | ok text => simp
  | error error => simp

theorem mem_of_enumField {value : Json} {name text invalid notString : ByteString} {missing : Field}
    {values : List ByteString}
    (read : readField value name missing (enumField values invalid notString) = .ok text) :
    text ∈ values ∨ missing = .ok text := by
  rw [readField] at read
  split at read
  · exact .inr read
  · rw [enumField] at read
    split at read
    · cases read
    · split at read
      next mem =>
        cases read
        exact .inl mem
      · cases read

/-- A rule that is carried out. -/
structure IpTablesRule.IsValid (rule : IpTablesRule) : Prop where
  noError : rule.parseError = []
  desiredState : rule.desiredState ∈ desiredStates
  action : rule.action ∈ actions
  direction : rule.direction ∈ directions
  protocol : rule.protocol ∈ protocols ∨ rule.protocol = []

theorem fields_of_parse {value : Json} (noError : (IpTablesRule.parse value).parseError = []) :
    value.isObject = true ∧ ∀ field ∈ [desiredStateField value, actionField value,
      directionField value, protocolField value, sourceField value, destinationField value,
      sourcePortField value, destinationPortField value], ∃ text, field = .ok text := by
  rw [IpTablesRule.parse] at noError
  split at noError
  next isObject => exact ⟨isObject, parseErrors_eq_nil_iff.mp noError⟩
  · cases noError

theorem isValid_parse {value : Json} (noError : (IpTablesRule.parse value).parseError = []) :
    (IpTablesRule.parse value).IsValid := by
  obtain ⟨isObject, fields⟩ := fields_of_parse noError
  obtain ⟨desiredState, desiredState_eq⟩ := fields (desiredStateField value) (by simp)
  obtain ⟨action, action_eq⟩ := fields (actionField value) (by simp)
  obtain ⟨direction, direction_eq⟩ := fields (directionField value) (by simp)
  obtain ⟨protocol, protocol_eq⟩ := fields (protocolField value) (by simp)
  have enums := And.intro (mem_of_enumField desiredState_eq)
    (And.intro (mem_of_enumField action_eq) (mem_of_enumField direction_eq))
  simp only [missingField, reduceCtorEq, or_false] at enums
  refine ⟨noError, ?_, ?_, ?_, ?_⟩
  all_goals rw [IpTablesRule.parse, if_pos isObject]
  · simpa only [desiredState_eq, Field.value] using enums.1
  · simpa only [action_eq, Field.value] using enums.2.1
  · simpa only [direction_eq, Field.value] using enums.2.2
  · simp only [protocol_eq, Field.value]
    rcases mem_of_enumField protocol_eq with mem | default
    · exact .inl mem
    · cases default
      exact .inr rfl

theorem isValid_of_mem {document : Json} {rule : IpTablesRule}
    (mem : rule ∈ parseArray IpTablesRule.parse document) (noError : rule.parseError = []) :
    rule.IsValid := by
  rw [parseArray.eq_def] at mem
  split at mem
  · obtain ⟨value, -, rfl⟩ := List.mem_map.mp mem
    exact isValid_parse noError
  · cases mem

end Parsing

section Commands

/-- The exit status of a command, and the text it printed, if it printed any. -/
structure Answer where
  status : ℤ
  textResult : Option ByteString

/-- A host that answers commands. -/
structure Host (σ : Type) where
  execute : ByteString → σ → Answer × σ

/-- Why a call does not return: there are more rounds to come, or a string is built from a text that
is not there. -/
inductive Stop where
  | unfinished
  | nullText
  deriving DecidableEq

variable {σ : Type} (host : Host σ)

/-- `Exists` -/
def ruleExists (rule : IpTablesRule) (state : σ) : Bool × σ :=
  let answer := host.execute (bytes "iptables -C " ++ rule.specification) state
  (answer.1.status = 0, answer.2)

/-- A command that changes the rules. When it fails, the error is what it printed. -/
def change (command error : ByteString) (state : σ) : Except Stop (ℤ × ByteString × σ) :=
  let answer := host.execute command state
  if answer.1.status ≠ 0 then
    match answer.1.textResult with
    | none => .error .nullText
    | some text => .ok (answer.1.status, text, answer.2)
  else .ok (0, error, answer.2)

theorem change_of_zero {command : ByteString} {state : σ}
    (succeeds : (host.execute command state).1.status = 0) (error : ByteString) :
    change host command error state = .ok (0, error, (host.execute command state).2) := by
  rw [change, if_neg (not_not.mpr succeeds)]

def add (rule : IpTablesRule) (error : ByteString) (state : σ) : Except Stop (ℤ × ByteString × σ) :=
  change host (bytes "iptables -I " ++ rule.specification) error state

def remove (rule : IpTablesRule) (error : ByteString) (state : σ) :
    Except Stop (ℤ × ByteString × σ) :=
  change host (bytes "iptables -D " ++ rule.specification) error state

end Commands

section SetRules

/-- The variables of `SetRules`, with the state of the host. -/
structure Pass (σ : Type) where
  status : ℤ
  error : ByteString
  errors : List ByteString
  state : σ

variable {σ : Type} (host : Host σ)

def indexed (message : ByteString) (index : ℕ) (separator text : ByteString) : ByteString :=
  message ++ toDecimal index ++ separator ++ text

/-- The pass after a command, with a message where the command failed. -/
def Pass.after (pass : Pass σ) (message : ByteString) (index : ℕ)
    (result : ℤ × ByteString × σ) : Pass σ :=
  { pass with
    error := result.2.1
    errors := if result.1 ≠ 0 then pass.errors ++ [indexed message index (bytes "): ") result.2.1]
      else pass.errors
    state := result.2.2 }

/-- The loop that removes a rule as long as it exists, in at most as many rounds. -/
def removeAll (rule : IpTablesRule) (index : ℕ) : ℕ → Pass σ → Except Stop (Pass σ)
  | 0, _ => .error .unfinished
  | rounds + 1, pass =>
      let found := ruleExists host rule pass.state
      if found.1 then
        match remove host rule pass.error found.2 with
        | .error stop => .error stop
        | .ok result =>
            removeAll rule index rounds (pass.after (bytes "Failed to remove rule (") index result)
      else .ok { pass with state := found.2 }

/-- One rule of the loop of `SetRules`. -/
def setRule (rounds : ℕ) (rule : IpTablesRule) (index : ℕ) (pass : Pass σ) :
    Except Stop (Pass σ) :=
  if rule.parseError ≠ [] then
    .ok { pass with
      errors := pass.errors ++
        rule.parseError.map (indexed (bytes "[") index (bytes "] ")) }
  else if rule.desiredState = bytes "present" then
    let found := ruleExists host rule pass.state
    if found.1 then .ok { pass with state := found.2 }
    else
      match add host rule pass.error found.2 with
      | .error stop => .error stop
      | .ok result => .ok (pass.after (bytes "Failed to add rule (") index result)
  else if rule.desiredState = bytes "absent" then
    removeAll host rule index rounds pass
  else .ok { pass with status := einval }

/-- The loop of `SetRules`, over the rules from the last one on. The index of a rule is the number of
the rules in front of it. -/
def setRulesFrom (rounds : ℕ) : List IpTablesRule → Pass σ → Except Stop (Pass σ)
  | [], pass => .ok pass
  | rule :: before, pass =>
      match setRule host rounds rule before.length pass with
      | .error stop => .error stop
      | .ok pass => setRulesFrom rounds before pass

/-- The errors with a newline behind each. -/
def errorMessage (errors : List ByteString) : ByteString :=
  errors.flatMap (· ++ [10])

/-- `SetRules`: the status, the status message and the state of the host. -/
def setRules (rounds : ℕ) (rules : List IpTablesRule) (state : σ) :
    Except Stop (ℤ × ByteString × σ) :=
  match setRulesFrom host rounds rules.reverse ⟨0, [], [], state⟩ with
  | .error stop => .error stop
  | .ok pass =>
      if pass.errors ≠ [] then .ok (einval, errorMessage pass.errors.reverse, pass.state)
      else .ok (pass.status, [], pass.state)

/-- The loop of `SetDefaultPolicies`. -/
def setPoliciesFrom : List IpTablesPolicy → ℕ → Pass σ → Except Stop (Pass σ)
  | [], _, pass => .ok pass
  | policy :: rest, index, pass =>
      if policy.parseError = [] then
        let specification := policy.specification
        let answer := host.execute (bytes "iptables -P " ++ specification) pass.state
        if answer.1.status ≠ 0 then
          match answer.1.textResult with
          | none => .error .nullText
          | some text =>
              setPoliciesFrom rest (index + 1) { pass with
                status := answer.1.status
                errors := pass.errors ++ [bytes "Failed to set default policy (" ++ specification ++
                  bytes "): " ++ text]
                state := answer.2 }
        else setPoliciesFrom rest (index + 1) { pass with state := answer.2 }
      else
        setPoliciesFrom rest (index + 1) { pass with
          status := einval
          errors := pass.errors ++
            [indexed (bytes "Failed to set default policy (") index (bytes ")") []] }

/-- `SetDefaultPolicies`: the status, the status message and the state of the host. -/
def setDefaultPolicies (policies : List IpTablesPolicy) (state : σ) :
    Except Stop (ℤ × ByteString × σ) :=
  match setPoliciesFrom host policies 0 ⟨0, [], [], state⟩ with
  | .error stop => .error stop
  | .ok pass => .ok (pass.status, errorMessage pass.errors, pass.state)

/-- The status messages of `GenericFirewall`. -/
structure Messages where
  policyStatusMessage : ByteString
  ruleStatusMessage : ByteString

inductive Status where
  | unknown
  | success
  | failure
  deriving DecidableEq

/-- `GetStatus` -/
def Messages.status (messages : Messages) : Status :=
  if messages.policyStatusMessage = [] ∧ messages.ruleStatusMessage = [] then .success else .failure

/-- `FirewallModule::SetRules`: the status and the messages that are kept. -/
def moduleSetRules (rounds : ℕ) (document : Json) (messages : Messages) (state : σ) :
    Except Stop (ℤ × Messages × σ) :=
  (setRules host rounds (parseArray IpTablesRule.parse document) state).map fun result =>
    (result.1, { messages with ruleStatusMessage := result.2.1 }, result.2.2)

/-- `FirewallModule::SetDefaultPolicies` -/
def moduleSetDefaultPolicies (document : Json) (messages : Messages) (state : σ) :
    Except Stop (ℤ × Messages × σ) :=
  (setDefaultPolicies host (parseArray IpTablesPolicy.parse document) state).map fun result =>
    (result.1, { messages with policyStatusMessage := result.2.1 }, result.2.2)

end SetRules

end OsConfig.Firewall
