import OsConfig.ComplianceEngine.Base64
import OsConfig.ComplianceEngine.Procedures

/-!
# Stored procedures and their parameters

A stored procedure holds the rules of a payload and the current values of its
parameters. Users change the values with a JSON object or with a list of
`key=value` pairs. Positions in the input are modelled by the text that is left.
-/

namespace OsConfig.ComplianceEngine

/-- `json_parse_string` of the JSON library: whatever it accepts. -/
abbrev JsonParser := ByteString → Option JsonValue

namespace JsonWrapper

def fromString (jsonParse : JsonParser) (input : ByteString) : Result JsonValue :=
  match jsonParse input.cString with
  | none => .error { message := bytes "Failed to parse JSON", code := Errno.EINVAL }
  | some value => .ok value

def fromBase64 (jsonParse : JsonParser) (input : ByteString) : Result JsonValue := do
  let decoded ← Base64.base64Decode input
  fromString jsonParse decoded

end JsonWrapper

namespace ProcedureParameters

/-- The loop of `ProcedureParameters::Parse` over the members of an object. -/
def parseMembers (object members : JsonObject) (result : ParameterMap) : Result ParameterMap :=
  match members with
  | [] => .ok result
  | (key, _) :: rest =>
      match JsonObject.getString object key with
      | none => .error { message := bytes "Failed to get parameter name and value" }
      | some value => parseMembers object rest (result.insertIfNew key value)

/-- `ProcedureParameters::Parse` on a JSON object. -/
def parseObject (input : JsonObject) : Result ParameterMap :=
  parseMembers input input ∅

def skipSpaces (input : ByteString) : ByteString :=
  input.dropWhile ByteString.isSpace

/-- `ParseKey`: the key and what follows it. -/
def parseKey (first : Bool) (input : ByteString) : Result (ByteString × ByteString) :=
  match input with
  | [] => .ok ([], [])
  | byte :: rest =>
      if ByteString.isSpace byte || byte = 61 then
        .ok ([], byte :: rest)
      else if !ByteString.isAlnum byte && byte ≠ 95 then
        .error
          { message := bytes "Invalid key: only alphanumeric and underscore characters are allowed" }
      else if first && ByteString.isDigit byte then
        .error { message := bytes "Invalid key: first character must not be a digit" }
      else do
        let (key, remaining) ← parseKey false rest
        return (byte :: key, remaining)

/-- What `ParseQuotedValue` has read: the value, the text after it and the last character
before that. -/
structure QuotedValue where
  value : ByteString
  remaining : ByteString
  previous : UInt8

/-- `ParseQuotedValue`, on the text after the opening quote. -/
def parseQuotedValue (quote previous : UInt8) (value input : ByteString) : QuotedValue :=
  match input with
  | [] => { value, remaining := [], previous }
  | [byte] =>
      if byte = 92 then { value, remaining := [], previous := 92 }
      else if byte = quote then { value, remaining := [], previous := quote }
      else { value := value ++ [byte], remaining := [], previous := byte }
  | byte :: next :: rest =>
      if byte = 92 then
        if next = 92 then parseQuotedValue quote 92 (value ++ [92]) rest
        else if next = quote then parseQuotedValue quote quote (value ++ [quote]) rest
        -- an invalid escape sequence ends the value in front of the escaped character
        else { value, remaining := next :: rest, previous := 92 }
      else if byte = quote then { value, remaining := next :: rest, previous := quote }
      else parseQuotedValue quote byte (value ++ [byte]) (next :: rest)

/-- The value of a pair and what follows it. -/
def parseValue (input : ByteString) : Result (ByteString × ByteString) :=
  match input with
  | [] => .error { message := bytes "Invalid key-value pair: missing value" }
  | byte :: rest =>
      if ByteString.isSpace byte then
        .error { message := bytes "Invalid key-value pair: missing value" }
      else if byte = 34 || byte = 39 then
        let quoted := parseQuotedValue byte byte [] rest
        if quoted.previous ≠ byte then
          .error
            { message := bytes "Invalid key-value pair: missing closing quote or invalid escape sequence" }
        else if rest = [] then
          .error
            { message := bytes "Invalid key-value pair: missing closing quote at the end of the input" }
        else if quoted.remaining.head?.any (!ByteString.isSpace ·) then
          .error { message := bytes "Invalid key-value pair: space expected after quoted value" }
        else
          .ok (quoted.value, quoted.remaining)
      else
        .ok ((byte :: rest).takeWhile (!ByteString.isSpace ·),
          (byte :: rest).dropWhile (!ByteString.isSpace ·))

/-- One `key=value` pair and what follows it. -/
def parsePair (input : ByteString) : Result ((ByteString × ByteString) × ByteString) := do
  let (key, afterKey) ← parseKey true input
  if key = [] then
    .error { message := bytes "Invalid key-value pair: empty key" }
  else
    match afterKey with
    | 61 :: afterAssignment =>
        let (value, remaining) ← parseValue afterAssignment
        return ((key, value), remaining)
    | _ => .error { message := bytes "Invalid key-value pair: '=' expected" }

/-- The loop of `ProcedureParameters::Parse` on a string; every round reads at least one
character. -/
def parsePairs : ℕ → ByteString → ParameterMap → Result ParameterMap
  | 0, _, result => .ok result
  | fuel + 1, input, result =>
      match skipSpaces input with
      | [] => .ok result
      | byte :: rest =>
          match parsePair (byte :: rest) with
          | .error failure => .error failure
          | .ok ((key, value), remaining) =>
              parsePairs fuel remaining (result.insertIfNew key value)

/-- `ProcedureParameters::Parse` on a string. -/
def parseString (input : ByteString) : Result ParameterMap :=
  parsePairs input.length input ∅

end ProcedureParameters

structure Procedure where
  parameters : ParameterMap := ∅
  auditRule : Option JsonValue := none
  remediationRule : Option JsonValue := none

namespace Procedure

def audit (procedure : Procedure) : Option JsonObject :=
  procedure.auditRule.bind JsonValue.getObject

def remediation (procedure : Procedure) : Option JsonObject :=
  procedure.remediationRule.bind JsonValue.getObject

def setAudit (procedure : Procedure) (rule : JsonValue) : Result Procedure :=
  match procedure.auditRule with
  | some _ => .error { message := bytes "Audit rule already set" }
  | none => .ok { procedure with auditRule := rule.deepCopy }

def setRemediation (procedure : Procedure) (rule : JsonValue) : Result Procedure :=
  match procedure.remediationRule with
  | some _ => .error { message := bytes "Remediation rule already set" }
  | none => .ok { procedure with remediationRule := rule.deepCopy }

/-- The loop of `UpdateUserParameters` over the pairs of the user, in the order of their keys.
An unknown key ends it, and the pairs before it stay. -/
def updateEntries (entries : List (ByteString × ByteString)) (parameters : ParameterMap) :
    Option Error × ParameterMap :=
  match entries with
  | [] => (none, parameters)
  | (key, value) :: rest =>
      if key ∈ parameters then
        updateEntries rest (parameters.insert key value)
      else
        (some { message := bytes "User parameter '" ++ key ++ bytes "' not found" }, parameters)

/-- The pairs a user passes to `UpdateUserParameters`: a JSON object, or `key=value` pairs. -/
def parseUserParameters (jsonParse : JsonParser) (userParameters : ByteString) :
    Result ParameterMap :=
  match JsonWrapper.fromString jsonParse userParameters with
  | .ok json =>
      match json.getObject with
      | none => .error { message := bytes "A JSON object expected", code := Errno.EINVAL }
      | some object => ProcedureParameters.parseObject object
  | .error _ => ProcedureParameters.parseString userParameters

def updateUserParameters (jsonParse : JsonParser) (userParameters : ByteString)
    (procedure : Procedure) : Option Error × Procedure :=
  match parseUserParameters jsonParse userParameters with
  | .error failure => (some failure, procedure)
  | .ok pairs =>
      let updated := updateEntries pairs.toList procedure.parameters
      (updated.1, { procedure with parameters := updated.2 })

end Procedure

end OsConfig.ComplianceEngine
