import OsConfig.ComplianceEngine.Evaluator
import OsConfig.ComplianceEngine.Procedure

/-!
# The engine

The engine keeps a database of procedures by rule name. `MmiSet` stores a
procedure, updates its parameters or remediates, depending on the beginning of
the object name; `MmiGet` audits.
-/

namespace OsConfig.ComplianceEngine

/-- What an engine is built over: the evaluator's environment, the JSON parser and the
formatter. -/
structure EngineSetup (σ : Type) where
  env : Environment σ
  jsonParse : JsonParser
  formatter : PayloadFormatter

structure Engine (σ : Type) where
  database : Std.ExtTreeMap ByteString Procedure := ∅
  context : σ

namespace Engine

variable {σ : Type}

def auditPrefix : ByteString := bytes "audit"

def remediatePrefix : ByteString := bytes "remediate"

def initPrefix : ByteString := bytes "init"

def procedurePrefix : ByteString := bytes "procedure"

/-- `Engine::MmiGet`; a null pointer is no object name. -/
def mmiGet (setup : EngineSetup σ) (objectName : Option ByteString) (engine : Engine σ) :
    Outcome AuditResult × Engine σ :=
  match objectName with
  | none => (.error { message := bytes "Invalid argument", code := Errno.EINVAL }, engine)
  | some objectName =>
      if !ByteString.startsWith objectName auditPrefix then
        (.error { message := bytes "Invalid object name", code := Errno.EINVAL }, engine)
      else
        let ruleName := objectName.drop auditPrefix.length
        if ruleName = [] then
          (.error { message := bytes "Rule name is empty", code := Errno.EINVAL }, engine)
        else
          match engine.database[ruleName]? with
          | none => (.error { message := bytes "Rule not found", code := Errno.EINVAL }, engine)
          | some procedure =>
              match procedure.audit with
              | none => (.error { message := bytes "Failed to get 'audit' object" }, engine)
              | some rule =>
                  let audited := Evaluator.executeAudit setup.env setup.formatter
                    procedure.parameters ruleName (.object rule) engine.context
                  (audited.1, { engine with context := audited.2.context })

theorem mmiGet_eq_value {setup : EngineSetup σ} {objectName : Option ByteString}
    {engine : Engine σ} {result : AuditResult}
    (audited : (engine.mmiGet setup objectName).1 = .value result) :
    ∃ name procedure rule, objectName = some name ∧
      engine.database[name.drop auditPrefix.length]? = some procedure ∧
      procedure.audit = some rule ∧
      (Evaluator.executeAudit setup.env setup.formatter procedure.parameters
        (name.drop auditPrefix.length) (.object rule) engine.context).1 = .value result := by
  cases objectName with
  | none => simp [mmiGet] at audited
  | some name =>
      simp only [mmiGet] at audited
      split at audited
      · simp at audited
      · split at audited
        · simp at audited
        · cases found : engine.database[name.drop auditPrefix.length]? with
          | none => simp [found] at audited
          | some procedure =>
              rw [found] at audited
              cases rule_eq : procedure.audit with
              | none => simp [rule_eq] at audited
              | some rule =>
                  simp only [rule_eq] at audited
                  exact ⟨name, procedure, rule, rfl, found, rule_eq, audited⟩

def parsePayload (jsonParse : JsonParser) (payload : ByteString) : Result JsonValue :=
  match JsonWrapper.fromBase64 jsonParse payload with
  | .ok rule => .ok rule
  | .error _ => JsonWrapper.fromString jsonParse payload

/-- The part of `SetProcedure` that reads the audit rule. -/
def readAudit (object : JsonObject) : Result Procedure :=
  match JsonObject.getValue object (bytes "audit") with
  | none => .error { message := bytes "Missing 'audit' object" }
  | some value =>
      match value.getObject with
      | none => .error { message := bytes "The 'audit' value is not an object" }
      | some _ =>
          match ({} : Procedure).setAudit value with
          | .error failure => .error failure
          | .ok procedure =>
              if procedure.audit.isNone then .error { message := bytes "Out of memory" }
              else .ok procedure

/-- The part of `SetProcedure` that reads the remediation rule. -/
def readRemediation (object : JsonObject) (procedure : Procedure) : Result Procedure :=
  match JsonObject.getValue object (bytes "remediate") with
  | none => .ok procedure
  | some value =>
      match value.getObject with
      | none => .error { message := bytes "The 'remediate' value is not an object" }
      | some _ =>
          match procedure.setRemediation value with
          | .error failure => .error failure
          | .ok procedure =>
              if procedure.remediation.isNone then .error { message := bytes "Out of memory" }
              else .ok procedure

/-- The part of `SetProcedure` that reads the parameters. -/
def readParameters (object : JsonObject) (procedure : Procedure) : Result Procedure :=
  match JsonObject.getValue object (bytes "parameters") with
  | none => .ok procedure
  | some value =>
      match value.getObject with
      | none => .error { message := bytes "The 'parameters' value is not an object" }
      | some members =>
          match ProcedureParameters.parseObject members with
          | .error failure => .error failure
          | .ok parameters => .ok { procedure with parameters }

def readProcedure (jsonParse : JsonParser) (payload : ByteString) : Result Procedure :=
  match parsePayload jsonParse payload with
  | .error failure => .error failure
  | .ok rule =>
      match rule.getObject with
      | none => .error { message := bytes "Failed to parse JSON object" }
      | some object =>
          match readAudit object with
          | .error failure => .error failure
          | .ok audited =>
              match readRemediation object audited with
              | .error failure => .error failure
              | .ok remediated => readParameters object remediated

/-- `Engine::SetProcedure`: the old procedure is gone before the payload is read. -/
def setProcedure (setup : EngineSetup σ) (ruleName payload : ByteString) (engine : Engine σ) :
    Outcome Status × Engine σ :=
  if ruleName = [] then
    (.error { message := bytes "Rule name is empty", code := Errno.EINVAL }, engine)
  else
    let erased := engine.database.erase ruleName
    match readProcedure setup.jsonParse payload with
    | .error failure => (.error failure, { engine with database := erased })
    | .ok procedure =>
        (.value .compliant, { engine with database := erased.insert ruleName procedure })

def initAudit (setup : EngineSetup σ) (ruleName payload : ByteString) (engine : Engine σ) :
    Outcome Status × Engine σ :=
  if ruleName = [] then
    (.error { message := bytes "Rule name is empty", code := Errno.EINVAL }, engine)
  else
    match engine.database[ruleName]? with
    | none =>
        (.error { message := bytes "Out-of-order operation: procedure must be set first"
                  code := Errno.EINVAL }, engine)
    | some procedure =>
        let updated := procedure.updateUserParameters setup.jsonParse payload
        let stored := { engine with database := engine.database.insert ruleName updated.2 }
        match updated.1 with
        | some failure => (.error failure, stored)
        | none => (.value .compliant, stored)

def executeRemediation (setup : EngineSetup σ) (ruleName payload : ByteString)
    (engine : Engine σ) : Outcome Status × Engine σ :=
  if ruleName = [] then
    (.error { message := bytes "Rule name is empty", code := Errno.EINVAL }, engine)
  else
    match engine.database[ruleName]? with
    | none =>
        (.error { message := bytes "Out-of-order operation: procedure must be set first"
                  code := Errno.EINVAL }, engine)
    | some procedure =>
        match procedure.remediation.or procedure.audit with
        | none =>
            (.error { message := bytes "Failed to get 'remediate' or 'audit' object" }, engine)
        | some rule =>
            let updated := procedure.updateUserParameters setup.jsonParse payload
            let stored := engine.database.insert ruleName updated.2
            match updated.1 with
            | some failure => (.error failure, { engine with database := stored })
            | none =>
                let remediated := Evaluator.executeRemediation setup.env updated.2.parameters
                  ruleName (.object rule) engine.context
                (remediated.1, { database := stored, context := remediated.2.context })

def mmiSet (setup : EngineSetup σ) (objectName : Option ByteString) (payload : ByteString)
    (engine : Engine σ) : Outcome Status × Engine σ :=
  match objectName with
  | none => (.error { message := bytes "Invalid argument", code := Errno.EINVAL }, engine)
  | some objectName =>
      if ByteString.startsWith objectName procedurePrefix then
        engine.setProcedure setup (objectName.drop procedurePrefix.length) payload
      else if ByteString.startsWith objectName initPrefix then
        engine.initAudit setup (objectName.drop initPrefix.length) payload
      else if ByteString.startsWith objectName remediatePrefix then
        engine.executeRemediation setup (objectName.drop remediatePrefix.length) payload
      else
        (.error { message := bytes "Invalid object name" }, engine)

/-- The calls a client makes. -/
inductive Call where
  | set (objectName : Option ByteString) (payload : ByteString)
  | get (objectName : Option ByteString)

inductive Answer where
  | set (outcome : Outcome Status)
  | get (outcome : Outcome AuditResult)

def step (setup : EngineSetup σ) (call : Call) (engine : Engine σ) : Answer × Engine σ :=
  match call with
  | .set objectName payload =>
      let result := engine.mmiSet setup objectName payload
      (.set result.1, result.2)
  | .get objectName =>
      let result := engine.mmiGet setup objectName
      (.get result.1, result.2)

def run (setup : EngineSetup σ) (calls : List Call) (engine : Engine σ) :
    List (Call × Answer) × Engine σ :=
  match calls with
  | [] => ([], engine)
  | call :: rest =>
      let stepped := engine.step setup call
      let remaining := run setup rest stepped.2
      ((call, stepped.1) :: remaining.1, remaining.2)

end Engine

end OsConfig.ComplianceEngine
