import OsConfig.ComplianceEngine.Formatters
import OsConfig.ComplianceEngine.Lua

/-!
# The rule evaluator

`Evaluator` walks a rule, a JSON object whose first member names an operator, a
script or a builtin procedure. List operators stop at the first decisive
operand, `not` evaluates its operand as an audit, and every rule node gets a
node of the indicators tree.
-/

namespace OsConfig.ComplianceEngine

/-- What the evaluator is built over: the registered procedures and `luaL_loadstring`. -/
structure Environment (σ : Type) where
  procedureMap : ProcedureMap σ
  luaLoad : ByteString → σ → Except ByteString (LuaScript σ)

structure AuditResult where
  status : Status
  payload : ByteString
  deriving DecidableEq

namespace Evaluator

variable {σ : Type}

inductive ListAction where
  | anyOf
  | allOf
  deriving DecidableEq

def ListAction.name : ListAction → ByteString
  | .anyOf => anyOfName
  | .allOf => allOfName

/-- The status of an operand that ends the loop of a list operator. -/
def ListAction.decisive : ListAction → Status
  | .anyOf => .compliant
  | .allOf => .nonCompliant

/-- The status a list operator starts with. -/
def ListAction.initial : ListAction → Status
  | .anyOf => .nonCompliant
  | .allOf => .compliant

def luaName : ByteString := bytes "Lua"

def evaluateBuiltinProcedure (env : Environment σ) (parameters : ParameterMap)
    (procedureName : ByteString) (value : JsonValue) (action : Action) (beneathNot : Bool)
    (state : EvalState σ) : Outcome Status × EvalState σ :=
  match value.getObject with
  | none => (.error { message := bytes "invalid argument" }, state)
  | some _ =>
      match getBuiltinProcedureArguments parameters value with
      | .error failure => (.error failure, state)
      | .ok arguments =>
          match env.procedureMap[procedureName]? with
          | none =>
              (.error { message := bytes "Unknown function '" ++ procedureName ++ bytes "'"
                        code := Errno.ENOENT }, state)
          | some actions =>
              match ProcedureMap.select actions action with
              | none =>
                  (.error { message := bytes "Function not found", code := Errno.ENOENT }, state)
              | some (kind, handler) =>
                  state.callHandler procedureName kind handler arguments beneathNot

def evaluateLua (env : Environment σ) (parameters : ParameterMap) (value : JsonValue)
    (action : Action) (beneathNot : Bool) (state : EvalState σ) :
    Outcome Status × EvalState σ :=
  match value.getObject with
  | none =>
      (.error { message := bytes "Lua value is not an object", code := Errno.EINVAL }, state)
  | some _ =>
      match getBuiltinProcedureArguments parameters value with
      | .error failure => (.error failure, state)
      | .ok arguments =>
          match arguments[bytes "script"]? with
          | none =>
              (.error { message := bytes "No script content provided", code := Errno.EINVAL },
                state)
          | some script =>
              LuaEvaluator.evaluate env.procedureMap env.luaLoad script action beneathNot state

/-- `Evaluator::EvaluateNot`, given the evaluation of the operand in audit mode. -/
def evaluateNot (value : JsonValue) (evaluateOperand : EvalState σ → Outcome Status × EvalState σ)
    (state : EvalState σ) : Outcome Status × EvalState σ :=
  match value.getObject with
  | none =>
      (.error { message := bytes "not value is not an object", code := Errno.EINVAL }, state)
  | some _ =>
      match evaluateOperand state with
      | (.value .notApplicable, state) => (.value .notApplicable, state)
      | (.value .compliant, state) => (.value .nonCompliant, state)
      | (.value .nonCompliant, state) => (.value .compliant, state)
      | left => left

mutual

def evaluateProcedure (env : Environment σ) (parameters : ParameterMap) (rule : JsonValue)
    (action : Action) (beneathNot : Bool) (state : EvalState σ) :
    Outcome Status × EvalState σ :=
  match rule with
  | .object ((name, value) :: _) =>
      if name = anyOfName then
        state.within name (evaluateList env parameters value action beneathNot .anyOf)
      else if name = allOfName then
        state.within name (evaluateList env parameters value action beneathNot .allOf)
      else if name = notName then
        state.within name
          (evaluateNot value (evaluateProcedure env parameters value .audit true))
      else if name = luaName then
        state.within name (evaluateLua env parameters value action beneathNot)
      else
        state.within name
          (evaluateBuiltinProcedure env parameters name value action beneathNot)
  | .object [] => (.error { message := bytes "Rule name or value is null" }, state)
  | _ => (.error { message := bytes "invalid json argument", code := Errno.EINVAL }, state)
termination_by structural rule

def evaluateList (env : Environment σ) (parameters : ParameterMap) (value : JsonValue)
    (action : Action) (beneathNot : Bool) (listAction : ListAction) (state : EvalState σ) :
    Outcome Status × EvalState σ :=
  match value with
  | .array items =>
      evaluateItems env parameters items action beneathNot listAction listAction.initial state
  | _ =>
      (.error { message := listAction.name ++ bytes " value is not an array"
                code := Errno.EINVAL }, state)
termination_by structural value

/-- The loop of `EvaluateList`. -/
def evaluateItems (env : Environment σ) (parameters : ParameterMap) (items : List JsonValue)
    (action : Action) (beneathNot : Bool) (listAction : ListAction) (accumulated : Status)
    (state : EvalState σ) : Outcome Status × EvalState σ :=
  match items with
  | [] => (.value accumulated, state)
  | item :: rest =>
      match evaluateProcedure env parameters item action beneathNot state with
      | (.value status, state) =>
          if status = listAction.decisive then
            (.value status, state)
          else
            evaluateItems env parameters rest action beneathNot listAction
              (if status = .notApplicable then .notApplicable else accumulated) state
      | left => left
termination_by structural items

end

/-- The state after the constructor: the rule name is the root of the tree. -/
def initial (ruleName : ByteString) (context : σ) : EvalState σ where
  indicators := (({} : IndicatorsTree).push ruleName).getD {}
  context := context

/-- The evaluation of a rule by `ExecuteAudit` and `ExecuteRemediation`: the status is also
that of the root, which is then popped. -/
def execute (env : Environment σ) (parameters : ParameterMap) (ruleName : ByteString)
    (rule : JsonValue) (action : Action) (context : σ) : Outcome Status × EvalState σ :=
  match evaluateProcedure env parameters rule action false (initial ruleName context) with
  | (.value status, state) =>
      match state.indicators.close status with
      | none => (.aborted, state)
      | some indicators => (.value status, { state with indicators })
  | left => left

def executeAudit (env : Environment σ) (formatter : PayloadFormatter) (parameters : ParameterMap)
    (ruleName : ByteString) (rule : JsonValue) (context : σ) :
    Outcome AuditResult × EvalState σ :=
  match execute env parameters ruleName rule .audit context with
  | (.value status, state) =>
      match formatter.format state.indicators with
      | .value payload => (.value { status, payload }, state)
      | .error failure =>
          (.value { status, payload := bytes "Failed to format payload: " ++ failure.message },
            state)
      | .thrown what => (.thrown what, state)
      | .aborted => (.aborted, state)
  | (.error failure, state) => (.error failure, state)
  | (.thrown what, state) => (.thrown what, state)
  | (.aborted, state) => (.aborted, state)

theorem executeAudit_eq_value {env : Environment σ} {formatter : PayloadFormatter}
    {parameters : ParameterMap} {ruleName : ByteString} {rule : JsonValue} {context : σ}
    {result : AuditResult}
    (audited : (executeAudit env formatter parameters ruleName rule context).1 = .value result) :
    ∃ state, execute env parameters ruleName rule .audit context = (.value result.status, state) ∧
      (formatter.format state.indicators = .value result.payload ∨
        ∃ failure, formatter.format state.indicators = .error failure ∧
          result.payload = bytes "Failed to format payload: " ++ failure.message) := by
  rw [executeAudit] at audited
  cases executed : execute env parameters ruleName rule .audit context with
  | mk outcome state =>
      rw [executed] at audited
      cases outcome with
      | error failure => simp at audited
      | thrown what => simp at audited
      | aborted => simp at audited
      | value status =>
          simp only at audited
          cases formatted : formatter.format state.indicators with
          | value text =>
              simp only [formatted, Outcome.value.injEq] at audited
              subst audited
              exact ⟨state, rfl, .inl formatted⟩
          | error failure =>
              simp only [formatted, Outcome.value.injEq] at audited
              subst audited
              exact ⟨state, rfl, .inr ⟨failure, formatted, rfl⟩⟩
          | thrown what => simp [formatted] at audited
          | aborted => simp [formatted] at audited

def executeRemediation (env : Environment σ) (parameters : ParameterMap) (ruleName : ByteString)
    (rule : JsonValue) (context : σ) : Outcome Status × EvalState σ :=
  execute env parameters ruleName rule .remediate context

end Evaluator

end OsConfig.ComplianceEngine
