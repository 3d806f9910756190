import OsConfig.Common.Parson
import OsConfig.ComplianceEngine.Indicators

/-!
# Builtin procedures

A builtin procedure reads its arguments and the context, may change the system,
and writes to the indicators tree through `Push`, `Pop` and `AddIndicator`. Its
model returns the writes as a list, in the order in which they are made. Two
facts about the handlers of the source are kept as fields: a handler never pops
a node it did not push, and the nodes it pushes have one of four fixed shapes of name.

The evaluator carries a trace of what it did. The trace is not part of the
program; it is what statements about calls and visited rule nodes refer to.
-/

namespace OsConfig.ComplianceEngine

abbrev ParameterMap := Std.ExtTreeMap ByteString ByteString

inductive Action where
  | audit
  | remediate
  deriving DecidableEq

/-- The nodes that builtin procedures push. -/
inductive HandlerNode where
  | auditFilePermissions
  | remediateFilePermissions
  | ensureFilePermissions
  | filePermissionsCheck (fullPath : ByteString)
  deriving DecidableEq

def HandlerNode.name : HandlerNode → ByteString
  | .auditFilePermissions => bytes "AuditFilePermissions"
  | .remediateFilePermissions => bytes "RemediateFilePermissions"
  | .ensureFilePermissions => bytes "EnsureFilePermissions"
  | .filePermissionsCheck fullPath => bytes "FilePermissionsCheck for " ++ fullPath

/-- The names of the nodes that builtin procedures push. -/
def IsHandlerName (name : ByteString) : Prop :=
  ∃ node : HandlerNode, name = node.name

/-- What a call of a builtin procedure does. -/
structure HandlerRun (σ : Type) where
  outcome : Outcome Status
  ops : List TreeOp
  context : σ

/-- `action_func_t`: an audit or remediation handler. -/
structure Handler (σ : Type) where
  run : ParameterMap → σ → HandlerRun σ
  opsScoped : ∀ arguments context, TreeOp.Scoped (run arguments context).ops
  opsNames : ∀ arguments context name,
    TreeOp.push name ∈ (run arguments context).ops → IsHandlerName name

/-- The handler leaves the evaluation stack at the depth at which it was entered
whenever it returns a status. -/
def Handler.Balanced {σ : Type} (handler : Handler σ) : Prop :=
  ∀ arguments context status, (handler.run arguments context).outcome = .value status →
    TreeOp.Balanced (handler.run arguments context).ops

/-- The handler that writes nothing and always ends the same way. -/
def Handler.returning {σ : Type} (outcome : Outcome Status) : Handler σ where
  run _ context := { outcome, ops := [], context }
  opsScoped _ _ := rfl
  opsNames _ _ _ mem := by simp at mem

theorem Handler.balanced_returning {σ : Type} (outcome : Outcome Status) :
    (returning outcome : Handler σ).Balanced :=
  fun _ _ _ _ => rfl

structure ProcedureActions (σ : Type) where
  audit : Option (Handler σ)
  remediate : Option (Handler σ)

abbrev ProcedureMap (σ : Type) := Std.ExtTreeMap ByteString (ProcedureActions σ)

/-- The values that Lua scripts pass and receive. Whether a string converts to a number is
what `lua_isnumber` answers. A table is given by the pairs `lua_next` yields to the loop that
reads it, with the error it ends in if it does not reach the end: reading a number key with
`lua_tostring` turns the key into a string, which `lua_next` may then not find. -/
inductive LuaValue where
  | nil
  | boolean (value : Bool)
  | number (printed : ByteString)
  | string (text : ByteString) (convertsToNumber : Bool)
  | table (entries : List (LuaValue × LuaValue)) (failure : Option ByteString)
  | other

/-- The steps of an evaluation that statements refer to. -/
inductive Event where
  /-- A rule node was evaluated and its evaluation returned a status. -/
  | evaluated (name : ByteString) (status : Status)
  /-- A handler of a procedure was called. -/
  | handlerCalled (procedure : ByteString) (kind : Action) (beneathNot : Bool)
  /-- A script called a function of the `ce` table. -/
  | luaCalled (field : ByteString) (arguments : List LuaValue) (beneathNot : Bool)

/-- The state of an `Evaluator`: its indicators, its context and the trace. -/
structure EvalState (σ : Type) where
  indicators : IndicatorsTree
  context : σ
  trace : List Event := []

namespace EvalState

variable {σ : Type}

def record (state : EvalState σ) (event : Event) : EvalState σ :=
  { state with trace := state.trace ++ [event] }

/-- Call a handler and write its indicators. -/
def callHandler (procedure : ByteString) (kind : Action) (handler : Handler σ)
    (arguments : ParameterMap) (beneathNot : Bool) (state : EvalState σ) :
    Outcome Status × EvalState σ :=
  let called := state.record (.handlerCalled procedure kind beneathNot)
  let run := handler.run arguments state.context
  match TreeOp.applyAll run.ops state.indicators with
  | none => (.aborted, called)
  | some indicators => (run.outcome, { called with indicators, context := run.context })

/-- Evaluate a rule node: push its name, evaluate, and on success set the status
of the top node and pop it. -/
def within (name : ByteString) (body : EvalState σ → Outcome Status × EvalState σ)
    (state : EvalState σ) : Outcome Status × EvalState σ :=
  match state.indicators.push name with
  | none => (.aborted, state)
  | some indicators =>
      match body { state with indicators } with
      | (.value status, inner) =>
          match inner.indicators.close status with
          | none => (.aborted, inner)
          | some indicators =>
              (.value status, { inner with indicators }.record (.evaluated name status))
      | left => left

theorem callHandler_opens {state : EvalState σ} {base : Node} {parents : List Node}
    (opens : state.indicators.Opens (base :: parents)) (procedure : ByteString) (kind : Action)
    (handler : Handler σ) (arguments : ParameterMap) (beneathNot : Bool) :
    ∃ indicators inner base',
      state.callHandler procedure kind handler arguments beneathNot =
        ((handler.run arguments state.context).outcome,
          { indicators
            context := (handler.run arguments state.context).context
            trace := state.trace ++ [.handlerCalled procedure kind beneathNot] }) ∧
      TreeOp.applyAll (handler.run arguments state.context).ops state.indicators =
        some indicators ∧
      indicators.Opens (inner ++ base' :: parents) ∧
      TreeOp.depthAfter 0 (handler.run arguments state.context).ops = some inner.length ∧
      base.GrowsTo IsHandlerName base' := by
  rcases Option.isSome_iff_exists.mp (handler.opsScoped arguments state.context) with
    ⟨after, runs⟩
  rcases TreeOp.onOpenAll_scoped 0 [] base runs rfl
    (handler.opsNames arguments state.context) (by simp) with
    ⟨inner, base', effect, length_eq, grows, -⟩
  rcases TreeOp.applyAll_of_onOpenAll opens effect with ⟨indicators, applied, opens'⟩
  refine ⟨indicators, inner, base', ?_, applied, opens', ?_, grows⟩
  · simp only [callHandler, applied, record]
  · rw [runs, length_eq]

section Within

variable {name : ByteString} {body : EvalState σ → Outcome Status × EvalState σ}
  {state inner : EvalState σ} {indicators : IndicatorsTree}

theorem within_closed {status : Status} {closed : IndicatorsTree}
    (pushed : state.indicators.push name = some indicators)
    (ran : body { state with indicators } = (.value status, inner))
    (closes : inner.indicators.close status = some closed) :
    state.within name body =
      (.value status, { inner with indicators := closed }.record (.evaluated name status)) := by
  simp only [within, pushed, ran, closes]

theorem within_stuck {status : Status} (pushed : state.indicators.push name = some indicators)
    (ran : body { state with indicators } = (.value status, inner))
    (stuck : inner.indicators.close status = none) :
    state.within name body = (.aborted, inner) := by
  simp only [within, pushed, ran, stuck]

theorem within_left {outcome : Outcome Status}
    (pushed : state.indicators.push name = some indicators)
    (ran : body { state with indicators } = (outcome, inner))
    (left : ∀ status, outcome ≠ .value status) : state.within name body = (outcome, inner) := by
  simp only [within, pushed, ran]
  cases outcome with
  | value status => exact absurd rfl (left status)
  | error failure => rfl
  | thrown what => rfl
  | aborted => rfl

end Within

end EvalState

namespace ProcedureMap

variable {σ : Type}

/-- The handler `EvaluateBuiltinProcedure` selects, and which of the two it is. -/
def select (actions : ProcedureActions σ) (action : Action) : Option (Action × Handler σ) :=
  match action with
  | .remediate =>
      match actions.remediate with
      | some handler => some (.remediate, handler)
      | none => actions.audit.map fun handler => (.audit, handler)
  | .audit => actions.audit.map fun handler => (.audit, handler)

end ProcedureMap

/-- The loop of `Evaluator::GetBuiltinProcedureArguments`. -/
def insertArguments (parameters : ParameterMap) (members : JsonObject) (result : ParameterMap) :
    Result ParameterMap :=
  match members with
  | [] => .ok result
  | (key, value) :: rest =>
      match value.getString with
      | none => .error { message := bytes "Argument type is not a string", code := Errno.EINVAL }
      | some text =>
          let inserted := result.insertIfNew key text
          match inserted[key]? with
          | some (36 :: reference) =>
              match parameters[reference]? with
              | none => .error { message := bytes "Unknown parameter", code := Errno.EINVAL }
              | some substitution =>
                  insertArguments parameters rest (inserted.insert key substitution)
          | _ => insertArguments parameters rest inserted

def getBuiltinProcedureArguments (parameters : ParameterMap) (value : JsonValue) :
    Result ParameterMap :=
  match value.getObject with
  | none => .error { message := bytes "invalid argument", code := Errno.EINVAL }
  | some members => insertArguments parameters members ∅

end OsConfig.ComplianceEngine
