import OsConfig.ComplianceEngine.Evaluator.Walk

/-!
# Remediation handlers in audit mode

Audits, and everything beneath a `not`, are meant to call no remediation
handler. For builtin procedures the selection of the handler sees to that. For
scripts it is left to a guard on the name stored in the closure, and the
closures of remediation functions store the name of the procedure without the
`Remediate` the guard looks for. The calls that get past the guard are exactly
the ones described by `ReachesRemediation`.
-/

namespace OsConfig.ComplianceEngine.Evaluator

variable {σ : Type}

/-- Calling the field of the `ce` table in audit mode runs a remediation handler: the field is
the remediation function of a procedure whose own name does not start with `Remediate`, and the
arguments can be read. -/
def ReachesRemediation (procedureMap : ProcedureMap σ) (field : ByteString)
    (arguments : List LuaValue) : Prop :=
  ∃ procedureName actions, procedureMap[procedureName]? = some actions ∧
    actions.remediate.isSome ∧ field = bytes "Remediate" ++ procedureName ∧
    procedureName.take 9 ≠ bytes "Remediate" ∧
    ∃ parameters, LuaEvaluator.readArguments arguments = .ok parameters

/-- A remediation handler was called: anywhere, or, if not `anywhere`, beneath a `not`. -/
def Remediates (anywhere : Bool) (event : Event) : Prop :=
  ∃ procedure beneathNot, event = .handlerCalled procedure .remediate beneathNot ∧
    (anywhere ∨ beneathNot)

/-- A script made a call that reaches a remediation handler: anywhere, or beneath a `not`. -/
def CallsRemediation (procedureMap : ProcedureMap σ) (anywhere : Bool) (event : Event) : Prop :=
  ∃ field arguments beneathNot, event = .luaCalled field arguments beneathNot ∧
    (anywhere ∨ beneathNot) ∧ ReachesRemediation procedureMap field arguments

/-- Remediation handlers were called exactly if scripts made calls that reach them. -/
def OnlyThroughScripts (procedureMap : ProcedureMap σ) (anywhere : Bool) (events : List Event) :
    Prop :=
  (∃ event ∈ events, Remediates anywhere event) ↔
    ∃ event ∈ events, CallsRemediation procedureMap anywhere event

/-- Where remediation handlers are not to be called, the action is an audit. -/
def Mode (anywhere : Bool) (action : Action) (beneathNot : Bool) : Prop :=
  anywhere ∨ beneathNot → action = .audit

section Events

variable (procedureMap : ProcedureMap σ) (anywhere : Bool)

@[simp]
theorem remediates_handlerCalled (procedure : ByteString) (kind : Action) (beneathNot : Bool) :
    Remediates anywhere (.handlerCalled procedure kind beneathNot) ↔
      kind = .remediate ∧ (anywhere ∨ beneathNot) := by
  constructor
  · rintro ⟨_, _, event_eq, counted⟩
    simp only [Event.handlerCalled.injEq] at event_eq
    rcases event_eq with ⟨-, rfl, rfl⟩
    exact ⟨rfl, counted⟩
  · rintro ⟨rfl, counted⟩
    exact ⟨procedure, beneathNot, rfl, counted⟩

@[simp]
theorem not_remediates_luaCalled (field : ByteString) (arguments : List LuaValue)
    (beneathNot : Bool) : ¬Remediates anywhere (.luaCalled field arguments beneathNot) := by
  simp [Remediates]

@[simp]
theorem not_remediates_evaluated (name : ByteString) (status : Status) :
    ¬Remediates anywhere (.evaluated name status) := by
  simp [Remediates]

@[simp]
theorem callsRemediation_luaCalled (field : ByteString) (arguments : List LuaValue)
    (beneathNot : Bool) :
    CallsRemediation procedureMap anywhere (.luaCalled field arguments beneathNot) ↔
      (anywhere ∨ beneathNot) ∧ ReachesRemediation procedureMap field arguments := by
  constructor
  · rintro ⟨_, _, _, event_eq, reaches⟩
    simp only [Event.luaCalled.injEq] at event_eq
    rcases event_eq with ⟨rfl, rfl, rfl⟩
    exact reaches
  · intro reaches
    exact ⟨field, arguments, beneathNot, rfl, reaches⟩

@[simp]
theorem not_callsRemediation_handlerCalled (procedure : ByteString) (kind : Action)
    (beneathNot : Bool) :
    ¬CallsRemediation procedureMap anywhere (.handlerCalled procedure kind beneathNot) := by
  simp [CallsRemediation]

@[simp]
theorem not_callsRemediation_evaluated (name : ByteString) (status : Status) :
    ¬CallsRemediation procedureMap anywhere (.evaluated name status) := by
  simp [CallsRemediation]

theorem onlyThroughScripts_traceProperty :
    TraceProperty (OnlyThroughScripts procedureMap anywhere) where
  nil := by simp [OnlyThroughScripts]
  append first second firstOnly secondOnly := by
    simp only [OnlyThroughScripts, List.mem_append, or_and_right, exists_or] at *
    rw [firstOnly, secondOnly]
  evaluated name status := by simp [OnlyThroughScripts]

end Events

theorem trace_callHandler (procedure : ByteString) (kind : Action) (handler : Handler σ)
    (arguments : ParameterMap) (beneathNot : Bool) (state : EvalState σ) :
    (state.callHandler procedure kind handler arguments beneathNot).2.trace =
      state.trace ++ [.handlerCalled procedure kind beneathNot] := by
  simp only [EvalState.callHandler]
  cases TreeOp.applyAll (handler.run arguments state.context).ops state.indicators with
  | none => rfl
  | some indicators => rfl

theorem adds_evaluateBuiltinProcedure (env : Environment σ) (parameters : ParameterMap)
    {anywhere : Bool} {action : Action} {beneathNot : Bool}
    (mode : Mode anywhere action beneathNot) (name : ByteString) (value : JsonValue) :
    Adds (OnlyThroughScripts env.procedureMap anywhere)
      (evaluateBuiltinProcedure env parameters name value action beneathNot) := by
  intro state
  have property := onlyThroughScripts_traceProperty env.procedureMap anywhere
  rcases evaluateBuiltinProcedure_cases env parameters name value action beneathNot state with
    ⟨failure, refused⟩ | ⟨actions, kind, handler, arguments, found, selected, called⟩
  · exact ⟨[], by simp [refused], property.nil⟩
  · rw [called]
    refine ⟨_, trace_callHandler name kind handler arguments beneathNot state, ?_⟩
    have harmless : ¬(kind = .remediate ∧ (anywhere ∨ beneathNot)) := by
      rintro ⟨rfl, counted⟩
      rw [mode counted] at selected
      simpa using (select_audit selected).1
    simp only [OnlyThroughScripts, List.mem_singleton, exists_eq_left,
      remediates_handlerCalled, not_callsRemediation_handlerCalled, iff_false]
    exact harmless

/-- A call through the `ce` table calls a remediation handler exactly if it reaches one. -/
theorem callProcedure_onlyThroughScripts {procedureMap : ProcedureMap σ} {anywhere : Bool}
    {action : Action} {beneathNot : Bool} (mode : Mode anywhere action beneathNot)
    (field : ByteString) (arguments : List LuaValue) (state : LuaEvaluator.CallState σ) :
    ∃ added, (LuaEvaluator.callProcedure procedureMap action beneathNot field arguments
        state).2.eval.trace = state.eval.trace ++ added ∧
      OnlyThroughScripts procedureMap anywhere added := by
  simp only [LuaEvaluator.callProcedure]
  cases looked : (LuaEvaluator.registerProcedures procedureMap).lookup field with
  | none =>
      refine ⟨[.luaCalled field arguments beneathNot], rfl, ?_⟩
      have unreachable : ¬ReachesRemediation procedureMap field arguments := by
        rintro ⟨name, actions, found, remediable, field_eq, -, -⟩
        rcases Option.isSome_iff_exists.mp remediable with ⟨handler, handler_eq⟩
        have registered := LuaEvaluator.lookup_registerProcedures.mpr
          ⟨name, actions, found,
            LuaEvaluator.mem_closures.mpr (.inr ⟨handler, handler_eq, field_eq, rfl⟩)⟩
        rw [looked] at registered
        simp at registered
      simp [OnlyThroughScripts, unreachable]
  | some closure =>
      rcases LuaEvaluator.lookup_registerProcedures.mp looked with
        ⟨name, actions, found, closure_mem⟩
      -- the function belongs to one procedure, so the name in `ReachesRemediation` is that one
      have reaches_iff : ReachesRemediation procedureMap field arguments ↔
          closure.kind = .remediate ∧ closure.procedureName.take 9 ≠ bytes "Remediate" ∧
            ∃ parameters, LuaEvaluator.readArguments arguments = .ok parameters := by
        constructor
        · rintro ⟨other, otherActions, otherFound, remediable, field_eq, unguarded, readable⟩
          rcases Option.isSome_iff_exists.mp remediable with ⟨handler, handler_eq⟩
          have same := LuaEvaluator.closures_unique found otherFound closure_mem
            (LuaEvaluator.mem_closures.mpr (.inr ⟨handler, handler_eq, field_eq, rfl⟩))
          rw [same]
          exact ⟨rfl, unguarded, readable⟩
        · rintro ⟨isRemediation, unguarded, readable⟩
          rcases LuaEvaluator.mem_closures.mp closure_mem with
            ⟨handler, -, -, rfl⟩ | ⟨handler, handler_eq, field_eq, rfl⟩
          · simp at isRemediation
          · exact ⟨name, actions, found, by simp [handler_eq], field_eq, unguarded, readable⟩
      simp only [LuaEvaluator.luaProcedureWrapper]
      split
      · rename_i guarded
        refine ⟨[.luaCalled field arguments beneathNot], rfl, ?_⟩
        simp [OnlyThroughScripts, reaches_iff, guarded.2]
      · rename_i unguarded
        cases readable : LuaEvaluator.readArguments arguments with
        | error message =>
            refine ⟨[.luaCalled field arguments beneathNot], rfl, ?_⟩
            simp [OnlyThroughScripts, reaches_iff, readable]
        | ok parameters =>
            refine ⟨[.luaCalled field arguments beneathNot,
              .handlerCalled closure.procedure closure.kind beneathNot], ?_, ?_⟩
            · simp only [trace_callHandler, EvalState.record, List.append_assoc, List.cons_append,
                List.nil_append]
            · have passes : anywhere ∨ beneathNot →
                  closure.procedureName.take 9 ≠ bytes "Remediate" := by
                intro counted named
                exact unguarded ⟨by rw [mode counted]; simp, named⟩
              simp only [OnlyThroughScripts, List.mem_cons, List.not_mem_nil, or_false,
                exists_eq_or_imp, exists_eq_left, not_remediates_luaCalled, false_or,
                remediates_handlerCalled, callsRemediation_luaCalled,
                not_callsRemediation_handlerCalled, or_false, reaches_iff]
              constructor
              · rintro ⟨isRemediation, counted⟩
                exact ⟨counted, isRemediation, passes counted, parameters, readable⟩
              · rintro ⟨counted, isRemediation, -, -⟩
                exact ⟨isRemediation, counted⟩

theorem trace_perform (request : Except String LuaEvaluator.Write)
    (state : LuaEvaluator.CallState σ) :
    (LuaEvaluator.perform request state).2.eval.trace = state.eval.trace := by
  cases request with
  | error message => rfl
  | ok write =>
      simp only [LuaEvaluator.perform]
      cases write.op.apply state.eval.indicators <;> rfl

theorem callCe_onlyThroughScripts {procedureMap : ProcedureMap σ} {anywhere : Bool}
    {action : Action} {beneathNot : Bool} (mode : Mode anywhere action beneathNot)
    (function : CeFunction) (arguments : List LuaValue) (state : LuaEvaluator.CallState σ) :
    ∃ added, (LuaEvaluator.callCe procedureMap action beneathNot function arguments
        state).2.eval.trace = state.eval.trace ++ added ∧
      OnlyThroughScripts procedureMap anywhere added := by
  have property := onlyThroughScripts_traceProperty procedureMap anywhere
  cases function with
  | procedure field => exact callProcedure_onlyThroughScripts mode field arguments state
  | indicators function => exact ⟨[], by simp [LuaEvaluator.callCe, trace_perform], property.nil⟩

/-- A whole script, by induction on its interactions. -/
theorem runScript_onlyThroughScripts {procedureMap : ProcedureMap σ} {anywhere : Bool}
    {action : Action} {beneathNot : Bool} (mode : Mode anywhere action beneathNot)
    (script : LuaScript σ) (state : LuaEvaluator.CallState σ) :
    ∃ added, (LuaEvaluator.runScript procedureMap action beneathNot script
        state).2.eval.trace = state.eval.trace ++ added ∧
      OnlyThroughScripts procedureMap anywhere added := by
  have property := onlyThroughScripts_traceProperty procedureMap anywhere
  induction script generalizing state with
  | returns values => exact ⟨[], by simp [LuaEvaluator.runScript], property.nil⟩
  | raises message => exact ⟨[], by simp [LuaEvaluator.runScript], property.nil⟩
  | host update next ih =>
      rw [LuaEvaluator.runScript]
      exact ih _ _
  | call function arguments next ih =>
      rcases callCe_onlyThroughScripts mode function arguments state with
        ⟨added, trace_eq, added_only⟩
      rw [LuaEvaluator.runScript]
      cases called : LuaEvaluator.callCe procedureMap action beneathNot function arguments
          state with
      | mk outcome after =>
          rw [called] at trace_eq
          cases outcome with
          | value result =>
              rcases ih result after with ⟨more, more_eq, more_only⟩
              refine ⟨added ++ more, ?_, property.append _ _ added_only more_only⟩
              rw [← List.append_assoc, ← trace_eq, ← more_eq]
          | error failure => exact ⟨added, trace_eq, added_only⟩
          | thrown what => exact ⟨added, trace_eq, added_only⟩
          | aborted => exact ⟨added, trace_eq, added_only⟩

theorem trace_readReturned (values : List LuaValue) (state : LuaEvaluator.CallState σ) :
    (LuaEvaluator.readReturned values state).2.trace = state.eval.trace := by
  rcases values with _ | ⟨first, rest⟩
  · rfl
  · cases first with
    | boolean isCompliant =>
        simp only [LuaEvaluator.readReturned]
        split
        · rfl
        · split <;> rfl
    | nil => rfl
    | other => rfl
    | table entries failure => rfl
    | number printed => rfl
    | string text convertsToNumber =>
        simp only [LuaEvaluator.readReturned]
        split
        · split <;> rfl
        · rfl

theorem adds_evaluateLua (env : Environment σ) (parameters : ParameterMap) {anywhere : Bool}
    {action : Action} {beneathNot : Bool} (mode : Mode anywhere action beneathNot)
    (value : JsonValue) :
    Adds (OnlyThroughScripts env.procedureMap anywhere)
      (evaluateLua env parameters value action beneathNot) := by
  intro state
  have property := onlyThroughScripts_traceProperty env.procedureMap anywhere
  rcases evaluateLua_cases env parameters value action beneathNot state with
    ⟨failure, refused⟩ | ⟨script, evaluated⟩
  · exact ⟨[], by simp [refused], property.nil⟩
  · rw [evaluated]
    cases loaded : env.luaLoad script.cString state.context with
    | error message => exact ⟨[], by simp [LuaEvaluator.evaluate, loaded], property.nil⟩
    | ok program =>
        rcases runScript_onlyThroughScripts mode program
          { eval := state, indicatorsDepth := 0 } with ⟨added, trace_eq, added_only⟩
        refine ⟨added, ?_, added_only⟩
        rw [← trace_eq]
        cases ran : LuaEvaluator.runScript env.procedureMap action beneathNot program
            { eval := state, indicatorsDepth := 0 } with
        | mk scriptEnd final =>
            simp only [LuaEvaluator.evaluate, loaded, ran]
            cases scriptEnd with
            | returned values => exact trace_readReturned values final
            | raised message => rfl
            | thrown what => rfl
            | aborted => rfl

theorem execute_onlyThroughScripts {anywhere : Bool} {action : Action}
    (mode : Mode anywhere action false) (env : Environment σ) (parameters : ParameterMap)
    (ruleName : ByteString) (rule : JsonValue) (context : σ) :
    OnlyThroughScripts env.procedureMap anywhere
      (execute env parameters ruleName rule action context).2.trace := by
  have adds := Adds.evaluateProcedure (onlyThroughScripts_traceProperty env.procedureMap anywhere)
    (Mode anywhere) (fun _ => rfl)
    (fun _ _ allowed => adds_evaluateBuiltinProcedure env parameters allowed)
    (fun _ _ allowed => adds_evaluateLua env parameters allowed) rule action false mode
  rcases adds (initial ruleName context) with ⟨added, trace_eq, added_only⟩
  have trace_execute : (execute env parameters ruleName rule action context).2.trace = added := by
    rw [execute]
    cases ran : evaluateProcedure env parameters rule action false (initial ruleName context) with
    | mk outcome state =>
        rw [ran] at trace_eq
        cases outcome with
        | value status =>
            simp only
            split <;> exact trace_eq
        | error failure => exact trace_eq
        | thrown what => exact trace_eq
        | aborted => exact trace_eq
  rw [trace_execute]
  exact added_only

theorem trace_executeAudit (env : Environment σ) (formatter : PayloadFormatter)
    (parameters : ParameterMap) (ruleName : ByteString) (rule : JsonValue) (context : σ) :
    (executeAudit env formatter parameters ruleName rule context).2.trace =
      (execute env parameters ruleName rule .audit context).2.trace := by
  rw [executeAudit]
  cases execute env parameters ruleName rule .audit context with
  | mk outcome state =>
      cases outcome with
      | value status =>
          simp only
          split <;> rfl
      | error failure => rfl
      | thrown what => rfl
      | aborted => rfl

/-- Audits call no remediation handler exactly if no script makes a call that reaches one, and
remediations call none beneath a `not` exactly if no script beneath a `not` does. -/
theorem remediates_iff_callsRemediation (env : Environment σ) (formatter : PayloadFormatter)
    (parameters : ParameterMap) (ruleName : ByteString) (rule : JsonValue) (context : σ) :
    ((∀ event ∈ (executeAudit env formatter parameters ruleName rule context).2.trace,
        ¬Remediates true event) ↔
      ∀ event ∈ (executeAudit env formatter parameters ruleName rule context).2.trace,
        ¬CallsRemediation env.procedureMap true event) ∧
    ((∀ event ∈ (executeRemediation env parameters ruleName rule context).2.trace,
        ¬Remediates false event) ↔
      ∀ event ∈ (executeRemediation env parameters ruleName rule context).2.trace,
        ¬CallsRemediation env.procedureMap false event) := by
  have complement : ∀ {anywhere : Bool} {events : List Event},
      OnlyThroughScripts env.procedureMap anywhere events →
      ((∀ event ∈ events, ¬Remediates anywhere event) ↔
        ∀ event ∈ events, ¬CallsRemediation env.procedureMap anywhere event) := by
    intro anywhere events only
    have negated := not_congr only
    push Not at negated
    exact negated
  constructor
  · rw [trace_executeAudit]
    exact complement
      (execute_onlyThroughScripts (fun _ => rfl) env parameters ruleName rule context)
  · apply complement
    apply execute_onlyThroughScripts
    simp [Mode]

/-- A registered remediation that succeeds, and a script that calls it. -/
def remediatingEnvironment : Environment Unit where
  procedureMap := (∅ : ProcedureMap Unit).insert (bytes "FilePermissions")
    { audit := some (.returning (.value .nonCompliant))
      remediate := some (.returning (.value .compliant)) }
  luaLoad _ _ := .ok (.call (.procedure (bytes "RemediateFilePermissions")) [] fun _ =>
    .returns [.boolean true])

/-- The script of `remediatingEnvironment` remediates during an audit. -/
theorem audit_remediates_through_script :
    ¬∀ event ∈ (executeAudit remediatingEnvironment .json ∅ (bytes "rule")
        (.object [(luaName, .object [(bytes "script",
          .string (bytes "ce.RemediateFilePermissions() return true"))])]) ()).2.trace,
      ¬Remediates true event := by
  intro never
  have trace_eq : (executeAudit remediatingEnvironment .json ∅ (bytes "rule")
      (.object [(luaName, .object [(bytes "script",
        .string (bytes "ce.RemediateFilePermissions() return true"))])]) ()).2.trace =
        [.luaCalled (bytes "RemediateFilePermissions") [] false,
          .handlerCalled (bytes "FilePermissions") .remediate false,
          .evaluated luaName .compliant] := by
    rfl
  rw [trace_eq] at never
  apply never (.handlerCalled (bytes "FilePermissions") .remediate false) (by simp)
  exact ⟨_, _, rfl, .inl rfl⟩

end OsConfig.ComplianceEngine.Evaluator
