import OsConfig.ComplianceEngine.Evaluator

/-!
# Walking a rule

What the proofs about the evaluator share: an induction principle that follows
the way a rule is walked, and the evaluation of a rule node as a body between a
push and a close. A property of the events that a run adds to the trace carries
over from the leaves to whole rules; the leaves are the builtin procedures and
the scripts.
-/

namespace OsConfig

/-- Induction over rules: the operand of a `not` is the value of the first member, and the
operands of a list operator are the items of that value. -/
theorem JsonValue.ruleInduction {motive : JsonValue → Prop}
    (step : ∀ rule, (∀ name value rest, rule = .object ((name, value) :: rest) →
      motive value ∧ ∀ items, value = .array items → ∀ item ∈ items, motive item) → motive rule)
    (rule : JsonValue) : motive rule := by
  apply step
  intro name value rest rule_eq
  have value_smaller : sizeOf value < sizeOf rule := by
    subst rule_eq
    simp only [JsonValue.object.sizeOf_spec, List.cons.sizeOf_spec, Prod.mk.sizeOf_spec]
    omega
  refine ⟨ruleInduction step value, ?_⟩
  intro items value_eq item item_mem
  have item_smaller : sizeOf item < sizeOf rule := by
    have item_lt := List.sizeOf_lt_of_mem item_mem
    subst value_eq
    simp only [JsonValue.array.sizeOf_spec] at value_smaller
    omega
  exact ruleInduction step item
termination_by sizeOf rule

namespace ComplianceEngine.Evaluator

variable {σ : Type}

/-- What `EvaluateProcedure` does between pushing the name of a rule node and closing it. -/
def ruleBody (env : Environment σ) (parameters : ParameterMap) (name : ByteString)
    (value : JsonValue) (action : Action) (beneathNot : Bool) :
    EvalState σ → Outcome Status × EvalState σ :=
  if name = anyOfName then
    evaluateList env parameters value action beneathNot .anyOf
  else if name = allOfName then
    evaluateList env parameters value action beneathNot .allOf
  else if name = notName then
    evaluateNot value (evaluateProcedure env parameters value .audit true)
  else if name = luaName then
    evaluateLua env parameters value action beneathNot
  else
    evaluateBuiltinProcedure env parameters name value action beneathNot

theorem evaluateProcedure_object (env : Environment σ) (parameters : ParameterMap)
    (name : ByteString) (value : JsonValue) (rest : List (ByteString × JsonValue))
    (action : Action) (beneathNot : Bool) :
    evaluateProcedure env parameters (.object ((name, value) :: rest)) action beneathNot =
      fun state => state.within name (ruleBody env parameters name value action beneathNot) := by
  funext state
  rw [evaluateProcedure, ruleBody]
  split
  · rfl
  · split
    · rfl
    · split
      · rfl
      · split <;> rfl

theorem evaluateProcedure_refused (rule : JsonValue)
    (shape : ∀ name value rest, rule ≠ .object ((name, value) :: rest)) :
    ∃ failure, ∀ {ρ : Type} (env : Environment ρ) parameters action beneathNot state,
      evaluateProcedure env parameters rule action beneathNot state = (.error failure, state) := by
  cases rule with
  | object members =>
      rcases members with _ | ⟨⟨name, value⟩, rest⟩
      · exact ⟨_, fun _ _ _ _ _ => by rw [evaluateProcedure]⟩
      · exact absurd rfl (shape name value rest)
  | null => exact ⟨_, fun _ _ _ _ _ => by rw [evaluateProcedure] <;> simp⟩
  | boolean flag => exact ⟨_, fun _ _ _ _ _ => by rw [evaluateProcedure] <;> simp⟩
  | number printed => exact ⟨_, fun _ _ _ _ _ => by rw [evaluateProcedure] <;> simp⟩
  | string text => exact ⟨_, fun _ _ _ _ _ => by rw [evaluateProcedure] <;> simp⟩
  | array items => exact ⟨_, fun _ _ _ _ _ => by rw [evaluateProcedure] <;> simp⟩

theorem evaluateList_array (env : Environment σ) (parameters : ParameterMap)
    (items : List JsonValue) (action : Action) (beneathNot : Bool) (listAction : ListAction)
    (state : EvalState σ) :
    evaluateList env parameters (.array items) action beneathNot listAction state =
      evaluateItems env parameters items action beneathNot listAction listAction.initial state := by
  rw [evaluateList]

theorem evaluateList_refused (value : JsonValue) (listAction : ListAction)
    (shape : ∀ items, value ≠ .array items) :
    ∃ failure, ∀ {ρ : Type} (env : Environment ρ) parameters action beneathNot state,
      evaluateList env parameters value action beneathNot listAction state =
        (.error failure, state) := by
  cases value with
  | array items => exact absurd rfl (shape items)
  | null => exact ⟨_, fun _ _ _ _ _ => by rw [evaluateList]; simp⟩
  | boolean flag => exact ⟨_, fun _ _ _ _ _ => by rw [evaluateList]; simp⟩
  | number printed => exact ⟨_, fun _ _ _ _ _ => by rw [evaluateList]; simp⟩
  | string text => exact ⟨_, fun _ _ _ _ _ => by rw [evaluateList]; simp⟩
  | object members => exact ⟨_, fun _ _ _ _ _ => by rw [evaluateList]; simp⟩

theorem evaluateNot_value {value : JsonValue}
    {evaluateOperand : EvalState σ → Outcome Status × EvalState σ} {state state' : EvalState σ}
    {status : Status} (ran : evaluateNot value evaluateOperand state = (.value status, state')) :
    ∃ operandStatus, evaluateOperand state = (.value operandStatus, state') ∧
      status = operandStatus.negate := by
  simp only [evaluateNot] at ran
  cases object_eq : value.getObject with
  | none => simp [object_eq] at ran
  | some members =>
      simp only [object_eq] at ran
      cases operand_eq : evaluateOperand state with
      | mk outcome inner =>
          rw [operand_eq] at ran
          cases outcome with
          | error failure => simp at ran
          | thrown what => simp at ran
          | aborted => simp at ran
          | value operandStatus =>
              refine ⟨operandStatus, ?_⟩
              cases operandStatus <;>
                simp only [Prod.mk.injEq, Outcome.value.injEq] at ran <;>
                simp [ran.1.symm, ran.2, Status.negate]

theorem select_audit {actions : ProcedureActions σ} {kind : Action} {handler : Handler σ}
    (selected : ProcedureMap.select actions .audit = some (kind, handler)) :
    kind = .audit ∧ actions.audit = some handler := by
  simp only [ProcedureMap.select, Option.map_eq_some_iff, Prod.mk.injEq] at selected
  rcases selected with ⟨found, audit_eq, rfl, rfl⟩
  exact ⟨rfl, audit_eq⟩

theorem evaluateBuiltinProcedure_cases (env : Environment σ) (parameters : ParameterMap)
    (name : ByteString) (value : JsonValue) (action : Action) (beneathNot : Bool)
    (state : EvalState σ) :
    (∃ failure, evaluateBuiltinProcedure env parameters name value action beneathNot state =
      (.error failure, state)) ∨
    (∃ actions kind handler arguments, env.procedureMap[name]? = some actions ∧
      ProcedureMap.select actions action = some (kind, handler) ∧
      evaluateBuiltinProcedure env parameters name value action beneathNot state =
        state.callHandler name kind handler arguments beneathNot) := by
  simp only [evaluateBuiltinProcedure]
  cases value.getObject with
  | none => exact .inl ⟨_, rfl⟩
  | some members =>
      cases getBuiltinProcedureArguments parameters value with
      | error failure => exact .inl ⟨_, rfl⟩
      | ok arguments =>
          cases found : env.procedureMap[name]? with
          | none => exact .inl ⟨_, rfl⟩
          | some actions =>
              cases selected : ProcedureMap.select actions action with
              | none =>
                  left
                  simp only [selected]
                  exact ⟨_, rfl⟩
              | some choice =>
                  right
                  rcases choice with ⟨kind, handler⟩
                  refine ⟨actions, kind, handler, arguments, rfl, selected, ?_⟩
                  simp only [selected]

/-- A script is refused before it runs, or run. -/
theorem evaluateLua_cases (env : Environment σ) (parameters : ParameterMap) (value : JsonValue)
    (action : Action) (beneathNot : Bool) (state : EvalState σ) :
    (∃ failure, evaluateLua env parameters value action beneathNot state =
      (.error failure, state)) ∨
    (∃ script, evaluateLua env parameters value action beneathNot state =
      LuaEvaluator.evaluate env.procedureMap env.luaLoad script action beneathNot state) := by
  simp only [evaluateLua]
  cases value.getObject with
  | none => exact .inl ⟨_, rfl⟩
  | some members =>
      cases getBuiltinProcedureArguments parameters value with
      | error failure => exact .inl ⟨_, rfl⟩
      | ok arguments =>
          cases found : arguments[bytes "script"]? with
          | none =>
              left
              simp only [found]
              exact ⟨_, rfl⟩
          | some script =>
              right
              simp only [found]
              exact ⟨script, rfl⟩

/-- The events a computation adds to the trace satisfy `good`. -/
def Adds (good : List Event → Prop) {α : Type} (body : EvalState σ → Outcome α × EvalState σ) :
    Prop :=
  ∀ state, ∃ added, (body state).2.trace = state.trace ++ added ∧ good added

/-- A property of event lists that the evaluator itself cannot break. -/
structure TraceProperty (good : List Event → Prop) : Prop where
  nil : good []
  append : ∀ first second, good first → good second → good (first ++ second)
  evaluated : ∀ name status, good [.evaluated name status]

section Trace

variable {good : List Event → Prop} (property : TraceProperty good)

include property

theorem Adds.within {body : EvalState σ → Outcome Status × EvalState σ} (adds : Adds good body)
    (name : ByteString) : Adds good fun state => state.within name body := by
  intro state
  cases pushed : state.indicators.push name with
  | none => exact ⟨[], by simp [EvalState.within, pushed], property.nil⟩
  | some indicators =>
      rcases adds { state with indicators } with ⟨added, trace_eq, added_good⟩
      cases ran : body { state with indicators } with
      | mk outcome inner =>
          rw [ran] at trace_eq
          by_cases returned : ∃ status, outcome = .value status
          · rcases returned with ⟨status, rfl⟩
            cases closes : inner.indicators.close status with
            | none =>
                simp only [EvalState.within_stuck pushed ran closes]
                exact ⟨added, trace_eq, added_good⟩
            | some closed =>
                simp only [EvalState.within_closed pushed ran closes]
                refine ⟨added ++ [.evaluated name status], ?_, ?_⟩
                · rw [← List.append_assoc, ← trace_eq]
                  rfl
                · exact property.append _ _ added_good (property.evaluated name status)
          · have left : ∀ status, outcome ≠ .value status :=
              fun status outcome_eq => returned ⟨status, outcome_eq⟩
            simp only [EvalState.within_left pushed ran left]
            exact ⟨added, trace_eq, added_good⟩

theorem Adds.evaluateNot {evaluateOperand : EvalState σ → Outcome Status × EvalState σ}
    (adds : Adds good evaluateOperand) (value : JsonValue) :
    Adds good (Evaluator.evaluateNot value evaluateOperand) := by
  intro state
  simp only [Evaluator.evaluateNot]
  cases value.getObject with
  | none => exact ⟨[], by simp, property.nil⟩
  | some members =>
      rcases adds state with ⟨added, trace_eq, added_good⟩
      refine ⟨added, ?_, added_good⟩
      rw [← trace_eq]
      cases evaluateOperand state with
      | mk outcome inner =>
          cases outcome with
          | value status => cases status <;> rfl
          | error failure => rfl
          | thrown what => rfl
          | aborted => rfl

theorem Adds.evaluateItems {env : Environment σ} {parameters : ParameterMap} {action : Action}
    {beneathNot : Bool} {items : List JsonValue}
    (adds : ∀ item ∈ items,
      Adds good (evaluateProcedure env parameters item action beneathNot))
    (listAction : ListAction) (accumulated : Status) :
    Adds good (evaluateItems env parameters items action beneathNot listAction accumulated) := by
  induction items generalizing accumulated with
  | nil =>
      intro state
      exact ⟨[], by simp [Evaluator.evaluateItems], property.nil⟩
  | cons item rest ih =>
      intro state
      rcases adds item (by simp) state with ⟨added, trace_eq, added_good⟩
      rw [Evaluator.evaluateItems]
      cases result_eq : evaluateProcedure env parameters item action beneathNot state with
      | mk outcome inner =>
          rw [result_eq] at trace_eq
          cases outcome with
          | value status =>
              simp only
              split
              · exact ⟨added, trace_eq, added_good⟩
              · have rest_adds := ih fun other other_mem => adds other (by simp [other_mem])
                rcases rest_adds (if status = .notApplicable then .notApplicable else accumulated)
                  inner with ⟨more, more_eq, more_good⟩
                refine ⟨added ++ more, ?_, property.append _ _ added_good more_good⟩
                rw [more_eq, trace_eq, List.append_assoc]
          | error failure => exact ⟨added, trace_eq, added_good⟩
          | thrown what => exact ⟨added, trace_eq, added_good⟩
          | aborted => exact ⟨added, trace_eq, added_good⟩

/-- What the leaves of rules add to the trace carries over to rules. The action of a leaf and
whether it is beneath a `not` satisfy `mode`, which holds for audits beneath a `not`. -/
theorem Adds.evaluateProcedure {env : Environment σ} {parameters : ParameterMap}
    (mode : Action → Bool → Prop) (audits : mode .audit true)
    (builtin : ∀ action beneathNot, mode action beneathNot → ∀ name value,
      Adds good (evaluateBuiltinProcedure env parameters name value action beneathNot))
    (lua : ∀ action beneathNot, mode action beneathNot → ∀ value,
      Adds good (evaluateLua env parameters value action beneathNot)) (rule : JsonValue) :
    ∀ action beneathNot, mode action beneathNot →
      Adds good (evaluateProcedure env parameters rule action beneathNot) := by
  induction rule using JsonValue.ruleInduction with
  | step rule ih =>
      intro action beneathNot allowed
      by_cases shape : ∃ name value rest, rule = .object ((name, value) :: rest)
      · rcases shape with ⟨name, value, rest, rule_eq⟩
        rcases ih name value rest rule_eq with ⟨operand_adds, items_add⟩
        have list_adds : ∀ listAction,
            Adds good (evaluateList env parameters value action beneathNot listAction) := by
          intro listAction
          by_cases isArray : ∃ items, value = .array items
          · rcases isArray with ⟨items, rfl⟩
            intro state
            rw [evaluateList_array]
            exact Adds.evaluateItems property
              (fun item item_mem => items_add items rfl item item_mem action beneathNot allowed)
              listAction listAction.initial state
          · intro state
            rcases evaluateList_refused value listAction
              (fun items value_eq => isArray ⟨items, value_eq⟩) with ⟨failure, refused⟩
            exact ⟨[], by simp [refused], property.nil⟩
        subst rule_eq
        rw [evaluateProcedure_object]
        apply Adds.within property
        rw [ruleBody]
        split
        · exact list_adds .anyOf
        · split
          · exact list_adds .allOf
          · split
            · exact Adds.evaluateNot property (operand_adds .audit true audits) value
            · split
              · exact lua action beneathNot allowed value
              · exact builtin action beneathNot allowed name value
      · rcases evaluateProcedure_refused rule
          (fun name value rest rule_eq => shape ⟨name, value, rest, rule_eq⟩) with
          ⟨failure, refused⟩
        intro state
        exact ⟨[], by simp [refused], property.nil⟩

end Trace

end ComplianceEngine.Evaluator

end OsConfig
