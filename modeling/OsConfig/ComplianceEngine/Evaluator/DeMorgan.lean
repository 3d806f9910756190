import OsConfig.ComplianceEngine.Evaluator.Observation

/-!
# De Morgan's laws for audits

A negated `allOf` and the `anyOf` of the negations stop at the same operand: the
loops run in lockstep, with the accumulated status of one the negation of that
of the other. So the two audits end the same way, leave the same context behind
and call the same builtin procedures with the same arguments in the same order,
whatever the handlers and scripts do. The calls are read off a log that every
handler writes to the context; writing it changes nothing else.

Only the trees differ. A formatter may give up on a tree that a script or an
unbalanced handler has spoiled, so that an audit returns is stated for balanced
handlers and rules without scripts.
-/

namespace OsConfig.ComplianceEngine

variable {σ : Type}

/-- A call of a builtin procedure: one of its handlers, with arguments. -/
structure HandlerCall where
  procedure : ByteString
  kind : Action
  arguments : ParameterMap

/-- The handler, writing its calls to the log. -/
def Handler.logging (procedure : ByteString) (kind : Action) (handler : Handler σ) :
    Handler (σ × List HandlerCall) where
  run arguments context :=
    { outcome := (handler.run arguments context.1).outcome
      ops := (handler.run arguments context.1).ops
      context := ((handler.run arguments context.1).context,
        context.2 ++ [{ procedure, kind, arguments }]) }
  opsScoped arguments context := handler.opsScoped arguments context.1
  opsNames arguments context := handler.opsNames arguments context.1

def ProcedureActions.logging (procedure : ByteString) (actions : ProcedureActions σ) :
    ProcedureActions (σ × List HandlerCall) where
  audit := actions.audit.map (Handler.logging procedure .audit)
  remediate := actions.remediate.map (Handler.logging procedure .remediate)

def LuaScript.logging : LuaScript σ → LuaScript (σ × List HandlerCall)
  | .returns values => .returns values
  | .raises message => .raises message
  | .host update next =>
      .host (fun context => (update context.1, context.2)) fun context => (next context.1).logging
  | .call function arguments next => .call function arguments fun result => (next result).logging

def Environment.logging (env : Environment σ) : Environment (σ × List HandlerCall) where
  procedureMap := env.procedureMap.map ProcedureActions.logging
  luaLoad script context := (env.luaLoad script context.1).map LuaScript.logging

def Logs (context : σ) (logged : σ × List HandlerCall) : Prop :=
  logged.1 = context

namespace Evaluator

/-- The calls of builtin procedures that an evaluation makes, in order. -/
def handlerCalls (env : Environment σ) (parameters : ParameterMap) (ruleName : ByteString)
    (rule : JsonValue) (action : Action) (context : σ) : List HandlerCall :=
  (execute env.logging parameters ruleName rule action (context, [])).2.context.2

def notRule (rule : JsonValue) : JsonValue :=
  .object [(notName, rule)]

def listRule (listAction : ListAction) (operands : List JsonValue) : JsonValue :=
  .object [(listAction.name, .array operands)]

def ListAction.dual : ListAction → ListAction
  | .anyOf => .allOf
  | .allOf => .anyOf

def IsRule (rule : JsonValue) : Prop :=
  rule.getObject.isSome

section Laws

variable (env : Environment σ) (parameters : ParameterMap) (beneathNot : Bool)

theorem evaluateProcedure_notRule (rule : JsonValue) (action : Action) :
    evaluateProcedure env parameters (notRule rule) action beneathNot =
      fun state => state.within notName
        (evaluateNot rule (evaluateProcedure env parameters rule .audit true)) := by
  rw [notRule, evaluateProcedure_object]
  have body_eq : ruleBody env parameters notName rule action beneathNot =
      evaluateNot rule (evaluateProcedure env parameters rule .audit true) := by
    rw [ruleBody, if_neg (by decide), if_neg (by decide), if_pos rfl]
  rw [body_eq]

theorem evaluateProcedure_listRule (listAction : ListAction) (operands : List JsonValue)
    (action : Action) :
    evaluateProcedure env parameters (listRule listAction operands) action beneathNot =
      fun state => state.within listAction.name
        (evaluateItems env parameters operands action beneathNot listAction
          listAction.initial) := by
  rw [listRule, evaluateProcedure_object]
  have body_eq : ruleBody env parameters listAction.name (.array operands) action beneathNot =
      evaluateItems env parameters operands action beneathNot listAction listAction.initial := by
    funext state
    rw [← evaluateList_array]
    cases listAction with
    | anyOf => rw [ruleBody, if_pos (by rfl)]
    | allOf => rw [ruleBody, if_neg (by decide), if_pos (by rfl)]
  rw [body_eq]

/-- Beneath a `not`, a rule returns the negation of what it returns. -/
theorem notRule_mirrors {rule : JsonValue} (isRule : IsRule rule) (beneathNot' : Bool) :
    Mirrors Eq Status.negate (evaluateProcedure env parameters rule .audit beneathNot)
      (evaluateProcedure env parameters (notRule rule) .audit beneathNot') := by
  rcases Option.isSome_iff_exists.mp isRule with ⟨members, object_eq⟩
  rw [evaluateProcedure_notRule]
  apply Mirrors.within_right
  exact (evaluateProcedure_mirrors env.related_refl parameters rule .audit beneathNot
    true).evaluateNot_right object_eq

/-- The loops over the operands and over their negations run in lockstep. -/
theorem evaluateItems_notRule_mirrors (listAction : ListAction) {operands : List JsonValue}
    (areRules : ∀ operand ∈ operands, IsRule operand) (beneathNot' : Bool) :
    Mirrors Eq Status.negate
      (evaluateItems env parameters operands .audit beneathNot listAction listAction.initial)
      (evaluateItems env parameters (operands.map notRule) .audit beneathNot' listAction.dual
        listAction.dual.initial) := by
  have injective : Function.Injective Status.negate := by
    intro left right equal
    cases left <;> cases right <;> simp_all [Status.negate]
  have decides : Status.negate listAction.decisive = listAction.dual.decisive := by
    cases listAction <;> rfl
  have initial_eq : listAction.dual.initial = Status.negate listAction.initial := by
    cases listAction <;> rfl
  rw [initial_eq]
  apply Mirrors.evaluateItems injective rfl decides
  rw [List.forall₂_map_right_iff, List.forall₂_same]
  intro operand operand_mem
  exact notRule_mirrors env parameters beneathNot (areRules operand operand_mem) beneathNot'

theorem deMorgan_mirrors (listAction : ListAction) {operands : List JsonValue}
    (areRules : ∀ operand ∈ operands, IsRule operand) (beneathNot' : Bool) :
    Mirrors Eq id
      (evaluateProcedure env parameters (notRule (listRule listAction operands)) .audit beneathNot)
      (evaluateProcedure env parameters (listRule listAction.dual (operands.map notRule)) .audit
        beneathNot') := by
  rw [evaluateProcedure_notRule, evaluateProcedure_listRule, evaluateProcedure_listRule]
  apply Mirrors.within_left
  apply Mirrors.within_right
  have loops := evaluateItems_notRule_mirrors env parameters true listAction areRules beneathNot'
  have negated := (loops.within_left listAction.name).evaluateNot_left
    (show (listRule listAction operands).getObject = some _ from rfl)
  rwa [Status.negate_comp_negate] at negated

theorem doubleNegation_mirrors {rule : JsonValue} (isRule : IsRule rule) (beneathNot' : Bool) :
    Mirrors Eq id (evaluateProcedure env parameters (notRule (notRule rule)) .audit beneathNot)
      (evaluateProcedure env parameters rule .audit beneathNot') := by
  rcases Option.isSome_iff_exists.mp isRule with ⟨members, object_eq⟩
  rw [evaluateProcedure_notRule, evaluateProcedure_notRule]
  have operand := evaluateProcedure_mirrors env.related_refl parameters rule .audit true beneathNot'
  have negated := (operand.evaluateNot_left object_eq).within_left notName
  apply Mirrors.within_left
  have twice := negated.evaluateNot_left (show (notRule rule).getObject = some _ from rfl)
  rwa [Function.id_comp, Status.negate_comp_negate] at twice

end Laws

theorem luaFree_notRule (rule : JsonValue) : luaFree (notRule rule) = luaFree rule := by
  rw [notRule, luaFree, if_neg (by decide), if_neg (by decide), if_pos rfl]

theorem luaFree_listRule (listAction : ListAction) (operands : List JsonValue) :
    luaFree (listRule listAction operands) = luaFreeItems operands := by
  rw [listRule, luaFree, if_neg (by cases listAction <;> decide),
    if_pos (by cases listAction <;> decide), luaFreeOperands]

theorem luaFree_deMorgan (listAction : ListAction) (operands : List JsonValue) :
    luaFree (listRule listAction.dual (operands.map notRule)) =
      luaFree (notRule (listRule listAction operands)) := by
  rw [luaFree_notRule, luaFree_listRule, luaFree_listRule]
  induction operands with
  | nil => rfl
  | cons operand rest ih => simp [luaFreeItems, luaFree_notRule, ih]

section Audits

variable {env : Environment σ} {parameters : ParameterMap} {ruleName : ByteString} {context : σ}

theorem executeAudit_error_iff (formatter : PayloadFormatter) (rule : JsonValue)
    (failure : Error) :
    (executeAudit env formatter parameters ruleName rule context).1 = .error failure ↔
      (execute env parameters ruleName rule .audit context).1 = .error failure := by
  simp only [executeAudit]
  cases execute env parameters ruleName rule .audit context with
  | mk outcome state =>
      cases outcome with
      | value status =>
          simp only
          cases formatter.format state.indicators <;> simp
      | error failure => simp
      | thrown what => simp
      | aborted => simp

theorem executeAudit_returns_iff (balanced : env.HandlersBalanced) {rule : JsonValue}
    (free : luaFree rule) (formatter : PayloadFormatter) (status : Status) :
    (∃ payload, (executeAudit env formatter parameters ruleName rule context).1 =
        .value { status, payload }) ↔
      (execute env parameters ruleName rule .audit context).1 = .value status := by
  constructor
  · rintro ⟨payload, audited⟩
    rcases executeAudit_eq_value audited with ⟨state, ran, -⟩
    rw [ran]
  · intro returned
    have ran : execute env parameters ruleName rule .audit context =
        (.value status, (execute env parameters ruleName rule .audit context).2) :=
      Prod.ext returned rfl
    rcases execute_records balanced free ran with ⟨node, indicators_eq, records, -, -⟩
    exact executeAudit_of_shaped ran (by rw [indicators_eq])
      (everywhere_shaped_root records.shaped) formatter

end Audits

/-- The audits of the two rules cannot be told apart, the payload aside. -/
structure SameAudit (env : Environment σ) (parameters : ParameterMap) (ruleName : ByteString)
    (context : σ) (rule rule' : JsonValue) : Prop where
  outcome : (execute env parameters ruleName rule' .audit context).1 =
    (execute env parameters ruleName rule .audit context).1
  context_eq : (execute env parameters ruleName rule' .audit context).2.context =
    (execute env parameters ruleName rule .audit context).2.context
  calls : handlerCalls env parameters ruleName rule' .audit context =
    handlerCalls env parameters ruleName rule .audit context
  failure : ∀ formatter failure,
    (executeAudit env formatter parameters ruleName rule context).1 = .error failure ↔
      (executeAudit env formatter parameters ruleName rule' context).1 = .error failure
  status : ∀ formatter result result',
    (executeAudit env formatter parameters ruleName rule context).1 = .value result →
    (executeAudit env formatter parameters ruleName rule' context).1 = .value result' →
      result'.status = result.status
  /-- A status is returned for both rules or for none, unless a formatter gives up. -/
  returns : env.HandlersBalanced → luaFree rule → ∀ formatter status,
    (∃ payload, (executeAudit env formatter parameters ruleName rule context).1 =
        .value { status, payload }) ↔
      ∃ payload, (executeAudit env formatter parameters ruleName rule' context).1 =
        .value { status, payload }

theorem sameAudit_of_mirrors {parameters : ParameterMap} {rule rule' : JsonValue}
    (mirrors : ∀ {ρ : Type} (env : Environment ρ),
      Mirrors Eq id (evaluateProcedure env parameters rule .audit false)
        (evaluateProcedure env parameters rule' .audit false))
    (free : luaFree rule' = luaFree rule) (env : Environment σ) (ruleName : ByteString)
    (context : σ) : SameAudit env parameters ruleName context rule rule' := by
  have observed : ∀ {ρ : Type} (env : Environment ρ) context,
      (execute env parameters ruleName rule' .audit context).1 =
          (execute env parameters ruleName rule .audit context).1 ∧
        (execute env parameters ruleName rule .audit context).2.context =
          (execute env parameters ruleName rule' .audit context).2.context :=
    fun env context => execute_mirrors (mirrors env) ruleName rfl
  rcases observed env context with ⟨same_outcome, same_context⟩
  refine ⟨same_outcome, same_context.symm, ?_, ?_, ?_, ?_⟩
  · rw [handlerCalls, handlerCalls, (observed env.logging (context, [])).2]
  · intro formatter failure
    rw [executeAudit_error_iff, executeAudit_error_iff, same_outcome]
  · intro formatter result result' audited audited'
    rcases executeAudit_eq_value audited with ⟨state, ran, -⟩
    rcases executeAudit_eq_value audited' with ⟨state', ran', -⟩
    rw [ran, ran'] at same_outcome
    exact Outcome.value.inj same_outcome
  · intro balanced rule_free formatter status
    rw [executeAudit_returns_iff balanced rule_free,
      executeAudit_returns_iff balanced (by rwa [free]), same_outcome]

/-- Negating a list of operands, or negating twice, is the same audit as negating the operands
of the other list, or as not negating at all. -/
theorem executeAudit_deMorgan (env : Environment σ) (parameters : ParameterMap)
    (ruleName : ByteString) (context : σ) :
    (∀ operands : List JsonValue, (∀ operand ∈ operands, IsRule operand) →
      SameAudit env parameters ruleName context (notRule (listRule .allOf operands))
        (listRule .anyOf (operands.map notRule)) ∧
      SameAudit env parameters ruleName context (notRule (listRule .anyOf operands))
        (listRule .allOf (operands.map notRule))) ∧
    ∀ rule, IsRule rule →
      SameAudit env parameters ruleName context (notRule (notRule rule)) rule := by
  constructor
  · intro operands areRules
    constructor
    · exact sameAudit_of_mirrors
        (fun env => deMorgan_mirrors env parameters false .allOf areRules false)
        (luaFree_deMorgan .allOf operands) env ruleName context
    · exact sameAudit_of_mirrors
        (fun env => deMorgan_mirrors env parameters false .anyOf areRules false)
        (luaFree_deMorgan .anyOf operands) env ruleName context
  · intro rule isRule
    have free : luaFree rule = luaFree (notRule (notRule rule)) := by
      rw [luaFree_notRule, luaFree_notRule]
    exact sameAudit_of_mirrors
      (fun env => doubleNegation_mirrors env parameters false isRule false) free env ruleName
      context

/-- Two calls without arguments. -/
def twoCalls : List JsonValue :=
  [.object [(bytes "A", .object [])], .object [(bytes "B", .object [])]]

/-- The second operand is noncompliant: both audits call both procedures. -/
theorem executeAudit_deMorgan_second :
    SameAudit (answering [(bytes "A", .compliant), (bytes "B", .nonCompliant)]) ∅ (bytes "rule") ()
        (notRule (listRule .allOf twoCalls)) (listRule .anyOf (twoCalls.map notRule)) ∧
      (handlerCalls (answering [(bytes "A", .compliant), (bytes "B", .nonCompliant)]) ∅
        (bytes "rule") (listRule .anyOf (twoCalls.map notRule)) .audit ()).map
          HandlerCall.procedure = [bytes "A", bytes "B"] := by
  have same := ((executeAudit_deMorgan
    (answering [(bytes "A", .compliant), (bytes "B", .nonCompliant)]) ∅ (bytes "rule") ()).1
      twoCalls (by simp [twoCalls, IsRule, JsonValue.getObject])).1
  refine ⟨same, ?_⟩
  decide

end Evaluator

end OsConfig.ComplianceEngine
