import OsConfig.ComplianceEngine.Evaluator.DeMorgan
import OsConfig.Library.ChainLogic

/-!
# Negations at the leaves

De Morgan's laws and double negation move every `not` of a rule to its leaves. The
audit of the rule in this form cannot be told apart from the one of the rule
itself: each list stops at the same operand, beneath however many negations.
-/

namespace OsConfig.ComplianceEngine.Evaluator

open ChainLogic (Formula)

variable {σ : Type}

mutual

/-- The rule of a formula over rules. -/
def ruleOf (formula : Formula JsonValue) : JsonValue :=
  match formula with
  | .leaf rule => rule
  | .allOf operands => listRule .allOf (rulesOf operands)
  | .anyOf operands => listRule .anyOf (rulesOf operands)
  | .not operand => notRule (ruleOf operand)
termination_by structural formula

def rulesOf (formulas : List (Formula JsonValue)) : List JsonValue :=
  match formulas with
  | [] => []
  | formula :: rest => ruleOf formula :: rulesOf rest
termination_by structural formulas

end

theorem rulesOf_eq_map (formulas : List (Formula JsonValue)) :
    rulesOf formulas = formulas.map ruleOf := by
  induction formulas with
  | nil => rfl
  | cons formula rest ih => simp [rulesOf, ih]

theorem isRule_ruleOf {formula : Formula JsonValue} (areRules : ∀ leaf ∈ formula.leaves, IsRule leaf) :
    IsRule (ruleOf formula) := by
  cases formula with
  | leaf rule => exact areRules rule (by simp [Formula.leaves])
  | _ => rfl

/-- The status of a rule or of its negation. -/
def turned (negated : Bool) : Status → Status :=
  if negated then Status.negate else id

def ListAction.turned (negated : Bool) (listAction : ListAction) : ListAction :=
  if negated then listAction.dual else listAction

section Forms

variable (env : Environment σ) (parameters : ParameterMap)

theorem listRule_mirrors (listAction : ListAction) {operands : List (Formula JsonValue)}
    {negated beneathNot beneathNot' : Bool}
    (mirror : ∀ operand ∈ operands, Mirrors Eq (turned negated)
      (evaluateProcedure env parameters (ruleOf operand) .audit beneathNot)
      (evaluateProcedure env parameters (ruleOf (operand.normalForm negated)) .audit beneathNot')) :
    Mirrors Eq (turned negated)
      (evaluateProcedure env parameters (listRule listAction (rulesOf operands)) .audit beneathNot)
      (evaluateProcedure env parameters (listRule (listAction.turned negated)
        (rulesOf (Formula.normalForms negated operands))) .audit beneathNot') := by
  have injective : Function.Injective (turned negated) := by
    intro left right equal
    cases negated <;> cases left <;> cases right <;> simp_all [turned, Status.negate]
  have undecided : turned negated .notApplicable = .notApplicable := by
    cases negated <;> rfl
  have decides : turned negated listAction.decisive = (listAction.turned negated).decisive := by
    cases negated <;> cases listAction <;> rfl
  have initial_eq : (listAction.turned negated).initial = turned negated listAction.initial := by
    cases negated <;> cases listAction <;> rfl
  rw [evaluateProcedure_listRule, evaluateProcedure_listRule, initial_eq]
  apply Mirrors.within_left
  apply Mirrors.within_right
  apply Mirrors.evaluateItems injective undecided decides
  rw [rulesOf_eq_map, rulesOf_eq_map, Formula.normalForms_eq_map, List.map_map,
    List.forall₂_map_left_iff, List.forall₂_map_right_iff, List.forall₂_same]
  exact mirror

theorem normalForm_mirrors {formula : Formula JsonValue}
    (areRules : ∀ leaf ∈ formula.leaves, IsRule leaf) (negated beneathNot beneathNot' : Bool) :
    Mirrors Eq (turned negated)
      (evaluateProcedure env parameters (ruleOf formula) .audit beneathNot)
      (evaluateProcedure env parameters (ruleOf (formula.normalForm negated)) .audit
        beneathNot') := by
  induction formula using Formula.operandInduction generalizing negated beneathNot beneathNot' with
  | leaf rule =>
      cases negated with
      | false => exact evaluateProcedure_mirrors env.related_refl parameters rule .audit _ _
      | true =>
          exact notRule_mirrors env parameters beneathNot (areRules rule (by simp [Formula.leaves]))
            beneathNot'
  | allOf operands ih | anyOf operands ih =>
      have mirror : ∀ operand ∈ operands, Mirrors Eq (turned negated)
          (evaluateProcedure env parameters (ruleOf operand) .audit beneathNot)
          (evaluateProcedure env parameters (ruleOf (operand.normalForm negated)) .audit
            beneathNot') := by
        intro operand mem
        apply ih operand mem
        intro leaf leaf_mem
        apply areRules leaf
        rw [Formula.leaves, Formula.leavesAll_eq_flatMap, List.mem_flatMap]
        exact ⟨operand, mem, leaf_mem⟩
      cases negated <;> exact listRule_mirrors env parameters _ mirror
  | not operand ih =>
      have operandRules : ∀ leaf ∈ operand.leaves, IsRule leaf := areRules
      rcases Option.isSome_iff_exists.mp (isRule_ruleOf operandRules) with ⟨members, isObject⟩
      have turns : turned (!negated) ∘ Status.negate = turned negated := by
        funext status
        cases negated <;> cases status <;> rfl
      rw [ruleOf, evaluateProcedure_notRule, Formula.normalForm, ← turns]
      apply Mirrors.within_left
      exact (ih operandRules (!negated) true beneathNot').evaluateNot_left isObject

end Forms

theorem luaFree_normalForm (formula : Formula JsonValue) (negated : Bool) :
    luaFree (ruleOf (formula.normalForm negated)) = luaFree (ruleOf formula) := by
  induction formula using Formula.operandInduction generalizing negated with
  | leaf rule =>
      cases negated with
      | false => rfl
      | true => exact luaFree_notRule rule
  | allOf operands ih | anyOf operands ih =>
      have items : luaFreeItems (rulesOf (Formula.normalForms negated operands)) =
          luaFreeItems (rulesOf operands) := by
        rw [Bool.eq_iff_iff, luaFreeItems_iff, luaFreeItems_iff, rulesOf_eq_map, rulesOf_eq_map,
          Formula.normalForms_eq_map, List.map_map, List.forall_mem_map, List.forall_mem_map]
        exact forall₂_congr fun operand mem => by rw [Function.comp_apply, ih operand mem]
      cases negated <;> simp [Formula.normalForm, ruleOf, luaFree_listRule, items]
  | not operand ih => rw [Formula.normalForm, ih, ruleOf, luaFree_notRule]

/-- Every rule built of others with `allOf`, `anyOf` and `not` is audited as the rule in which
only leaves are negated. -/
theorem executeAudit_normalForm (env : Environment σ) (parameters : ParameterMap)
    (ruleName : ByteString) (context : σ) (formula : Formula JsonValue)
    (areRules : ∀ leaf ∈ formula.leaves, IsRule leaf) :
    (formula.normalForm false).IsNormal ∧ SameAudit env parameters ruleName context (ruleOf formula)
      (ruleOf (formula.normalForm false)) :=
  ⟨Formula.isNormal_normalForm formula false,
    sameAudit_of_mirrors (fun env => normalForm_mirrors env parameters areRules false false false)
      (luaFree_normalForm formula false) env ruleName context⟩

/-- A negated list with a negated operand. -/
theorem executeAudit_normalForm_nested :
    SameAudit (answering [(bytes "A", .compliant), (bytes "B", .nonCompliant)]) ∅ (bytes "rule") ()
      (notRule (listRule .allOf [.object [(bytes "A", .object [])],
        notRule (.object [(bytes "B", .object [])])]))
      (listRule .anyOf [notRule (.object [(bytes "A", .object [])]),
        .object [(bytes "B", .object [])]]) :=
  (executeAudit_normalForm _ _ _ _ (.not (.allOf [.leaf (.object [(bytes "A", .object [])]),
    .not (.leaf (.object [(bytes "B", .object [])]))]))
    (by simp [Formula.leaves, Formula.leavesAll, IsRule, JsonValue.getObject])).2

end OsConfig.ComplianceEngine.Evaluator
