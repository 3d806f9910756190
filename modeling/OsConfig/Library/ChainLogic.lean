import Mathlib

/-!
# Formulas over a bounded chain

Negation-closed formulas whose connectives are the lattice operations of a
bounded linear order: a conjunction denotes the minimum of its operands, a
disjunction their maximum, and negation an order reversal supplied by the user.
On the three-element chain this is strong Kleene logic.

The empty conjunction is `⊤` and the empty disjunction is `⊥`, so operand lists
may have any length. Since minimum and maximum are commutative, the value of a
formula does not change when the operands of its connectives are permuted.
-/

namespace ChainLogic

universe u v

/-- Formulas with list-valued conjunction and disjunction over leaves of type `α`. -/
inductive Formula (α : Type u) where
  | leaf (a : α)
  | allOf (operands : List (Formula α))
  | anyOf (operands : List (Formula α))
  | not (operand : Formula α)

section Lists

variable {τ : Type v} [LinearOrder τ] [BoundedOrder τ]

/-- The minimum of a list, `⊤` when it is empty. -/
def meet (values : List τ) : τ :=
  values.foldr min ⊤

/-- The maximum of a list, `⊥` when it is empty. -/
def join (values : List τ) : τ :=
  values.foldr max ⊥

@[simp]
theorem meet_nil : meet ([] : List τ) = ⊤ := rfl

@[simp]
theorem meet_cons (value : τ) (values : List τ) :
    meet (value :: values) = min value (meet values) := rfl

@[simp]
theorem join_nil : join ([] : List τ) = ⊥ := rfl

@[simp]
theorem join_cons (value : τ) (values : List τ) :
    join (value :: values) = max value (join values) := rfl

theorem meet_perm {left right : List τ} (perm : left.Perm right) : meet left = meet right :=
  perm.foldr_eq ⊤

theorem join_perm {left right : List τ} (perm : left.Perm right) : join left = join right :=
  perm.foldr_eq ⊥

end Lists

namespace Formula

variable {α : Type u} {τ : Type v}

theorem operandInduction {motive : Formula α → Prop}
    (leaf : ∀ a, motive (.leaf a))
    (allOf : ∀ operands, (∀ operand ∈ operands, motive operand) → motive (.allOf operands))
    (anyOf : ∀ operands, (∀ operand ∈ operands, motive operand) → motive (.anyOf operands))
    (not : ∀ operand, motive operand → motive (.not operand)) :
    ∀ formula, motive formula := by
  intro formula
  refine @Formula.rec α motive (fun operands => ∀ operand ∈ operands, motive operand)
    leaf allOf anyOf not ?_ ?_ formula
  · simp
  · intro operand operands holds holdsAll member member_mem
    rcases List.mem_cons.mp member_mem with rfl | tail_mem
    · exact holds
    · exact holdsAll member tail_mem

mutual

/-- The leaves of a formula, from left to right. -/
def leaves (formula : Formula α) : List α :=
  match formula with
  | .leaf a => [a]
  | .allOf operands => leavesAll operands
  | .anyOf operands => leavesAll operands
  | .not operand => leaves operand
termination_by structural formula

def leavesAll (formulas : List (Formula α)) : List α :=
  match formulas with
  | [] => []
  | formula :: rest => leaves formula ++ leavesAll rest
termination_by structural formulas

end

theorem leavesAll_eq_flatMap (formulas : List (Formula α)) :
    leavesAll formulas = formulas.flatMap leaves := by
  induction formulas with
  | nil => rfl
  | cons formula rest ih => simp [leavesAll, ih]

section NormalForm

mutual

/-- The formula, or its negation, with negations of leaves only. -/
def normalForm (negated : Bool) (formula : Formula α) : Formula α :=
  match formula with
  | .leaf a => if negated then .not (.leaf a) else .leaf a
  | .allOf operands =>
      if negated then .anyOf (normalForms negated operands) else .allOf (normalForms negated operands)
  | .anyOf operands =>
      if negated then .allOf (normalForms negated operands) else .anyOf (normalForms negated operands)
  | .not operand => normalForm (!negated) operand
termination_by structural formula

def normalForms (negated : Bool) (formulas : List (Formula α)) : List (Formula α) :=
  match formulas with
  | [] => []
  | formula :: rest => normalForm negated formula :: normalForms negated rest
termination_by structural formulas

end

theorem normalForms_eq_map (negated : Bool) (formulas : List (Formula α)) :
    normalForms negated formulas = formulas.map (normalForm negated) := by
  induction formulas with
  | nil => rfl
  | cons formula rest ih => simp [normalForms, ih]

/-- Negations stand in front of leaves only. -/
inductive IsNormal : Formula α → Prop where
  | leaf (a : α) : IsNormal (.leaf a)
  | notLeaf (a : α) : IsNormal (.not (.leaf a))
  | allOf {operands : List (Formula α)} (normal : ∀ operand ∈ operands, IsNormal operand) :
      IsNormal (.allOf operands)
  | anyOf {operands : List (Formula α)} (normal : ∀ operand ∈ operands, IsNormal operand) :
      IsNormal (.anyOf operands)

theorem isNormal_normalForm (formula : Formula α) (negated : Bool) :
    IsNormal (formula.normalForm negated) := by
  induction formula using operandInduction generalizing negated with
  | leaf a => cases negated <;> constructor
  | allOf operands ih =>
      have normal : ∀ operand ∈ normalForms negated operands, IsNormal operand := by
        simpa [normalForms_eq_map] using fun operand mem => ih operand mem negated
      cases negated
      · exact .allOf normal
      · exact .anyOf normal
  | anyOf operands ih =>
      have normal : ∀ operand ∈ normalForms negated operands, IsNormal operand := by
        simpa [normalForms_eq_map] using fun operand mem => ih operand mem negated
      cases negated
      · exact .anyOf normal
      · exact .allOf normal
  | not operand ih => exact ih !negated

end NormalForm

section Evaluation

variable [LinearOrder τ] [BoundedOrder τ]

mutual

def eval (negation : τ → τ) (valuation : α → τ) (formula : Formula α) : τ :=
  match formula with
  | .leaf a => valuation a
  | .allOf operands => meet (evalAll negation valuation operands)
  | .anyOf operands => join (evalAll negation valuation operands)
  | .not operand => negation (eval negation valuation operand)
termination_by structural formula

/-- The values of a list of operands, in order. -/
def evalAll (negation : τ → τ) (valuation : α → τ) (formulas : List (Formula α)) : List τ :=
  match formulas with
  | [] => []
  | formula :: rest => eval negation valuation formula :: evalAll negation valuation rest
termination_by structural formulas

end

theorem evalAll_eq_map (negation : τ → τ) (valuation : α → τ) (formulas : List (Formula α)) :
    evalAll negation valuation formulas = formulas.map (eval negation valuation) := by
  induction formulas with
  | nil => rfl
  | cons formula rest ih => simp [evalAll, ih]

/-- Two formulas differ by permuting operands of conjunctions and disjunctions, at any depth. -/
inductive Permuted : Formula α → Formula α → Prop where
  | refl (formula : Formula α) : Permuted formula formula
  | trans {first second third : Formula α} (left : Permuted first second)
      (right : Permuted second third) : Permuted first third
  | allOf {operands operands' : List (Formula α)} (perm : operands.Perm operands') :
      Permuted (.allOf operands) (.allOf operands')
  | anyOf {operands operands' : List (Formula α)} (perm : operands.Perm operands') :
      Permuted (.anyOf operands) (.anyOf operands')
  | allOfOperand {operand operand' : Formula α} (before after : List (Formula α))
      (inner : Permuted operand operand') :
      Permuted (.allOf (before ++ operand :: after)) (.allOf (before ++ operand' :: after))
  | anyOfOperand {operand operand' : Formula α} (before after : List (Formula α))
      (inner : Permuted operand operand') :
      Permuted (.anyOf (before ++ operand :: after)) (.anyOf (before ++ operand' :: after))
  | not {operand operand' : Formula α} (inner : Permuted operand operand') :
      Permuted (.not operand) (.not operand')

theorem leaves_permuted {left right : Formula α} (permuted : Permuted left right) :
    left.leaves.Perm right.leaves := by
  induction permuted with
  | refl formula => exact .refl _
  | trans _ _ ihLeft ihRight => exact ihLeft.trans ihRight
  | allOf perm =>
      simp only [leaves, leavesAll_eq_flatMap]
      exact perm.flatMap_right _
  | anyOf perm =>
      simp only [leaves, leavesAll_eq_flatMap]
      exact perm.flatMap_right _
  | allOfOperand before after _ ih =>
      simp only [leaves, leavesAll_eq_flatMap, List.flatMap_append, List.flatMap_cons]
      exact (ih.append_right _).append_left _
  | anyOfOperand before after _ ih =>
      simp only [leaves, leavesAll_eq_flatMap, List.flatMap_append, List.flatMap_cons]
      exact (ih.append_right _).append_left _
  | not _ ih => simpa only [leaves] using ih

theorem eval_permuted (negation : τ → τ) (valuation : α → τ) {left right : Formula α}
    (permuted : Permuted left right) :
    eval negation valuation left = eval negation valuation right := by
  induction permuted with
  | refl formula => rfl
  | trans _ _ ihLeft ihRight => exact ihLeft.trans ihRight
  | allOf perm =>
      simp only [eval, evalAll_eq_map]
      exact meet_perm (perm.map _)
  | anyOf perm =>
      simp only [eval, evalAll_eq_map]
      exact join_perm (perm.map _)
  | allOfOperand before after _ ih =>
      simp only [eval, evalAll_eq_map, List.map_append, List.map_cons, ih]
  | anyOfOperand before after _ ih =>
      simp only [eval, evalAll_eq_map, List.map_append, List.map_cons, ih]
  | not _ ih => simp only [eval, ih]

end Evaluation

end Formula

end ChainLogic
