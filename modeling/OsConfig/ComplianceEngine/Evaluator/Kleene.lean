import OsConfig.ComplianceEngine.Evaluator.Recording

/-!
# Rules as three-valued formulas

A rule built from list operators and negations over builtin procedures is a
formula over the chain `NonCompliant < NotApplicable < Compliant`. Whatever the
evaluator skips, an audit returns the value of the formula with all leaves
evaluated: the minimum for `allOf`, the maximum for `anyOf`, the order reversed
by `not`.

Leaves are labelled with the call and with the status it is to return. The
handlers may depend on the context and change it, so that a leaf returns its
status is asked at the point of the run at which it is evaluated.
-/

namespace OsConfig.ComplianceEngine.Evaluator

open ChainLogic (Formula)

variable {σ : Type}

/-- A call of a builtin procedure in a rule. -/
structure BuiltinCall where
  name : ByteString
  arguments : List (ByteString × ByteString)
  isBuiltin : name ∉ [anyOfName, allOfName, notName, luaName]
  distinct : (arguments.map Prod.fst).Nodup

namespace BuiltinCall

def argumentsJson (call : BuiltinCall) : JsonValue :=
  .object (call.arguments.map fun argument => (argument.1, .string argument.2))

/-- The parameters define every `$` reference of the call. -/
def Defined (parameters : ParameterMap) (call : BuiltinCall) : Prop :=
  ∀ argument ∈ call.arguments, ∀ reference, argument.2.cString = 36 :: reference →
    reference ∈ parameters

/-- In the given context the audit handler of the call returns the status. -/
def Returns (env : Environment σ) (parameters : ParameterMap) (call : BuiltinCall)
    (status : Status) (context : σ) : Prop :=
  ∃ actions handler, env.procedureMap[call.name]? = some actions ∧
    actions.audit = some handler ∧
    ∀ arguments, getBuiltinProcedureArguments parameters call.argumentsJson = .ok arguments →
      (handler.run arguments context).outcome = .value status

end BuiltinCall

/-- A rule with the status every leaf is to return. -/
abbrev Rule := Formula (BuiltinCall × Status)

mutual

def toJson (rule : Rule) : JsonValue :=
  match rule with
  | .leaf (call, _) => .object [(call.name, call.argumentsJson)]
  | .allOf operands => .object [(allOfName, .array (toJsonAll operands))]
  | .anyOf operands => .object [(anyOfName, .array (toJsonAll operands))]
  | .not operand => .object [(notName, toJson operand)]
termination_by structural rule

def toJsonAll (rules : List Rule) : List JsonValue :=
  match rules with
  | [] => []
  | rule :: rest => toJson rule :: toJsonAll rest
termination_by structural rules

end

/-- The value of a rule with all its leaves evaluated. -/
def kleeneStatus (rule : Rule) : Status :=
  rule.eval Status.negate Prod.snd

/-- The parameters define every `$` reference of the rule. -/
def ReferencesDefined (parameters : ParameterMap) (rule : Rule) : Prop :=
  ∀ leaf ∈ rule.leaves, leaf.1.Defined parameters

mutual

/-- Along an audit of the rule from the given context, every leaf that is evaluated returns the
status assigned to it. -/
def LeavesReturn (env : Environment σ) (parameters : ParameterMap) (rule : Rule) (context : σ) :
    Prop :=
  match rule with
  | .leaf (call, status) => call.Returns env parameters status context
  | .allOf operands => OperandsReturn env parameters .allOf operands context
  | .anyOf operands => OperandsReturn env parameters .anyOf operands context
  | .not operand => LeavesReturn env parameters operand context
termination_by structural rule

/-- The operands after the first matter from the context the first one leaves behind, unless it
decides. -/
def OperandsReturn (env : Environment σ) (parameters : ParameterMap) (listAction : ListAction)
    (operands : List Rule) (context : σ) : Prop :=
  match operands with
  | [] => True
  | operand :: rest =>
      LeavesReturn env parameters operand context ∧
      ∀ beneathNot state state' status, state.context = context →
        evaluateProcedure env parameters (toJson operand) .audit beneathNot state =
          (.value status, state') →
        status ≠ listAction.decisive → OperandsReturn env parameters listAction rest state'.context
termination_by structural operands

end

theorem toJsonAll_eq_map (rules : List Rule) : toJsonAll rules = rules.map toJson := by
  induction rules with
  | nil => rfl
  | cons rule rest ih => simp [toJsonAll, ih]

theorem insertArguments_resolves {parameters : ParameterMap}
    (arguments : List (ByteString × ByteString)) (result : ParameterMap)
    (absent : ∀ argument ∈ arguments, argument.1 ∉ result)
    (distinct : (arguments.map Prod.fst).Nodup)
    (defined : ∀ argument ∈ arguments, ∀ reference, argument.2.cString = 36 :: reference →
      reference ∈ parameters) :
    ∃ resolved, insertArguments parameters
      (arguments.map fun argument => (argument.1, .string argument.2)) result = .ok resolved := by
  induction arguments generalizing result with
  | nil => exact ⟨result, rfl⟩
  | cons argument rest ih =>
      rcases argument with ⟨key, text⟩
      have key_absent : key ∉ result := absent (key, text) (by simp)
      have inserted_eq : (result.insertIfNew key text.cString)[key]? = some text.cString := by
        rw [Std.ExtTreeMap.getElem?_insertIfNew]
        simp [key_absent]
      have rest_distinct : (rest.map Prod.fst).Nodup := (List.nodup_cons.mp distinct).2
      have rest_fresh : ∀ argument ∈ rest, argument.1 ≠ key := by
        intro argument argument_mem equal
        apply (List.nodup_cons.mp distinct).1
        exact List.mem_map.mpr ⟨argument, argument_mem, equal⟩
      have rest_defined : ∀ argument ∈ rest, ∀ reference,
          argument.2.cString = 36 :: reference → reference ∈ parameters :=
        fun argument argument_mem => defined argument (by simp [argument_mem])
      have inserted_absent : ∀ argument ∈ rest,
          argument.1 ∉ result.insertIfNew key text.cString := by
        intro argument argument_mem
        rw [Std.ExtTreeMap.mem_insertIfNew]
        rintro (same | old)
        · exact rest_fresh argument argument_mem (Std.LawfulEqCmp.eq_of_compare same).symm
        · exact absent argument (by simp [argument_mem]) old
      simp only [List.map_cons, insertArguments, JsonValue.getString, inserted_eq]
      split
      · rename_i reference text_eq
        have known : reference ∈ parameters := by
          apply defined (key, text) (by simp)
          simpa using text_eq
        rcases Option.isSome_iff_exists.mp (Std.ExtTreeMap.isSome_getElem?_iff_mem.mpr known) with
          ⟨substitution, substitution_eq⟩
        simp only [substitution_eq]
        apply ih _ _ rest_distinct rest_defined
        intro argument argument_mem
        rw [Std.ExtTreeMap.mem_insert]
        rintro (same | old)
        · exact rest_fresh argument argument_mem (Std.LawfulEqCmp.eq_of_compare same).symm
        · exact inserted_absent argument argument_mem old
      · exact ih _ inserted_absent rest_distinct rest_defined

theorem getBuiltinProcedureArguments_resolves {parameters : ParameterMap} {call : BuiltinCall}
    (defined : call.Defined parameters) :
    ∃ resolved, getBuiltinProcedureArguments parameters call.argumentsJson = .ok resolved :=
  insertArguments_resolves call.arguments ∅ (by simp) call.distinct defined

/-- At least `depth` nodes of the tree are open. -/
def Deep (depth : ℕ) (tree : IndicatorsTree) : Prop :=
  ∃ openNodes, tree.Opens openNodes ∧ depth ≤ openNodes.length

theorem Deep.push {depth : ℕ} {tree : IndicatorsTree} (deep : Deep depth tree)
    (name : ByteString) : ∃ tree', tree.push name = some tree' ∧ Deep (depth + 1) tree' := by
  rcases deep with ⟨openNodes, opens, length_le⟩
  rcases opens.push name with ⟨tree', pushed, opens'⟩
  exact ⟨tree', pushed, _, opens', by simpa using length_le⟩

theorem Deep.close {depth : ℕ} {tree : IndicatorsTree} (deep : Deep (depth + 1) tree)
    (status : Status) :
    ∃ tree', tree.close status = some tree' ∧ (0 < depth → Deep depth tree') := by
  rcases deep with ⟨openNodes, opens, length_le⟩
  rcases openNodes with _ | ⟨node, _ | ⟨parent, parents⟩⟩
  · simp at length_le
  · refine ⟨_, opens.closeRoot status, ?_⟩
    intro positive
    simp only [List.length_cons, List.length_nil] at length_le
    omega
  · rcases opens.close status with ⟨tree', closed, opens'⟩
    refine ⟨tree', closed, ?_⟩
    intro _
    exact ⟨_, opens', by simpa using length_le⟩

theorem Deep.callHandler {depth : ℕ} {state : EvalState σ}
    (deep : Deep (depth + 1) state.indicators)
    (procedure : ByteString) (kind : Action) (handler : Handler σ) (arguments : ParameterMap)
    (beneathNot : Bool) :
    ∃ state', state.callHandler procedure kind handler arguments beneathNot =
        ((handler.run arguments state.context).outcome, state') ∧
      Deep (depth + 1) state'.indicators ∧
      state'.context = (handler.run arguments state.context).context := by
  rcases deep with ⟨openNodes, opens, length_le⟩
  rcases openNodes with _ | ⟨base, parents⟩
  · simp at length_le
  · rcases EvalState.callHandler_opens opens procedure kind handler arguments beneathNot with
      ⟨indicators, inner, base', called, -, opens', -, -⟩
    refine ⟨_, called, ⟨_, opens', ?_⟩, rfl⟩
    simp only [List.length_append, List.length_cons] at length_le ⊢
    omega

theorem Deep.mono {depth depth' : ℕ} {tree : IndicatorsTree} (deep : Deep depth tree)
    (depth_le : depth' ≤ depth) : Deep depth' tree := by
  rcases deep with ⟨openNodes, opens, length_le⟩
  exact ⟨openNodes, opens, by omega⟩

/-- A rule node whose body returns a status and keeps the open nodes. -/
theorem Deep.within {depth : ℕ} {state : EvalState σ} {status : Status} {name : ByteString}
    {body : EvalState σ → Outcome Status × EvalState σ} (deep : Deep (depth + 1) state.indicators)
    (returns : ∀ inner : EvalState σ, inner.context = state.context →
      Deep (depth + 2) inner.indicators →
      ∃ inner', body inner = (.value status, inner') ∧ Deep (depth + 2) inner'.indicators) :
    ∃ state', state.within name body = (.value status, state') ∧
      Deep (depth + 1) state'.indicators := by
  rcases deep.push name with ⟨pushed, push_eq, pushed_deep⟩
  rcases returns { state with indicators := pushed } rfl pushed_deep with
    ⟨inner', body_eq, inner_deep⟩
  rcases inner_deep.close status with ⟨closed, close_eq, closed_deep⟩
  exact ⟨_, EvalState.within_closed push_eq body_eq close_eq, closed_deep (by omega)⟩

/-- The audit of the rule returns its value. -/
def Evaluates (env : Environment σ) (parameters : ParameterMap) (rule : Rule) : Prop :=
  ∀ (beneathNot : Bool) (depth : ℕ) (state : EvalState σ), Deep (depth + 1) state.indicators →
    ReferencesDefined parameters rule → LeavesReturn env parameters rule state.context →
    ∃ state', evaluateProcedure env parameters (toJson rule) .audit beneathNot state =
        (.value (kleeneStatus rule), state') ∧
      Deep (depth + 1) state'.indicators

section Run

variable {env : Environment σ} {parameters : ParameterMap}

theorem evaluates_leaf (call : BuiltinCall) (status : Status) :
    Evaluates env parameters (.leaf (call, status)) := by
  intro beneathNot depth state deep defined returns
  rw [toJson, evaluateProcedure_object]
  apply deep.within
  intro inner context_eq inner_deep
  rcases getBuiltinProcedureArguments_resolves (defined (call, status) (by simp [Formula.leaves]))
    with ⟨arguments, resolved⟩
  rw [LeavesReturn] at returns
  rcases returns with ⟨actions, handler, found, audit_eq, answers⟩
  rcases inner_deep.callHandler call.name .audit handler arguments beneathNot with
    ⟨inner', called, deep', -⟩
  refine ⟨inner', ?_, deep'⟩
  have isBuiltin := call.isBuiltin
  simp only [List.mem_cons, List.not_mem_nil, or_false, not_or] at isBuiltin
  rcases isBuiltin with ⟨not_anyOf, not_allOf, not_not, not_lua⟩
  rw [ruleBody, if_neg not_anyOf, if_neg not_allOf, if_neg not_not, if_neg not_lua]
  rw [context_eq, answers arguments resolved] at called
  have isObject : call.argumentsJson.getObject =
      some (call.arguments.map fun argument => (argument.1, .string argument.2)) := rfl
  simp only [evaluateBuiltinProcedure, isObject, resolved, found, ProcedureMap.select, audit_eq,
    Option.map_some]
  exact called

theorem evaluateItems_evaluates {listAction : ListAction} {operands : List Rule}
    (evaluates : ∀ operand ∈ operands, Evaluates env parameters operand) (beneathNot : Bool)
    {accumulated : Status} (accumulated_ne : accumulated ≠ listAction.decisive) {depth : ℕ}
    {state : EvalState σ} (deep : Deep (depth + 1) state.indicators)
    (defined : ∀ operand ∈ operands, ReferencesDefined parameters operand)
    (returns : OperandsReturn env parameters listAction operands state.context) :
    ∃ state', evaluateItems env parameters (toJsonAll operands) .audit beneathNot listAction
        accumulated state =
          (.value (listAction.combine (accumulated :: operands.map kleeneStatus)), state') ∧
      Deep (depth + 1) state'.indicators := by
  induction operands generalizing accumulated state with
  | nil =>
      refine ⟨state, ?_, deep⟩
      rw [toJsonAll, evaluateItems]
      cases listAction with
      | anyOf => rw [ListAction.combine, List.map_nil, ChainLogic.join_cons, ChainLogic.join_nil,
          max_eq_left bot_le]
      | allOf => rw [ListAction.combine, List.map_nil, ChainLogic.meet_cons, ChainLogic.meet_nil,
          min_eq_left le_top]
  | cons operand rest ih =>
      rw [OperandsReturn] at returns
      rcases returns with ⟨operand_returns, rest_returns⟩
      rcases evaluates operand (by simp) beneathNot depth state deep (defined operand (by simp))
        operand_returns with ⟨middle, operand_eq, middle_deep⟩
      rw [toJsonAll, evaluateItems, operand_eq]
      simp only [List.map_cons]
      by_cases decides : kleeneStatus operand = listAction.decisive
      · rw [if_pos decides, decides, ListAction.combine_decisive]
        exact ⟨middle, rfl, middle_deep⟩
      · rw [if_neg decides, ← ListAction.combine_undecided listAction accumulated_ne decides]
        exact ih (fun other other_mem => evaluates other (by simp [other_mem]))
          (ListAction.accumulated_ne accumulated_ne _) middle_deep
          (fun other other_mem => defined other (by simp [other_mem]))
          (rest_returns beneathNot state middle _ rfl operand_eq decides)

theorem evaluates_list (listAction : ListAction) (operands : List Rule) {rule : Rule}
    (json_eq : toJson rule = .object [(listAction.name, .array (toJsonAll operands))])
    (leaves_eq : rule.leaves = Formula.leavesAll operands)
    (status_eq : kleeneStatus rule = listAction.combine (operands.map kleeneStatus))
    (returns_eq : ∀ context, LeavesReturn env parameters rule context =
      OperandsReturn env parameters listAction operands context)
    (evaluates : ∀ operand ∈ operands, Evaluates env parameters operand) :
    Evaluates env parameters rule := by
  intro beneathNot depth state deep defined returns
  rw [json_eq, evaluateProcedure_object, status_eq]
  apply deep.within
  intro inner context_eq inner_deep
  rw [returns_eq, ← context_eq] at returns
  have operands_defined : ∀ operand ∈ operands, ReferencesDefined parameters operand := by
    intro operand operand_mem leaf leaf_mem
    apply defined leaf
    rw [leaves_eq, Formula.leavesAll_eq_flatMap]
    exact List.mem_flatMap.mpr ⟨operand, operand_mem, leaf_mem⟩
  have initial_ne : listAction.initial ≠ listAction.decisive := by
    cases listAction <;> decide
  rcases evaluateItems_evaluates evaluates beneathNot initial_ne inner_deep operands_defined
    returns with
    ⟨inner', ran, deep'⟩
  refine ⟨inner', ?_, deep'⟩
  rw [ListAction.combine_initial] at ran
  rw [← ran, ← evaluateList_array]
  cases listAction with
  | anyOf => rw [ruleBody, if_pos (by decide)]
  | allOf => rw [ruleBody, if_neg (by decide), if_pos (by decide)]

theorem evaluates_not {operand : Rule} (evaluates : Evaluates env parameters operand) :
    Evaluates env parameters (.not operand) := by
  intro beneathNot depth state deep defined returns
  rw [toJson, evaluateProcedure_object]
  apply deep.within
  intro inner context_eq inner_deep
  rw [LeavesReturn, ← context_eq] at returns
  rcases evaluates true (depth + 1) inner inner_deep defined returns with ⟨inner', ran, deep'⟩
  refine ⟨inner', ?_, deep'⟩
  have status_eq : kleeneStatus (.not operand) = (kleeneStatus operand).negate := by
    simp only [kleeneStatus, Formula.eval]
  have isObject : ∃ members, (toJson operand).getObject = some members := by
    cases operand with
    | leaf labelled => exact ⟨_, rfl⟩
    | allOf operands => exact ⟨_, rfl⟩
    | anyOf operands => exact ⟨_, rfl⟩
    | not operand => exact ⟨_, rfl⟩
  rcases isObject with ⟨members, object_eq⟩
  rw [ruleBody, if_neg (by decide), if_neg (by decide), if_pos rfl, status_eq]
  simp only [evaluateNot, object_eq, ran]
  cases kleeneStatus operand <;> rfl

theorem evaluates_rule (rule : Rule) : Evaluates env parameters rule := by
  induction rule using Formula.operandInduction with
  | leaf labelled => exact evaluates_leaf labelled.1 labelled.2
  | allOf operands ih =>
      refine evaluates_list .allOf operands rfl rfl ?_ ?_ ih
      · simp only [kleeneStatus, Formula.eval, Formula.evalAll_eq_map, ListAction.combine]
        rfl
      · intro context
        rw [LeavesReturn]
  | anyOf operands ih =>
      refine evaluates_list .anyOf operands rfl rfl ?_ ?_ ih
      · simp only [kleeneStatus, Formula.eval, Formula.evalAll_eq_map, ListAction.combine]
        rfl
      · intro context
        rw [LeavesReturn]
  | not operand ih => exact evaluates_not ih

theorem luaFree_toJson (rule : Rule) : luaFree (toJson rule) := by
  induction rule using Formula.operandInduction with
  | leaf labelled =>
      have isBuiltin := labelled.1.isBuiltin
      simp only [List.mem_cons, List.not_mem_nil, or_false, not_or] at isBuiltin
      rcases isBuiltin with ⟨not_anyOf, not_allOf, not_not, not_lua⟩
      rw [toJson, luaFree, if_neg not_lua, if_neg (by simp [not_anyOf, not_allOf]), if_neg not_not]
  | allOf operands ih =>
      rw [toJson, luaFree, if_neg (by decide), if_pos (by simp), luaFreeOperands,
        luaFreeItems_iff, toJsonAll_eq_map]
      simpa using ih
  | anyOf operands ih =>
      rw [toJson, luaFree, if_neg (by decide), if_pos (by simp), luaFreeOperands,
        luaFreeItems_iff, toJsonAll_eq_map]
      simpa using ih
  | not operand ih =>
      rw [toJson, luaFree, if_neg (by decide), if_neg (by decide), if_pos rfl]
      exact ih

theorem execute_kleene (ruleName : ByteString) {rule : Rule} {context : σ}
    (defined : ReferencesDefined parameters rule)
    (returns : LeavesReturn env parameters rule context) :
    ∃ state, execute env parameters ruleName (toJson rule) .audit context =
      (.value (kleeneStatus rule), state) := by
  have deep : Deep (0 + 1) (initial ruleName context).indicators :=
    ⟨[Node.new ruleName], ⟨rfl, rfl⟩, by simp⟩
  rcases evaluates_rule rule false 0 (initial ruleName context) deep defined returns with
    ⟨state, ran, deep'⟩
  rcases deep'.close (kleeneStatus rule) with ⟨closed, close_eq, -⟩
  exact ⟨_, by simp only [execute, ran, close_eq]; rfl⟩

/-- Whatever is skipped, an audit returns the value of the rule with all leaves evaluated. The
evaluation always returns it, so every result of `ExecuteAudit` carries it; with balanced
handlers `ExecuteAudit` returns for every formatter. Permuting operands changes nothing. -/
theorem executeAudit_kleene (env : Environment σ) (parameters : ParameterMap)
    (ruleName : ByteString) (rule : Rule) (context : σ)
    (defined : ReferencesDefined parameters rule)
    (returns : LeavesReturn env parameters rule context) :
    (execute env parameters ruleName (toJson rule) .audit context).1 =
      .value (kleeneStatus rule) ∧
    (∀ formatter result state,
      executeAudit env formatter parameters ruleName (toJson rule) context =
        (.value result, state) → result.status = kleeneStatus rule) ∧
    (env.HandlersBalanced → ∀ formatter, ∃ payload,
      (executeAudit env formatter parameters ruleName (toJson rule) context).1 =
        .value { status := kleeneStatus rule, payload }) ∧
    ∀ permuted, rule.Permuted permuted → LeavesReturn env parameters permuted context →
      (execute env parameters ruleName (toJson permuted) .audit context).1 =
        .value (kleeneStatus rule) := by
  rcases execute_kleene ruleName defined returns with ⟨state, ran⟩
  refine ⟨by rw [ran], ?_, ?_, ?_⟩
  · intro formatter result state' audited
    simp only [executeAudit, ran] at audited
    split at audited
    · simp only [Prod.mk.injEq, Outcome.value.injEq] at audited
      rw [← audited.1]
    · simp only [Prod.mk.injEq, Outcome.value.injEq] at audited
      rw [← audited.1]
    · simp at audited
    · simp at audited
  · intro balanced formatter
    rcases execute_records balanced (luaFree_toJson rule) ran with
      ⟨node, indicators_eq, records, -, -⟩
    apply executeAudit_of_shaped ran (by rw [indicators_eq]) (everywhere_shaped_root records.shaped)
  · intro permuted isPermuted permuted_returns
    have permuted_defined : ReferencesDefined parameters permuted := by
      intro leaf leaf_mem
      exact defined leaf ((Formula.leaves_permuted isPermuted).mem_iff.mpr leaf_mem)
    rcases execute_kleene ruleName permuted_defined permuted_returns with
      ⟨permutedState, permutedRan⟩
    rw [permutedRan]
    exact congrArg Outcome.value (Formula.eval_permuted Status.negate Prod.snd isPermuted).symm

theorem leavesReturn_of_always (rule : Rule)
    (always : ∀ leaf ∈ rule.leaves, ∀ context, leaf.1.Returns env parameters leaf.2 context)
    (context : σ) : LeavesReturn env parameters rule context := by
  have operands_return : ∀ (listAction : ListAction) (operands : List Rule),
      (∀ operand ∈ operands, ∀ context, LeavesReturn env parameters operand context) →
      ∀ context, OperandsReturn env parameters listAction operands context := by
    intro listAction operands
    induction operands with
    | nil =>
        intro _ context
        rw [OperandsReturn]
        trivial
    | cons operand rest ih =>
        intro operands_return context
        rw [OperandsReturn]
        refine ⟨operands_return operand (by simp) context, ?_⟩
        intro _ _ state' _ _ _ _
        exact ih (fun other other_mem => operands_return other (by simp [other_mem])) state'.context
  induction rule using Formula.operandInduction generalizing context with
  | leaf labelled =>
      rw [LeavesReturn]
      exact always labelled (by simp [Formula.leaves]) context
  | allOf operands ih =>
      rw [LeavesReturn]
      apply operands_return
      intro operand operand_mem
      apply ih operand operand_mem
      intro leaf leaf_mem
      apply always leaf
      rw [Formula.leaves, Formula.leavesAll_eq_flatMap]
      exact List.mem_flatMap.mpr ⟨operand, operand_mem, leaf_mem⟩
  | anyOf operands ih =>
      rw [LeavesReturn]
      apply operands_return
      intro operand operand_mem
      apply ih operand operand_mem
      intro leaf leaf_mem
      apply always leaf
      rw [Formula.leaves, Formula.leavesAll_eq_flatMap]
      exact List.mem_flatMap.mpr ⟨operand, operand_mem, leaf_mem⟩
  | not operand ih =>
      rw [LeavesReturn]
      exact ih always context

end Run

/-- A call without arguments. -/
def plainCall (name : ByteString) (isBuiltin : name ∉ [anyOfName, allOfName, notName, luaName]) :
    BuiltinCall where
  name := name
  arguments := []
  isBuiltin := isBuiltin
  distinct := by simp

/-- `allOf` over an inapplicable leaf and the negation of a noncompliant one. -/
theorem executeAudit_kleene_notApplicable :
    (execute (answering [(bytes "A", .notApplicable), (bytes "B", .nonCompliant)]) ∅ (bytes "rule")
      (toJson (.allOf [.leaf (plainCall (bytes "A") (by decide), .notApplicable),
        .not (.leaf (plainCall (bytes "B") (by decide), .nonCompliant))])) .audit ()).1 =
      .value .notApplicable := by
  refine (executeAudit_kleene _ ∅ (bytes "rule") _ () ?_ (leavesReturn_of_always _ ?_ ())).1
  · intro leaf leaf_mem
    simp only [Formula.leaves, Formula.leavesAll, List.append_nil, List.cons_append,
      List.nil_append, List.mem_cons, List.not_mem_nil, or_false] at leaf_mem
    rcases leaf_mem with rfl | rfl <;> simp [BuiltinCall.Defined, plainCall]
  · intro leaf leaf_mem context
    simp only [Formula.leaves, Formula.leavesAll, List.append_nil, List.cons_append,
      List.nil_append, List.mem_cons, List.not_mem_nil, or_false] at leaf_mem
    rcases leaf_mem with rfl | rfl
    · exact ⟨_, _, rfl, rfl, fun _ _ => rfl⟩
    · exact ⟨_, _, rfl, rfl, fun _ _ => rfl⟩

end OsConfig.ComplianceEngine.Evaluator
