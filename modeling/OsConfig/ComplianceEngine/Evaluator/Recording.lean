import OsConfig.ComplianceEngine.Evaluator.Walk
import OsConfig.Library.ChainLogic

/-!
# The tree an evaluation records

Evaluating a rule without scripts, with handlers that close what they open,
appends one finished node to the node that was open before. `Records` says what
that node is: the evaluated prefix of the rule, node by node, with the statuses
that were returned. The shape the formatters rely on follows from it.
-/

namespace OsConfig.ComplianceEngine

/-- Every registered handler closes the nodes it opens whenever it returns a status. -/
def Environment.HandlersBalanced {σ : Type} (env : Environment σ) : Prop :=
  ∀ (name : ByteString) (actions : ProcedureActions σ) (handler : Handler σ),
    env.procedureMap[name]? = some actions →
    actions.audit = some handler ∨ actions.remediate = some handler → handler.Balanced

namespace Evaluator

variable {σ : Type}

mutual

/-- No node of the rule runs a script. -/
def luaFree (rule : JsonValue) : Bool :=
  match rule with
  | .object ((name, value) :: _) =>
      if name = luaName then false
      else if name = anyOfName ∨ name = allOfName then luaFreeOperands value
      else if name = notName then luaFree value
      else true
  | _ => true
termination_by structural rule

def luaFreeOperands (value : JsonValue) : Bool :=
  match value with
  | .array items => luaFreeItems items
  | _ => true
termination_by structural value

def luaFreeItems (items : List JsonValue) : Bool :=
  match items with
  | [] => true
  | item :: rest => luaFree item && luaFreeItems rest
termination_by structural items

end

theorem luaFreeItems_iff {items : List JsonValue} :
    luaFreeItems items ↔ ∀ item ∈ items, luaFree item := by
  induction items with
  | nil => simp [luaFreeItems]
  | cons item rest ih => simp [luaFreeItems, ih]

theorem luaFree_object {name : ByteString} {value : JsonValue}
    {rest : List (ByteString × JsonValue)} (free : luaFree (.object ((name, value) :: rest))) :
    name ≠ luaName ∧
    (∀ items, value = .array items → name = anyOfName ∨ name = allOfName →
      ∀ item ∈ items, luaFree item) ∧
    (name = notName → luaFree value) := by
  rw [luaFree] at free
  refine ⟨?_, ?_, ?_⟩
  · rintro rfl
    simp at free
  · rintro items rfl isList
    rw [if_neg (by rcases isList with rfl | rfl <;> decide), if_pos isList, luaFreeOperands] at free
    exact luaFreeItems_iff.mp free
  · rintro rfl
    rw [if_neg (by decide), if_neg (by decide), if_pos rfl] at free
    exact free

/-- What a list operator makes of the statuses of its operands. -/
def ListAction.combine (listAction : ListAction) (statuses : List Status) : Status :=
  match listAction with
  | .anyOf => ChainLogic.join statuses
  | .allOf => ChainLogic.meet statuses

theorem ListAction.combine_initial (listAction : ListAction) (statuses : List Status) :
    listAction.combine (listAction.initial :: statuses) = listAction.combine statuses := by
  cases listAction with
  | anyOf => exact max_eq_right bot_le
  | allOf => exact min_eq_right le_top

theorem ListAction.combine_decisive (listAction : ListAction) (accumulated : Status)
    (statuses : List Status) :
    listAction.combine (accumulated :: listAction.decisive :: statuses) = listAction.decisive := by
  cases listAction with
  | anyOf =>
      change max accumulated (max ⊤ _) = ⊤
      rw [max_eq_left le_top, max_eq_right le_top]
  | allOf =>
      change min accumulated (min ⊥ _) = ⊥
      rw [min_eq_left bot_le, min_eq_right bot_le]

/-- The accumulator of `EvaluateList` after an operand that does not decide. -/
theorem ListAction.combine_undecided (listAction : ListAction) {accumulated status : Status}
    (accumulated_ne : accumulated ≠ listAction.decisive) (status_ne : status ≠ listAction.decisive)
    (statuses : List Status) :
    listAction.combine ((if status = .notApplicable then .notApplicable else accumulated) ::
      statuses) = listAction.combine (accumulated :: status :: statuses) := by
  cases listAction with
  | anyOf =>
      change max _ (ChainLogic.join statuses) = max accumulated (max status _)
      rw [← max_assoc]
      congr 1
      cases accumulated <;> cases status <;> first | decide | simp_all [ListAction.decisive]
  | allOf =>
      change min _ (ChainLogic.meet statuses) = min accumulated (min status _)
      rw [← min_assoc]
      congr 1
      cases accumulated <;> cases status <;> first | decide | simp_all [ListAction.decisive]

theorem ListAction.accumulated_ne {listAction : ListAction} {accumulated : Status}
    (accumulated_ne : accumulated ≠ listAction.decisive) (status : Status) :
    (if status = .notApplicable then .notApplicable else accumulated) ≠ listAction.decisive := by
  split
  · cases listAction <;> decide
  · exact accumulated_ne

/-- The node is the record of an evaluation of the rule. -/
inductive Records : JsonValue → Node → Prop where
  /-- The operands of a list operator are evaluated in order until one of them decides. -/
  | list {listAction : ListAction} {items : List JsonValue}
      {rest : List (ByteString × JsonValue)} {node : Node}
      (name_eq : node.procedureName = listAction.name)
      (length_le : node.children.length ≤ items.length)
      (operands : ∀ pair ∈ items.zip node.children, Records pair.1 pair.2)
      (undecided : ∀ child ∈ node.children.dropLast, Node.status child ≠ listAction.decisive)
      (stopped : node.children.length < items.length →
        ∃ child, node.children.getLast? = some child ∧ Node.status child = listAction.decisive)
      (status_eq : node.status = listAction.combine (node.children.map Node.status)) :
      Records (.object ((listAction.name, .array items) :: rest)) node
  | not {value : JsonValue} {rest : List (ByteString × JsonValue)} {node child : Node}
      (name_eq : node.procedureName = notName) (children_eq : node.children = [child])
      (operand : Records value child) (status_eq : node.status = child.status.negate) :
      Records (.object ((notName, value) :: rest)) node
  /-- Below a builtin procedure there are only the nodes its handler pushes. -/
  | builtin {name : ByteString} {value : JsonValue} {rest : List (ByteString × JsonValue)}
      {node : Node} (name_eq : node.procedureName = name)
      (isBuiltin : name ∉ [anyOfName, allOfName, notName, luaName])
      (handlerNodes : ∀ child ∈ node.children, child.Everywhere fun descendant =>
        IsHandlerName (Node.procedureName descendant)) :
      Records (.object ((name, value) :: rest)) node

mutual

/-- The rule nodes of a recorded tree with their statuses, in the order in which their
evaluation ends. -/
def visited (node : Node) : List Event :=
  match node with
  | ⟨data, children⟩ =>
      (if data.procedureName ∈ [anyOfName, allOfName, notName] then visitedChildren children
        else []) ++ [.evaluated data.procedureName data.status]
termination_by structural node

def visitedChildren (children : List Node) : List Event :=
  match children with
  | [] => []
  | child :: rest => visited child ++ visitedChildren rest
termination_by structural children

end

/-- The event is the end of the evaluation of a rule node. -/
def isEvaluated : Event → Bool
  | .evaluated _ _ => true
  | _ => false

/-- The shape of the nodes of a recorded tree. -/
structure Shaped (node : Node) : Prop where
  anyOf : node.procedureName = anyOfName →
    ∀ child ∈ node.children.dropLast, Node.status child ≠ .compliant
  allOf : node.procedureName = allOfName →
    ∀ child ∈ node.children.dropLast, Node.status child ≠ .nonCompliant
  not : node.procedureName = notName → ∃ child, node.children = [child]

theorem Shaped.locallySafe {node : Node} (shaped : Shaped node) : node.LocallySafe where
  anyOf := shaped.anyOf
  not isNot := by
    rcases shaped.not isNot with ⟨child, children_eq⟩
    simp [children_eq]

theorem not_operator_of_isHandlerName {name : ByteString} (isHandlerName : IsHandlerName name) :
    name ∉ [anyOfName, allOfName, notName] := by
  rcases isHandlerName with ⟨node, rfl⟩
  cases node with
  | auditFilePermissions => decide
  | remediateFilePermissions => decide
  | ensureFilePermissions => decide
  | filePermissionsCheck fullPath =>
      intro operator_mem
      have first_letter : (HandlerNode.filePermissionsCheck fullPath).name.head? = some 70 := rfl
      simp only [List.mem_cons, List.not_mem_nil, or_false] at operator_mem
      rcases operator_mem with equal | equal | equal
      all_goals
        rw [equal] at first_letter
        revert first_letter
        decide

theorem shaped_of_not_operator {node : Node}
    (not_operator : node.procedureName ∉ [anyOfName, allOfName, notName]) : Shaped node where
  anyOf isAnyOf := absurd (by simp [isAnyOf]) not_operator
  allOf isAllOf := absurd (by simp [isAllOf]) not_operator
  not isNot := absurd (by simp [isNot]) not_operator

theorem Records.shaped {rule : JsonValue} {node : Node} (records : Records rule node) :
    node.Everywhere Shaped := by
  induction records with
  | @list listAction items rest node name_eq length_le operands undecided stopped status_eq ih =>
      refine ⟨⟨?_, ?_, ?_⟩, ?_⟩
      · intro isAnyOf
        cases listAction with
        | anyOf => exact undecided
        | allOf => exact absurd (name_eq.symm.trans isAnyOf) (by decide)
      · intro isAllOf
        cases listAction with
        | anyOf => exact absurd (name_eq.symm.trans isAllOf) (by decide)
        | allOf => exact undecided
      · intro isNot
        cases listAction <;> exact absurd (name_eq.symm.trans isNot) (by decide)
      · intro child child_mem
        rcases List.mem_iff_getElem.mp child_mem with ⟨index, index_lt, child_eq⟩
        have pair_mem : (items[index], child) ∈ items.zip node.children := by
          rw [List.mem_iff_getElem]
          exact ⟨index, by simp; omega, by simp [child_eq]⟩
        exact ih _ pair_mem
  | @not value rest node child name_eq children_eq operand status_eq ih =>
      refine ⟨⟨?_, ?_, ?_⟩, ?_⟩
      · intro isAnyOf
        exact absurd (name_eq.symm.trans isAnyOf) (by decide)
      · intro isAllOf
        exact absurd (name_eq.symm.trans isAllOf) (by decide)
      · exact fun _ => ⟨child, children_eq⟩
      · intro other other_mem
        rw [children_eq, List.mem_singleton] at other_mem
        exact other_mem ▸ ih
  | @builtin name value rest node name_eq isBuiltin handlerNodes =>
      refine ⟨shaped_of_not_operator ?_, ?_⟩
      · rw [name_eq]
        intro operator_mem
        simp_all
      · intro child child_mem
        exact (handlerNodes child child_mem).mono fun descendant isHandlerName =>
          shaped_of_not_operator (not_operator_of_isHandlerName isHandlerName)

/-- Evaluating the rule appends its record to the innermost open node, and the trace tells
which rule nodes were evaluated with which status. -/
def Appends (env : Environment σ) (parameters : ParameterMap) (rule : JsonValue) : Prop :=
  ∀ {action : Action} {beneathNot : Bool} {state state' : EvalState σ} {status : Status}
    {base : Node} {parents : List Node}, state.indicators.Opens (base :: parents) →
    evaluateProcedure env parameters rule action beneathNot state = (.value status, state') →
    ∃ child added, state'.indicators.Opens (base.append child :: parents) ∧
      Records rule child ∧ Node.status child = status ∧ state'.trace = state.trace ++ added ∧
      added.filter isEvaluated = visited child

section Body

variable {env : Environment σ} {parameters : ParameterMap} {action : Action} {beneathNot : Bool}
  {state state' : EvalState σ} {status : Status} {base : Node} {parents : List Node}

/-- A rule node whose body turns the fresh node into `inner`. -/
theorem within_appends {name : ByteString} {body : EvalState σ → Outcome Status × EvalState σ}
    (opens : state.indicators.Opens (base :: parents))
    (ran : state.within name body = (.value status, state')) :
    ∃ pushed bodyState, state.indicators.push name = some pushed ∧
      pushed.Opens (Node.new name :: base :: parents) ∧
      body { state with indicators := pushed } = (.value status, bodyState) ∧
      ∀ inner, bodyState.indicators.Opens (inner :: base :: parents) →
        state'.indicators.Opens (base.append (inner.setStatus status) :: parents) ∧
        state'.trace = bodyState.trace ++ [.evaluated name status] := by
  rcases opens.push name with ⟨pushed, push_eq, pushed_opens⟩
  cases body_eq : body { state with indicators := pushed } with
  | mk outcome bodyState =>
      by_cases returned : ∃ status, outcome = .value status
      · rcases returned with ⟨status', rfl⟩
        cases closes : bodyState.indicators.close status' with
        | none =>
            rw [EvalState.within_stuck push_eq body_eq closes] at ran
            simp at ran
        | some closed =>
            rw [EvalState.within_closed push_eq body_eq closes] at ran
            simp only [Prod.mk.injEq, Outcome.value.injEq] at ran
            rcases ran with ⟨rfl, rfl⟩
            refine ⟨pushed, bodyState, push_eq, pushed_opens, body_eq, ?_⟩
            intro inner inner_opens
            rcases inner_opens.close status' with ⟨closed', closes', closed_opens⟩
            rw [closes, Option.some.injEq] at closes'
            subst closes'
            exact ⟨closed_opens, rfl⟩
      · rw [EvalState.within_left push_eq body_eq
          (fun status' outcome_eq => returned ⟨status', outcome_eq⟩)] at ran
        simp only [Prod.mk.injEq] at ran
        exact absurd ⟨status, ran.1⟩ returned

theorem evaluateBuiltinProcedure_appends (balanced : env.HandlersBalanced) {name : ByteString}
    {value : JsonValue} (opens : state.indicators.Opens (base :: parents))
    (ran : evaluateBuiltinProcedure env parameters name value action beneathNot state =
      (.value status, state')) :
    ∃ base' added, state'.indicators.Opens (base' :: parents) ∧
      base.GrowsTo IsHandlerName base' ∧ state'.trace = state.trace ++ added ∧
      added.filter isEvaluated = [] := by
  rcases evaluateBuiltinProcedure_cases env parameters name value action beneathNot state with
    ⟨failure, refused⟩ | ⟨actions, kind, handler, arguments, found, selected, called⟩
  · rw [refused] at ran
    simp at ran
  · rw [called] at ran
    rcases EvalState.callHandler_opens opens name kind handler arguments beneathNot with
      ⟨indicators, inner, base', called_eq, -, opens', depth_eq, grows⟩
    rw [called_eq, Prod.mk.injEq] at ran
    rcases ran with ⟨outcome_eq, rfl⟩
    have registered : actions.audit = some handler ∨ actions.remediate = some handler := by
      cases action with
      | audit => exact .inl (select_audit selected).2
      | remediate =>
          simp only [ProcedureMap.select] at selected
          cases remediate_eq : actions.remediate with
          | some remediate =>
              simp only [remediate_eq, Option.some.injEq, Prod.mk.injEq] at selected
              exact .inr (by rw [selected.2])
          | none =>
              simp only [remediate_eq, Option.map_eq_some_iff, Prod.mk.injEq] at selected
              rcases selected with ⟨found, audit_eq, -, rfl⟩
              exact .inl audit_eq
    have closes := balanced name actions handler found registered arguments state.context status
      outcome_eq
    -- a balanced handler leaves no node open
    rw [TreeOp.Balanced, depth_eq, Option.some.injEq, List.length_eq_zero_iff] at closes
    subst closes
    exact ⟨base', _, opens', grows, rfl, rfl⟩

theorem evaluateItems_appends {items : List JsonValue} {listAction : ListAction}
    (appends : ∀ item ∈ items, Appends env parameters item) {accumulated : Status}
    (accumulated_ne : accumulated ≠ listAction.decisive)
    (opens : state.indicators.Opens (base :: parents))
    (ran : evaluateItems env parameters items action beneathNot listAction accumulated state =
      (.value status, state')) :
    ∃ children added,
      state'.indicators.Opens (⟨base.label, base.children ++ children⟩ :: parents) ∧
      children.length ≤ items.length ∧
      (∀ pair ∈ items.zip children, Records pair.1 pair.2) ∧
      (∀ child ∈ children.dropLast, Node.status child ≠ listAction.decisive) ∧
      (children.length < items.length →
        ∃ child, children.getLast? = some child ∧ Node.status child = listAction.decisive) ∧
      status = listAction.combine (accumulated :: children.map Node.status) ∧
      state'.trace = state.trace ++ added ∧
      added.filter isEvaluated = visitedChildren children := by
  induction items generalizing accumulated state base with
  | nil =>
      simp only [evaluateItems, Prod.mk.injEq, Outcome.value.injEq] at ran
      rcases ran with ⟨rfl, rfl⟩
      refine ⟨[], [], ?_, by simp, by simp, by simp, by simp, ?_, by simp,
        by simp [visitedChildren]⟩
      · rcases base with ⟨data, children⟩
        rw [List.append_nil]
        exact opens
      · cases listAction with
        | anyOf => exact (max_eq_left bot_le).symm
        | allOf => exact (min_eq_left le_top).symm
  | cons item rest ih =>
      rw [evaluateItems] at ran
      cases item_eq : evaluateProcedure env parameters item action beneathNot state with
      | mk outcome middle =>
          rw [item_eq] at ran
          cases outcome with
          | error failure => simp at ran
          | thrown what => simp at ran
          | aborted => simp at ran
          | value itemStatus =>
              rcases appends item (by simp) opens item_eq with
                ⟨child, added, child_opens, child_records, rfl, trace_eq, added_visited⟩
              simp only at ran
              split at ran
              · rename_i decides
                simp only [Prod.mk.injEq, Outcome.value.injEq] at ran
                rcases ran with ⟨rfl, rfl⟩
                refine ⟨[child], added, child_opens, by simp, by simpa using child_records,
                  by simp, fun _ => ⟨child, rfl, decides⟩, ?_, trace_eq, ?_⟩
                · rw [List.map_singleton, decides, ListAction.combine_decisive]
                · simp [visitedChildren, added_visited]
              · rename_i undecided
                rcases ih (fun other other_mem => appends other (by simp [other_mem]))
                  (ListAction.accumulated_ne accumulated_ne (Node.status child)) child_opens ran with
                  ⟨children, more, opens', length_le, records, undecidedRest, stopped, status_eq,
                    more_eq, more_visited⟩
                refine ⟨child :: children, added ++ more, ?_, ?_, ?_, ?_, ?_, ?_, ?_, ?_⟩
                · simpa using opens'
                · simpa using length_le
                · intro pair pair_mem
                  rw [List.zip_cons_cons] at pair_mem
                  rcases List.mem_cons.mp pair_mem with rfl | later
                  · exact child_records
                  · exact records pair later
                · intro other other_mem
                  cases children with
                  | nil => simp at other_mem
                  | cons next children =>
                      rw [List.dropLast_cons_cons] at other_mem
                      rcases List.mem_cons.mp other_mem with rfl | later
                      · exact undecided
                      · exact undecidedRest other later
                · intro shorter
                  rcases stopped (by simpa using shorter) with ⟨last, last_eq, last_decides⟩
                  refine ⟨last, ?_, last_decides⟩
                  rw [List.getLast?_cons, last_eq]
                  rfl
                · rw [status_eq, ListAction.combine_undecided listAction accumulated_ne undecided]
                  rfl
                · rw [more_eq, trace_eq, List.append_assoc]
                · rw [List.filter_append, added_visited, more_visited, visitedChildren]

theorem evaluateList_appends {value : JsonValue} {rest : List (ByteString × JsonValue)}
    {listAction : ListAction}
    (appends : ∀ items, value = .array items → ∀ item ∈ items, Appends env parameters item)
    (opens : state.indicators.Opens (Node.new listAction.name :: parents))
    (ran : evaluateList env parameters value action beneathNot listAction state =
      (.value status, state')) :
    ∃ inner added, state'.indicators.Opens (inner :: parents) ∧
      Records (.object ((listAction.name, value) :: rest)) (inner.setStatus status) ∧
      state'.trace = state.trace ++ added ∧
      added.filter isEvaluated ++ [.evaluated listAction.name status] =
        visited (inner.setStatus status) := by
  by_cases isArray : ∃ items, value = .array items
  · rcases isArray with ⟨items, rfl⟩
    rw [evaluateList_array] at ran
    have initial_ne : listAction.initial ≠ listAction.decisive := by
      cases listAction <;> decide
    rcases evaluateItems_appends (appends items rfl) initial_ne opens ran with
      ⟨children, added, opens', length_le, records, undecided, stopped, status_eq, trace_eq,
        added_visited⟩
    rw [ListAction.combine_initial] at status_eq
    refine ⟨⟨{ procedureName := listAction.name }, children⟩, added, opens', ?_, trace_eq, ?_⟩
    · exact .list rfl length_le records undecided stopped status_eq
    · have operator : listAction.name ∈ [anyOfName, allOfName, notName] := by
        cases listAction <;> decide
      rw [added_visited, Node.setStatus, RoseTree.mapLabel, visited, if_pos operator]
  · rcases evaluateList_refused value listAction
      (fun items value_eq => isArray ⟨items, value_eq⟩) with ⟨failure, refused⟩
    rw [refused] at ran
    simp at ran

theorem evaluateNot_appends {value : JsonValue} {rest : List (ByteString × JsonValue)}
    (appends : Appends env parameters value)
    (opens : state.indicators.Opens (Node.new notName :: parents))
    (ran : evaluateNot value (evaluateProcedure env parameters value .audit true) state =
      (.value status, state')) :
    ∃ inner added, state'.indicators.Opens (inner :: parents) ∧
      Records (.object ((notName, value) :: rest)) (inner.setStatus status) ∧
      state'.trace = state.trace ++ added ∧
      added.filter isEvaluated ++ [.evaluated notName status] =
        visited (inner.setStatus status) := by
  rcases evaluateNot_value ran with ⟨operandStatus, operand_eq, rfl⟩
  rcases appends opens operand_eq with
    ⟨child, added, opens', child_records, rfl, trace_eq, added_visited⟩
  refine ⟨_, added, opens', ?_, trace_eq, ?_⟩
  · exact .not rfl rfl child_records rfl
  · rw [added_visited]
    simp [Node.setStatus, RoseTree.mapLabel, RoseTree.append, Node.new, RoseTree.fresh, visited,
      visitedChildren]

theorem evaluateProcedure_appends (balanced : env.HandlersBalanced) (rule : JsonValue)
    (free : luaFree rule) : Appends env parameters rule := by
  induction rule using JsonValue.ruleInduction with
  | step rule ih =>
      intro action beneathNot state state' status base parents opens ran
      by_cases shape : ∃ name value rest, rule = .object ((name, value) :: rest)
      · rcases shape with ⟨name, value, rest, rfl⟩
        rcases ih name value rest rfl with ⟨operand_ih, items_ih⟩
        rcases luaFree_object free with ⟨name_ne, items_free, operand_free⟩
        rw [evaluateProcedure_object] at ran
        rcases within_appends opens ran with
          ⟨pushed, bodyState, push_eq, pushed_opens, body_eq, closing⟩
        have finish : ∀ inner added, bodyState.indicators.Opens (inner :: base :: parents) →
            Records (.object ((name, value) :: rest)) (Node.setStatus status inner) →
            bodyState.trace = state.trace ++ added →
            added.filter isEvaluated ++ [.evaluated name status] =
              visited (Node.setStatus status inner) →
            ∃ child added, state'.indicators.Opens (base.append child :: parents) ∧
              Records (.object ((name, value) :: rest)) child ∧ Node.status child = status ∧
              state'.trace = state.trace ++ added ∧ added.filter isEvaluated = visited child := by
          intro inner added inner_opens records trace_eq added_visited
          rcases closing inner inner_opens with ⟨opens', trace_eq'⟩
          refine ⟨_, added ++ [.evaluated name status], opens', records, rfl, ?_, ?_⟩
          · rw [trace_eq', trace_eq, List.append_assoc]
          · rw [← added_visited, List.filter_append]
            rfl
        rw [ruleBody] at body_eq
        split at body_eq
        · rename_i isAnyOf
          subst isAnyOf
          rcases evaluateList_appends
            (fun items value_eq item item_mem => items_ih items value_eq item item_mem
              (items_free items value_eq (.inl rfl) item item_mem)) pushed_opens body_eq with
            ⟨inner, added, inner_opens, records, trace_eq, added_visited⟩
          exact finish inner added inner_opens records trace_eq added_visited
        · split at body_eq
          · rename_i isAllOf
            subst isAllOf
            rcases evaluateList_appends
              (fun items value_eq item item_mem => items_ih items value_eq item item_mem
                (items_free items value_eq (.inr rfl) item item_mem)) pushed_opens body_eq with
              ⟨inner, added, inner_opens, records, trace_eq, added_visited⟩
            exact finish inner added inner_opens records trace_eq added_visited
          · split at body_eq
            · rename_i isNot
              subst isNot
              rcases evaluateNot_appends (operand_ih (operand_free rfl)) pushed_opens body_eq with
                ⟨inner, added, inner_opens, records, trace_eq, added_visited⟩
              exact finish inner added inner_opens records trace_eq added_visited
            · rename_i not_anyOf not_allOf not_not
              rcases evaluateBuiltinProcedure_appends balanced pushed_opens body_eq with
                ⟨inner, added, inner_opens, grows, trace_eq, added_visited⟩
              rcases grows with ⟨name_eq, -, handlerNodes, children_eq, named⟩
              refine finish inner added inner_opens ?_ trace_eq ?_
              · refine .builtin name_eq (by simp_all) ?_
                intro child child_mem
                apply named
                simpa [children_eq] using child_mem
              · rw [added_visited]
                rcases inner with ⟨data, children⟩
                have data_eq : data.procedureName = name := name_eq
                simp [Node.setStatus, RoseTree.mapLabel, visited, data_eq, not_anyOf, not_allOf,
                  not_not]
      · rcases evaluateProcedure_refused rule
          (fun name value rest rule_eq => shape ⟨name, value, rest, rule_eq⟩) with
          ⟨failure, refused⟩
        rw [refused] at ran
        simp at ran

end Body

theorem execute_records {env : Environment σ} (balanced : env.HandlersBalanced)
    {parameters : ParameterMap} {ruleName : ByteString} {rule : JsonValue} {action : Action}
    {context : σ} {status : Status} {state : EvalState σ} (free : luaFree rule)
    (returned : execute env parameters ruleName rule action context = (.value status, state)) :
    ∃ node, state.indicators =
        { root := some ⟨{ procedureName := ruleName, status }, [node]⟩, evaluationStack := [] } ∧
      Records rule node ∧ Node.status node = status ∧
      state.trace.filter isEvaluated = visited node := by
  rw [execute] at returned
  cases ran : evaluateProcedure env parameters rule action false (initial ruleName context) with
  | mk outcome final =>
      rw [ran] at returned
      cases outcome with
      | error failure => simp at returned
      | thrown what => simp at returned
      | aborted => simp at returned
      | value status' =>
          have opens : (initial ruleName context).indicators.Opens [Node.new ruleName] :=
            ⟨rfl, rfl⟩
          rcases evaluateProcedure_appends balanced rule free opens ran with
            ⟨node, added, opens', records, rfl, trace_eq, added_visited⟩
          simp only [opens'.closeRoot, Prod.mk.injEq, Outcome.value.injEq] at returned
          rcases returned with ⟨rfl, rfl⟩
          refine ⟨node, rfl, records, rfl, ?_⟩
          rw [← added_visited]
          exact congrArg _ trace_eq

theorem everywhere_shaped_root {ruleName : ByteString} {status : Status} {node : Node}
    (shaped : node.Everywhere Shaped) :
    RoseTree.Everywhere Shaped ⟨{ procedureName := ruleName, status }, [node]⟩ := by
  refine ⟨⟨?_, ?_, ?_⟩, ?_⟩
  · intro _ child child_mem
    simp at child_mem
  · intro _ child child_mem
    simp at child_mem
  · exact fun _ => ⟨node, rfl⟩
  · intro child child_mem
    rw [List.mem_singleton.mp child_mem]
    exact shaped

theorem executeAudit_of_shaped {env : Environment σ} {parameters : ParameterMap}
    {ruleName : ByteString} {rule : JsonValue} {context : σ} {status : Status}
    {state : EvalState σ} {root : Node}
    (returned : execute env parameters ruleName rule .audit context = (.value status, state))
    (root_eq : state.indicators.root = some root) (shaped : root.Everywhere Shaped)
    (formatter : PayloadFormatter) :
    ∃ payload,
      (executeAudit env formatter parameters ruleName rule context).1 =
        .value { status, payload } := by
  have safe : root.FormatterSafe := shaped.mono fun _ => Shaped.locallySafe
  rcases PayloadFormatter.format_returns root_eq safe formatter with
    ⟨payload, formatted⟩ | ⟨failure, formatted⟩
  · exact ⟨payload, by simp only [executeAudit, returned, formatted]⟩
  · exact ⟨bytes "Failed to format payload: " ++ failure.message, by
      simp only [executeAudit, returned, formatted]⟩

/-- When the evaluation of a script-free rule by `ExecuteAudit` returns a status, and the
handlers are balanced, the stack is empty and the tree is the evaluated prefix of the rule
below the rule name. Its nodes are the ones the trace reports with their statuses, it has the
shape the formatters rely on, and so the audit returns with every formatter. -/
theorem executeAudit_records {env : Environment σ} (balanced : env.HandlersBalanced)
    {parameters : ParameterMap} {ruleName : ByteString} {rule : JsonValue} {context : σ}
    {status : Status} {state : EvalState σ} (free : luaFree rule)
    (returned : execute env parameters ruleName rule .audit context = (.value status, state)) :
    state.indicators.evaluationStack = [] ∧
    ∃ root node, state.indicators.root = some root ∧
      root = ⟨{ procedureName := ruleName, status }, [node]⟩ ∧
      Records rule node ∧ Node.status node = status ∧
      visited node = state.trace.filter isEvaluated ∧
      root.Everywhere Shaped ∧
      ∀ formatter, ∃ payload,
        (executeAudit env formatter parameters ruleName rule context).1 =
          .value { status, payload } := by
  rcases execute_records balanced free returned with
    ⟨node, indicators_eq, records, node_status, trace_eq⟩
  have shaped : RoseTree.Everywhere Shaped ⟨{ procedureName := ruleName, status }, [node]⟩ :=
    everywhere_shaped_root records.shaped
  have root_eq : state.indicators.root =
      some ⟨{ procedureName := ruleName, status }, [node]⟩ := by
    rw [indicators_eq]
  refine ⟨by rw [indicators_eq], _, node, root_eq, rfl, records, node_status, trace_eq.symm,
    shaped, ?_⟩
  intro formatter
  exact executeAudit_of_shaped returned root_eq shaped formatter

/-- Procedures that answer their audits with fixed statuses, and no scripts. -/
def answering (audits : List (ByteString × Status)) : Environment Unit where
  procedureMap := audits.foldr (fun entry map => map.insert entry.1
    { audit := some (.returning (.value entry.2)), remediate := none }) ∅
  luaLoad _ _ := .error (bytes "syntax error")

theorem answering_registered {audits : List (ByteString × Status)} {name : ByteString}
    {actions : ProcedureActions Unit}
    (registered : (answering audits).procedureMap[name]? = some actions) :
    ∃ status, actions = { audit := some (.returning (.value status)), remediate := none } := by
  induction audits with
  | nil => simp [answering] at registered
  | cons entry rest ih =>
      simp only [answering, List.foldr_cons, Std.ExtTreeMap.getElem?_insert] at registered ih
      split at registered
      · simp only [Option.some.injEq] at registered
        exact ⟨entry.2, registered.symm⟩
      · exact ih registered

theorem answering_balanced (audits : List (ByteString × Status)) :
    (answering audits).HandlersBalanced := by
  intro name actions handler registered handler_eq
  rcases answering_registered registered with ⟨status, rfl⟩
  simp only [Option.some.injEq, reduceCtorEq, or_false] at handler_eq
  exact handler_eq ▸ Handler.balanced_returning _

/-- Of three alternatives the second decides, and the tree holds the first two. -/
theorem executeAudit_records_second_alternative :
    ∃ root, (execute (answering [(bytes "A", .compliant)]) ∅ (bytes "rule")
        (.object [(anyOfName, .array [.object [(notName, .object [(bytes "A", .object [])])],
          .object [(bytes "A", .object [])], .object [(bytes "A", .object [])]])])
        .audit ()).2.indicators.root = some root ∧ root.Everywhere Shaped := by
  rcases executeAudit_records (answering_balanced [(bytes "A", .compliant)])
    (by decide : luaFree (.object [(anyOfName,
      .array [.object [(notName, .object [(bytes "A", .object [])])],
        .object [(bytes "A", .object [])], .object [(bytes "A", .object [])]])]))
    (by rfl : execute _ ∅ (bytes "rule") _ .audit () = (.value .compliant, _)) with
    ⟨-, root, node, root_eq, -, -, -, -, shaped, -⟩
  exact ⟨root, root_eq, shaped⟩

end Evaluator

end OsConfig.ComplianceEngine
