import OsConfig.ComplianceEngine.Evaluator

/-!
# What scripts leave in the tree

A script writes to the tree through `ce.indicators` and through the procedures
it calls, and nothing keeps it from building a tree the formatters were not
written for. Each write either keeps what the formatters rely on or breaks it
for good: a node opened below an `anyOf` whose last alternative is compliant, a
`not` closed without an operand, a handler that leaves nodes open. A script
leaves a safe tree exactly if none of its writes does one of these.
-/

namespace OsConfig.ComplianceEngine

namespace TreeOp

/-- The operation, made while `top` is the innermost open node, keeps what the formatters
rely on. -/
def SafeOn (op : TreeOp) (top : Node) : Prop :=
  match op with
  | .push _ => top.procedureName = anyOfName →
      ∀ child, top.children.getLast? = some child → Node.status child ≠ .compliant
  | .close _ => top.procedureName = notName → top.children ≠ []
  | .addIndicator _ _ => True

def KeepsSafe (op : TreeOp) (tree : IndicatorsTree) : Prop :=
  ∀ top, tree.back = some top → op.SafeOn top

/-- Every operation of the list keeps what the formatters rely on, where it is made. -/
def AllKeepSafe (ops : List TreeOp) (tree : IndicatorsTree) : Prop :=
  match ops with
  | [] => True
  | op :: rest => op.KeepsSafe tree ∧ ∀ tree', op.apply tree = some tree' → AllKeepSafe rest tree'

end TreeOp

namespace Node

/-- The finished part of an open node is safe. A node with an open child is `pending`: all
its finished children will be followed by another one. -/
structure OpenSafe (pending : Bool) (node : Node) : Prop where
  anyOf : node.procedureName = anyOfName →
    ∀ child ∈ (if pending then node.children else node.children.dropLast),
      status child ≠ .compliant
  children : ∀ child ∈ node.children, FormatterSafe child

/-- The open nodes, innermost first, are safe as far as they are finished. -/
def SafeSoFar (openNodes : List Node) : Prop :=
  match openNodes with
  | [] => True
  | node :: parents => node.OpenSafe false ∧ ∀ parent ∈ parents, OpenSafe true parent

/-- The name of the outermost of the given nodes. -/
def baseName (openNodes : List Node) : Option ByteString :=
  openNodes.getLast?.map procedureName

theorem openSafe_true_iff (node : Node) :
    node.OpenSafe true ↔ node.OpenSafe false ∧ (node.procedureName = anyOfName →
      ∀ child, node.children.getLast? = some child → status child ≠ .compliant) := by
  constructor
  · rintro ⟨anyOf, children⟩
    refine ⟨⟨?_, children⟩, ?_⟩
    · intro isAnyOf child child_mem
      exact anyOf isAnyOf child (List.mem_of_mem_dropLast child_mem)
    · intro isAnyOf child child_last
      exact anyOf isAnyOf child (List.mem_of_getLast? child_last)
  · rintro ⟨⟨anyOf, children⟩, last⟩
    refine ⟨?_, children⟩
    intro isAnyOf child child_mem
    rcases List.eq_nil_or_concat node.children with empty | ⟨before, final, children_eq⟩
    · simp [empty] at child_mem
    · simp only [if_true, children_eq, List.concat_eq_append, List.mem_append,
        List.mem_singleton] at child_mem
      rcases child_mem with earlier | rfl
      · exact anyOf isAnyOf child (by simpa [children_eq] using earlier)
      · exact last isAnyOf child (by simp [children_eq])

theorem formatterSafe_setStatus_iff (node : Node) (status : Status) :
    FormatterSafe (node.setStatus status) ↔
      node.OpenSafe false ∧ (node.procedureName = notName → node.children ≠ []) := by
  constructor
  · rintro ⟨⟨anyOf, not⟩, below⟩
    exact ⟨⟨anyOf, below⟩, not⟩
  · rintro ⟨⟨anyOf, below⟩, not⟩
    exact ⟨⟨anyOf, not⟩, below⟩

end Node

namespace TreeOp

open Node

/-- One operation: the open nodes are safe after it exactly if they were safe before it and
the operation is safe where it is made. -/
theorem safeSoFar_onOpen {op : TreeOp} {top : Node} {rest nodes' : List Node}
    (effect : op.onOpen (top :: rest) = some nodes') :
    SafeSoFar nodes' ↔ SafeSoFar (top :: rest) ∧ op.SafeOn top := by
  cases op with
  | push name =>
      simp only [onOpen, Option.some.injEq] at effect
      subst effect
      have fresh : (Node.new name).OpenSafe false := ⟨by simp, by simp⟩
      simp only [SafeSoFar, List.mem_cons, forall_eq_or_imp, openSafe_true_iff top, SafeOn]
      constructor
      · rintro ⟨-, ⟨topSafe, last⟩, restSafe⟩
        exact ⟨⟨topSafe, restSafe⟩, last⟩
      · rintro ⟨⟨topSafe, restSafe⟩, last⟩
        exact ⟨fresh, ⟨topSafe, last⟩, restSafe⟩
  | close status =>
      cases rest with
      | nil => simp [onOpen] at effect
      | cons parent rest =>
          simp only [onOpen, Option.some.injEq] at effect
          subst effect
          simp only [SafeSoFar, List.mem_cons, forall_eq_or_imp, SafeOn]
          constructor
          · rintro ⟨⟨anyOf, children⟩, restSafe⟩
            have closedSafe := (formatterSafe_setStatus_iff top status).mp (children _ (by simp))
            refine ⟨⟨closedSafe.1, ⟨?_, ?_⟩, restSafe⟩, closedSafe.2⟩
            · intro isAnyOf child child_mem
              exact anyOf isAnyOf child (by simpa using child_mem)
            · intro child child_mem
              exact children child (by simp [child_mem])
          · rintro ⟨⟨topSafe, ⟨anyOf, children⟩, restSafe⟩, operand⟩
            refine ⟨⟨?_, ?_⟩, restSafe⟩
            · intro isAnyOf child child_mem
              exact anyOf isAnyOf child (by simpa using child_mem)
            · intro child child_mem
              rcases List.mem_append.mp child_mem with earlier | new
              · exact children child earlier
              · rw [List.mem_singleton.mp new]
                exact (formatterSafe_setStatus_iff top status).mpr ⟨topSafe, operand⟩
  | addIndicator message status =>
      simp only [onOpen, Option.some.injEq] at effect
      subst effect
      simp only [SafeSoFar, SafeOn, and_true]
      constructor
      · rintro ⟨⟨anyOf, children⟩, restSafe⟩
        exact ⟨⟨anyOf, children⟩, restSafe⟩
      · rintro ⟨⟨anyOf, children⟩, restSafe⟩
        exact ⟨⟨anyOf, children⟩, restSafe⟩

/-- Operations on the inner open nodes leave the outer ones alone. -/
theorem onOpen_frame {op : TreeOp} {nodes nodes' : List Node} (parents : List Node)
    (nonempty : nodes ≠ []) (effect : op.onOpen nodes = some nodes') :
    op.onOpen (nodes ++ parents) = some (nodes' ++ parents) ∧ nodes' ≠ [] ∧
      baseName nodes' = baseName nodes := by
  rcases nodes with _ | ⟨top, rest⟩
  · exact absurd rfl nonempty
  · cases op with
    | push name =>
        simp only [onOpen, Option.some.injEq] at effect
        subst effect
        exact ⟨rfl, by simp, by simp [baseName]⟩
    | close status =>
        rcases rest with _ | ⟨parent, rest⟩
        · simp [onOpen] at effect
        · simp only [onOpen, Option.some.injEq] at effect
          subst effect
          refine ⟨rfl, by simp, ?_⟩
          cases rest <;> simp [baseName]
    | addIndicator message status =>
        simp only [onOpen, Option.some.injEq] at effect
        subst effect
        refine ⟨rfl, by simp, ?_⟩
        cases rest <;> simp [baseName]

theorem applyAll_safeSoFar {ops : List TreeOp} {tree : IndicatorsTree} {nodes parents : List Node}
    {depth after : ℕ} (opens : tree.Opens (nodes ++ parents)) (length_eq : nodes.length = depth + 1)
    (runs : depthAfter depth ops = some after) :
    ∃ tree' nodes', applyAll ops tree = some tree' ∧ tree'.Opens (nodes' ++ parents) ∧
      nodes'.length = after + 1 ∧ baseName nodes' = baseName nodes ∧
      (SafeSoFar nodes' ↔ SafeSoFar nodes ∧ AllKeepSafe ops tree) := by
  induction ops generalizing tree nodes depth with
  | nil =>
      simp only [depthAfter, Option.some.injEq] at runs
      exact ⟨tree, nodes, rfl, opens, by omega, rfl, by simp [AllKeepSafe]⟩
  | cons op rest ih =>
      rcases nodes with _ | ⟨top, others⟩
      · simp at length_eq
      -- the depth of the inner nodes is exactly what keeps `close` inside them
      have effect : ∃ nodes' middle, op.onOpen (top :: others) = some nodes' ∧
          nodes'.length = middle + 1 ∧ depthAfter middle rest = some after := by
        cases op with
        | push name => exact ⟨_, depth + 1, rfl, by simpa using length_eq, runs⟩
        | close status =>
            rcases depth with _ | depth
            · simp [depthAfter] at runs
            · rcases others with _ | ⟨parent, others⟩
              · simp at length_eq
              · exact ⟨_, depth, rfl, by simpa using length_eq, runs⟩
        | addIndicator message status => exact ⟨_, depth, rfl, by simpa using length_eq, runs⟩
      rcases effect with ⟨nodes', middle, effect, length_eq', runs'⟩
      rcases onOpen_frame parents (by simp) effect with ⟨framed, -, base_eq⟩
      rcases apply_of_onOpen opens framed with ⟨tree', applied, opens'⟩
      rcases ih opens' length_eq' runs' with ⟨final, nodes'', applied', opens'', length_eq'',
        base_eq', safe_iff⟩
      refine ⟨final, nodes'', ?_, opens'', length_eq'', base_eq'.trans base_eq, ?_⟩
      · simp only [applyAll, applied, Option.bind_some, applied']
      · have back_eq : tree.back = some top := IndicatorsTree.Opens.back opens
        have keeps_iff : op.KeepsSafe tree ↔ op.SafeOn top := by
          simp only [KeepsSafe, back_eq, Option.some.injEq, forall_eq']
        simp only [safe_iff, AllKeepSafe, applied, Option.some.injEq, forall_eq', keeps_iff,
          safeSoFar_onOpen effect, and_assoc]

end TreeOp

namespace LuaEvaluator

open Node

variable {σ : Type}

/-- The handler a call through the `ce` table runs, with its arguments; nothing when the call
is refused. -/
def handlerOf (procedureMap : ProcedureMap σ) (action : Action) (field : ByteString)
    (arguments : List LuaValue) : Option (Handler σ × ParameterMap) :=
  match (registerProcedures procedureMap).lookup field with
  | none => none
  | some closure =>
      if action ≠ .remediate ∧ closure.procedureName.take 9 = bytes "Remediate" then none
      else
        match readArguments arguments with
        | .error _ => none
        | .ok parameters => some (closure.function, parameters)

/-- The writes a call is about to make keep what the formatters rely on, and a handler closes
the nodes it opens. -/
def CallKeepsSafe (procedureMap : ProcedureMap σ) (action : Action) (function : CeFunction)
    (arguments : List LuaValue) (state : CallState σ) : Prop :=
  match function with
  | .procedure field =>
      ∀ handler parameters, handlerOf procedureMap action field arguments =
          some (handler, parameters) →
        TreeOp.Balanced (handler.run parameters state.eval.context).ops ∧
        TreeOp.AllKeepSafe (handler.run parameters state.eval.context).ops state.eval.indicators
  | .indicators function =>
      ∀ write, request function arguments state.indicatorsDepth = .ok write →
        write.op.KeepsSafe state.eval.indicators

def StepsKeepSafe (procedureMap : ProcedureMap σ) (action : Action) (beneathNot : Bool)
    (script : LuaScript σ) (state : CallState σ) : Prop :=
  match script with
  | .returns _ => True
  | .raises _ => True
  | .host update next =>
      let context := update state.eval.context
      StepsKeepSafe procedureMap action beneathNot (next context)
        { state with eval := { state.eval with context } }
  | .call function arguments next =>
      CallKeepsSafe procedureMap action function arguments state ∧
      ∀ result state', callCe procedureMap action beneathNot function arguments state =
          (.value result, state') →
        StepsKeepSafe procedureMap action beneathNot (next result) state'

theorem request_depth {function : IndicatorsFunction} {arguments : List LuaValue} {depth : ℕ}
    {write : Write} (accepted : request function arguments depth = .ok write) :
    TreeOp.depthAfter depth [write.op] = some write.depth := by
  have added : ∀ status, luaIndicatorsAddIndicator status arguments depth = .ok write →
      TreeOp.depthAfter depth [write.op] = some write.depth := by
    intro status accepted
    simp only [luaIndicatorsAddIndicator] at accepted
    split at accepted <;> try cases accepted
    split at accepted <;> cases accepted
    rfl
  cases function with
  | push =>
      simp only [request, luaIndicatorsPush] at accepted
      split at accepted
      · cases accepted
      · split at accepted <;> try cases accepted
        split at accepted <;> cases accepted
        rfl
  | pop =>
      simp only [request, luaIndicatorsPop] at accepted
      split at accepted
      · cases accepted
      · rename_i nonzero
        rcases Nat.exists_eq_succ_of_ne_zero nonzero with ⟨below, rfl⟩
        split at accepted <;> cases accepted
        rfl
  | compliant => exact added .compliant accepted
  | nonCompliant => exact added .nonCompliant accepted

/-- What a call, or a run of calls, does to the inner open nodes: the script stays at the depth
it has counted, up to the nodes that handlers left open, and the nodes are safe afterwards
exactly if they were safe before and the calls are. -/
structure Progress (parents nodes : List Node) (leaks : ℕ) (safe : Prop) (final : CallState σ)
    (nodes' : List Node) (leaks' : ℕ) : Prop where
  opens : final.eval.indicators.Opens (nodes' ++ parents)
  length_eq : nodes'.length = final.indicatorsDepth + leaks' + 1
  leaks_le : leaks ≤ leaks'
  base_eq : baseName nodes' = baseName nodes
  safe_iff : leaks' = leaks ∧ SafeSoFar nodes' ↔ SafeSoFar nodes ∧ safe

section Calls

variable {procedureMap : ProcedureMap σ} {action : Action} {beneathNot : Bool}
  {state final : CallState σ} {nodes parents : List Node} {leaks : ℕ}

theorem perform_progress {function : IndicatorsFunction} {arguments : List LuaValue}
    {result : CallResult} (opens : state.eval.indicators.Opens (nodes ++ parents))
    (length_eq : nodes.length = state.indicatorsDepth + leaks + 1)
    (ran : perform (request function arguments state.indicatorsDepth) state =
      (.value result, final)) :
    ∃ nodes', Progress parents nodes leaks
      (CallKeepsSafe procedureMap action (.indicators function) arguments state) final nodes'
        leaks := by
  cases requested : request function arguments state.indicatorsDepth with
  | error message =>
      simp only [requested, perform, Prod.mk.injEq] at ran
      rcases ran with ⟨-, rfl⟩
      exact ⟨nodes, opens, length_eq, le_rfl, rfl, by simp [CallKeepsSafe, requested]⟩
  | ok write =>
      have runs := TreeOp.depthAfter_add _ leaks (request_depth requested)
      rcases TreeOp.applyAll_safeSoFar opens length_eq runs with
        ⟨tree', nodes', applied, opens', length_eq', base_eq, safe_iff⟩
      simp only [TreeOp.applyAll, Option.bind_fun_some] at applied
      simp only [requested, perform, applied, Prod.mk.injEq] at ran
      rcases ran with ⟨-, rfl⟩
      refine ⟨nodes', opens', length_eq', le_rfl, base_eq, ?_⟩
      simp only [true_and, safe_iff, TreeOp.AllKeepSafe, CallKeepsSafe, requested,
        Except.ok.injEq, forall_eq', implies_true, and_true]

theorem callProcedure_progress {field : ByteString} {arguments : List LuaValue}
    {result : CallResult} (opens : state.eval.indicators.Opens (nodes ++ parents))
    (length_eq : nodes.length = state.indicatorsDepth + leaks + 1)
    (ran : callProcedure procedureMap action beneathNot field arguments state =
      (.value result, final)) :
    ∃ nodes' leaks', Progress parents nodes leaks
      (CallKeepsSafe procedureMap action (.procedure field) arguments state) final nodes'
        leaks' := by
  simp only [callProcedure] at ran
  cases looked : (registerProcedures procedureMap).lookup field with
  | none =>
      simp only [looked, Prod.mk.injEq] at ran
      rcases ran with ⟨-, rfl⟩
      exact ⟨nodes, leaks, opens, length_eq, le_rfl, rfl,
        by simp [CallKeepsSafe, handlerOf, looked]⟩
  | some closure =>
      simp only [looked, luaProcedureWrapper] at ran
      split at ran
      · rename_i guarded
        simp only [Prod.mk.injEq] at ran
        rcases ran with ⟨-, rfl⟩
        exact ⟨nodes, leaks, opens, length_eq, le_rfl, rfl,
          by simp [CallKeepsSafe, handlerOf, looked, guarded]⟩
      · rename_i unguarded
        cases readable : readArguments arguments with
        | error message =>
            simp only [readable, Prod.mk.injEq] at ran
            rcases ran with ⟨-, rfl⟩
            exact ⟨nodes, leaks, opens, length_eq, le_rfl, rfl,
              by simp [CallKeepsSafe, handlerOf, looked, unguarded, readable]⟩
        | ok parameters =>
            have found : handlerOf procedureMap action field arguments =
                some (closure.function, parameters) := by
              simp only [handlerOf, looked, if_neg unguarded, readable]
            rcases Option.isSome_iff_exists.mp
              (closure.function.opsScoped parameters state.eval.context) with ⟨left, runs⟩
            -- the handler starts above everything that is open
            have shifted := TreeOp.depthAfter_add 0 (state.indicatorsDepth + leaks) runs
            rw [Nat.zero_add] at shifted
            rcases TreeOp.applyAll_safeSoFar opens length_eq shifted with
              ⟨tree', nodes', applied, opens', length_eq', base_eq, safe_iff⟩
            simp only [readable, EvalState.callHandler, EvalState.record, applied,
              Prod.mk.injEq] at ran
            rcases ran with ⟨-, rfl⟩
            refine ⟨nodes', leaks + left, opens', ?_, by omega, base_eq, ?_⟩
            · simp only [length_eq']
              omega
            · simp only [CallKeepsSafe, found, Option.some.injEq, Prod.mk.injEq, and_imp, safe_iff]
              constructor
              · rintro ⟨closes, before, keeps⟩
                refine ⟨before, ?_⟩
                rintro _ _ rfl rfl
                have left_zero : left = 0 := by omega
                exact ⟨by rw [TreeOp.Balanced, runs, left_zero], keeps⟩
              · rintro ⟨before, calls⟩
                rcases calls _ _ rfl rfl with ⟨closes, keeps⟩
                rw [TreeOp.Balanced, runs, Option.some.injEq] at closes
                exact ⟨by omega, before, keeps⟩

theorem Progress.trans {safe more : Prop} {middle : CallState σ} {nodes' nodes'' : List Node}
    {leaks' leaks'' : ℕ} (first : Progress parents nodes leaks safe middle nodes' leaks')
    (second : Progress parents nodes' leaks' more final nodes'' leaks'') :
    Progress parents nodes leaks (safe ∧ more) final nodes'' leaks'' := by
  have first_le := first.leaks_le
  have second_le := second.leaks_le
  refine ⟨second.opens, second.length_eq, by omega, second.base_eq.trans first.base_eq, ?_⟩
  constructor
  · rintro ⟨leaks_eq, after⟩
    rcases second.safe_iff.mp ⟨by omega, after⟩ with ⟨between, moreSafe⟩
    rcases first.safe_iff.mp ⟨by omega, between⟩ with ⟨before, isSafe⟩
    exact ⟨before, isSafe, moreSafe⟩
  · rintro ⟨before, isSafe, moreSafe⟩
    rcases first.safe_iff.mpr ⟨before, isSafe⟩ with ⟨leaks_eq, between⟩
    rcases second.safe_iff.mpr ⟨between, moreSafe⟩ with ⟨leaks_eq', after⟩
    exact ⟨by omega, after⟩

theorem runScript_progress (script : LuaScript σ) (leaks : ℕ) {values : List LuaValue}
    (opens : state.eval.indicators.Opens (nodes ++ parents))
    (length_eq : nodes.length = state.indicatorsDepth + leaks + 1)
    (ran : runScript procedureMap action beneathNot script state = (.returned values, final)) :
    ∃ nodes' leaks', Progress parents nodes leaks
      (StepsKeepSafe procedureMap action beneathNot script state) final nodes' leaks' := by
  induction script generalizing state nodes leaks with
  | returns values =>
      simp only [runScript, Prod.mk.injEq] at ran
      rcases ran with ⟨-, rfl⟩
      exact ⟨nodes, leaks, opens, length_eq, le_rfl, rfl, by simp [StepsKeepSafe]⟩
  | raises message => simp [runScript] at ran
  | host update next ih =>
      rw [runScript] at ran
      exact ih _ leaks opens length_eq ran
  | call function arguments next ih =>
      rw [runScript] at ran
      cases called : callCe procedureMap action beneathNot function arguments state with
      | mk outcome middle =>
          rw [called] at ran
          cases outcome with
          | error failure => simp at ran
          | thrown what => simp at ran
          | aborted => simp at ran
          | value result =>
              have step : ∃ nodes' leaks', Progress parents nodes leaks
                  (CallKeepsSafe procedureMap action function arguments state) middle nodes'
                    leaks' := by
                cases function with
                | procedure field => exact callProcedure_progress opens length_eq called
                | indicators function =>
                    rcases perform_progress opens length_eq called with ⟨nodes', progress⟩
                    exact ⟨nodes', leaks, progress⟩
              rcases step with ⟨nodes', leaks', first⟩
              rcases ih result leaks' first.opens first.length_eq ran with
                ⟨nodes'', leaks'', second⟩
              have steps_iff : StepsKeepSafe procedureMap action beneathNot
                    (.call function arguments next) state ↔
                  CallKeepsSafe procedureMap action function arguments state ∧
                    StepsKeepSafe procedureMap action beneathNot (next result) middle := by
                simp only [StepsKeepSafe, called, Prod.mk.injEq, Outcome.value.injEq, and_imp]
                constructor
                · rintro ⟨callSafe, restSafe⟩
                  exact ⟨callSafe, restSafe result middle rfl rfl⟩
                · rintro ⟨callSafe, restSafe⟩
                  refine ⟨callSafe, ?_⟩
                  rintro _ _ rfl rfl
                  exact restSafe
              have both := first.trans second
              rw [← steps_iff] at both
              exact ⟨nodes'', leaks'', both⟩

end Calls

/-- What the formatters need of the tree a script leaves behind: the stack is as it was when
the script was entered, and the node of the script is safe. -/
def LeavesSafe (entered left : IndicatorsTree) : Prop :=
  left.evaluationStack = entered.evaluationStack ∧
    ∃ luaNode, left.back = some luaNode ∧ luaNode.FormatterSafe

theorem evaluate_value {procedureMap : ProcedureMap σ}
    {load : ByteString → σ → Except ByteString (LuaScript σ)} {script : ByteString}
    {action : Action} {beneathNot : Bool} {state final : EvalState σ} {status : Status}
    {program : LuaScript σ} (loaded : load script.cString state.context = .ok program)
    (accepted : evaluate procedureMap load script action beneathNot state =
      (.value status, final)) :
    ∃ values message ran indicators, runScript procedureMap action beneathNot program
        { eval := state, indicatorsDepth := 0 } = (.returned values, ran) ∧
      ran.indicatorsDepth = 0 ∧
      (TreeOp.addIndicator message status).apply ran.eval.indicators = some indicators ∧
      final = { ran.eval with indicators } := by
  simp only [evaluate, loaded] at accepted
  cases ran_eq : runScript procedureMap action beneathNot program
      { eval := state, indicatorsDepth := 0 } with
  | mk scriptEnd ran =>
      rw [ran_eq] at accepted
      cases scriptEnd with
      | raised message => simp at accepted
      | thrown what => simp at accepted
      | aborted => simp at accepted
      | returned values =>
          refine ⟨values, ?_⟩
          rcases values with _ | ⟨first, rest⟩
          · simp [readReturned] at accepted
          · cases first with
            | nil => simp [readReturned, LuaValue.toCString] at accepted
            | other => simp [readReturned, LuaValue.toCString] at accepted
            | table entries failure => simp [readReturned, LuaValue.toCString] at accepted
            | number printed =>
                simp [readReturned, LuaValue.toCString, LuaValue.isNumber] at accepted
            | string text convertsToNumber =>
                simp only [readReturned] at accepted
                split at accepted
                · split at accepted <;> simp at accepted
                · simp at accepted
            | boolean isCompliant =>
                simp only [readReturned] at accepted
                split at accepted
                · simp at accepted
                · rename_i clean
                  split at accepted
                  · simp at accepted
                  · rename_i indicators added
                    simp only [Prod.mk.injEq, Outcome.value.injEq] at accepted
                    rcases accepted with ⟨rfl, rfl⟩
                    exact ⟨_, ran, indicators, rfl, by omega, added, rfl⟩

/-- A script that is accepted with a status leaves a safe tree exactly if all its calls were
safe when they were made. -/
theorem evaluate_leavesSafe_iff {procedureMap : ProcedureMap σ}
    {load : ByteString → σ → Except ByteString (LuaScript σ)} {script : ByteString}
    {action : Action} {beneathNot : Bool} {state final : EvalState σ} {status : Status}
    {program : LuaScript σ} {parents : List Node}
    (entered : state.indicators.Opens (Node.new Evaluator.luaName :: parents))
    (loaded : load script.cString state.context = .ok program)
    (accepted : evaluate procedureMap load script action beneathNot state =
      (.value status, final)) :
    LeavesSafe state.indicators final.indicators ↔
      StepsKeepSafe procedureMap action beneathNot program
        { eval := state, indicatorsDepth := 0 } := by
  rcases evaluate_value loaded accepted with
    ⟨values, message, ran, indicators, ran_eq, depth_zero, added, rfl⟩
  have entered' : state.indicators.Opens ([Node.new Evaluator.luaName] ++ parents) := entered
  rcases runScript_progress program 0 entered' rfl ran_eq with
    ⟨nodes, leaks, progress⟩
  have length_eq : nodes.length = leaks + 1 := by
    have counted := progress.length_eq
    omega
  have before : SafeSoFar [Node.new Evaluator.luaName] := by
    exact ⟨⟨by simp, by simp⟩, by simp⟩
  rcases nodes with _ | ⟨top, rest⟩
  · simp at length_eq
  · rcases TreeOp.apply_of_onOpen progress.opens
      (rfl : TreeOp.onOpen (.addIndicator message status) _ = some _) with
      ⟨tree', added', opens'⟩
    rw [added, Option.some.injEq] at added'
    subst added'
    have stack_iff : indicators.evaluationStack = state.indicators.evaluationStack ↔
        rest = [] := by
      have opened : indicators.Opens
          ((top.addIndicator { message, status } :: rest) ++ parents) := opens'
      rw [entered.stack_eq_iff opened, List.length_cons, Nat.add_eq_right,
        List.length_eq_zero_iff]
    have topSafe_iff : rest = [] → ((top.addIndicator { message, status }).FormatterSafe ↔
        SafeSoFar (top :: rest)) := by
      rintro rfl
      have name_eq : top.procedureName = Evaluator.luaName := by
        simpa [baseName] using progress.base_eq
      constructor
      · rintro ⟨⟨anyOf, -⟩, below⟩
        exact ⟨⟨anyOf, below⟩, by simp⟩
      · rintro ⟨⟨anyOf, below⟩, -⟩
        refine ⟨⟨anyOf, ?_⟩, below⟩
        intro isNot
        exact absurd (name_eq.symm.trans isNot) (by decide)
    have leaks_iff : rest = [] ↔ leaks = 0 := by
      rw [← List.length_eq_zero_iff]
      simp only [List.length_cons] at length_eq
      omega
    have back_eq : indicators.back = some (top.addIndicator { message, status }) :=
      IndicatorsTree.Opens.back opens'
    simp only [LeavesSafe, stack_iff, back_eq, Option.some.injEq, exists_eq_left']
    constructor
    · rintro ⟨rest_nil, topSafe⟩
      exact (progress.safe_iff.mp
        ⟨leaks_iff.mp rest_nil, (topSafe_iff rest_nil).mp topSafe⟩).2
    · intro steps
      rcases progress.safe_iff.mpr ⟨before, steps⟩ with ⟨leaks_zero, after⟩
      exact ⟨leaks_iff.mpr leaks_zero, (topSafe_iff (leaks_iff.mpr leaks_zero)).mpr after⟩

/-- A tree in which the node of a script has just been opened. -/
def enteredTree : IndicatorsTree where
  root := some ⟨{ procedureName := bytes "rule" }, [Node.new Evaluator.luaName]⟩
  evaluationStack := [[0], []]

/-- The script calls the functions of `ce.indicators` in turn and reports compliance. -/
def indicatorsScript (calls : List (IndicatorsFunction × LuaValue)) : LuaScript Unit :=
  match calls with
  | [] => .returns [.boolean true]
  | (function, argument) :: rest =>
      .call (.indicators function) [argument] fun _ => indicatorsScript rest

/-- An `anyOf` with two compliant alternatives. -/
def twoAlternatives : LuaScript Unit :=
  indicatorsScript [(.push, .string anyOfName false), (.push, .string (bytes "a") false),
    (.pop, .boolean true), (.push, .string (bytes "b") false), (.pop, .boolean true),
    (.pop, .boolean true)]

/-- A compliant node. -/
def oneNode : LuaScript Unit :=
  indicatorsScript [(.push, .string (bytes "a") false), (.pop, .boolean true)]

/-- Evaluating a script in `enteredTree`. -/
def evaluateEntered (program : LuaScript Unit) : Outcome Status × EvalState Unit :=
  evaluate ∅ (fun _ _ => .ok program) (bytes "ce.indicators.push(...)") .audit false
    { indicators := enteredTree, context := () }

/-- A script that is accepted and leaves a tree on which `NestedListFormatter` stops the
process. -/
theorem twoAlternatives_not_leavesSafe :
    (evaluateEntered twoAlternatives).1 = .value .compliant ∧
    ¬LeavesSafe enteredTree (evaluateEntered twoAlternatives).2.indicators ∧
    PayloadFormatter.format .nestedList (evaluateEntered twoAlternatives).2.indicators =
      .aborted := by
  refine ⟨by rfl, ?_, by rfl⟩
  rintro ⟨-, luaNode, back_eq, safe⟩
  have luaNode_eq : luaNode = ⟨{ procedureName := Evaluator.luaName
                                 indicators := [⟨bytes "Lua script completed", .compliant⟩] },
      [⟨{ procedureName := anyOfName, status := .compliant },
        [⟨{ procedureName := bytes "a", status := .compliant }, []⟩,
          ⟨{ procedureName := bytes "b", status := .compliant }, []⟩]⟩]⟩ :=
    Option.some.inj (back_eq.symm.trans (by rfl))
  subst luaNode_eq
  have anyOfSafe := (RoseTree.everywhere_iff.mp safe).2 _ (List.mem_singleton_self _)
  exact (RoseTree.everywhere_iff.mp anyOfSafe).1.anyOf rfl _ (List.mem_singleton_self _) rfl

/-- A script that opens and closes one node leaves a safe tree. -/
theorem evaluate_leavesSafe_iff_one_node :
    LeavesSafe enteredTree (evaluateEntered oneNode).2.indicators := by
  have entered : enteredTree.Opens
      [Node.new Evaluator.luaName, Node.new (bytes "rule")] := ⟨rfl, rfl⟩
  have accepted : evaluateEntered oneNode = (.value .compliant, (evaluateEntered oneNode).2) := by
    rfl
  have loaded : (Except.ok oneNode : Except ByteString (LuaScript Unit)) = .ok oneNode := rfl
  refine (evaluate_leavesSafe_iff entered loaded accepted).mpr ?_
  rw [oneNode, indicatorsScript, StepsKeepSafe]
  constructor
  · intro write requested top back_eq
    cases requested
    intro isAnyOf
    rw [entered.back, Option.some.injEq] at back_eq
    rw [← back_eq] at isAnyOf
    exact absurd isAnyOf (by decide)
  · intro result state' called
    cases called
    refine ⟨?_, fun _ _ _ => trivial⟩
    intro write requested top back_eq
    cases requested
    cases back_eq
    intro isNot
    exact absurd isNot (by decide)

end LuaEvaluator

end OsConfig.ComplianceEngine
