import OsConfig.ComplianceEngine.Evaluator.Kleene
import OsConfig.ComplianceEngine.Evaluator.Scripts

/-!
# What an evaluation does to its surroundings

Apart from the indicators, an evaluation ends in some way and changes the
context. Neither depends on the tree it writes to, as long as nodes are open,
nor on whether it runs beneath a `not`. The statement is a simulation between
two environments over related contexts. With equal contexts it says what was
just said; with contexts that also hold a log it says that writing the calls of
the builtin procedures to a log changes nothing.
-/

namespace OsConfig.ComplianceEngine

variable {σ τ : Type}

/-- In related contexts the handlers end the same way and leave related contexts behind. -/
def Handler.Related (R : σ → τ → Prop) (left : Handler σ) (right : Handler τ) : Prop :=
  ∀ arguments context context', R context context' →
    (right.run arguments context').outcome = (left.run arguments context).outcome ∧
      R (left.run arguments context).context (right.run arguments context').context

structure ProcedureActions.Related (R : σ → τ → Prop) (left : ProcedureActions σ)
    (right : ProcedureActions τ) : Prop where
  audit : Option.Rel (Handler.Related R) left.audit right.audit
  remediate : Option.Rel (Handler.Related R) left.remediate right.remediate

theorem Handler.Related.swap {R : σ → τ → Prop} {left : Handler σ} {right : Handler τ}
    (related : Handler.Related R left right) : Handler.Related (Function.swap R) right left := by
  intro arguments context' context relates
  rcases related arguments context context' relates with ⟨outcome_eq, contexts⟩
  exact ⟨outcome_eq.symm, contexts⟩

theorem ProcedureActions.Related.swap {R : σ → τ → Prop} {left : ProcedureActions σ}
    {right : ProcedureActions τ} (related : ProcedureActions.Related R left right) :
    ProcedureActions.Related (Function.swap R) right left := by
  have swap_option : ∀ {handler : Option (Handler σ)} {handler' : Option (Handler τ)},
      Option.Rel (Handler.Related R) handler handler' →
        Option.Rel (Handler.Related (Function.swap R)) handler' handler := by
    intro handler handler' handlers
    cases handlers with
    | none => exact .none
    | some handlers => exact .some handlers.swap
  exact ⟨swap_option related.audit, swap_option related.remediate⟩

/-- In related contexts the scripts take the same steps. -/
inductive LuaScript.Related (R : σ → τ → Prop) : LuaScript σ → LuaScript τ → Prop where
  | returns (values : List LuaValue) : Related R (.returns values) (.returns values)
  | raises (message : Option ByteString) : Related R (.raises message) (.raises message)
  | host {update : σ → σ} {update' : τ → τ} {next : σ → LuaScript σ} {next' : τ → LuaScript τ}
      (updates : ∀ context context', R context context' → R (update context) (update' context'))
      (continues : ∀ context context', R context context' →
        Related R (next context) (next' context')) :
      Related R (.host update next) (.host update' next')
  | call (function : CeFunction) (arguments : List LuaValue) {next : CallResult → LuaScript σ}
      {next' : CallResult → LuaScript τ} (continues : ∀ result, Related R (next result)
        (next' result)) :
      Related R (.call function arguments next) (.call function arguments next')

/-- Loading fails with the same message or gives related scripts. -/
inductive LuaScript.LoadsAlike (R : σ → τ → Prop) :
    Except ByteString (LuaScript σ) → Except ByteString (LuaScript τ) → Prop where
  | error (message : ByteString) : LoadsAlike R (.error message) (.error message)
  | ok {left : LuaScript σ} {right : LuaScript τ} (related : Related R left right) :
      LoadsAlike R (.ok left) (.ok right)

structure Environment.Related (R : σ → τ → Prop) (left : Environment σ)
    (right : Environment τ) : Prop where
  procedures : ∀ name : ByteString, Option.Rel (ProcedureActions.Related R)
    left.procedureMap[name]? right.procedureMap[name]?
  scripts : ∀ script context context', R context context' →
    LuaScript.LoadsAlike R (left.luaLoad script context) (right.luaLoad script context')

theorem LuaScript.related_refl (script : LuaScript σ) : LuaScript.Related Eq script script := by
  induction script with
  | returns values => exact .returns values
  | raises message => exact .raises message
  | host update next ih =>
      refine .host ?_ ?_
      · rintro context _ rfl
        rfl
      · rintro context _ rfl
        exact ih context
  | call function arguments next ih => exact .call function arguments ih

theorem Environment.related_refl (env : Environment σ) : Environment.Related Eq env env := by
  have handler_refl : ∀ handler : Handler σ, Handler.Related Eq handler handler := by
    rintro handler arguments context _ rfl
    exact ⟨rfl, rfl⟩
  have option_refl : ∀ handler : Option (Handler σ),
      Option.Rel (Handler.Related Eq) handler handler := by
    intro handler
    cases handler with
    | none => exact .none
    | some handler => exact .some (handler_refl handler)
  constructor
  · intro name
    cases env.procedureMap[name]? with
    | none => exact .none
    | some actions => exact .some ⟨option_refl actions.audit, option_refl actions.remediate⟩
  · rintro script context _ rfl
    cases env.luaLoad script context with
    | error message => exact .error message
    | ok script => exact .ok (LuaScript.related_refl script)

namespace Evaluator

/-- Two states with related contexts and enough open nodes. -/
structure Alike (R : σ → τ → Prop) (leftDepth rightDepth : ℕ) (left : EvalState σ)
    (right : EvalState τ) : Prop where
  related : R left.context right.context
  leftDeep : Deep leftDepth left.indicators
  rightDeep : Deep rightDepth right.indicators

/-- From states that are alike, the second computation ends as the first one does, up to what
`turn` makes of a returned value, and the states are alike again. -/
def Mirrors {α β : Type} (R : σ → τ → Prop) (turn : α → β)
    (first : EvalState σ → Outcome α × EvalState σ)
    (second : EvalState τ → Outcome β × EvalState τ) : Prop :=
  ∀ leftDepth rightDepth left right, Alike R (leftDepth + 1) (rightDepth + 1) left right →
    (second right).1 = (first left).1.map turn ∧
      Alike R (leftDepth + 1) (rightDepth + 1) (first left).2 (second right).2

section Mirrors

variable {R : σ → τ → Prop} {turn : Status → Status}
  {first : EvalState σ → Outcome Status × EvalState σ}
  {second : EvalState τ → Outcome Status × EvalState τ}

/-- A rule node around a computation that starts with an open node changes neither how the
computation ends nor the context. -/
theorem within_deep {depth : ℕ} {state : EvalState σ} (deep : Deep (depth + 1) state.indicators)
    (name : ByteString) {body : EvalState σ → Outcome Status × EvalState σ} :
    ∃ pushed, Deep (depth + 2) pushed ∧
      (Deep (depth + 2) (body { state with indicators := pushed }).2.indicators →
        (state.within name body).1 = (body { state with indicators := pushed }).1 ∧
        (state.within name body).2.context =
          (body { state with indicators := pushed }).2.context ∧
        Deep (depth + 1) (state.within name body).2.indicators) := by
  rcases deep.push name with ⟨pushed, push_eq, pushed_deep⟩
  refine ⟨pushed, pushed_deep, ?_⟩
  intro inner_deep
  cases ran : body { state with indicators := pushed } with
  | mk outcome inner =>
      rw [ran] at inner_deep
      by_cases returned : ∃ status, outcome = .value status
      · rcases returned with ⟨status, rfl⟩
        rcases inner_deep.close status with ⟨closed, close_eq, closed_deep⟩
        rw [EvalState.within_closed push_eq ran close_eq]
        exact ⟨rfl, rfl, closed_deep (by omega)⟩
      · have left : ∀ status, outcome ≠ .value status :=
          fun status outcome_eq => returned ⟨status, outcome_eq⟩
        rw [EvalState.within_left push_eq ran left]
        exact ⟨rfl, rfl, inner_deep.mono (by omega)⟩

theorem Mirrors.within_left (mirrors : Mirrors R turn first second) (name : ByteString) :
    Mirrors R turn (fun state => state.within name first) second := by
  intro leftDepth rightDepth left right alike
  rcases within_deep alike.leftDeep name with ⟨pushed, pushed_deep, ends⟩
  rcases mirrors (leftDepth + 1) rightDepth { left with indicators := pushed } right
    ⟨alike.related, pushed_deep, alike.rightDeep⟩ with ⟨outcome_eq, after⟩
  rcases ends after.leftDeep with ⟨same_outcome, same_context, deep⟩
  simp only [outcome_eq, same_outcome, true_and]
  exact ⟨by rw [same_context]; exact after.related, deep, after.rightDeep⟩

theorem Mirrors.within_right (mirrors : Mirrors R turn first second) (name : ByteString) :
    Mirrors R turn first fun state => state.within name second := by
  intro leftDepth rightDepth left right alike
  rcases within_deep alike.rightDeep name with ⟨pushed, pushed_deep, ends⟩
  rcases mirrors leftDepth (rightDepth + 1) left { right with indicators := pushed }
    ⟨alike.related, alike.leftDeep, pushed_deep⟩ with ⟨outcome_eq, after⟩
  rcases ends after.rightDeep with ⟨same_outcome, same_context, deep⟩
  simp only [outcome_eq, same_outcome, true_and]
  exact ⟨by rw [same_context]; exact after.related, after.leftDeep, deep⟩

/-- A `not` negates what its operand returns and passes on everything else. -/
theorem evaluateNot_eq {value : JsonValue} {members : JsonObject}
    (isObject : value.getObject = some members)
    (evaluateOperand : EvalState σ → Outcome Status × EvalState σ) (state : EvalState σ) :
    evaluateNot value evaluateOperand state =
      ((evaluateOperand state).1.map Status.negate, (evaluateOperand state).2) := by
  simp only [evaluateNot, isObject]
  cases evaluateOperand state with
  | mk outcome inner =>
      cases outcome with
      | value status => cases status <;> rfl
      | error failure => rfl
      | thrown what => rfl
      | aborted => rfl

theorem evaluateNot_refused {value : JsonValue} (noObject : value.getObject = none)
    (evaluateOperand : EvalState σ → Outcome Status × EvalState σ) (state : EvalState σ) :
    evaluateNot value evaluateOperand state =
      (.error { message := bytes "not value is not an object", code := Errno.EINVAL }, state) := by
  simp only [evaluateNot, noObject]

theorem Mirrors.evaluateNot_left {value : JsonValue} {members : JsonObject}
    (isObject : value.getObject = some members) (mirrors : Mirrors R turn first second) :
    Mirrors R (turn ∘ Status.negate) (evaluateNot value first) second := by
  intro leftDepth rightDepth left right alike
  rw [evaluateNot_eq isObject]
  rcases mirrors leftDepth rightDepth left right alike with ⟨outcome_eq, after⟩
  refine ⟨?_, after⟩
  rw [outcome_eq, Outcome.map_map, Function.comp_assoc, Status.negate_comp_negate,
    Function.comp_id]

theorem Mirrors.evaluateNot_right {value : JsonValue} {members : JsonObject}
    (isObject : value.getObject = some members) (mirrors : Mirrors R turn first second) :
    Mirrors R (Status.negate ∘ turn) first (evaluateNot value second) := by
  intro leftDepth rightDepth left right alike
  rw [evaluateNot_eq isObject]
  rcases mirrors leftDepth rightDepth left right alike with ⟨outcome_eq, after⟩
  refine ⟨?_, after⟩
  rw [outcome_eq, Outcome.map_map]

/-- Computations that fail at once in the same way. -/
theorem Mirrors.refused {failure : Error} (turn : Status → Status)
    (left_refused : ∀ state, first state = (.error failure, state))
    (right_refused : ∀ state, second state = (.error failure, state)) :
    Mirrors R turn first second := by
  intro leftDepth rightDepth left right alike
  rw [left_refused, right_refused]
  exact ⟨rfl, alike⟩

end Mirrors

section Lists

variable {R : σ → τ → Prop} {env : Environment σ} {env' : Environment τ}
  {parameters : ParameterMap}

/-- The two loops run in lockstep when the operands mirror each other one by one and `turn`
maps what decides the one list to what decides the other. -/
theorem Mirrors.evaluateItems {turn : Status → Status} (injective : Function.Injective turn)
    (undecided : turn .notApplicable = .notApplicable) {listAction listAction' : ListAction}
    (decides : turn listAction.decisive = listAction'.decisive) {action action' : Action}
    {beneathNot beneathNot' : Bool} {items items' : List JsonValue}
    (mirror : List.Forall₂ (fun item item' =>
      Mirrors R turn (evaluateProcedure env parameters item action beneathNot)
        (evaluateProcedure env' parameters item' action' beneathNot')) items items')
    (accumulated : Status) :
    Mirrors R turn
      (Evaluator.evaluateItems env parameters items action beneathNot listAction accumulated)
      (Evaluator.evaluateItems env' parameters items' action' beneathNot' listAction'
        (turn accumulated)) := by
  induction mirror generalizing accumulated with
  | nil =>
      intro leftDepth rightDepth left right alike
      simp only [Evaluator.evaluateItems]
      exact ⟨rfl, alike⟩
  | @cons item item' rest rest' item_mirrors rest_mirror ih =>
      intro leftDepth rightDepth left right alike
      rcases item_mirrors leftDepth rightDepth left right alike with ⟨outcome_eq, after⟩
      rw [Evaluator.evaluateItems, Evaluator.evaluateItems]
      cases ran : evaluateProcedure env parameters item action beneathNot left with
      | mk outcome inner =>
          cases ran' : evaluateProcedure env' parameters item' action' beneathNot' right with
          | mk outcome' inner' =>
              simp only [ran, ran'] at outcome_eq after
              subst outcome_eq
              cases outcome with
              | error failure => exact ⟨rfl, after⟩
              | thrown what => exact ⟨rfl, after⟩
              | aborted => exact ⟨rfl, after⟩
              | value status =>
                  have decides_iff : turn status = listAction'.decisive ↔
                      status = listAction.decisive := by
                    rw [← decides]
                    exact injective.eq_iff
                  have undecided_iff : turn status = .notApplicable ↔
                      status = .notApplicable := by
                    rw [← undecided]
                    exact injective.eq_iff.trans (by rw [undecided])
                  simp only [Outcome.map, decides_iff, undecided_iff]
                  by_cases decided : status = listAction.decisive
                  · rw [if_pos decided, if_pos decided]
                    exact ⟨rfl, after⟩
                  · rw [if_neg decided, if_neg decided]
                    have accumulated_eq :
                        (if status = .notApplicable then Status.notApplicable
                          else turn accumulated) =
                        turn (if status = .notApplicable then .notApplicable
                          else accumulated) := by
                      split
                      · exact undecided.symm
                      · rfl
                    rw [accumulated_eq]
                    exact ih _ leftDepth rightDepth inner inner' after

end Lists

section Leaves

variable {R : σ → τ → Prop}

theorem callHandler_mirrors {handler : Handler σ} {handler' : Handler τ}
    (related : Handler.Related R handler handler') (name : ByteString) (kind : Action)
    (arguments : ParameterMap) (beneathNot beneathNot' : Bool) :
    Mirrors R id (fun state => state.callHandler name kind handler arguments beneathNot)
      (fun state => state.callHandler name kind handler' arguments beneathNot') := by
  intro leftDepth rightDepth left right alike
  rcases alike.leftDeep.callHandler name kind handler arguments beneathNot with
    ⟨left', left_called, left_deep, left_context⟩
  rcases alike.rightDeep.callHandler name kind handler' arguments beneathNot' with
    ⟨right', right_called, right_deep, right_context⟩
  rcases related arguments left.context right.context alike.related with
    ⟨outcome_eq, contexts⟩
  simp only [left_called, right_called, Outcome.map_id]
  refine ⟨outcome_eq, ?_, left_deep, right_deep⟩
  rw [left_context, right_context]
  exact contexts

theorem select_related {actions : ProcedureActions σ} {actions' : ProcedureActions τ}
    (related : ProcedureActions.Related R actions actions') (action : Action) :
    (ProcedureMap.select actions action = none ∧ ProcedureMap.select actions' action = none) ∨
    ∃ kind handler handler', ProcedureMap.select actions action = some (kind, handler) ∧
      ProcedureMap.select actions' action = some (kind, handler') ∧
      Handler.Related R handler handler' := by
  rcases actions with ⟨audit, remediate⟩
  rcases actions' with ⟨audit', remediate'⟩
  rcases related with ⟨audits, remediates⟩
  simp only at audits remediates
  cases action with
  | audit =>
      cases audits with
      | none => exact .inl ⟨rfl, rfl⟩
      | some handlers => exact .inr ⟨_, _, _, rfl, rfl, handlers⟩
  | remediate =>
      cases remediates with
      | some handlers => exact .inr ⟨_, _, _, rfl, rfl, handlers⟩
      | none =>
          cases audits with
          | none => exact .inl ⟨rfl, rfl⟩
          | some handlers => exact .inr ⟨_, _, _, rfl, rfl, handlers⟩

theorem evaluateBuiltinProcedure_mirrors {env : Environment σ} {env' : Environment τ}
    (related : Environment.Related R env env') (parameters : ParameterMap) (name : ByteString)
    (value : JsonValue) (action : Action) (beneathNot beneathNot' : Bool) :
    Mirrors R id (evaluateBuiltinProcedure env parameters name value action beneathNot)
      (evaluateBuiltinProcedure env' parameters name value action beneathNot') := by
  intro leftDepth rightDepth left right alike
  simp only [evaluateBuiltinProcedure]
  cases value.getObject with
  | none => exact ⟨rfl, alike⟩
  | some members =>
      cases getBuiltinProcedureArguments parameters value with
      | error failure => exact ⟨rfl, alike⟩
      | ok arguments =>
          have registered := related.procedures name
          cases found : env.procedureMap[name]? with
          | none =>
              cases found' : env'.procedureMap[name]? with
              | none => exact ⟨rfl, alike⟩
              | some actions' =>
                  rw [found, found'] at registered
                  cases registered
          | some actions =>
              cases found' : env'.procedureMap[name]? with
              | none =>
                  rw [found, found'] at registered
                  cases registered
              | some actions' =>
                  rw [found, found'] at registered
                  cases registered with
                  | some actions_related =>
                      rcases select_related actions_related action with
                        ⟨none_eq, none_eq'⟩ | ⟨kind, handler, handler', some_eq, some_eq', handlers⟩
                      · simp only [none_eq, none_eq']
                        exact ⟨rfl, alike⟩
                      · simp only [some_eq, some_eq']
                        exact callHandler_mirrors handlers name kind arguments beneathNot
                          beneathNot' leftDepth rightDepth left right alike

end Leaves

section Scripts

open LuaEvaluator (CallState)

/-- An operation that stays within the nodes opened beyond `base + 1` goes through. -/
theorem Deep.apply {op : TreeOp} {base depth depth' : ℕ} {tree : IndicatorsTree}
    (deep : Deep (base + 1 + depth) tree)
    (stays : TreeOp.depthAfter depth [op] = some depth') :
    ∃ tree', op.apply tree = some tree' ∧ Deep (base + 1 + depth') tree' := by
  cases op with
  | push name =>
      simp only [TreeOp.depthAfter, Option.some.injEq] at stays
      subst stays
      exact deep.push name
  | close status =>
      cases depth with
      | zero => simp [TreeOp.depthAfter] at stays
      | succ below =>
          simp only [TreeOp.depthAfter, Option.some.injEq] at stays
          subst stays
          have open_below : 0 < base + 1 + below := by omega
          rcases Deep.close deep status with ⟨tree', closed, closed_deep⟩
          exact ⟨tree', closed, closed_deep open_below⟩
  | addIndicator message status =>
      simp only [TreeOp.depthAfter, Option.some.injEq] at stays
      subst stays
      rcases deep with ⟨openNodes, opens, length_le⟩
      rcases openNodes with _ | ⟨node, parents⟩
      · simp only [List.length_nil] at length_le
        omega
      · rcases opens.modifyBack (Node.addIndicator { message, status }) with
          ⟨tree', applied, opens'⟩
        exact ⟨tree', applied, _, opens', by simpa using length_le⟩

/-- Two scripts are at the same depth above states that are alike. -/
structure CallAlike (R : σ → τ → Prop) (leftDepth rightDepth : ℕ) (left : CallState σ)
    (right : CallState τ) : Prop where
  depth_eq : right.indicatorsDepth = left.indicatorsDepth
  alike : Alike R (leftDepth + 1 + left.indicatorsDepth) (rightDepth + 1 + left.indicatorsDepth)
    left.eval right.eval

variable {R : σ → τ → Prop} {procedureMap : ProcedureMap σ} {procedureMap' : ProcedureMap τ}
  {action : Action} {beneathNot beneathNot' : Bool} {leftDepth rightDepth : ℕ}
  {left : CallState σ} {right : CallState τ}

theorem mem_closures_related {actions : ProcedureActions σ} {actions' : ProcedureActions τ}
    (related : ProcedureActions.Related R actions actions') {name field : ByteString}
    {closure : Closure σ} (mem : (field, closure) ∈ LuaEvaluator.closures name actions) :
    ∃ function, (field, ⟨closure.procedureName, closure.procedure, closure.kind, function⟩) ∈
        LuaEvaluator.closures name actions' ∧
      Handler.Related R closure.function function := by
  rcases actions with ⟨audit, remediate⟩
  rcases actions' with ⟨audit', remediate'⟩
  rcases related with ⟨audits, remediates⟩
  simp only at audits remediates
  rcases LuaEvaluator.mem_closures.mp mem with
    ⟨handler, rfl, rfl, rfl⟩ | ⟨handler, rfl, rfl, rfl⟩
  · cases audits with
    | some handlers =>
        exact ⟨_, LuaEvaluator.mem_closures.mpr (.inl ⟨_, rfl, rfl, rfl⟩), handlers⟩
  · cases remediates with
    | some handlers =>
        exact ⟨_, LuaEvaluator.mem_closures.mpr (.inr ⟨_, rfl, rfl, rfl⟩), handlers⟩

theorem lookup_related (related : ∀ name : ByteString, Option.Rel (ProcedureActions.Related R)
      procedureMap[name]? procedureMap'[name]?) (field : ByteString) :
    ((LuaEvaluator.registerProcedures procedureMap).lookup field = none ∧
      (LuaEvaluator.registerProcedures procedureMap').lookup field = none) ∨
    ∃ closure function,
      (LuaEvaluator.registerProcedures procedureMap).lookup field = some closure ∧
      (LuaEvaluator.registerProcedures procedureMap').lookup field =
        some ⟨closure.procedureName, closure.procedure, closure.kind, function⟩ ∧
      Handler.Related R closure.function function := by
  cases found : (LuaEvaluator.registerProcedures procedureMap).lookup field with
  | some closure =>
      right
      rcases LuaEvaluator.lookup_registerProcedures.mp found with
        ⟨name, actions, registered, mem⟩
      have relates := related name
      cases registered' : procedureMap'[name]? with
      | none =>
          rw [registered, registered'] at relates
          cases relates
      | some actions' =>
          rw [registered, registered'] at relates
          cases relates with
          | some actions_related =>
              rcases mem_closures_related actions_related mem with ⟨function, mem', handlers⟩
              exact ⟨closure, function, rfl, LuaEvaluator.lookup_registerProcedures.mpr
                ⟨name, actions', registered', mem'⟩, handlers⟩
  | none =>
      left
      refine ⟨rfl, ?_⟩
      cases found' : (LuaEvaluator.registerProcedures procedureMap').lookup field with
      | none => rfl
      | some closure' =>
          rcases LuaEvaluator.lookup_registerProcedures.mp found' with
            ⟨name, actions', registered', mem'⟩
          have relates := related name
          cases registered : procedureMap[name]? with
          | none =>
              rw [registered, registered'] at relates
              cases relates
          | some actions =>
              rw [registered, registered'] at relates
              cases relates with
              | some actions_related =>
                  rcases mem_closures_related actions_related.swap mem' with ⟨function, mem, -⟩
                  have registered_some := LuaEvaluator.lookup_registerProcedures.mpr
                    ⟨name, actions, registered, mem⟩
                  rw [found] at registered_some
                  cases registered_some

theorem callProcedure_alike
    (related : ∀ name : ByteString, Option.Rel (ProcedureActions.Related R)
      procedureMap[name]? procedureMap'[name]?)
    (callAlike : CallAlike R leftDepth rightDepth left right) (field : ByteString)
    (arguments : List LuaValue) :
    (LuaEvaluator.callProcedure procedureMap' action beneathNot' field arguments right).1 =
        (LuaEvaluator.callProcedure procedureMap action beneathNot field arguments left).1 ∧
      CallAlike R leftDepth rightDepth
        (LuaEvaluator.callProcedure procedureMap action beneathNot field arguments left).2
        (LuaEvaluator.callProcedure procedureMap' action beneathNot' field arguments right).2 := by
  have recorded : CallAlike R leftDepth rightDepth
      { left with eval := left.eval.record (.luaCalled field arguments beneathNot) }
      { right with eval := right.eval.record (.luaCalled field arguments beneathNot') } :=
    ⟨callAlike.depth_eq, callAlike.alike.related, callAlike.alike.leftDeep,
      callAlike.alike.rightDeep⟩
  simp only [LuaEvaluator.callProcedure]
  rcases lookup_related related field with
    ⟨found, found'⟩ | ⟨closure, function, found, found', handlers⟩
  · simp only [found, found', true_and]
    exact recorded
  · simp only [found, found', LuaEvaluator.luaProcedureWrapper]
    split
    · exact ⟨rfl, recorded⟩
    · cases LuaEvaluator.readArguments arguments with
      | error message => exact ⟨rfl, recorded⟩
      | ok parameters =>
          have left_eq : leftDepth + 1 + left.indicatorsDepth =
              leftDepth + left.indicatorsDepth + 1 := by omega
          have right_eq : rightDepth + 1 + left.indicatorsDepth =
              rightDepth + left.indicatorsDepth + 1 := by omega
          rcases callHandler_mirrors handlers closure.procedure closure.kind parameters beneathNot
            beneathNot' (leftDepth + left.indicatorsDepth) (rightDepth + left.indicatorsDepth) _ _
            (by rw [← left_eq, ← right_eq]; exact recorded.alike) with ⟨outcome_eq, after⟩
          rw [Outcome.map_id] at outcome_eq
          rw [← left_eq, ← right_eq] at after
          exact ⟨congrArg (LuaEvaluator.relay closure.procedureName) outcome_eq,
            callAlike.depth_eq, after⟩

theorem perform_alike (callAlike : CallAlike R leftDepth rightDepth left right)
    (function : IndicatorsFunction) (arguments : List LuaValue) :
    (LuaEvaluator.perform (LuaEvaluator.request function arguments right.indicatorsDepth)
        right).1 =
      (LuaEvaluator.perform (LuaEvaluator.request function arguments left.indicatorsDepth)
        left).1 ∧
    CallAlike R leftDepth rightDepth
      (LuaEvaluator.perform (LuaEvaluator.request function arguments left.indicatorsDepth) left).2
      (LuaEvaluator.perform (LuaEvaluator.request function arguments right.indicatorsDepth)
        right).2 := by
  rw [callAlike.depth_eq]
  cases requested : LuaEvaluator.request function arguments left.indicatorsDepth with
  | error message => exact ⟨rfl, callAlike⟩
  | ok write =>
      have stays := LuaEvaluator.request_depth requested
      rcases callAlike.alike.leftDeep.apply stays with ⟨tree, applied, deep⟩
      rcases callAlike.alike.rightDeep.apply stays with ⟨tree', applied', deep'⟩
      simp only [LuaEvaluator.perform, applied, applied', true_and]
      exact ⟨rfl, callAlike.alike.related, deep, deep'⟩

/-- Related scripts end the same way, at the same depth, in related contexts. -/
theorem runScript_alike (action : Action) (beneathNot beneathNot' : Bool)
    (related : ∀ name : ByteString, Option.Rel (ProcedureActions.Related R)
      procedureMap[name]? procedureMap'[name]?)
    {script : LuaScript σ} {script' : LuaScript τ} (scripts : LuaScript.Related R script script')
    (callAlike : CallAlike R leftDepth rightDepth left right) :
    (LuaEvaluator.runScript procedureMap' action beneathNot' script' right).1 =
        (LuaEvaluator.runScript procedureMap action beneathNot script left).1 ∧
      CallAlike R leftDepth rightDepth
        (LuaEvaluator.runScript procedureMap action beneathNot script left).2
        (LuaEvaluator.runScript procedureMap' action beneathNot' script' right).2 := by
  induction scripts generalizing left right with
  | returns values => exact ⟨rfl, callAlike⟩
  | raises message => exact ⟨rfl, callAlike⟩
  | host updates continues ih =>
      have contexts := updates _ _ callAlike.alike.related
      simp only [LuaEvaluator.runScript]
      apply ih _ _ contexts
      exact ⟨callAlike.depth_eq, contexts, callAlike.alike.leftDeep, callAlike.alike.rightDeep⟩
  | @call function arguments next next' continues ih =>
      have called :
          (LuaEvaluator.callCe procedureMap' action beneathNot' function arguments right).1 =
            (LuaEvaluator.callCe procedureMap action beneathNot function arguments left).1 ∧
          CallAlike R leftDepth rightDepth
            (LuaEvaluator.callCe procedureMap action beneathNot function arguments left).2
            (LuaEvaluator.callCe procedureMap' action beneathNot' function arguments right).2 := by
        cases function with
        | procedure field => exact callProcedure_alike related callAlike field arguments
        | indicators function => exact perform_alike callAlike function arguments
      rw [LuaEvaluator.runScript, LuaEvaluator.runScript]
      rcases called with ⟨outcome_eq, after⟩
      cases ran : LuaEvaluator.callCe procedureMap action beneathNot function arguments left with
      | mk outcome inner =>
          cases ran' : LuaEvaluator.callCe procedureMap' action beneathNot' function arguments
              right with
          | mk outcome' inner' =>
              simp only [ran, ran'] at outcome_eq after
              subst outcome_eq
              cases outcome' with
              | value result => exact ih result after
              | error failure => exact ⟨rfl, after⟩
              | thrown what => exact ⟨rfl, after⟩
              | aborted => exact ⟨rfl, after⟩

/-- What a script returned is refused, in the same way from every state, unless it starts with
a boolean. -/
theorem readReturned_cases (values : List LuaValue) :
    (∃ failure, ∀ {ρ : Type} (state : CallState ρ),
      LuaEvaluator.readReturned values state = (.error failure, state.eval)) ∨
    ∃ isCompliant rest, values = .boolean isCompliant :: rest := by
  rcases values with _ | ⟨first, rest⟩
  · exact .inl ⟨_, fun _ => rfl⟩
  · cases first with
    | boolean isCompliant => exact .inr ⟨isCompliant, rest, rfl⟩
    | nil => exact .inl ⟨_, fun _ => rfl⟩
    | number printed => exact .inl ⟨_, fun _ => rfl⟩
    | table entries failure => exact .inl ⟨_, fun _ => rfl⟩
    | other => exact .inl ⟨_, fun _ => rfl⟩
    | string text convertsToNumber =>
        left
        cases convertsToNumber with
        | true => exact ⟨_, fun _ => rfl⟩
        | false =>
            cases second : rest.head?.bind LuaValue.toCString with
            | none =>
                refine ⟨{ message := text.cString }, fun state => ?_⟩
                simp only [LuaEvaluator.readReturned, LuaValue.toCString, LuaValue.isNumber, second]
            | some other =>
                refine ⟨{ message := text.cString ++ bytes " : " ++ other }, fun state => ?_⟩
                simp only [LuaEvaluator.readReturned, LuaValue.toCString, LuaValue.isNumber, second]

theorem readReturned_alike (callAlike : CallAlike R leftDepth rightDepth left right)
    (values : List LuaValue) :
    (LuaEvaluator.readReturned values right).1 = (LuaEvaluator.readReturned values left).1 ∧
      Alike R (leftDepth + 1) (rightDepth + 1) (LuaEvaluator.readReturned values left).2
        (LuaEvaluator.readReturned values right).2 := by
  have kept : Alike R (leftDepth + 1) (rightDepth + 1) left.eval right.eval :=
    ⟨callAlike.alike.related, callAlike.alike.leftDeep.mono (by omega),
      callAlike.alike.rightDeep.mono (by omega)⟩
  rcases readReturned_cases values with ⟨failure, refused⟩ | ⟨isCompliant, rest, rfl⟩
  · rw [refused, refused]
    exact ⟨rfl, kept⟩
  · simp only [LuaEvaluator.readReturned, callAlike.depth_eq]
    split
    · exact ⟨rfl, kept⟩
    · generalize (rest.head?.bind LuaValue.toCString).getD (bytes "Lua script completed") = message
      generalize (if isCompliant then Status.compliant else Status.nonCompliant) = status
      have stays : TreeOp.depthAfter 0 [.addIndicator message status] = some 0 := rfl
      rcases kept.leftDeep.apply stays with ⟨tree, applied, deep⟩
      rcases kept.rightDeep.apply stays with ⟨tree', applied', deep'⟩
      simp only [TreeOp.apply] at applied applied'
      simp only [applied, applied', true_and]
      exact ⟨kept.related, deep, deep'⟩

theorem luaEvaluate_mirrors {env : Environment σ} {env' : Environment τ}
    (related : Environment.Related R env env') (script : ByteString) (action : Action)
    (beneathNot beneathNot' : Bool) :
    Mirrors R id (LuaEvaluator.evaluate env.procedureMap env.luaLoad script action beneathNot)
      (LuaEvaluator.evaluate env'.procedureMap env'.luaLoad script action beneathNot') := by
  intro leftDepth rightDepth left right alike
  have loads := related.scripts script.cString left.context right.context alike.related
  simp only [LuaEvaluator.evaluate, Outcome.map_id]
  generalize env.luaLoad script.cString left.context = load at loads
  generalize env'.luaLoad script.cString right.context = load' at loads
  cases loads with
  | error message => exact ⟨rfl, alike⟩
  | @ok program program' programs =>
      have entered : CallAlike R leftDepth rightDepth { eval := left, indicatorsDepth := 0 }
          { eval := right, indicatorsDepth := 0 } := ⟨rfl, alike⟩
      have runs := runScript_alike action beneathNot beneathNot' related.procedures programs entered
      simp only
      cases ran : LuaEvaluator.runScript env.procedureMap action beneathNot program
          { eval := left, indicatorsDepth := 0 } with
      | mk ending final =>
          cases ran' : LuaEvaluator.runScript env'.procedureMap action beneathNot' program'
              { eval := right, indicatorsDepth := 0 } with
          | mk ending' final' =>
              rw [ran, ran'] at runs
              rcases runs with ⟨end_eq, after⟩
              simp only at end_eq after
              subst end_eq
              have kept : Alike R (leftDepth + 1) (rightDepth + 1) final.eval final'.eval :=
                ⟨after.alike.related, after.alike.leftDeep.mono (by omega),
                  after.alike.rightDeep.mono (by omega)⟩
              cases ending' with
              | returned values => exact readReturned_alike after values
              | raised message => exact ⟨rfl, kept⟩
              | thrown what => exact ⟨rfl, kept⟩
              | aborted => exact ⟨rfl, kept⟩

theorem evaluateLua_mirrors {env : Environment σ} {env' : Environment τ}
    (related : Environment.Related R env env') (parameters : ParameterMap) (value : JsonValue)
    (action : Action) (beneathNot beneathNot' : Bool) :
    Mirrors R id (evaluateLua env parameters value action beneathNot)
      (evaluateLua env' parameters value action beneathNot') := by
  intro leftDepth rightDepth left right alike
  simp only [evaluateLua]
  cases value.getObject with
  | none => exact ⟨rfl, alike⟩
  | some members =>
      cases getBuiltinProcedureArguments parameters value with
      | error failure => exact ⟨rfl, alike⟩
      | ok arguments =>
          cases found : arguments[bytes "script"]? with
          | none =>
              simp only [found]
              exact ⟨rfl, alike⟩
          | some script =>
              simp only [found]
              exact luaEvaluate_mirrors related script action beneathNot beneathNot' leftDepth
                rightDepth left right alike

end Scripts

section Simulation

variable {R : σ → τ → Prop} {env : Environment σ} {env' : Environment τ}

theorem evaluateProcedure_mirrors (related : Environment.Related R env env')
    (parameters : ParameterMap) (rule : JsonValue) :
    ∀ action beneathNot beneathNot',
      Mirrors R id (evaluateProcedure env parameters rule action beneathNot)
        (evaluateProcedure env' parameters rule action beneathNot') := by
  induction rule using JsonValue.ruleInduction with
  | step rule ih =>
      intro action beneathNot beneathNot'
      by_cases shape : ∃ name value rest, rule = .object ((name, value) :: rest)
      · rcases shape with ⟨name, value, rest, rule_eq⟩
        rcases ih name value rest rule_eq with ⟨operand_mirrors, items_mirror⟩
        have list_mirrors : ∀ listAction, Mirrors R id
            (evaluateList env parameters value action beneathNot listAction)
            (evaluateList env' parameters value action beneathNot' listAction) := by
          intro listAction
          by_cases isArray : ∃ items, value = .array items
          · rcases isArray with ⟨items, rfl⟩
            intro leftDepth rightDepth left right alike
            rw [evaluateList_array, evaluateList_array]
            apply Mirrors.evaluateItems Function.injective_id rfl rfl ?_ listAction.initial
            · exact alike
            · rw [List.forall₂_same]
              intro item item_mem
              exact items_mirror items rfl item item_mem action beneathNot beneathNot'
          · rcases evaluateList_refused value listAction
              (fun items value_eq => isArray ⟨items, value_eq⟩) with ⟨failure, refused⟩
            exact .refused id (refused env parameters action beneathNot)
              (refused env' parameters action beneathNot')
        subst rule_eq
        rw [evaluateProcedure_object, evaluateProcedure_object]
        apply Mirrors.within_left
        apply Mirrors.within_right
        rw [ruleBody, ruleBody]
        split
        · exact list_mirrors .anyOf
        · split
          · exact list_mirrors .allOf
          · split
            · cases object_eq : value.getObject with
              | none =>
                  apply Mirrors.refused
                  · exact evaluateNot_refused object_eq _
                  · exact evaluateNot_refused object_eq _
              | some members =>
                  have both := ((operand_mirrors .audit true true).evaluateNot_left
                    object_eq).evaluateNot_right object_eq
                  rwa [Function.id_comp, Status.negate_comp_negate] at both
            · split
              · exact evaluateLua_mirrors related parameters value action beneathNot beneathNot'
              · exact evaluateBuiltinProcedure_mirrors related parameters name value action
                  beneathNot beneathNot'
      · rcases evaluateProcedure_refused rule
          (fun name value rest rule_eq => shape ⟨name, value, rest, rule_eq⟩) with
          ⟨failure, refused⟩
        exact .refused id (refused env parameters action beneathNot)
          (refused env' parameters action beneathNot')

theorem initial_alike {context : σ} {context' : τ} (relates : R context context')
    (ruleName ruleName' : ByteString) :
    Alike R (0 + 1) (0 + 1) (initial ruleName context) (initial ruleName' context') :=
  ⟨relates, ⟨[Node.new ruleName], ⟨rfl, rfl⟩, by simp⟩, ⟨[Node.new ruleName'], ⟨rfl, rfl⟩, by simp⟩⟩

/-- The status is also that of the root, which is then popped: this always goes through. -/
theorem execute_eq (env : Environment σ) (parameters : ParameterMap) (ruleName : ByteString)
    (rule : JsonValue) (action : Action) (context : σ)
    (deep : Deep 1 (evaluateProcedure env parameters rule action false
      (initial ruleName context)).2.indicators) :
    (execute env parameters ruleName rule action context).1 =
        (evaluateProcedure env parameters rule action false (initial ruleName context)).1 ∧
      (execute env parameters ruleName rule action context).2.context =
        (evaluateProcedure env parameters rule action false (initial ruleName context)).2.context := by
  cases ran : evaluateProcedure env parameters rule action false (initial ruleName context) with
  | mk outcome state =>
      rw [ran] at deep
      cases outcome with
      | value status =>
          rcases Deep.close deep status with ⟨closed, close_eq, -⟩
          simp only [execute, ran, close_eq, and_self]
      | error failure => simp only [execute, ran, and_self]
      | thrown what => simp only [execute, ran, and_self]
      | aborted => simp only [execute, ran, and_self]

/-- Rules that mirror each other end alike as whole audits. -/
theorem execute_mirrors {parameters : ParameterMap} {rule rule' : JsonValue} {action : Action}
    (mirrors : Mirrors R id (evaluateProcedure env parameters rule action false)
      (evaluateProcedure env' parameters rule' action false)) (ruleName : ByteString)
    {context : σ} {context' : τ} (relates : R context context') :
    (execute env' parameters ruleName rule' action context').1 =
        (execute env parameters ruleName rule action context).1 ∧
      R (execute env parameters ruleName rule action context).2.context
        (execute env' parameters ruleName rule' action context').2.context := by
  rcases mirrors 0 0 _ _ (initial_alike relates ruleName ruleName) with ⟨outcome_eq, after⟩
  rcases execute_eq env parameters ruleName rule action context after.leftDeep with
    ⟨left_outcome, left_context⟩
  rcases execute_eq env' parameters ruleName rule' action context' after.rightDeep with
    ⟨right_outcome, right_context⟩
  rw [left_outcome, right_outcome, left_context, right_context, outcome_eq, Outcome.map_id]
  exact ⟨rfl, after.related⟩

end Simulation

end Evaluator

end OsConfig.ComplianceEngine
