import OsConfig.ComplianceEngine.Procedures

/-!
# Lua scripts

The Lua interpreter is not part of the repository. What a script does is its
interaction with the functions the evaluator registers: it computes, calls one
of them, continues with what the call returned or raised (a script may guard a
call with `pcall`), and in the end returns values or raises an error. `LuaScript`
is the type of all such interactions, so statements about every script are
statements about every value of it.

Error messages are modelled without the source position that `luaL_error` puts
in front of them.
-/

namespace OsConfig.ComplianceEngine

namespace LuaValue

/-- `lua_isstring`, with the C string `lua_tostring` gives. -/
def toCString : LuaValue → Option ByteString
  | .string text _ => some text.cString
  | .number printed => some printed.cString
  | _ => none

def isNumber : LuaValue → Bool
  | .number _ => true
  | .string _ convertsToNumber => convertsToNumber
  | _ => false

end LuaValue

/-- What a call of a registered function gives to the script. -/
inductive CallResult where
  | values (values : List LuaValue)
  | raised (message : ByteString)

/-- The functions of `ce.indicators`. -/
inductive IndicatorsFunction where
  | push
  | pop
  | compliant
  | nonCompliant

/-- The functions of the `ce` table that can write to the tree. -/
inductive CeFunction where
  | procedure (field : ByteString)
  | indicators (function : IndicatorsFunction)

/-- A script, as the tree of its interactions. `host` stands for computation
and for library functions that do not touch the indicators. -/
inductive LuaScript (σ : Type) where
  | returns (values : List LuaValue)
  | raises (message : Option ByteString)
  | host (update : σ → σ) (next : σ → LuaScript σ)
  | call (function : CeFunction) (arguments : List LuaValue) (next : CallResult → LuaScript σ)

/-- The closure `RegisterProcedures` creates: the string upvalue and the function pointer,
with the procedure and the action the pointer belongs to. -/
structure Closure (σ : Type) where
  procedureName : ByteString
  procedure : ByteString
  kind : Action
  function : Handler σ

namespace LuaEvaluator

variable {σ : Type}

/-- The entries of the `ce` table for one procedure. The upvalue of an audit function is the
name of the function, that of a remediation function the name of the procedure. -/
def closures (procedureName : ByteString) (actions : ProcedureActions σ) :
    List (ByteString × Closure σ) :=
  (match actions.audit with
    | none => []
    | some handler =>
        [(bytes "Audit" ++ procedureName,
          { procedureName := bytes "Audit" ++ procedureName
            procedure := procedureName
            kind := .audit
            function := handler })]) ++
  (match actions.remediate with
    | none => []
    | some handler =>
        [(bytes "Remediate" ++ procedureName,
          { procedureName := procedureName
            procedure := procedureName
            kind := .remediate
            function := handler })])

def registerProcedures (procedureMap : ProcedureMap σ) : List (ByteString × Closure σ) :=
  procedureMap.toList.flatMap fun entry => closures entry.1 entry.2

theorem mem_closures {procedureName field : ByteString} {actions : ProcedureActions σ}
    {closure : Closure σ} :
    (field, closure) ∈ closures procedureName actions ↔
      (∃ handler, actions.audit = some handler ∧ field = bytes "Audit" ++ procedureName ∧
        closure = ⟨bytes "Audit" ++ procedureName, procedureName, .audit, handler⟩) ∨
      (∃ handler, actions.remediate = some handler ∧ field = bytes "Remediate" ++ procedureName ∧
        closure = ⟨procedureName, procedureName, .remediate, handler⟩) := by
  rcases actions with ⟨audit, remediate⟩
  cases audit <;> cases remediate <;> simp [closures]

/-- No two registered functions share a name. -/
theorem closures_unique {procedureMap : ProcedureMap σ} {first second field : ByteString}
    {firstActions secondActions : ProcedureActions σ} {left right : Closure σ}
    (firstFound : procedureMap[first]? = some firstActions)
    (secondFound : procedureMap[second]? = some secondActions)
    (left_mem : (field, left) ∈ closures first firstActions)
    (right_mem : (field, right) ∈ closures second secondActions) : left = right := by
  have letters : ∀ one other : ByteString, bytes "Audit" ++ one ≠ bytes "Remediate" ++ other := by
    intro one other equal
    have heads := congrArg List.head? equal
    revert heads
    simp [bytes, String.utf8EncodeChar]
  rcases mem_closures.mp left_mem with
    ⟨handler, found, field_eq, rfl⟩ | ⟨handler, found, field_eq, rfl⟩
  · rcases mem_closures.mp right_mem with ⟨handler', found', field_eq', rfl⟩ | ⟨_, _, field_eq', _⟩
    · obtain rfl : first = second := List.append_cancel_left (field_eq.symm.trans field_eq')
      simp_all
    · exact absurd (field_eq.symm.trans field_eq') (letters first second)
  · rcases mem_closures.mp right_mem with ⟨_, _, field_eq', _⟩ | ⟨handler', found', field_eq', rfl⟩
    · exact absurd (field_eq'.symm.trans field_eq) (letters second first)
    · obtain rfl : first = second := List.append_cancel_left (field_eq.symm.trans field_eq')
      simp_all

/-- The function a script finds under a name. -/
theorem lookup_registerProcedures {procedureMap : ProcedureMap σ} {field : ByteString}
    {closure : Closure σ} :
    (registerProcedures procedureMap).lookup field = some closure ↔
      ∃ procedureName actions, procedureMap[procedureName]? = some actions ∧
        (field, closure) ∈ closures procedureName actions := by
  have mem_iff : ∀ found : Closure σ, (field, found) ∈ registerProcedures procedureMap ↔
      ∃ procedureName actions, procedureMap[procedureName]? = some actions ∧
        (field, found) ∈ closures procedureName actions := by
    intro found
    simp [registerProcedures, Std.ExtTreeMap.mem_toList_iff_getElem?_eq_some]
  constructor
  · intro found
    rcases List.lookup_eq_some_iff.mp found with ⟨before, after, split_eq, _⟩
    exact (mem_iff closure).mp (by rw [split_eq]; simp)
  · rintro ⟨procedureName, actions, registered, closure_mem⟩
    have listed := (mem_iff closure).mpr ⟨procedureName, actions, registered, closure_mem⟩
    cases looked : (registerProcedures procedureMap).lookup field with
    | none =>
        have absent := List.lookup_eq_none_iff.mp looked (field, closure) listed
        simp at absent
    | some other =>
        rcases List.lookup_eq_some_iff.mp looked with ⟨before, after, split_eq, _⟩
        rcases (mem_iff other).mp (by rw [split_eq]; simp) with
          ⟨otherName, otherActions, otherRegistered, other_mem⟩
        rw [closures_unique registered otherRegistered closure_mem other_mem]

/-- `LuaCallContext`: what a registered function finds in the registry. -/
structure CallState (σ : Type) where
  eval : EvalState σ
  indicatorsDepth : ℕ

def invalidPair (key value : LuaValue) : ByteString :=
  bytes "Invalid key-value pair '" ++ key.toCString.getD (bytes "NIL") ++ bytes "':'" ++
    value.toCString.getD (bytes "NIL") ++ bytes "'"

/-- The loop over the argument table of a procedure call. -/
def readEntries (entries : List (LuaValue × LuaValue)) (failure : Option ByteString)
    (arguments : ParameterMap) : Except ByteString ParameterMap :=
  match entries with
  | [] =>
      match failure with
      | none => .ok arguments
      | some message => .error message
  | (key, value) :: rest =>
      match key.toCString, value.toCString with
      | some keyText, some valueText =>
          readEntries rest failure (arguments.insert keyText valueText)
      | _, _ => .error (invalidPair key value)

/-- The arguments of a procedure call: the first argument when it is a table, none otherwise. -/
def readArguments (arguments : List LuaValue) : Except ByteString ParameterMap :=
  match arguments with
  | .table entries failure :: _ => readEntries entries failure ∅
  | _ => .ok ∅

/-- What the wrapper makes of the result of a handler: values for the script, or an error. -/
def relay (procedureName : ByteString) (outcome : Outcome Status) : Outcome CallResult :=
  match outcome with
  | .value status =>
      let verdict :=
        if status = .compliant then bytes " is compliant" else bytes " is not compliant"
      .value (.values [.boolean (status = .compliant),
        .string (procedureName ++ verdict).cString false])
  | .error failure => .value (.raised failure.message.cString)
  | .thrown what => .thrown what
  | .aborted => .aborted

def luaProcedureWrapper (action : Action) (beneathNot : Bool) (closure : Closure σ)
    (arguments : List LuaValue) (state : CallState σ) : Outcome CallResult × CallState σ :=
  if action ≠ .remediate ∧ closure.procedureName.take 9 = bytes "Remediate" then
    (.value (.raised (bytes "Remediation not allowed in audit mode")), state)
  else
    match readArguments arguments with
    | .error message => (.value (.raised message), state)
    | .ok parameters =>
        let called := state.eval.callHandler closure.procedure closure.kind closure.function
          parameters beneathNot
        (relay closure.procedureName called.1, { state with eval := called.2 })

/-- Calling a field of the `ce` table. -/
def callProcedure (procedureMap : ProcedureMap σ) (action : Action) (beneathNot : Bool)
    (field : ByteString) (arguments : List LuaValue) (state : CallState σ) :
    Outcome CallResult × CallState σ :=
  let called := { state with eval := state.eval.record (.luaCalled field arguments beneathNot) }
  match (registerProcedures procedureMap).lookup field with
  | none => (.value (.raised (bytes "attempt to call a nil value")), called)
  | some closure => luaProcedureWrapper action beneathNot closure arguments called

/-- What a function of `ce.indicators` does when its checks pass: it writes to the tree, sets
the depth the script has reached and gives values to the script. -/
structure Write where
  op : TreeOp
  depth : ℕ
  values : List LuaValue

/-- Raise the error of a failed check, or write. -/
def perform (request : Except String Write) (state : CallState σ) :
    Outcome CallResult × CallState σ :=
  match request with
  | .error message => (.value (.raised (bytes message)), state)
  | .ok write =>
      match write.op.apply state.eval.indicators with
      | none => (.aborted, state)
      | some indicators =>
          (.value (.values write.values),
            { eval := { state.eval with indicators }, indicatorsDepth := write.depth })

def indicatorsStackLimit : ℕ := 10

def luaIndicatorsPush (arguments : List LuaValue) (depth : ℕ) : Except String Write :=
  if depth = indicatorsStackLimit then
    .error "indicators stack limit reached"
  else
    match arguments with
    | [] | .nil :: _ => .error "expected a procedure name"
    | _ :: _ :: _ => .error "too many arguments passed to indicators.push"
    | [argument] =>
        match argument.toCString with
        | none => .error "expected a string argument"
        | some [] => .error "procedure name must not be empty"
        | some procedureName => .ok { op := .push procedureName, depth := depth + 1, values := [] }

def luaIndicatorsPop (arguments : List LuaValue) (depth : ℕ) : Except String Write :=
  if depth = 0 then
    .error "indicators stack is empty"
  else
    match arguments with
    | [] | .nil :: _ => .error "expected a status"
    | .boolean flag :: _ =>
        .ok { op := .close (if flag then .compliant else .nonCompliant)
              depth := depth - 1
              values := [.boolean flag] }
    | _ => .error "expected a boolean argument"

def luaIndicatorsAddIndicator (status : Status) (arguments : List LuaValue) (depth : ℕ) :
    Except String Write :=
  match arguments with
  | [] | .nil :: _ => .error "expected a message"
  | _ :: _ :: _ => .error "expected a single argument"
  | [argument] =>
      match argument.toCString with
      | none => .error "expected a string argument"
      | some [] => .error "message must not be empty"
      | some message =>
          .ok { op := .addIndicator message status
                depth := depth
                values := [.boolean (status = .compliant), .string message false] }

/-- The checks and the effect of a function of `ce.indicators`. -/
def request (function : IndicatorsFunction) : List LuaValue → ℕ → Except String Write :=
  match function with
  | .push => luaIndicatorsPush
  | .pop => luaIndicatorsPop
  | .compliant => luaIndicatorsAddIndicator .compliant
  | .nonCompliant => luaIndicatorsAddIndicator .nonCompliant

def callCe (procedureMap : ProcedureMap σ) (action : Action) (beneathNot : Bool)
    (function : CeFunction) (arguments : List LuaValue) (state : CallState σ) :
    Outcome CallResult × CallState σ :=
  match function with
  | .procedure field => callProcedure procedureMap action beneathNot field arguments state
  | .indicators function => perform (request function arguments state.indicatorsDepth) state

/-- How `lua_pcall` ends. -/
inductive ScriptEnd where
  | returned (values : List LuaValue)
  | raised (message : Option ByteString)
  | thrown (what : ByteString)
  | aborted

/-- Running a script. -/
def runScript (procedureMap : ProcedureMap σ) (action : Action) (beneathNot : Bool)
    (script : LuaScript σ) (state : CallState σ) : ScriptEnd × CallState σ :=
  match script with
  | .returns values => (.returned values, state)
  | .raises message => (.raised message, state)
  | .host update next =>
      let context := update state.eval.context
      runScript procedureMap action beneathNot (next context)
        { state with eval := { state.eval with context } }
  | .call function arguments next =>
      match callCe procedureMap action beneathNot function arguments state with
      | (.value result, state) => runScript procedureMap action beneathNot (next result) state
      | (.error failure, state) => (.raised (some failure.message), state)
      | (.thrown what, state) => (.thrown what, state)
      | (.aborted, state) => (.aborted, state)

/-- The part of `LuaEvaluator::Evaluate` after `lua_pcall` succeeded. -/
def readReturned (values : List LuaValue) (state : CallState σ) :
    Outcome Status × EvalState σ :=
  match values with
  | [] => (.error { message := bytes "Lua script did not return a value" }, state.eval)
  | .boolean isCompliant :: rest =>
      if 0 < state.indicatorsDepth then
        (.error { message := bytes "Indicators stack not cleaned up properly" }, state.eval)
      else
        let message := (rest.head?.bind LuaValue.toCString).getD (bytes "Lua script completed")
        let status := if isCompliant then Status.compliant else Status.nonCompliant
        match state.eval.indicators.addIndicator message status with
        | none => (.aborted, state.eval)
        | some indicators => (.value status, { state.eval with indicators })
  | first :: rest =>
      match first.toCString, first.isNumber with
      | some message, false =>
          match rest.head?.bind LuaValue.toCString with
          | some second => (.error { message := message ++ bytes " : " ++ second }, state.eval)
          | none => (.error { message }, state.eval)
      | _, _ => (.error { message := bytes "Invalid return type from LUA script" }, state.eval)

/-- `LuaEvaluator::Evaluate`; `load` is `luaL_loadstring` in the state of the interpreter. -/
def evaluate (procedureMap : ProcedureMap σ)
    (load : ByteString → σ → Except ByteString (LuaScript σ)) (script : ByteString)
    (action : Action) (beneathNot : Bool) (state : EvalState σ) :
    Outcome Status × EvalState σ :=
  match load script.cString state.context with
  | .error message =>
      (.error { message := bytes "Lua script compilation failed: " ++ message }, state)
  | .ok program =>
      match runScript procedureMap action beneathNot program
          { eval := state, indicatorsDepth := 0 } with
      | (.returned values, final) => readReturned values final
      | (.raised message, final) =>
          (.error { message := bytes "Lua script execution failed: " ++ message.getD [] },
            final.eval)
      | (.thrown what, final) => (.thrown what, final.eval)
      | (.aborted, final) => (.aborted, final.eval)

end LuaEvaluator

end OsConfig.ComplianceEngine
