import OsConfig.CommandRunner.PersistedCache.Agreement
import OsConfig.CommandRunner.Watching

/-!
# Incomplete requests

The deserializer of a request leaves out what it cannot read, and nobody looks
for what is left out. A request without an action, or with the action 0, is
answered with success whatever it lacks. A `RunCommand` without arguments is
scheduled. A new command without an identifier is refused by `CacheCommand`, but
only after its status has been persisted.
-/

namespace OsConfig.CommandRunner

open Transitions

section Requests

/-- The document has what its action needs: the action is known, there is an identifier, and a
`RunCommand` has arguments. -/
def Json.IsComplete (document : Json) : Prop :=
  ∃ number id, document.find (bytes "action") >>= Json.getInt = some number ∧
    (∀ value, Action.ofInt number ≠ .other value) ∧
    document.find (bytes "commandId") >>= Json.getString = some id ∧ id ≠ [] ∧
    (Action.ofInt number = .runCommand →
      ∃ arguments, document.find (bytes "arguments") >>= Json.getString = some arguments ∧
        arguments ≠ [])

theorem Arguments.deserialize_bare {document : Json} {number : ℤ}
    (action_eq : document.find (bytes "action") >>= Json.getInt = some number)
    (lacks : ∀ id arguments, document.find (bytes "commandId") >>= Json.getString = some id →
      document.find (bytes "arguments") >>= Json.getString = some arguments →
      ¬ (Action.ofInt number = .runCommand ∧ id ≠ [] ∧ arguments ≠ [])) :
    Arguments.deserialize document =
      ⟨(document.find (bytes "commandId") >>= Json.getString).getD [], [], Action.ofInt number, 0,
        false⟩ := by
  simp only [Arguments.deserialize, action_eq]
  cases id_eq : document.find (bytes "commandId") >>= Json.getString with
  | none => rfl
  | some id =>
      simp only
      cases arguments_eq : document.find (bytes "arguments") >>= Json.getString with
      | none => rfl
      | some arguments => exact if_neg (lacks id arguments id_eq arguments_eq)

theorem Arguments.deserialize_of_incomplete {document : Json} (incomplete : ¬ document.IsComplete) :
    match (Arguments.deserialize document).action with
    | .none | .other _ => True
    | .runCommand =>
        (Arguments.deserialize document).arguments = [] ∧
          (Arguments.deserialize document).timeout = 0 ∧
          (Arguments.deserialize document).singleLineTextResult = false
    | .reboot | .shutdown | .cancelCommand | .refreshCommandStatus =>
        (Arguments.deserialize document).id = [] := by
  cases action_eq : document.find (bytes "action") >>= Json.getInt with
  | none => simp only [Arguments.deserialize, action_eq]
  | some number =>
      have bare := Arguments.deserialize_bare action_eq fun id arguments id_eq arguments_eq lacks =>
        incomplete ⟨number, id, action_eq, fun value => by simp [lacks.1], id_eq, lacks.2.1,
          fun _ => ⟨arguments, arguments_eq, lacks.2.2⟩⟩
      have nameless : (∀ value, Action.ofInt number ≠ .other value) →
          Action.ofInt number ≠ .runCommand →
          (document.find (bytes "commandId") >>= Json.getString).getD [] = [] := by
        intro known other
        cases id_eq : document.find (bytes "commandId") >>= Json.getString with
        | none => rfl
        | some id =>
            by_contra named
            exact incomplete ⟨number, id, action_eq, known, id_eq, named,
              fun run => absurd run other⟩
      rw [bare]
      cases equal : Action.ofInt number with
      | none => trivial
      | other value => trivial
      | runCommand => exact ⟨rfl, rfl, rfl⟩
      | _ => exact nameless (by simp [equal]) (by simp [equal])

end Requests

section Declining

variable {env : Environment} {state : Runner} {payloadHash : BitVec 64} {arguments : Arguments}

/-- Nothing is cached, scheduled or persisted. -/
def Footprint.Untouched (before after : Footprint) : Prop :=
  after.commandMap = before.commandMap ∧ after.cacheBuffer = before.cacheBuffer ∧
    after.commandQueue = before.commandQueue ∧ after.file = before.file

/-- In every call of `Set` with the payload no step caches, schedules or persists anything, and the
call returns a status other than zero. It takes at most three steps of its own, and none of them
waits for the worker. -/
structure Rejects (env : Environment) (componentName objectName payload : ByteString)
    (runner : Runner) (file : Option ByteString) : Prop where
  untouched : ∀ reached, Calls env componentName objectName payload runner file reached →
    ∀ change ∈ reached.changes, change.1.Untouched change.2
  status : ∀ reached, Calls env componentName objectName payload runner file reached →
    reached.runner.client = .idle → reached.runner.status ≠ 0
  returns : ∀ reached, Calls env componentName objectName payload runner file reached →
    reached.changes.length ≤ 3 ∧
      (reached.runner.client ≠ .idle → ∀ input, (reached.runner.clientStep env input).isSome)

/-- The payload is not the one that came last, and the request is one that is turned down: for a
new command without an identifier where nothing is persisted, for a `RunCommand` with the
identifier of a command that has arguments, for a command that does not exist, or for an action
that is not known. -/
def IsDeclined (env : Environment) (payloadHash : BitVec 64) (arguments : Arguments)
    (state : Runner) : Prop :=
  state.lastPayloadHash ≠ payloadHash ∧
    match arguments.action with
    | .none => False
    | .other _ => True
    | .cancelCommand | .refreshCommandStatus => arguments.id ∉ state.commandMap
    | .reboot | .shutdown => arguments.id = [] ∧ ¬ env.usePersistedCache
    | .runCommand =>
        arguments.id = [] ∧ ¬ env.usePersistedCache ∨
          ∃ cached, state.commandMap[arguments.id]? = some cached ∧
            (state.object cached).request ≠ (arguments.id, [], 0, false)

theorem Interferes.isDeclined {state' : Runner} (interferes : Interferes state state')
    (declined : IsDeclined env payloadHash arguments state) :
    IsDeclined env payloadHash arguments state' := by
  rw [IsDeclined, interferes.lastPayloadHash]
  refine ⟨declined.1, ?_⟩
  have rest := declined.2
  cases action_eq : arguments.action with
  | runCommand =>
      rw [action_eq] at rest
      simp only at rest ⊢
      rw [interferes.commandMap]
      rcases rest with nameless | ⟨cached, found, different⟩
      · exact .inl nameless
      · exact .inr ⟨cached, found, (interferes.request cached).symm ▸ different⟩
  | cancelCommand =>
      rw [action_eq] at rest
      simp only at rest ⊢
      rwa [interferes.commandMap]
  | refreshCommandStatus =>
      rw [action_eq] at rest
      simp only at rest ⊢
      rwa [interferes.commandMap]
  | _ =>
      rw [action_eq] at rest
      exact rest

/-- Where the request is turned down: at once, or by `CacheCommand`. -/
structure DeclinedStep (env : Environment) (state state' : Runner) : Prop where
  commandMap : state'.commandMap = state.commandMap
  cacheBuffer : state'.cacheBuffer = state.cacheBuffer
  commandQueue : state'.commandQueue = state.commandQueue
  client : state'.client = .idle ∧ state'.status ≠ 0 ∨
    ∃ ref, state'.client = .persisting ref ∧ state'.idOf ref = [] ∧ ¬ env.usePersistedCache

theorem DeclinedStep.schedule_of_nameless (mapped : Mapped state)
    (unstored : ¬ env.usePersistedCache) (kind : Kind) (text : ByteString) (timeout : BitVec 32)
    (replaceEol : Bool) :
    DeclinedStep env state (state.schedule env kind [] text timeout replaceEol) := by
  rw [Runner.schedule_of_absent mapped.named]
  refine ⟨rfl, rfl, rfl, .inr ⟨state.next, rfl, ?_, unstored⟩⟩
  simp [Runner.idOf, Runner.goTo, Runner.construct, Command.id]

theorem DeclinedStep.of_remembered {state' : Runner}
    (step : DeclinedStep env { state with lastPayloadHash := payloadHash } state') :
    DeclinedStep env state state' :=
  ⟨step.commandMap, step.cacheBuffer, step.commandQueue, step.client⟩

theorem DeclinedStep.dispatch {created : Bool} (mapped : Mapped state)
    (declined : IsDeclined env payloadHash arguments state)
    (bare : arguments.action = .runCommand → arguments.arguments = [] ∧ arguments.timeout = 0 ∧
      arguments.singleLineTextResult = false) :
    DeclinedStep env state (state.dispatch env created payloadHash arguments) := by
  rcases declined with ⟨new, rest⟩
  have mapped' : Mapped { state with lastPayloadHash := payloadHash } :=
    ⟨mapped.named, mapped.commands⟩
  rw [Runner.dispatch, if_pos new]
  cases action_eq : arguments.action with
  | none =>
      rw [action_eq] at rest
      exact rest.elim
  | other value => exact ⟨rfl, rfl, rfl, .inl ⟨rfl, einval_ne_zero⟩⟩
  | cancelCommand =>
      rw [action_eq] at rest
      simp only [Runner.cancel, Std.ExtTreeMap.getElem?_eq_none rest]
      exact ⟨rfl, rfl, rfl, .inl ⟨rfl, einval_ne_zero⟩⟩
  | refreshCommandStatus =>
      rw [action_eq] at rest
      simp only [Runner.refresh, if_neg rest]
      exact ⟨rfl, rfl, rfl, .inl ⟨rfl, einval_ne_zero⟩⟩
  | reboot =>
      rw [action_eq] at rest
      simp only [rest.1]
      exact .of_remembered (schedule_of_nameless mapped' rest.2 _ _ _ _)
  | shutdown =>
      rw [action_eq] at rest
      simp only [rest.1]
      exact .of_remembered (schedule_of_nameless mapped' rest.2 _ _ _ _)
  | runCommand =>
      rw [action_eq] at rest
      rcases bare action_eq with ⟨text, timeout, single⟩
      simp only [text, timeout, single]
      rcases rest with ⟨nameless, unstored⟩ | ⟨cached, found, different⟩
      · rw [nameless]
        exact .of_remembered (schedule_of_nameless mapped' unstored _ _ _ _)
      · have found' : { state with lastPayloadHash := payloadHash }.commandMap[arguments.id]? =
            some cached := found
        rw [Runner.schedule_of_mapped found' (mapped.commands _ cached found).1, if_neg different]
        exact ⟨rfl, rfl, rfl, .inl ⟨rfl, einval_ne_zero⟩⟩

theorem Runner.cacheCommand_nameless {ref : Ref} (nameless : state.idOf ref = []) :
    state.cacheCommand .schedule ref = (state.reply einval).release ref := by
  rw [Runner.cacheCommand, if_neg (not_not.mpr nameless)]
  rfl

end Declining

section Rejecting

variable {env : Environment} {componentName objectName payload : ByteString} {runner : Runner}
  {file : Option ByteString} {payloadHash : BitVec 64} {arguments : Arguments}
  {state state' : Watched}

/-- How far a call has got that turns its request down. -/
def Declining (env : Environment) (payloadHash : BitVec 64) (arguments : Arguments)
    (state : Watched) : Prop :=
  (∀ change ∈ state.changes, change.1.Untouched change.2) ∧
    match state.runner.client with
    | .dispatching hash request =>
        (hash = payloadHash ∧ request = arguments) ∧
          (Mapped state.runner ∧ IsDeclined env payloadHash arguments state.runner) ∧
          state.changes.length ≤ 1
    | .persisting ref =>
        state.runner.idOf ref = [] ∧ ¬ env.usePersistedCache ∧ state.changes.length ≤ 2
    | .idle => state.runner.status ≠ 0 ∧ state.changes.length ≤ 3
    | _ => False

theorem untouched_cons {before after : Footprint}
    (untouched : ∀ change ∈ state.changes, change.1.Untouched change.2)
    (now : before.Untouched after) :
    ∀ change ∈ (before, after) :: state.changes, change.1.Untouched change.2 := by
  intro change mem
  rcases List.mem_cons.mp mem with rfl | earlier
  · exact now
  · exact untouched change earlier

namespace Declining

/-- The worker and the clock do not get in the way. -/
theorem interferes (declining : Declining env payloadHash arguments state)
    (interferes : Interferes state.runner state'.runner) (same : state'.changes = state.changes) :
    Declining env payloadHash arguments state' := by
  rcases declining with ⟨untouched, at_⟩
  rw [Declining, interferes.client, same]
  refine ⟨untouched, ?_⟩
  cases client_eq : state.runner.client with
  | dispatching hash request =>
      rw [client_eq] at at_
      rcases at_ with ⟨asked, ⟨mapped, declined⟩, few⟩
      exact ⟨asked, ⟨interferes.mapped mapped, interferes.isDeclined declined⟩, few⟩
  | persisting ref =>
      rw [client_eq] at at_
      rcases at_ with ⟨nameless, unstored, few⟩
      exact ⟨(congrArg Prod.fst (interferes.request ref)).trans nameless, unstored, few⟩
  | idle =>
      rw [client_eq] at at_
      exact ⟨interferes.status.symm ▸ at_.1, at_.2⟩
  | _ =>
      rw [client_eq] at at_
      exact at_.elim

theorem begins (mapped : Mapped runner) {called : Watched}
    (declined : ∀ arguments, requested env componentName objectName payload = some arguments →
      IsDeclined env (hashString payload) arguments runner ∧
        runner.partialCommand env arguments.id = none)
    (asked : ∀ other, requested env componentName objectName payload = some other →
      other = arguments)
    (runner_eq : called.runner = runner.set env componentName objectName payload)
    (file_eq : called.file = file)
    (changes : called.changes =
      [(Watched.footprint ⟨runner, file, []⟩, called.footprint)]) :
    Declining env (hashString payload) arguments called := by
  have same : called.runner.commandMap = runner.commandMap ∧
      called.runner.cacheBuffer = runner.cacheBuffer ∧
      called.runner.commandQueue = runner.commandQueue ∧
      match called.runner.client with
      | .dispatching hash request =>
          (hash = hashString payload ∧ request = arguments) ∧
            Mapped called.runner ∧ IsDeclined env (hashString payload) arguments called.runner
      | .idle => called.runner.status ≠ 0
      | _ => False := by
    rw [runner_eq]
    cases some_eq : requested env componentName objectName payload with
    | none =>
        rw [Runner.set_eq_reply some_eq]
        exact ⟨rfl, rfl, rfl, einval_ne_zero⟩
    | some request =>
        rcases declined request some_eq with ⟨holds, whole⟩
        rw [Runner.set_eq_goTo some_eq, Runner.updateLoaded, whole]
        rw [asked request some_eq] at holds ⊢
        exact ⟨rfl, rfl, rfl, ⟨rfl, rfl⟩, ⟨mapped.named, mapped.commands⟩, holds⟩
  rcases same with ⟨commandMap, cacheBuffer, commandQueue, at_⟩
  rw [Declining, changes]
  refine ⟨?_, ?_⟩
  · intro change mem
    rw [List.mem_singleton.mp mem]
    exact ⟨commandMap, cacheBuffer, commandQueue, file_eq⟩
  · cases client_eq : called.runner.client with
    | dispatching hash request =>
        rw [client_eq] at at_
        exact ⟨at_.1, at_.2, le_rfl⟩
    | idle =>
        rw [client_eq] at at_
        exact ⟨at_, by simp⟩
    | _ =>
        rw [client_eq] at at_
        exact at_.elim

theorem goesOn (declining : Declining env payloadHash arguments state) {input : Runner.Input}
    {writing : Writing}
    (bare : arguments.action = .runCommand → arguments.arguments = [] ∧ arguments.timeout = 0 ∧
      arguments.singleLineTextResult = false)
    (stepped : state.runner.clientStep env input = some state'.runner)
    (file_eq : state'.file = state.leave env writing)
    (changes : state'.changes = (state.footprint, state'.footprint) :: state.changes) :
    Declining env payloadHash arguments state' := by
  rcases declining with ⟨untouched, at_⟩
  cases client_eq : state.runner.client with
  | dispatching hash request =>
      rw [client_eq] at at_
      rcases at_ with ⟨⟨rfl, rfl⟩, ⟨mapped, declined⟩, few⟩
      simp only [Runner.clientStep, client_eq, Option.some.injEq] at stepped
      have step : DeclinedStep env state.runner state'.runner :=
        stepped ▸ DeclinedStep.dispatch mapped declined bare
      have kept : state'.file = state.file := by
        rw [file_eq, Watched.leave, client_eq]
      rw [Declining, changes]
      refine ⟨untouched_cons untouched
        ⟨step.commandMap, step.cacheBuffer, step.commandQueue, kept⟩, ?_⟩
      rcases step.client with ⟨idle, failed⟩ | ⟨ref, persisting, nameless, unstored⟩
      · rw [idle]
        exact ⟨failed, by simp only [List.length_cons]; omega⟩
      · rw [persisting]
        exact ⟨nameless, unstored, by simp only [List.length_cons]; omega⟩
  | persisting ref =>
      rw [client_eq] at at_
      rcases at_ with ⟨nameless, unstored, few⟩
      rw [Runner.clientStep_persisted client_eq (.inl unstored),
        Runner.cacheCommand_nameless nameless, Option.some.injEq] at stepped
      have kept : state'.file = state.file := by
        simp only [file_eq, Watched.leave, client_eq, if_neg unstored]
      have commandMap : state'.runner.commandMap = state.runner.commandMap := by
        rw [← stepped]
        rfl
      have cacheBuffer : state'.runner.cacheBuffer = state.runner.cacheBuffer := by
        rw [← stepped]
        rfl
      have commandQueue : state'.runner.commandQueue = state.runner.commandQueue := by
        rw [← stepped]
        rfl
      rw [Declining, changes, ← stepped]
      refine ⟨untouched_cons untouched ⟨commandMap, cacheBuffer, commandQueue, kept⟩,
        einval_ne_zero, ?_⟩
      simp only [List.length_cons]
      omega
  | idle => simp [Runner.clientStep, client_eq] at stepped
  | _ =>
      rw [client_eq] at at_
      exact at_.elim

/-- A call that turns its request down changes nothing, and its next step does not wait. -/
theorem rejects
    (declining : ∀ reached, Calls env componentName objectName payload runner file reached →
      Declining env payloadHash arguments reached) :
    Rejects env componentName objectName payload runner file where
  untouched := fun reached calls => (declining reached calls).1
  status := by
    intro reached calls idle
    have at_ := (declining reached calls).2
    rw [idle] at at_
    exact at_.1
  returns := by
    intro reached calls
    have at_ := (declining reached calls).2
    cases client_eq : reached.runner.client with
    | dispatching hash request =>
        rw [client_eq] at at_
        exact ⟨at_.2.2.trans (by simp), fun _ input => by simp [Runner.clientStep, client_eq]⟩
    | persisting ref =>
        rw [client_eq] at at_
        refine ⟨at_.2.2.trans (by simp), fun _ input => ?_⟩
        simp [Runner.clientStep, client_eq, at_.2.1]
    | idle =>
        rw [client_eq] at at_
        exact ⟨at_.2, fun calling => absurd rfl calling⟩
    | _ =>
        rw [client_eq] at at_
        exact at_.elim

end Declining

theorem Rejects.of_scheduled (rejects : Rejects env componentName objectName payload runner file)
    {reached : Watched} {before : Runner} {kind : Kind} {id text : ByteString}
    {timeout : BitVec 32} {replaceEol : Bool}
    (calls : Calls env componentName objectName payload runner file reached)
    (runner_eq : reached.runner = before.schedule env kind id text timeout replaceEol)
    (absent : id ∉ before.commandMap) : id = [] ∧ ¬ env.usePersistedCache := by
  rw [Runner.schedule_of_absent absent] at runner_eq
  have client_eq : reached.runner.client = .persisting before.next := by
    rw [runner_eq]
    rfl
  have id_eq : reached.runner.idOf before.next = id := by
    rw [runner_eq]
    simp [Runner.idOf, Runner.goTo, Runner.construct, Command.id]
  have other : ∃ text : ByteString, some text ≠ reached.file := by
    by_cases empty : reached.file = some []
    · exact ⟨[0], by simp [empty]⟩
    · exact ⟨[], fun same => empty same.symm⟩
  rcases other with ⟨left, differs⟩
  have stepped : reached.runner.clientStep env ⟨Writing.status (.written left), true⟩ =
      some (reached.runner.cacheCommand .schedule before.next) :=
    Runner.clientStep_persisted client_eq (.inr rfl)
  rcases calls.next (by simp [Runner.calling, client_eq]) (.written left) true stepped with
    ⟨final, later, runner_eq', file_eq, changes⟩
  have untouched := rejects.untouched final later (reached.footprint, final.footprint)
    (by rw [changes]; exact List.mem_cons_self)
  have unstored : ¬ env.usePersistedCache := by
    intro persists
    simp only [Watched.leave, client_eq, if_pos persists, Writing.leave] at file_eq
    exact differs (file_eq.symm.trans untouched.2.2.2)
  refine ⟨?_, unstored⟩
  by_contra named
  have cached : final.runner.cacheBuffer = before.next :: reached.runner.cacheBuffer := by
    rw [runner_eq']
    rcases Runner.cacheCommand_cases .schedule before.next reached.runner with
      ⟨-, buffer, -⟩ | ⟨refused, -⟩
    · exact buffer
    · rw [id_eq, runner_eq] at refused
      rcases refused with nameless | present
      · exact absurd nameless named
      · exact absurd present absent
  have same : final.runner.cacheBuffer = reached.runner.cacheBuffer := untouched.2.1
  rw [cached] at same
  exact absurd same (List.cons_ne_self _ _)

/-- A request that is turned down in all of its calls. -/
theorem Rejects.declined (rejects : Rejects env componentName objectName payload runner file)
    (mapped : Mapped runner) (idle : runner.client = .idle)
    (some_eq : requested env componentName objectName payload = some arguments)
    (nameless : match arguments.action with
      | .none | .other _ => True
      | .runCommand => arguments.arguments = [] ∧ arguments.timeout = 0 ∧
          arguments.singleLineTextResult = false
      | .reboot | .shutdown | .cancelCommand | .refreshCommandStatus => arguments.id = []) :
    IsDeclined env (hashString payload) arguments runner ∧
      runner.partialCommand env arguments.id = none := by
  rcases @Calls.dispatched env componentName objectName payload runner file arguments idle some_eq
    with ⟨called, reached, begins, calls, called_eq, reached_eq, -, -, changes, -⟩
  have whole : runner.partialCommand env arguments.id = none := by
    cases found : runner.partialCommand env arguments.id with
    | none => rfl
    | some loaded =>
        have untouched := rejects.untouched called begins
          (Watched.footprint ⟨runner, file, []⟩, called.footprint)
          (by rw [changes]; exact List.mem_cons_self)
        have same : called.runner.commandMap = runner.commandMap := untouched.1
        rw [called_eq] at same
        exact absurd same (mapped.updateLoaded_ne found)
  refine ⟨?_, whole⟩
  rw [called_eq, Runner.updateLoaded_of_none whole] at reached_eq
  have fails : ∀ status, reached.runner.client = .idle → reached.runner.status = status →
      status ≠ 0 := fun status idle equal => equal ▸ rejects.status reached calls idle
  have new : runner.lastPayloadHash ≠ hashString payload := by
    intro last
    have last' : (runner.goTo (.dispatching (hashString payload) arguments)).lastPayloadHash =
        hashString payload := last
    rw [Runner.dispatch_eq_reply last'] at reached_eq
    exact fails 0 (by rw [reached_eq]; rfl) (by rw [reached_eq]; rfl) rfl
  refine ⟨new, ?_⟩
  have new' : (runner.goTo (.dispatching (hashString payload) arguments)).lastPayloadHash ≠
      hashString payload := new
  rw [Runner.dispatch, if_pos new'] at reached_eq
  cases action_eq : arguments.action with
  | none =>
      rw [action_eq] at reached_eq
      exact fails 0 (by rw [reached_eq]; rfl) (by rw [reached_eq]; rfl) rfl
  | other value => trivial
  | cancelCommand =>
      rw [action_eq] at nameless
      exact nameless ▸ mapped.named
  | refreshCommandStatus =>
      rw [action_eq] at nameless
      exact nameless ▸ mapped.named
  | reboot =>
      rw [action_eq] at nameless reached_eq
      exact rejects.of_scheduled calls reached_eq (nameless ▸ mapped.named)
  | shutdown =>
      rw [action_eq] at nameless reached_eq
      exact rejects.of_scheduled calls reached_eq (nameless ▸ mapped.named)
  | runCommand =>
      rw [action_eq] at nameless reached_eq
      rcases nameless with ⟨text, timeout, single⟩
      cases found : runner.commandMap[arguments.id]? with
      | none =>
          have absent : arguments.id ∉ runner.commandMap := by
            rw [Std.ExtTreeMap.mem_iff_isSome_getElem?, found]
            exact Bool.false_ne_true
          exact .inl (rejects.of_scheduled calls reached_eq absent)
      | some cached =>
          refine .inr ⟨cached, rfl, fun same => ?_⟩
          let before : Runner := { runner.goTo (.dispatching (hashString payload) arguments) with
            lastPayloadHash := hashString payload }
          have found' : before.commandMap[arguments.id]? = some cached := found
          have same' : (before.object cached).request = (arguments.id, [], 0, false) := same
          have ran : reached.runner = before.schedule env .command arguments.id arguments.arguments
              arguments.timeout arguments.singleLineTextResult := reached_eq
          rw [text, timeout, single,
            Runner.schedule_of_mapped found' (mapped.commands _ cached found).1, if_pos same']
            at ran
          exact fails 0 (by rw [ran]; rfl) (by rw [ran]; rfl) rfl

end Rejecting

/-- A request that is not complete is rejected in every call if and only if its names are wrong, or
it does not concern the command loaded from disk and is one of those that are turned down. -/
theorem incomplete_rejected_iff {env : Environment} {clock : ℕ} {files : List ByteString}
    {startFile : Option ByteString} {state : Runner}
    (reached : Run (Taken (step env) fun _ move => inSession move)
      (start env clock files startFile) state) (idle : state.client = .idle)
    (componentName objectName : ByteString) {payload : ByteString} {document : Json}
    (parsed : env.parse payload = some document) (incomplete : ¬ document.IsComplete)
    (file : Option ByteString) :
    Rejects env componentName objectName payload state file ↔
      (componentName = bytes "CommandRunner" ∧ objectName = bytes "commandArguments" →
        IsDeclined env (hashString payload) (Arguments.deserialize document) state ∧
          state.partialCommand env (Arguments.deserialize document).id = none) := by
  rcases exists_consistent reached with ⟨notices, consistent⟩
  have mapped := consistent.mapped_commands
  have lacks := Arguments.deserialize_of_incomplete incomplete
  have asks : ∀ arguments, requested env componentName objectName payload = some arguments ↔
      (componentName = bytes "CommandRunner" ∧ objectName = bytes "commandArguments") ∧
        arguments = Arguments.deserialize document := by
    intro arguments
    simp only [requested, parsed]
    split
    · rename_i names
      rw [Option.some.injEq]
      exact ⟨fun equal => ⟨names, equal.symm⟩, fun equal => equal.2.symm⟩
    · rename_i names
      exact ⟨fun equal => absurd equal.symm (Option.some_ne_none _),
        fun equal => absurd equal.1 names⟩
  constructor
  · intro rejects names
    exact rejects.declined mapped idle ((asks _).mpr ⟨names, rfl⟩) lacks
  · intro declines
    refine @Declining.rejects _ _ _ _ _ _ (hashString payload) (Arguments.deserialize document) ?_
    intro reached calls
    refine calls.keeps ?_ ?_ ?_
    · intro called runner_eq file_eq _ changes
      refine Declining.begins mapped (fun arguments some_eq => ?_)
        (fun arguments some_eq => ((asks arguments).mp some_eq).2) runner_eq file_eq changes
      rcases (asks arguments).mp some_eq with ⟨names, rfl⟩
      exact declines names
    · intro state state' declining interferes same
      exact declining.interferes interferes same
    · intro state state' input writing declining _ stepped file_eq changes
      refine declining.goesOn (fun run => ?_) stepped file_eq changes
      rw [run] at lacks
      exact lacks

def namelessCancelRequest : ByteString × Json := request "" "" 5

def namelessCancelEnvironment : Environment :=
  sampleEnvironment [namelessCancelRequest]

theorem incomplete_rejected_iff_cancel :
    ∃ state, Run (Taken (step namelessCancelEnvironment) fun _ move => inSession move)
        (start namelessCancelEnvironment 0 [] none) state ∧
      Rejects namelessCancelEnvironment (bytes "CommandRunner") (bytes "commandArguments")
        namelessCancelRequest.1 state none := by
  have reached : ∃ state,
      Run (Taken (step namelessCancelEnvironment) fun _ move => inSession move)
        (start namelessCancelEnvironment 0 [] none) state ∧
      decide ((state.client = .idle ∧ state.lastPayloadHash = 0) ∧
        [] ∉ state.commandMap) = true :=
    exists_run_of_follow [clientGoesOn] (by decide +kernel)
  rcases reached with ⟨state, run, passed⟩
  rw [decide_eq_true_eq] at passed
  rcases passed with ⟨⟨idle, last⟩, absent⟩
  have incomplete : ¬ namelessCancelRequest.2.IsComplete := by
    rintro ⟨number, id, -, -, id_eq, named, -⟩
    exact named (Option.some.inj id_eq).symm
  have arguments : Arguments.deserialize namelessCancelRequest.2 =
      ⟨[], [], .cancelCommand, 0, false⟩ := by
    decide
  refine ⟨state, run, (incomplete_rejected_iff run idle (bytes "CommandRunner")
    (bytes "commandArguments") rfl incomplete none).mpr fun _ => ?_⟩
  rw [arguments]
  refine ⟨⟨?_, absent⟩, ?_⟩
  · rw [last]
    decide +kernel
  · simp only [Runner.partialCommand, Std.ExtTreeMap.getElem?_eq_none absent, Option.filter_none,
      ite_self]

/-- A request that names no text to run. -/
def bareRequest : ByteString × Json :=
  (bytes "\x7b\"commandId\":\"1\",\"action\":3\x7d",
    .object [(bytes "commandId", .string (bytes "1")), (bytes "action", .unsigned 3)])

def bareEnvironment : Environment :=
  sampleEnvironment (bareRequest :: cacheSamples [(bytes "1", 0)])

/-- The request is answered with success, and a command that runs nothing is scheduled. -/
theorem bare_request_scheduled :
    ∃ state reached, Run (Taken (step bareEnvironment) fun _ move => inSession move)
        (start bareEnvironment 0 [] none) state ∧ state.client = .idle ∧
      (bareEnvironment.parse bareRequest.1 = some bareRequest.2 ∧ ¬ bareRequest.2.IsComplete) ∧
      Calls bareEnvironment (bytes "CommandRunner") (bytes "commandArguments") bareRequest.1 state
        none reached ∧
      (reached.runner.client = .idle ∧ reached.runner.status = 0 ∧
        reached.runner.commandQueue = [some 0]) := by
  have reached : ∃ state, Run (Taken (step bareEnvironment) fun _ move => inSession move)
      (start bareEnvironment 0 [] none) state ∧
      decide (state.client = .idle ∧ ((watchedStep bareEnvironment ⟨state, none, []⟩
          (send bareRequest, .denied)).bind fun called =>
        follow (watchedStep bareEnvironment) (fun state _ => state.runner.calling) called
          (List.replicate 4
            (clientGoesOn, .written (cacheSample [(bytes "1", 0)]).1))).any fun final =>
        final.runner.client = .idle ∧ final.runner.status = 0 ∧
          final.runner.commandQueue = [some 0]) = true :=
    exists_run_of_follow [clientGoesOn] (by decide +kernel)
  rcases reached with ⟨state, run, passed⟩
  rw [decide_eq_true_eq] at passed
  rcases Calls.exists_of_follow _ passed.2 with ⟨final, calls, ends⟩
  rw [decide_eq_true_eq] at ends
  have incomplete : ¬ bareRequest.2.IsComplete := by
    rintro ⟨number, id, number_eq, -, -, -, lacks⟩
    have run : number = 3 := (Option.some.inj number_eq).symm
    rcases lacks (by rw [run]; rfl) with ⟨text, text_eq, -⟩
    cases text_eq
  exact ⟨state, final, run, passed.1, ⟨by decide, incomplete⟩, calls, ends⟩

end OsConfig.CommandRunner
