import OsConfig.CommandRunner.PersistedCache.Agreement
import OsConfig.CommandRunner.Watching

/-!
# Calls that fail

A call of `Set` that returns an error has changed something in two cases. The
command loaded from disk is replaced in the map before the request is looked at,
and a request that is refused then leaves the new command there. And the status
of a new command is persisted before the command is cached: the file is emptied
when it is opened, whatever the error of `fputs`, and a command without an
identifier is refused after its entry has been written.
-/

namespace OsConfig.CommandRunner

open Transitions

section Model

/-- The file has the same identifiers for the client. -/
def SameIdentifiers (env : Environment) (file file' : Option ByteString) : Prop :=
  ∀ id : ByteString, some id ∈ (storedEntries env file').map entryId ↔
    some id ∈ (storedEntries env file).map entryId

/-- The map, the cache, the queue, the reported identifier and the identifiers in the file are
what they were. -/
def Footprint.Agrees (env : Environment) (before after : Footprint) : Prop :=
  after.commandMap = before.commandMap ∧ after.cacheBuffer = before.cacheBuffer ∧
    after.commandQueue = before.commandQueue ∧
    after.reportedStatusId = before.reportedStatusId ∧ SameIdentifiers env before.file after.file

/-- In every call of `Set` that returns an error no step has changed anything. -/
def FailsCleanly (env : Environment) (componentName objectName payload : ByteString)
    (runner : Runner) (file : Option ByteString) : Prop :=
  ∀ reached, Calls env componentName objectName payload runner file reached →
    reached.runner.client = .idle → reached.runner.status ≠ 0 →
      ∀ change ∈ reached.changes, change.1.Agrees env change.2

/-- The flag file that a command gets now exists, and the end of another one leaves it. -/
def IsFlagged (env : Environment) (loaded : Ref) (state : Runner) : Prop :=
  env.flagAt state.clock ∈ state.files ∧
    ((state.object loaded).tmpFile = env.flagAt state.clock →
      loaded ∈ state.cacheBuffer ∨ state.worker.command = some loaded)

/-- The payload came last, or the request is one that cannot fail after a change: no command is
replaced in the map unless the request succeeds with the new one, and nothing new is persisted. -/
def IsHarmless (env : Environment) (payloadHash : BitVec 64) (arguments : Arguments)
    (state : Runner) : Prop :=
  state.lastPayloadHash = payloadHash ∨
    match arguments.action with
    | .none | .refreshCommandStatus => True
    | .other _ => state.partialCommand env arguments.id = none
    | .cancelCommand =>
        ∀ loaded, state.partialCommand env arguments.id = some loaded →
          (state.object loaded).status.state ≠ .canceled ∧ ¬ IsFlagged env loaded state
    | .runCommand => arguments.id ∈ state.commandMap ∨ ¬ env.usePersistedCache
    | .reboot | .shutdown =>
        (arguments.id ∈ state.commandMap ∨ ¬ env.usePersistedCache) ∧
          state.partialCommand env arguments.id = none

end Model

theorem ecanceled_ne_zero : ecanceled ≠ 0 := by decide

section Updating

variable {env : Environment} {state : Runner} {arguments : Arguments} {loaded : Ref}

/-- The command that is put into the map in place of the one loaded from disk. -/
theorem Runner.updateLoaded_object (found : state.partialCommand env arguments.id = some loaded) :
    (state.updateLoaded env arguments).object state.next =
      { kind := .command
        arguments := arguments.arguments
        timeout := arguments.timeout
        replaceEol := arguments.singleLineTextResult
        status := { (state.object loaded).status with id := arguments.id }
        tmpFile := env.flagAt state.clock } := by
  simp only [Runner.updateLoaded, found, Runner.release_object, Runner.construct,
    Function.update_self]

/-- The end of the replaced command takes the flag file with it if it is the same and nothing
else points to the command. -/
theorem Runner.flag_mem_updateLoaded (mapped : Mapped state) (idle : state.client = .idle)
    (found : state.partialCommand env arguments.id = some loaded) :
    env.flagAt state.clock ∈ (state.updateLoaded env arguments).files ↔
      IsFlagged env loaded state := by
  have there := Runner.mapped_of_partialCommand found
  rcases mapped.commands _ loaded there with ⟨below, named⟩
  have old : Function.update state.object state.next
      { kind := .command, arguments := arguments.arguments, timeout := arguments.timeout,
        replaceEol := arguments.singleLineTextResult,
        status := { (state.object loaded).status with id := arguments.id },
        tmpFile := env.flagAt state.clock } loaded = state.object loaded :=
    Function.update_of_ne (Nat.ne_of_lt below) _ _
  have replaced : (state.commandMap.insert arguments.id state.next)[(state.object loaded).id]? ≠
      some loaded := by
    rw [named, Std.ExtTreeMap.getElem?_insert_self]
    simpa using Nat.ne_of_gt below
  simp only [Runner.updateLoaded, found, Runner.release, Runner.alive, Runner.construct,
    Runner.idOf, Runner.removeFile, old, idle, Client.command, replaced, IsFlagged]
  by_cases cached : loaded ∈ state.cacheBuffer
  · simp [cached]
  · by_cases held : state.worker.command = some loaded
    · simp [held]
    · simp [cached, held]
      exact fun _ => not_congr eq_comm

theorem Runner.updateLoaded_mapped (found : state.partialCommand env arguments.id = some loaded) :
    (state.updateLoaded env arguments).commandMap[arguments.id]? = some state.next := by
  rw [Runner.updateLoaded_commandMap found, Std.ExtTreeMap.getElem?_insert_self]

theorem Runner.updateLoaded_next (found : state.partialCommand env arguments.id = some loaded) :
    state.next < (state.updateLoaded env arguments).next := by
  simp only [Runner.updateLoaded, found]
  exact Nat.lt_succ_self _

/-- A request that the new command in the map does not answer. -/
def IsRefused (env : Environment) (arguments : Arguments) (loaded : Ref) (state : Runner) : Prop :=
  match arguments.action with
  | .other _ => True
  | .reboot | .shutdown => arguments.arguments = []
  | .cancelCommand =>
      (state.object loaded).status.state = .canceled ∨ IsFlagged env loaded state
  | _ => False

/-- A command has been replaced in the map, and then the request is refused. -/
theorem Runner.dispatch_refused {payloadHash : BitVec 64} {client : Client} {created : Bool}
    (mapped : Mapped state) (idle : state.client = .idle)
    (found : state.partialCommand env arguments.id = some loaded)
    (new : state.lastPayloadHash ≠ payloadHash) (refused : IsRefused env arguments loaded state) :
    (((state.updateLoaded env arguments).goTo client).dispatch env created payloadHash
        arguments).client = .idle ∧
      (((state.updateLoaded env arguments).goTo client).dispatch env created payloadHash
        arguments).status ≠ 0 := by
  let asked : Runner := { (state.updateLoaded env arguments).goTo client with
    lastPayloadHash := payloadHash }
  have there : asked.commandMap[arguments.id]? = some state.next :=
    Runner.updateLoaded_mapped found
  have object : asked.object state.next = _ := Runner.updateLoaded_object found
  have shuts (text : ByteString) (bare : arguments.arguments = []) (commands : text ≠ []) :
      (asked.schedule env .shutdownCommand arguments.id text 0 false).client = .idle ∧
        (asked.schedule env .shutdownCommand arguments.id text 0 false).status ≠ 0 := by
    have differs : (asked.object state.next).request ≠ (arguments.id, text, 0, false) := by
      rw [object]
      intro same
      exact commands ((congrArg (fun request => request.2.1) same).symm.trans bare)
    rw [Runner.schedule_of_mapped there (Runner.updateLoaded_next found), if_neg differs]
    exact ⟨rfl, einval_ne_zero⟩
  have new' : ((state.updateLoaded env arguments).goTo client).lastPayloadHash ≠ payloadHash :=
    fun last => new ((state.updateLoaded_keeps env arguments).1.symm.trans last)
  rw [Runner.dispatch, if_pos new']
  rw [IsRefused] at refused
  cases action_eq : arguments.action with
  | other value => exact ⟨rfl, einval_ne_zero⟩
  | reboot =>
      rw [action_eq] at refused
      exact shuts (bytes "shutdown -r now") refused (by decide)
  | shutdown =>
      rw [action_eq] at refused
      exact shuts (bytes "shutdown now") refused (by decide)
  | cancelCommand =>
      rw [action_eq] at refused
      have remains : ¬ ((asked.object state.next).status.state ≠ .canceled ∧
          ¬ asked.isCanceled state.next) := by
        rw [object, Runner.isCanceled, object, decide_eq_true_eq]
        rintro ⟨running, unflagged⟩
        rcases refused with canceled | flagged
        · exact running canceled
        · exact unflagged ((Runner.flag_mem_updateLoaded mapped idle found).mpr flagged)
      have ends : (asked.cancel created arguments.id).client = .idle ∧
          (asked.cancel created arguments.id).status ≠ 0 := by
        simp only [Runner.cancel, there, Runner.cancelCommand, if_neg remains]
        exact ⟨rfl, ecanceled_ne_zero⟩
      exact ends
  | none =>
      rw [action_eq] at refused
      exact refused.elim
  | runCommand =>
      rw [action_eq] at refused
      exact refused.elim
  | refreshCommandStatus =>
      rw [action_eq] at refused
      exact refused.elim

end Updating

section Unwinding

variable {env : Environment} {componentName objectName payload : ByteString} {runner : Runner}
  {file : Option ByteString} {payloadHash : BitVec 64} {arguments : Arguments}
  {state state' : Watched}

theorem SameIdentifiers.refl (env : Environment) (file : Option ByteString) :
    SameIdentifiers env file file :=
  fun _ => Iff.rfl

/-- The step leaves what a call can change in the runner. -/
structure Runner.Remains (state state' : Runner) : Prop where
  commandMap : state'.commandMap = state.commandMap
  cacheBuffer : state'.cacheBuffer = state.cacheBuffer
  commandQueue : state'.commandQueue = state.commandQueue
  reported : state'.reportedStatusId = state.reportedStatusId

theorem Runner.Remains.agrees (remains : state.runner.Remains state'.runner)
    (kept : state'.file = state.file) : state.footprint.Agrees env state'.footprint := by
  refine ⟨remains.commandMap, remains.cacheBuffer, remains.commandQueue, remains.reported, ?_⟩
  simp only [Watched.footprint, kept]
  exact .refl env state.file

theorem agrees_cons {before after : Footprint}
    (agree : ∀ change ∈ state.changes, change.1.Agrees env change.2)
    (now : before.Agrees env after) :
    ∀ change ∈ (before, after) :: state.changes, change.1.Agrees env change.2 := by
  intro change mem
  rcases List.mem_cons.mp mem with rfl | earlier
  · exact now
  · exact agree change earlier

/-- The request is going to be answered with success. -/
def Succeeding (payloadHash : BitVec 64) (arguments : Arguments) (state : Runner) : Prop :=
  state.lastPayloadHash = payloadHash ∨
    match arguments.action with
    | .none => True
    | .refreshCommandStatus => arguments.id ∈ state.commandMap
    | .runCommand =>
        ∃ cached, state.commandMap[arguments.id]? = some cached ∧
          (state.object cached).request = (arguments.id, arguments.arguments, arguments.timeout,
            arguments.singleLineTextResult)
    | .cancelCommand =>
        ∃ cached, state.commandMap[arguments.id]? = some cached ∧
          ((state.object cached).status.state ≠ .canceled ∧
            (state.object cached).tmpFile ∉ state.files) ∧
          some cached ∉ state.commandQueue ∧ state.worker.current ≠ some cached
    | .reboot | .shutdown | .other _ => False

/-- A new command that the request asks for is not persisted. -/
def Unpersisted (env : Environment) (arguments : Arguments) (state : Runner) : Prop :=
  match arguments.action with
  | .runCommand | .reboot | .shutdown =>
      arguments.id ∈ state.commandMap ∨ ¬ env.usePersistedCache
  | _ => True

/-- How far a call has got that does not fail after a change. -/
def Unwinding (env : Environment) (payloadHash : BitVec 64) (arguments : Arguments)
    (state : Watched) : Prop :=
  match state.runner.client with
  | .dispatching hash request =>
      (hash = payloadHash ∧ request = arguments) ∧ Mapped state.runner ∧
        (Succeeding payloadHash arguments state.runner ∨
          (∀ change ∈ state.changes, change.1.Agrees env change.2) ∧
            Unpersisted env arguments state.runner)
  | .persisting _ =>
      (∀ change ∈ state.changes, change.1.Agrees env change.2) ∧ ¬ env.usePersistedCache
  | .evicting .schedule _ | .pushing _ => True
  | .idle => state.runner.status = 0 ∨ ∀ change ∈ state.changes, change.1.Agrees env change.2
  | _ => False

theorem Interferes.succeeding {state state' : Runner} (interferes : Interferes state state')
    (succeeding : Succeeding payloadHash arguments state) :
    Succeeding payloadHash arguments state' := by
  rw [Succeeding, interferes.lastPayloadHash]
  refine succeeding.imp id fun rest => ?_
  cases action_eq : arguments.action with
  | refreshCommandStatus =>
      rw [action_eq] at rest
      simp only at rest ⊢
      rwa [interferes.commandMap]
  | runCommand =>
      rw [action_eq] at rest
      rcases rest with ⟨cached, found, same⟩
      simp only
      rw [interferes.commandMap]
      exact ⟨cached, found, (interferes.request cached).trans same⟩
  | cancelCommand =>
      rw [action_eq] at rest
      rcases rest with ⟨cached, found, ⟨running, unflagged⟩, unqueued, other⟩
      rcases interferes.aside cached unqueued other with ⟨unqueued', other', object⟩
      simp only
      rw [interferes.commandMap]
      refine ⟨cached, found, ?_, unqueued', other'⟩
      rw [object]
      exact ⟨running, fun flagged => unflagged (interferes.files flagged)⟩
  | _ =>
      rw [action_eq] at rest
      exact rest

theorem Interferes.unpersisted {state state' : Runner} (interferes : Interferes state state')
    (unpersisted : Unpersisted env arguments state) : Unpersisted env arguments state' := by
  rw [Unpersisted] at unpersisted ⊢
  rwa [interferes.commandMap]

/-- A request that is going to succeed does. -/
theorem Succeeding.dispatch {state : Runner} {created : Bool} (mapped : Mapped state)
    (succeeding : Succeeding payloadHash arguments state) :
    (state.dispatch env created payloadHash arguments).client = .idle ∧
      (state.dispatch env created payloadHash arguments).status = 0 := by
  by_cases last : state.lastPayloadHash = payloadHash
  · rw [Runner.dispatch_eq_reply last]
    exact ⟨rfl, rfl⟩
  · have rest := succeeding.resolve_left last
    rw [Runner.dispatch, if_pos last]
    cases action_eq : arguments.action with
    | none => exact ⟨rfl, rfl⟩
    | refreshCommandStatus =>
        rw [action_eq] at rest
        simp only [Runner.refresh, if_pos rest]
        exact ⟨rfl, rfl⟩
    | runCommand =>
        rw [action_eq] at rest
        rcases rest with ⟨cached, found, same⟩
        have found' : { state with lastPayloadHash := payloadHash }.commandMap[arguments.id]? =
            some cached := found
        simp only
        rw [Runner.schedule_of_mapped found' (mapped.commands _ cached found).1, if_pos same]
        exact ⟨rfl, rfl⟩
    | cancelCommand =>
        rw [action_eq] at rest
        rcases rest with ⟨cached, found, ⟨running, unflagged⟩, -, -⟩
        have cancels : (state.object cached).status.state ≠ .canceled ∧
            ¬ { state with lastPayloadHash := payloadHash }.isCanceled cached :=
          ⟨running, by simpa [Runner.isCanceled] using unflagged⟩
        simp only [Runner.cancel, found, Runner.cancelCommand, if_pos cancels]
        exact ⟨rfl, rfl⟩
    | reboot =>
        rw [action_eq] at rest
        exact rest.elim
    | shutdown =>
        rw [action_eq] at rest
        exact rest.elim
    | other value =>
        rw [action_eq] at rest
        exact rest.elim

/-- Where a request is not going to succeed, and asks for nothing that is persisted. -/
structure UnwindingStep (env : Environment) (state state' : Runner) : Prop where
  commandMap : state'.commandMap = state.commandMap
  cacheBuffer : state'.cacheBuffer = state.cacheBuffer
  commandQueue : state'.commandQueue = state.commandQueue
  client : state'.client = .idle ∨ ∃ ref, state'.client = .persisting ref ∧ ¬ env.usePersistedCache
  reported : state'.reportedStatusId = state.reportedStatusId ∨ state'.client = .idle ∧ state'.status = 0

theorem UnwindingStep.schedule {state : Runner} (mapped : Mapped state) {id : ByteString}
    (unpersisted : id ∈ state.commandMap ∨ ¬ env.usePersistedCache) (kind : Kind)
    (text : ByteString) (timeout : BitVec 32) (replaceEol : Bool) :
    UnwindingStep env state (state.schedule env kind id text timeout replaceEol) := by
  cases found : state.commandMap[id]? with
  | none =>
      have absent : id ∉ state.commandMap := by
        rw [Std.ExtTreeMap.mem_iff_isSome_getElem?, found]
        exact Bool.false_ne_true
      rw [Runner.schedule_of_absent absent]
      exact ⟨rfl, rfl, rfl, .inr ⟨_, rfl, unpersisted.resolve_left absent⟩, .inl rfl⟩
  | some cached =>
      rw [Runner.schedule_of_mapped found (mapped.commands _ cached found).1]
      exact ⟨rfl, rfl, rfl, .inl rfl, .inl rfl⟩

theorem UnwindingStep.of_remembered {state state' : Runner}
    (step : UnwindingStep env { state with lastPayloadHash := payloadHash } state') :
    UnwindingStep env state state' :=
  ⟨step.commandMap, step.cacheBuffer, step.commandQueue, step.client, step.reported⟩

theorem UnwindingStep.dispatch {state : Runner} {created : Bool} (mapped : Mapped state)
    (unpersisted : Unpersisted env arguments state) :
    UnwindingStep env state (state.dispatch env created payloadHash arguments) := by
  by_cases last : state.lastPayloadHash = payloadHash
  · rw [Runner.dispatch_eq_reply last]
    exact ⟨rfl, rfl, rfl, .inl rfl, .inl rfl⟩
  · have mapped' : Mapped { state with lastPayloadHash := payloadHash } :=
      ⟨mapped.named, mapped.commands⟩
    rw [Runner.dispatch, if_pos last]
    simp only [Unpersisted] at unpersisted
    cases action_eq : arguments.action with
    | none => exact ⟨rfl, rfl, rfl, .inl rfl, .inl rfl⟩
    | other value => exact ⟨rfl, rfl, rfl, .inl rfl, .inl rfl⟩
    | cancelCommand =>
        rcases Runner.cancel_keeps created arguments.id
          { state with lastPayloadHash := payloadHash } with ⟨buffer, map, reported, -⟩
        have queue := (Runner.Extends.cancel created arguments.id
          { state with lastPayloadHash := payloadHash }).commandQueue
        refine ⟨map, buffer, queue, .inl ?_, .inl reported⟩
        simp only [Runner.cancel]
        split
        · rfl
        · rfl
    | refreshCommandStatus =>
        simp only [Runner.refresh]
        split
        · exact ⟨rfl, rfl, rfl, .inl rfl, .inr ⟨rfl, rfl⟩⟩
        · exact ⟨rfl, rfl, rfl, .inl rfl, .inl rfl⟩
    | runCommand =>
        rw [action_eq] at unpersisted
        exact .of_remembered (schedule mapped' unpersisted _ _ _ _)
    | reboot =>
        rw [action_eq] at unpersisted
        exact .of_remembered (schedule mapped' unpersisted _ _ _ _)
    | shutdown =>
        rw [action_eq] at unpersisted
        exact .of_remembered (schedule mapped' unpersisted _ _ _ _)

/-- The new command in the map is the one that the request asks for, and none that is cancelled. -/
theorem succeeding_of_updateLoaded {notices : List Notice} (consistent : Consistent runner notices)
    (idle : runner.client = .idle) {loaded : Ref}
    (harmless : IsHarmless env payloadHash arguments runner)
    (found : runner.partialCommand env arguments.id = some loaded) {client : Client} :
    Succeeding payloadHash arguments ((runner.updateLoaded env arguments).goTo client) := by
  have mapped := consistent.mapped_commands
  refine harmless.imp (fun last => (runner.updateLoaded_keeps env arguments).1.trans last)
    fun rest => ?_
  have there := Runner.updateLoaded_mapped found
  have object := Runner.updateLoaded_object found
  cases action_eq : arguments.action with
  | none => trivial
  | refreshCommandStatus =>
      change arguments.id ∈ (runner.updateLoaded env arguments).commandMap
      rw [Std.ExtTreeMap.mem_iff_isSome_getElem?, there]
      rfl
  | runCommand =>
      refine ⟨runner.next, there, ?_⟩
      change ((runner.updateLoaded env arguments).object runner.next).request = _
      rw [object]
      rfl
  | cancelCommand =>
      rw [action_eq] at rest
      rcases rest loaded found with ⟨running, unflagged⟩
      have extended : runner.Extends (runner.updateLoaded env arguments) :=
        .updateLoaded arguments runner
      have unqueued : some runner.next ∉ runner.commandQueue :=
        fun queued => absurd (consistent.session.queued _ queued).1 (lt_irrefl _)
      refine ⟨runner.next, there, ⟨?_, ?_⟩, ?_, ?_⟩
      · change ((runner.updateLoaded env arguments).object runner.next).status.state ≠ _
        rw [object]
        exact running
      · change ((runner.updateLoaded env arguments).object runner.next).tmpFile ∉
          (runner.updateLoaded env arguments).files
        rw [object, Runner.flag_mem_updateLoaded mapped idle found]
        exact unflagged
      · exact extended.commandQueue.symm ▸ unqueued
      · change (runner.updateLoaded env arguments).worker.current ≠ _
        rw [extended.worker]
        exact fun current =>
          unqueued (List.mem_of_mem_head? (consistent.session.front _ current))
  | reboot =>
      rw [action_eq] at rest
      exact absurd (found.symm.trans rest.2) nofun
  | shutdown =>
      rw [action_eq] at rest
      exact absurd (found.symm.trans rest.2) nofun
  | other value =>
      rw [action_eq] at rest
      exact absurd (found.symm.trans rest) nofun

namespace Unwinding

/-- The worker and the clock do not get in the way. -/
theorem interferes (unwinding : Unwinding env payloadHash arguments state)
    (interferes : Interferes state.runner state'.runner) (same : state'.changes = state.changes) :
    Unwinding env payloadHash arguments state' := by
  rw [Unwinding, interferes.client, same]
  rw [Unwinding] at unwinding
  cases client_eq : state.runner.client with
  | dispatching hash request =>
      rw [client_eq] at unwinding
      rcases unwinding with ⟨asked, mapped, succeeding | ⟨agree, unpersisted⟩⟩
      · exact ⟨asked, interferes.mapped mapped, .inl (interferes.succeeding succeeding)⟩
      · exact ⟨asked, interferes.mapped mapped,
          .inr ⟨agree, interferes.unpersisted unpersisted⟩⟩
  | idle =>
      rw [client_eq] at unwinding
      rw [interferes.status]
      exact unwinding
  | evicting caller ref =>
      rw [client_eq] at unwinding
      cases caller with
      | load statuses failed => exact unwinding
      | schedule => exact unwinding
  | _ =>
      rw [client_eq] at unwinding
      exact unwinding

theorem begins {notices : List Notice} (consistent : Consistent runner notices)
    (idle : runner.client = .idle) {called : Watched}
    (harmless : ∀ arguments, requested env componentName objectName payload = some arguments →
      IsHarmless env (hashString payload) arguments runner)
    (asked : ∀ other, requested env componentName objectName payload = some other →
      other = arguments)
    (runner_eq : called.runner = runner.set env componentName objectName payload)
    (file_eq : called.file = file)
    (changes : called.changes =
      [(Watched.footprint ⟨runner, file, []⟩, called.footprint)]) :
    Unwinding env (hashString payload) arguments called := by
  have agree (remains : runner.Remains called.runner) :
      ∀ change ∈ called.changes, change.1.Agrees env change.2 := by
    intro change mem
    rw [changes] at mem
    rw [List.mem_singleton.mp mem]
    exact @Runner.Remains.agrees env ⟨runner, file, []⟩ called remains file_eq
  cases some_eq : requested env componentName objectName payload with
  | none =>
      rw [Runner.set_eq_reply some_eq] at runner_eq
      have client_eq : called.runner.client = .idle := by
        rw [runner_eq]
        rfl
      rw [Unwinding, client_eq]
      exact .inr (agree (runner_eq ▸ ⟨rfl, rfl, rfl, rfl⟩))
  | some request =>
      cases asked request some_eq
      have stepped : step env runner (.set componentName objectName payload) =
          some called.runner := by
        simp only [step, idle, runner_eq]
      rcases consistent.next rfl stepped with ⟨_, consistent'⟩
      have mapped' := consistent'.mapped_commands
      have harm := harmless _ some_eq
      rw [Runner.set_eq_goTo some_eq] at runner_eq
      have client_eq : called.runner.client = .dispatching (hashString payload) arguments := by
        rw [runner_eq]
        rfl
      rw [Unwinding, client_eq]
      refine ⟨⟨rfl, rfl⟩, mapped', ?_⟩
      rw [runner_eq]
      cases found : runner.partialCommand env arguments.id with
      | none =>
          rw [Runner.updateLoaded_of_none found] at runner_eq ⊢
          refine harm.imp .inl fun rest => ⟨agree (runner_eq ▸ ⟨rfl, rfl, rfl, rfl⟩), ?_⟩
          rw [Unpersisted]
          cases action_eq : arguments.action with
          | runCommand =>
              rw [action_eq] at rest
              exact rest
          | reboot =>
              rw [action_eq] at rest
              exact rest.1
          | shutdown =>
              rw [action_eq] at rest
              exact rest.1
          | _ => trivial
      | some loaded =>
          exact .inl (succeeding_of_updateLoaded consistent idle harm found)

theorem goesOn (unwinding : Unwinding env payloadHash arguments state) {input : Runner.Input}
    {writing : Writing} (stepped : state.runner.clientStep env input = some state'.runner)
    (file_eq : state'.file = state.leave env writing)
    (changes : state'.changes = (state.footprint, state'.footprint) :: state.changes) :
    Unwinding env payloadHash arguments state' := by
  rw [Unwinding] at unwinding
  cases client_eq : state.runner.client with
  | dispatching hash request =>
      rw [client_eq] at unwinding
      rcases unwinding with ⟨⟨rfl, rfl⟩, mapped, succeeding | ⟨agree, unpersisted⟩⟩
      · simp only [Runner.clientStep, client_eq, Option.some.injEq] at stepped
        have ends := stepped ▸ succeeding.dispatch mapped
        rw [Unwinding, ends.1]
        exact .inl ends.2
      · simp only [Runner.clientStep, client_eq, Option.some.injEq] at stepped
        have step : UnwindingStep env state.runner state'.runner :=
          stepped ▸ UnwindingStep.dispatch mapped unpersisted
        have kept : state'.file = state.file := by
          rw [file_eq, Watched.leave, client_eq]
        have agrees (reported : state'.runner.reportedStatusId = state.runner.reportedStatusId) :
            ∀ change ∈ state'.changes, change.1.Agrees env change.2 := by
          have remains : state.runner.Remains state'.runner :=
            ⟨step.commandMap, step.cacheBuffer, step.commandQueue, reported⟩
          rw [changes]
          exact agrees_cons agree (remains.agrees kept)
        rw [Unwinding]
        rcases step.reported with reported | ⟨idle, done⟩
        · rcases step.client with idle | ⟨ref, persisting, unstored⟩
          · rw [idle]
            exact .inr (agrees reported)
          · rw [persisting]
            exact ⟨agrees reported, unstored⟩
        · rw [idle]
          exact .inl done
  | persisting ref =>
      rw [client_eq] at unwinding
      rcases unwinding with ⟨agree, unstored⟩
      rw [Runner.clientStep_persisted client_eq (.inl unstored), Option.some.injEq] at stepped
      have kept : state'.file = state.file := by
        simp only [file_eq, Watched.leave, client_eq, if_neg unstored]
      rw [Unwinding]
      rcases Runner.cacheCommand_cases .schedule ref state.runner with
        ⟨-, -, evicting⟩ | ⟨-, refused⟩
      · rw [← stepped, evicting]
        trivial
      · rw [refused] at stepped
        have remains : state.runner.Remains state'.runner := stepped ▸ ⟨rfl, rfl, rfl, rfl⟩
        rw [changes, ← stepped]
        exact .inr (agrees_cons agree (remains.agrees kept))
  | evicting caller ref =>
      rw [client_eq] at unwinding
      cases caller with
      | load statuses failed => exact unwinding.elim
      | schedule =>
          simp only [Runner.clientStep, client_eq, Option.some.injEq] at stepped
          rw [Unwinding, ← stepped]
          rcases Runner.evict_cases .schedule ref state.runner with
            ⟨waits, -⟩ | ⟨oldest, -, -, -, evicts⟩ | ⟨-, proceeds⟩
          · rw [waits, client_eq]
            trivial
          · rw [evicts, Runner.evictOldest_client, client_eq]
            trivial
          · rw [proceeds]
            trivial
  | pushing ref =>
      simp only [Runner.clientStep, client_eq, Option.some.injEq] at stepped
      rw [Unwinding, ← stepped]
      exact .inl rfl
  | idle => simp [Runner.clientStep, client_eq] at stepped
  | _ =>
      rw [client_eq] at unwinding
      exact unwinding.elim

end Unwinding

theorem Arguments.deserialize_of_not_run {document : Json}
    (other : (Arguments.deserialize document).action ≠ .runCommand) :
    (Arguments.deserialize document).arguments = [] := by
  rw [Arguments.deserialize] at other ⊢
  split
  · rfl
  · rename_i number action_eq
    simp only [action_eq] at other ⊢
    split
    · rfl
    · rename_i id id_eq
      simp only [id_eq] at other ⊢
      split
      · rfl
      · rename_i arguments arguments_eq
        simp only [arguments_eq] at other ⊢
        split
        · rename_i whole
          rw [if_pos whole] at other
          exact absurd whole.1 other
        · rfl

/-- The file is emptied before the status of a new command is written, and an error of `fputs` is
returned. -/
theorem FailsCleanly.of_scheduled
    (clean : FailsCleanly env componentName objectName payload runner file) {text : ByteString}
    (other : ¬ SameIdentifiers env file (some text)) {reached : Watched} {before : Runner}
    {kind : Kind} {id commandText : ByteString} {timeout : BitVec 32} {replaceEol : Bool}
    (calls : Calls env componentName objectName payload runner file reached)
    (runner_eq : reached.runner = before.schedule env kind id commandText timeout replaceEol)
    (file_eq : reached.file = file) : id ∈ before.commandMap ∨ ¬ env.usePersistedCache := by
  rw [or_iff_not_imp_left]
  intro absent persists
  rw [Runner.schedule_of_absent absent] at runner_eq
  have client_eq : reached.runner.client = .persisting before.next := by
    rw [runner_eq]
    rfl
  have failed : Runner.Input.persisted ⟨Writing.status (.broken 5 text), true⟩ ≠ 0 := by
    simp [Writing.status]
  have stepped := Runner.clientStep_unpersisted client_eq persists failed
  rcases calls.next (by simp [Runner.calling, client_eq]) (.broken 5 text) true stepped with
    ⟨final, later, runner_eq', file_eq', changes⟩
  have agrees := clean final later (by rw [runner_eq']; rfl)
    (by rw [runner_eq']; exact failed) (reached.footprint, final.footprint)
    (by rw [changes]; exact List.mem_cons_self)
  simp only [Watched.leave, client_eq, if_pos persists, Writing.leave] at file_eq'
  have same := agrees.2.2.2.2
  simp only [Watched.footprint, file_eq, file_eq'] at same
  exact other same

theorem FailsCleanly.harmless
    (clean : FailsCleanly env componentName objectName payload runner file) {text : ByteString}
    (other : ¬ SameIdentifiers env file (some text)) (mapped : Mapped runner)
    (idle : runner.client = .idle)
    (some_eq : requested env componentName objectName payload = some arguments) :
    IsHarmless env (hashString payload) arguments runner := by
  rw [IsHarmless, or_iff_not_imp_left]
  intro new
  rcases @Calls.dispatched env componentName objectName payload runner file arguments idle some_eq
    with ⟨called, reached, -, calls, called_eq, reached_eq, -, file_eq, changes, changes'⟩
  rw [called_eq] at reached_eq
  have unrefused (loaded : Ref) (found : runner.partialCommand env arguments.id = some loaded) :
      ¬ IsRefused env arguments loaded runner := by
    intro refused
    have ends : reached.runner.client = .idle ∧ reached.runner.status ≠ 0 := by
      rw [reached_eq]
      exact Runner.dispatch_refused mapped idle found new refused
    have agrees := clean reached calls ends.1 ends.2
      (Watched.footprint ⟨runner, file, []⟩, called.footprint)
      (by rw [changes', changes]; exact List.mem_cons_of_mem _ (List.mem_singleton_self _))
    have same : called.runner.commandMap = runner.commandMap := agrees.1
    rw [called_eq] at same
    exact mapped.updateLoaded_ne found same
  have whole (refuses : ∀ loaded, IsRefused env arguments loaded runner) :
      runner.partialCommand env arguments.id = none := by
    cases found : runner.partialCommand env arguments.id with
    | none => rfl
    | some loaded => exact absurd (refuses loaded) (unrefused loaded found)
  have keys := (runner.updateLoaded_keeps env arguments).2.2 arguments.id
  have new' : ((runner.updateLoaded env arguments).goTo
      (.dispatching (hashString payload) arguments)).lastPayloadHash ≠ hashString payload :=
    fun last => new ((runner.updateLoaded_keeps env arguments).1.symm.trans last)
  rw [Runner.dispatch, if_pos new'] at reached_eq
  have bare : arguments.action ≠ .runCommand → arguments.arguments = [] := by
    rcases exists_of_requested some_eq with ⟨document, rfl⟩
    exact Arguments.deserialize_of_not_run
  simp only [IsRefused] at whole
  cases action_eq : arguments.action with
  | none => trivial
  | refreshCommandStatus => trivial
  | other value =>
      rw [action_eq] at whole
      exact whole fun _ => trivial
  | runCommand =>
      rw [action_eq] at reached_eq
      exact (clean.of_scheduled other calls reached_eq file_eq).imp_left keys.mp
  | reboot =>
      rw [action_eq] at reached_eq whole
      exact ⟨(clean.of_scheduled other calls reached_eq file_eq).imp_left keys.mp,
        whole fun _ => bare (by simp [action_eq])⟩
  | shutdown =>
      rw [action_eq] at reached_eq whole
      exact ⟨(clean.of_scheduled other calls reached_eq file_eq).imp_left keys.mp,
        whole fun _ => bare (by simp [action_eq])⟩
  | cancelCommand =>
      intro loaded found
      have remains := unrefused loaded found
      simp only [IsRefused, action_eq, not_or] at remains
      exact remains

end Unwinding

/-- No call with the payload fails after a change, whatever happens to the file, if and only if
the names are wrong, or the payload came last, or the request is one that replaces no command
unless it succeeds and persists no new one. -/
theorem failed_call_unchanged_iff {env : Environment} {clock : ℕ} {files : List ByteString}
    {startFile : Option ByteString} {state : Runner}
    (reached : Run (Taken (step env) fun _ move => inSession move)
      (start env clock files startFile) state) (idle : state.client = .idle)
    (componentName objectName payload : ByteString) {file : Option ByteString} {text : ByteString}
    (other : ¬ SameIdentifiers env file (some text)) :
    FailsCleanly env componentName objectName payload state file ↔
      ∀ arguments, requested env componentName objectName payload = some arguments →
        IsHarmless env (hashString payload) arguments state := by
  rcases exists_consistent reached with ⟨notices, consistent⟩
  have mapped := consistent.mapped_commands
  constructor
  · intro clean arguments some_eq
    exact clean.harmless other mapped idle some_eq
  · intro harmless reached calls ends failed
    have unwinding : ∃ arguments, Unwinding env (hashString payload) arguments reached := by
      let arguments := (requested env componentName objectName payload).getD ⟨[], [], .none, 0, false⟩
      have asked : ∀ other, requested env componentName objectName payload = some other →
          other = arguments := by
        intro other some_eq
        simp only [arguments, some_eq, Option.getD_some]
      refine ⟨arguments, calls.keeps ?_ ?_ ?_⟩
      · intro called runner_eq file_eq _ changes
        exact Unwinding.begins consistent idle harmless asked runner_eq file_eq changes
      · intro state state' unwinding interferes same
        exact unwinding.interferes interferes same
      · intro state state' input writing unwinding _ stepped file_eq changes
        exact unwinding.goesOn stepped file_eq changes
    rcases unwinding with ⟨arguments, unwinding⟩
    rw [Unwinding, ends] at unwinding
    exact unwinding.resolve_left failed

/-- A request to cancel a command that does not exist. -/
def strayCancelRequest : ByteString × Json := request "9" "" 5

def strayCancelEnvironment : Environment :=
  sampleEnvironment (strayCancelRequest :: cacheSamples [(bytes "1", 0)])

theorem failed_call_unchanged_iff_cancel :
    ∃ state, Run (Taken (step strayCancelEnvironment) fun _ move => inSession move)
        (start strayCancelEnvironment 0 [] none) state ∧
      FailsCleanly strayCancelEnvironment (bytes "CommandRunner") (bytes "commandArguments")
        strayCancelRequest.1 state none := by
  have reached : ∃ state, Run (Taken (step strayCancelEnvironment) fun _ move => inSession move)
      (start strayCancelEnvironment 0 [] none) state ∧
      decide (state.client = .idle ∧ bytes "9" ∉ state.commandMap) = true :=
    exists_run_of_follow [clientGoesOn] (by decide +kernel)
  rcases reached with ⟨state, run, passed⟩
  rw [decide_eq_true_eq] at passed
  rcases passed with ⟨idle, absent⟩
  have other : ¬ SameIdentifiers strayCancelEnvironment none
      (some (cacheSample [(bytes "1", 0)]).1) := by
    intro same
    have written : some (bytes "1") ∈ (storedEntries strayCancelEnvironment
        (some (cacheSample [(bytes "1", 0)]).1)).map entryId := by
      decide +kernel
    have missing : some (bytes "1") ∉ (storedEntries strayCancelEnvironment none).map entryId := by
      decide +kernel
    exact missing ((same _).mp written)
  refine ⟨state, run, (failed_call_unchanged_iff run idle (bytes "CommandRunner")
    (bytes "commandArguments") strayCancelRequest.1 other).mpr fun arguments some_eq => .inr ?_⟩
  have asked : requested strayCancelEnvironment (bytes "CommandRunner") (bytes "commandArguments")
      strayCancelRequest.1 = some ⟨bytes "9", [], .cancelCommand, 0, false⟩ := by
    decide
  rw [asked, Option.some.injEq] at some_eq
  subst some_eq
  intro loaded found
  have there := Runner.mapped_of_partialCommand found
  rw [Std.ExtTreeMap.getElem?_eq_none absent] at there
  cases there

/-- A request that names no command fails, and the file has got an entry without a name. -/
theorem nameless_request_persisted :
    ∃ state reached, Run (Taken (step namelessEnvironment) fun _ move => inSession move)
        (start namelessEnvironment 0 [] none) state ∧ state.client = .idle ∧
      Calls namelessEnvironment (bytes "CommandRunner") (bytes "commandArguments")
        namelessRequest.1 state none reached ∧
      (reached.runner.client = .idle ∧ reached.runner.status = einval) ∧
      (storedEntries namelessEnvironment none).map entryId = [] ∧
      (storedEntries namelessEnvironment reached.file).map entryId = [some []] := by
  have reached : ∃ state, Run (Taken (step namelessEnvironment) fun _ move => inSession move)
      (start namelessEnvironment 0 [] none) state ∧
      decide (state.client = .idle ∧ ((watchedStep namelessEnvironment ⟨state, none, []⟩
          (send namelessRequest, .denied)).bind fun called =>
        follow (watchedStep namelessEnvironment) (fun state _ => state.runner.calling) called
          (List.replicate 2 (clientGoesOn, .written (cacheSample [([], 0)]).1))).any fun final =>
        (final.runner.client = .idle ∧ final.runner.status = einval) ∧
          (storedEntries namelessEnvironment final.file).map entryId = [some []]) = true :=
    exists_run_of_follow [clientGoesOn] (by decide +kernel)
  rcases reached with ⟨state, run, passed⟩
  rw [decide_eq_true_eq] at passed
  rcases Calls.exists_of_follow _ passed.2 with ⟨final, calls, ends⟩
  rw [decide_eq_true_eq] at ends
  exact ⟨state, final, run, passed.1, calls, ends.1, by decide, ends.2⟩

end OsConfig.CommandRunner
