import OsConfig.CommandRunner.Cache

/-!
# The reported status

The map and the buffer of the cache point to the same object for an identifier,
until `Set` replaces the object of the map by a copy. It does so for each request
that names the identifier that was loaded from disk. The copy is never executed,
so its status is that of the cached command only if the worker is done with that
command or never executes it. A command that was loaded from disk is never
executed. But once it has been evicted its identifier may be scheduled again, and
the next request that names it then takes a copy of a command that is waiting.
-/

namespace OsConfig.CommandRunner

open Transitions

variable {env : Environment} {state state' : Runner} {ref : Ref}

/-- A session in which no copy is taken of a command that is going to be executed. -/
def mirroring (env : Environment) (state : Runner) : Move → Bool
  | .close => false
  | .set componentName objectName payload =>
      match env.parse payload with
      | some document =>
          componentName ≠ bytes "CommandRunner" || objectName ≠ bytes "commandArguments" ||
            (state.partialCommand env (Arguments.deserialize document).id).isNone ||
            state.cacheBuffer.all fun ref =>
              state.idOf ref ≠ (Arguments.deserialize document).id || state.isComplete ref ||
                some ref ∉ state.commandQueue
      | none => true
  | _ => true

theorem inSession_of_mirroring {move : Move} (met : mirroring env state move) :
    inSession move := by
  cases move with
  | close => cases met
  | _ => rfl

section Execution

namespace Runner

/-- The command whose status the worker is going to set. -/
def changing (state : Runner) : Option Ref :=
  match state.worker with
  | .taken ref | .cleared ref => some ref
  | .executing ref | .returned ref _ _ =>
      if (state.object ref).kind = .command then some ref else none
  | _ => none

theorem current_of_changing (changing_eq : state.changing = some ref) :
    state.worker.current = some ref := by
  simp only [changing] at changing_eq
  split at changing_eq
  all_goals rename_i worker_eq
  · rw [worker_eq]
    exact changing_eq
  · rw [worker_eq]
    exact changing_eq
  · split at changing_eq
    · rw [worker_eq]
      exact changing_eq
    · cases changing_eq
  · split at changing_eq
    · rw [worker_eq]
      exact changing_eq
    · cases changing_eq
  · cases changing_eq

theorem setStatus_object {other : Ref} (different : some ref ≠ some other) (exitCode : ℤ)
    (textResult : ByteString) (newState : State) :
    (state.setStatus ref exitCode textResult newState).object other = state.object other := by
  apply Function.update_of_ne
  rintro rfl
  exact different rfl

theorem workerStep_object {outcome : Outcome} (taken : state.workerStep outcome = some state')
    {other : Ref} (different : state.changing ≠ some other) :
    state'.object other = state.object other := by
  cases worked taken with
  | fronts | exits => rw [releaseAny_eq]
  | cancels position | executes position =>
      simp only [changing, position] at different
      exact setStatus_object different ..
  | finishes position kind =>
      simp only [changing, position, kind, if_true] at different
      exact setStatus_object different ..
  | _ => rfl

end Runner

/-- The command whose status is going to be set is not complete. -/
def Underway (state : Runner) : Prop :=
  ∀ ref, state.changing = some ref → state.isComplete ref = false

theorem Underway.workerStep (underway : Underway state) (session : Session state)
    {outcome : Runner.Outcome} (taken : state.workerStep outcome = some state') :
    Underway state' := by
  intro ref changing
  cases Runner.worked taken with
  | @fronts previous command rest fronting queue =>
      have command_eq : command = ref := by
        rw [Runner.releaseAny_eq] at changing
        simpa [Runner.changing] using changing
      subst command_eq
      have queued : some command ∈ state.commandQueue := by
        rw [queue]
        exact List.mem_cons_self
      rw [Runner.releaseAny_eq]
      rcases (session.queued command queued).2 with current | ⟨-, incomplete⟩
      · simp [fronting, Worker.current] at current
      · exact incomplete
  | exits =>
      rw [Runner.releaseAny_eq] at changing
      simp [Runner.changing] at changing
  | starts position =>
      cases changing
      exact underway ref (by simp [Runner.changing, position])
  | @executes command position =>
      cases kind : (state.object command).kind with
      | command =>
          have equal : command = ref := by
            simpa [Runner.changing, Runner.setStatus, Command.setStatus, kind] using changing
          subst equal
          simp [Runner.isComplete, Runner.setStatus, Command.isComplete, Command.setStatus, kind,
            State.isComplete]
      | shutdownCommand =>
          simp [Runner.changing, Runner.setStatus, Command.setStatus, kind] at changing
  | returns position | aborts position =>
      simp only [Runner.changing] at changing
      split at changing
      · rename_i kind
        cases changing
        exact underway ref (by simp only [Runner.changing, position]; exact if_pos kind)
      · cases changing
  | _ => simp [Runner.changing, Runner.finish] at changing

/-- A step of the client leaves the worker and its command. -/
theorem Underway.of_same (underway : Underway state) (worker : state'.worker = state.worker)
    (object : ∀ ref, state.worker.current = some ref → state'.object ref = state.object ref) :
    Underway state' := by
  have same : ∀ ref, state'.changing = some ref → state.changing = some ref ∧
      state'.object ref = state.object ref := by
    intro ref changing
    have current : state.worker.current = some ref := by
      rw [← worker]
      exact Runner.current_of_changing changing
    refine ⟨?_, object ref current⟩
    simp only [Runner.changing, worker] at changing ⊢
    cases worker_eq : state.worker with
    | executing other =>
        rw [worker_eq] at changing current
        cases current
        simpa only [object ref (by rw [worker_eq]; rfl)] using changing
    | returned other exitCode textResult =>
        rw [worker_eq] at changing current
        cases current
        simpa only [object ref (by rw [worker_eq]; rfl)] using changing
    | _ => rwa [worker_eq] at changing
  intro ref changing
  rcases same ref changing with ⟨before, equal⟩
  rw [Runner.isComplete, equal, ← Runner.isComplete]
  exact underway ref before

theorem Underway.step (underway : Underway state) (session : Session state) {move : Move}
    (met : inSession move) (taken : step env state move = some state') : Underway state' := by
  rcases session.step_cases met taken with
    ⟨outcome, -, works⟩ | ⟨-, object, worker | ⟨-, fronting⟩⟩
  · exact underway.workerStep session works
  · apply underway.of_same worker
    intro ref current
    exact object ref (session.queued ref (session.current_mem current)).1
  · intro ref changing
    simp [Runner.changing, fronting] at changing

theorem Underway.object_of_complete (underway : Underway state) (session : Session state)
    {move : Move} (met : inSession move) (taken : CommandRunner.step env state move = some state')
    (below : ref < state.next) (complete : state.isComplete ref) :
    state'.object ref = state.object ref := by
  rcases session.step_cases met taken with ⟨outcome, -, works⟩ | ⟨-, object, -⟩
  · apply Runner.workerStep_object works
    intro changing
    rw [underway ref changing] at complete
    cases complete
  · exact object ref below

end Execution

section Pushing

theorem Runner.cacheCommand_scheduled {caller : Caller} {other : Ref}
    (scheduled : (state.cacheCommand caller ref).client.scheduled = some other) :
    (Client.evicting caller ref).scheduled = some other := by
  rcases cacheCommand_cases caller ref state with ⟨-, -, position⟩ | ⟨-, refused⟩
  · rwa [position] at scheduled
  · rw [refused, refuse_scheduled] at scheduled
    cases scheduled

/-- A step schedules nothing but new commands. -/
theorem Session.scheduled_of_step (session : Session state) {move : Move} (met : inSession move)
    (taken : step env state move = some state') (below : ref < state.next)
    (scheduled : state'.client.scheduled = some ref) : state.client.scheduled = some ref := by
  cases move with
  | tick time =>
      cases taken
      exact scheduled
  | set componentName objectName payload =>
      rcases step_set taken with ⟨-, rfl⟩
      rcases Runner.set_cases env componentName objectName payload state with
        ⟨-, position | ⟨arguments, position⟩⟩
      · rw [position] at scheduled
        cases scheduled
      · rw [position] at scheduled
        cases scheduled
  | close => cases met
  | worker outcome => rwa [(Runner.Works.workerStep taken).client] at scheduled
  | client input =>
      have serving := session.serving
      cases Runner.served taken with
      | loads => cases scheduled
      | constructs => cases Runner.cacheCommand_scheduled scheduled
      | @dispatches payloadHash arguments _ =>
          rcases Runner.dispatch_cases env input.created payloadHash arguments state with
            ⟨-, position | ⟨position, -, -⟩⟩
          · rw [position] at scheduled
            cases scheduled
          · rw [position] at scheduled
            cases scheduled
            exact absurd below (lt_irrefl _)
      | caches client_eq =>
          rw [client_eq]
          exact Runner.cacheCommand_scheduled scheduled
      | refuses => cases scheduled
      | @evicts caller command client_eq =>
          rcases Runner.evict_cases caller command state with
            ⟨waits, -⟩ | ⟨oldest, -, -, -, evicts⟩ | ⟨-, proceeds⟩
          · rwa [waits] at scheduled
          · rwa [evicts, Runner.evictOldest_client] at scheduled
          · rw [client_eq]
            cases caller with
            | load statuses failed =>
                rw [proceeds] at scheduled
                cases scheduled
            | schedule => rwa [proceeds] at scheduled
      | pushes => cases scheduled
      | closes at_ | pops at_ | cancels at_ | drops at_ | ends at_ | joins at_ =>
          simp [at_, Client.destroying] at serving

/-- `Set` pushes nothing before it has looked at the request. -/
theorem Session.of_set {componentName objectName payload : ByteString}
    (taken : step env state (.set componentName objectName payload) = some state') :
    state'.commandQueue = state.commandQueue ∧ state'.client.scheduled = none := by
  simp only [step] at taken
  split at taken
  · cases taken
    have extended : state.Extends (state.set env componentName objectName payload) :=
      .set componentName objectName payload state
    refine ⟨extended.commandQueue, ?_⟩
    rcases Runner.set_cases env componentName objectName payload state with
      ⟨-, position | ⟨arguments, position⟩⟩
    · rw [position]
      rfl
    · rw [position]
      rfl
  · cases taken

end Pushing

/-- The object of the map is the cached one, or a copy with its status. Neither the copy nor the
status of the cached command changes. -/
structure Mirrored (state : Runner) (notices : List Notice) : Prop where
  consistent : Consistent state notices
  underway : Underway state
  mirror : ∀ (id : ByteString) ref cached, state.commandMap[id]? = some ref →
    cached ∈ state.cacheBuffer → state.idOf cached = id → ref ≠ cached →
      (state.object ref).status = (state.object cached).status ∧
        (some ref ∉ state.commandQueue ∧ state.client.scheduled ≠ some ref) ∧
        (state.isComplete cached ∨
          some cached ∉ state.commandQueue ∧ state.client.scheduled ≠ some cached)

namespace Mirrored

variable {notices : List Notice}

theorem kept (mirrored : Mirrored state notices) {move : Move} (met : inSession move)
    (taken : step env state move = some state') {id : ByteString} {cached : Ref}
    (mapped : state.commandMap[id]? = some ref) (buffered : cached ∈ state.cacheBuffer)
    (id_eq : state.idOf cached = id) (different : ref ≠ cached) :
    (state'.object ref).status = (state'.object cached).status ∧
      (some ref ∉ state'.commandQueue ∧ state'.client.scheduled ≠ some ref) ∧
      (state'.isComplete cached ∨
        some cached ∉ state'.commandQueue ∧ state'.client.scheduled ≠ some cached) := by
  have session := mirrored.consistent.session
  have preserved := session.preserves met taken
  have refBelow := (mirrored.consistent.mapped id ref mapped).1
  have below := session.lt cached buffered
  rcases mirrored.mirror id ref cached mapped buffered id_eq different with
    ⟨status, ⟨refUnqueued, refUnscheduled⟩, settled⟩
  have stays : ∀ other, other < state.next → some other ∉ state.commandQueue →
      state.client.scheduled ≠ some other →
      state'.object other = state.object other ∧ some other ∉ state'.commandQueue ∧
        state'.client.scheduled ≠ some other := by
    intro other lt unqueued unscheduled
    refine ⟨?_, ?_, ?_⟩
    · apply preserved.object other lt
      intro current
      exact unqueued (session.current_mem current)
    · intro queued
      rcases session.queued_of_step met taken queued with before | pushing
      · exact unqueued before
      · exact unscheduled (by rw [pushing]; rfl)
    · intro scheduled
      exact unscheduled (session.scheduled_of_step met taken lt scheduled)
  rcases stays ref refBelow refUnqueued refUnscheduled with ⟨refObject, refQueue, refClient⟩
  rcases settled with complete | ⟨unqueued, unscheduled⟩
  · have object := mirrored.underway.object_of_complete session met taken below complete
    rw [refObject, object, Runner.isComplete, object, ← Runner.isComplete]
    exact ⟨status, ⟨refQueue, refClient⟩, .inl complete⟩
  · rcases stays cached below unqueued unscheduled with ⟨object, queue, client⟩
    rw [refObject, object]
    exact ⟨status, ⟨refQueue, refClient⟩, .inr ⟨queue, client⟩⟩

theorem replaced (mirrored : Mirrored state notices) {componentName objectName payload : ByteString}
    {document : Json} (parsed : env.parse payload = some document)
    (names : componentName = bytes "CommandRunner" ∧ objectName = bytes "commandArguments")
    (met : mirroring env state (.set componentName objectName payload))
    (taken : step env state (.set componentName objectName payload) = some state')
    {loaded copy cached : Ref}
    (loaded_eq : state.partialCommand env (Arguments.deserialize document).id = some loaded)
    (mapped : state.commandMap[(Arguments.deserialize document).id]? = some loaded)
    (new : state.next ≤ copy)
    (status : (state'.object copy).status =
      { (state.object loaded).status with id := (Arguments.deserialize document).id })
    (buffered : cached ∈ state.cacheBuffer)
    (id_eq : state.idOf cached = (Arguments.deserialize document).id) :
    (state'.object copy).status = (state'.object cached).status ∧
      (some copy ∉ state'.commandQueue ∧ state'.client.scheduled ≠ some copy) ∧
      (state'.isComplete cached ∨
        some cached ∉ state'.commandQueue ∧ state'.client.scheduled ≠ some cached) := by
  have session := mirrored.consistent.session
  have within : inSession (.set componentName objectName payload) := rfl
  rcases Session.of_set taken with ⟨queue, unscheduled⟩
  have object : state'.object cached = state.object cached := by
    rcases session.step_cases within taken with ⟨outcome, ⟨⟩, -⟩ | ⟨-, object, -⟩
    exact object cached (session.lt cached buffered)
  have loadedId : (state.object loaded).status.id = (Arguments.deserialize document).id :=
    (mirrored.consistent.mapped _ loaded mapped).2
  have same : (state.object loaded).status = (state.object cached).status := by
    by_cases equal : loaded = cached
    · rw [equal]
    · exact (mirrored.mirror _ loaded cached mapped buffered id_eq equal).1
  refine ⟨?_, ⟨?_, ?_⟩, ?_⟩
  · rw [status, object, ← same, ← loadedId]
  · rw [queue]
    intro queued
    exact absurd (session.queued copy queued).1 (not_lt.mpr new)
  · rw [unscheduled]
    rintro ⟨⟩
  · have settled : state.isComplete cached ∨ some cached ∉ state.commandQueue := by
      simp only [mirroring, parsed, names, loaded_eq, ne_eq, not_true_eq_false, decide_false,
        Option.isNone_some, Bool.or_false, Bool.false_or, List.all_eq_true] at met
      simpa [id_eq] using met cached buffered
    rw [Runner.isComplete, object, ← Runner.isComplete, queue, unscheduled]
    rcases settled with complete | unqueued
    · exact .inl complete
    · exact .inr ⟨unqueued, by rintro ⟨⟩⟩

theorem step (mirrored : Mirrored state notices) {move : Move} (met : mirroring env state move)
    (taken : step env state move = some state') :
    Mirrored state' ((state.notice move state').toList ++ notices) := by
  have session := mirrored.consistent.session
  have within := inSession_of_mirroring met
  have preserved := session.preserves within taken
  have change := session.cacheStep within taken
  have session' : Session state' := Session.keeps state state' session ⟨move, within, taken⟩
  refine ⟨mirrored.consistent.cacheStep session' preserved change,
    mirrored.underway.step session within taken, ?_⟩
  intro id ref cached mapped' buffered' id_eq' different
  -- What is left to show where both were there before the step.
  have before : state.commandMap[id]? = some ref → cached ∈ state.cacheBuffer →
      (state'.object ref).status = (state'.object cached).status ∧
        (some ref ∉ state'.commandQueue ∧ state'.client.scheduled ≠ some ref) ∧
        (state'.isComplete cached ∨
          some cached ∉ state'.commandQueue ∧ state'.client.scheduled ≠ some cached) := by
    intro mapped buffered
    refine mirrored.kept within taken mapped buffered ?_ different
    rw [← preserved.id cached (session.lt cached buffered)]
    exact id_eq'
  generalize state.notice move state' = notice at change
  cases change with
  | keeps cacheBuffer commandMap reported loop =>
      rw [commandMap] at mapped'
      rw [cacheBuffer] at buffered'
      exact before mapped' buffered'
  | accepts new below nonempty absent cacheBuffer commandMap reported outside loop =>
      rw [commandMap, Std.ExtTreeMap.getElem?_insert] at mapped'
      rw [cacheBuffer] at buffered'
      split at mapped'
      · rename_i equal
        cases mapped'
        rcases List.mem_cons.mp buffered' with rfl | buffered
        · exact absurd rfl different
        · have newId : state'.idOf ref = id := by simpa using equal
          rw [newId, mirrored.consistent.keys, ← id_eq',
            preserved.id cached (session.lt cached buffered)] at absent
          exact absurd (List.mem_map_of_mem buffered) absent
      · rename_i other
        rcases List.mem_cons.mp buffered' with rfl | buffered
        · simp [id_eq'] at other
        · exact before mapped' buffered
  | evicts oldest newest last exceeds complete cacheBuffer commandMap reported loop loop' =>
      rw [commandMap, Std.ExtTreeMap.getElem?_erase] at mapped'
      rw [cacheBuffer] at buffered'
      split at mapped'
      · cases mapped'
      · exact before mapped' (List.mem_of_mem_dropLast buffered')
  | replaces componentName objectName payload document set names parsed requested requested_eq loaded
      copy loaded_eq mapped below new status cacheBuffer commandMap reported idle outside =>
      subst set
      subst requested_eq
      rw [commandMap, Std.ExtTreeMap.getElem?_insert] at mapped'
      rw [cacheBuffer] at buffered'
      split at mapped'
      · rename_i equal
        cases mapped'
        refine mirrored.replaced parsed names met taken loaded_eq mapped new status buffered' ?_
        rw [← preserved.id cached (session.lt cached buffered'), id_eq']
        exact (Std.compare_eq_iff_eq.mp equal).symm
      · exact before mapped' buffered'
  | refreshes refreshed present cacheBuffer commandMap reported outside outside' =>
      rw [commandMap] at mapped'
      rw [cacheBuffer] at buffered'
      exact before mapped' buffered'

theorem keeps : Keeps (Taken (noticingStep env) fun state move => mirroring env state.1 move)
    fun state => Mirrored state.1 state.2 := by
  rintro ⟨state, notices⟩ final mirrored ⟨move, met, taken⟩
  rcases Option.map_eq_some_iff.mp taken with ⟨state', step_eq, rfl⟩
  exact mirrored.step met step_eq

theorem start (env : Environment) (clock : ℕ) (files : List ByteString)
    (file : Option ByteString) : Mirrored (start env clock files file) [] := by
  refine ⟨.start env clock files file, ?_, ?_⟩
  · intro ref changing
    cases changing
  · simp [CommandRunner.start]

end Mirrored

/-- In every state of a session in which no copy is taken of a command that is going to be executed,
the status of each command of the map is that of the cached command with its identifier. -/
theorem mapped_status_eq_cached {env : Environment} {clock : ℕ} {files : List ByteString}
    {file : Option ByteString} {final : Runner × List Notice}
    (run : Run (Taken (noticingStep env) fun state move => mirroring env state.1 move)
      (start env clock files file, []) final) :
    ∀ (id : ByteString) ref, final.1.commandMap[id]? = some ref →
      ∃ cached ∈ final.1.cacheBuffer, final.1.idOf cached = id ∧
        (final.1.object ref).status = (final.1.object cached).status := by
  have mirrored : Mirrored final.1 final.2 :=
    Mirrored.keeps.run (Mirrored.start env clock files file) run
  intro id ref mapped
  rcases mirrored.consistent.mem_of_mapped mapped with ⟨cached, buffered, id_eq⟩
  refine ⟨cached, buffered, id_eq, ?_⟩
  by_cases equal : ref = cached
  · rw [equal]
  · exact (mirrored.mirror id ref cached mapped buffered id_eq equal).1

/-- The persisted cache of a process whose command succeeded. -/
def succeededCache : ByteString × Json :=
  (bytes "\x7b\"client\":[\x7b\"commandId\":\"1\",\"currentState\":2,\"resultCode\":0\x7d]\x7d",
    .object [(bytes "client", .array [.object [(bytes "commandId", .string (bytes "1")),
      (bytes "currentState", .unsigned 2), (bytes "resultCode", .unsigned 0)]])])

def refreshLoadedRequest : ByteString × Json := request "1" "" 4

def succeededEnvironment : Environment :=
  sampleEnvironment (succeededCache :: sleepRequest :: refreshLoadedRequest :: elevenRequests)

/-- After a restart the map has a copy of the command that succeeded, once it is sent again. -/
theorem mapped_status_eq_cached_sent_again :
    ∃ final : Runner × List Notice,
      Run (Taken (noticingStep succeededEnvironment) fun state move =>
          mirroring succeededEnvironment state.1 move)
        (start succeededEnvironment 0 [] (some succeededCache.1), []) final ∧
      (final.1.commandMap[bytes "1"]? = some 1 ∧ final.1.cacheBuffer = [0]) ∧
      ∃ cached ∈ final.1.cacheBuffer, final.1.idOf cached = bytes "1" ∧
        (final.1.object 1).status = (final.1.object cached).status := by
  have reached : ∃ final : Runner × List Notice,
      Run (Taken (noticingStep succeededEnvironment) fun state move =>
          mirroring succeededEnvironment state.1 move)
        (start succeededEnvironment 0 [] (some succeededCache.1), []) final ∧
      decide (final.1.commandMap[bytes "1"]? = some 1 ∧ final.1.cacheBuffer = [0]) = true :=
    exists_run_of_follow (List.replicate 3 clientGoesOn ++ [send sleepRequest])
      (by decide)
  rcases reached with ⟨final, run, passed⟩
  rw [decide_eq_true_eq] at passed
  exact ⟨final, run, passed, mapped_status_eq_cached run _ _ passed.1⟩

/-- The command that was loaded is evicted and its identifier scheduled again. A refresh that comes
while it is waiting takes a copy, which is reported as unknown after the command has succeeded. -/
theorem copy_of_waiting_reported :
    ∃ final : Runner × List Notice,
      Run (Taken (noticingStep succeededEnvironment) fun _ _ => True)
        (start succeededEnvironment 0 [] (some succeededCache.1), []) final ∧
      final.1.commandMap[bytes "1"]? = some 12 ∧
      (11 ∈ final.1.cacheBuffer ∧ final.1.idOf 11 = bytes "1") ∧
      Event.finished 11 .succeeded ∈ final.1.history ∧
      (final.1.object 11).status.state = .succeeded ∧
      (final.1.object 12).status.state = .unknown ∧
      final.1.getReportedStatus = (final.1.object 12).status := by
  have reached : ∃ final : Runner × List Notice,
      Run (Taken (noticingStep succeededEnvironment) fun _ _ => true)
        (start succeededEnvironment 0 [] (some succeededCache.1), []) final ∧
      decide (final.1.commandMap[bytes "1"]? = some 12 ∧
        (11 ∈ final.1.cacheBuffer ∧ final.1.idOf 11 = bytes "1") ∧
        Event.finished 11 .succeeded ∈ final.1.history ∧
        (final.1.object 11).status.state = .succeeded ∧
        (final.1.object 12).status.state = .unknown ∧
        final.1.getReportedStatus = (final.1.object 12).status) = true :=
    exists_run_of_follow (List.replicate 3 clientGoesOn ++
      (elevenRequests.take 9).flatMap (fun request =>
        runRequest request ++ List.replicate 7 (workerGoesOn 0)) ++
      ((elevenRequests.take 10).drop 9).flatMap (fun request =>
        runRequest request ++ clientGoesOn :: List.replicate 7 (workerGoesOn 0)) ++
      runRequest sleepRequest ++ [clientGoesOn, send refreshLoadedRequest, clientGoesOn] ++
      List.replicate 7 (workerGoesOn 0)) (by decide +kernel)
  rcases reached with ⟨final, run, passed⟩
  rw [decide_eq_true_eq] at passed
  simp only at run
  exact ⟨final, run, passed⟩

end OsConfig.CommandRunner
