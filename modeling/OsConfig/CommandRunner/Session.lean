import OsConfig.CommandRunner.Shutdown

/-!
# Sessions of the command runner

A session is a run in which the destructor is not called. In every session the
commands in the queue are cached and not complete, except for the one the worker
has at hand, so the worker always finds the command it takes. A command that was
pushed is executed in every trace that is fair to the worker: each step of the
worker brings it closer, and the client only adds behind it.
-/

namespace OsConfig.CommandRunner

open Transitions

variable {env : Environment} {state state' : Runner} {ref : Ref}

/-- The command of a call of `ScheduleCommand` that has been cached. -/
def Client.cached : Client → Option Ref
  | .evicting .schedule ref | .pushing ref => some ref
  | _ => none

theorem Client.scheduled_of_cached {client : Client} (cached_eq : client.cached = some ref) :
    client.scheduled = some ref := by
  cases client with
  | evicting caller other =>
      cases caller with
      | load statuses failed => cases cached_eq
      | schedule => exact cached_eq
  | pushing other => exact cached_eq
  | _ => cases cached_eq

theorem Worker.current_of_done {worker : Worker} (done_eq : worker.done = some ref) :
    worker.current = some ref := by
  cases worker with
  | executed other => exact done_eq
  | popping other => exact done_eq
  | _ => cases done_eq

/-- The runner is not destroyed. -/
def inSession : Move → Bool
  | .close => false
  | _ => true

/-- What holds between the queue, the cache and the threads. -/
structure Session (state : Runner) : Prop extends Coordinated state where
  serving : state.client.destroying = false
  running : state.worker ≠ .exited
  constructing : state.client.constructing → state.commandQueue = []
  nodup : state.commandQueue.Nodup
  element : none ∉ state.commandQueue
  lt : ∀ ref ∈ state.cacheBuffer, ref < state.next
  queued : ∀ ref, some ref ∈ state.commandQueue → ref < state.next ∧
    (state.worker.current = some ref ∨ ref ∈ state.cacheBuffer ∧ state.isComplete ref = false)
  scheduled : ∀ ref, state.client.scheduled = some ref →
    ref < state.next ∧ some ref ∉ state.commandQueue ∧ state.isComplete ref = false
  cached : ∀ ref, state.client.cached = some ref → ref ∈ state.cacheBuffer
  finished : ∀ ref last, .finished ref last ∈ state.history → ref < state.next ∧
    (some ref ∈ state.commandQueue → state.worker.done = some ref) ∧
    state.client.scheduled ≠ some ref

namespace Session

/-- The parts of the constructor and of `Set` that do not push. -/
theorem serves (session : Session state) (extended : state.Extends state')
    (coordinated : Coordinated state')
    (constructing : state'.client.constructing → state.client.constructing)
    (lt : ∀ ref ∈ state'.cacheBuffer, ref < state'.next)
    (scheduled : ∀ ref, state'.client.scheduled = some ref → state.client.scheduled = some ref ∨
      ref = state.next ∧ state.next < state'.next ∧ state'.isComplete ref = false)
    (cached : ∀ ref, state'.client.cached = some ref → ref ∈ state'.cacheBuffer) :
    Session state' := by
  have old : ∀ ref, some ref ∈ state'.commandQueue → ref < state.next := by
    intro ref queued
    rw [extended.commandQueue] at queued
    exact (session.queued ref queued).1
  refine { coordinated with
    serving := extended.serving session.serving
    lt := lt
    cached := cached
    running := ?_
    constructing := ?_
    nodup := ?_
    element := ?_
    queued := ?_
    scheduled := ?_
    finished := ?_ }
  · rw [extended.worker]
    exact session.running
  · rw [extended.commandQueue]
    intro constructing'
    exact session.constructing (constructing constructing')
  · rw [extended.commandQueue]
    exact session.nodup
  · rw [extended.commandQueue]
    exact session.element
  · intro ref queued
    have below := old ref queued
    rw [extended.commandQueue] at queued
    refine ⟨below.trans_le extended.next, ?_⟩
    rw [extended.worker, extended.isComplete below]
    rcases (session.queued ref queued).2 with current | ⟨buffered, incomplete⟩
    · exact .inl current
    · exact .inr ⟨extended.kept ref below buffered incomplete, incomplete⟩
  · intro ref scheduled_eq
    rcases scheduled ref scheduled_eq with before | ⟨rfl, grown, incomplete⟩
    · rcases session.scheduled ref before with ⟨below, absent, incomplete⟩
      refine ⟨below.trans_le extended.next, ?_, ?_⟩
      · rwa [extended.commandQueue]
      · rwa [extended.isComplete below]
    · refine ⟨grown, ?_, incomplete⟩
      intro queued
      exact absurd (old _ queued) (lt_irrefl _)
  · intro ref last recorded
    have earlier : .finished ref last ∈ state.history := by
      rcases extended.history _ recorded with earlier | ⟨_, _, _, _, equal⟩
      · exact earlier
      · cases equal
    rcases session.finished ref last earlier with ⟨below, done, notScheduled⟩
    refine ⟨below.trans_le extended.next, ?_, ?_⟩
    · rw [extended.commandQueue, extended.worker]
      exact done
    · intro scheduled_eq
      rcases scheduled ref scheduled_eq with before | ⟨rfl, -, -⟩
      · exact notScheduled before
      · exact absurd below (lt_irrefl _)

/-- As above, where nothing is cached and no command is at hand afterwards. -/
theorem serves_idle (session : Session state) (extended : state.Extends state')
    (coordinated : Coordinated state')
    (constructing : state'.client.constructing → state.client.constructing)
    (cacheBuffer : state'.cacheBuffer = state.cacheBuffer)
    (idle : state'.client.scheduled = none) : Session state' := by
  apply session.serves extended coordinated constructing
  · rw [cacheBuffer]
    intro ref buffered
    exact (session.lt ref buffered).trans_le extended.next
  · simp [idle]
  · intro ref cached_eq
    rw [Client.scheduled_of_cached cached_eq] at idle
    cases idle

/-- A command that nothing points to yet. -/
theorem construct (session : Session state) (idle : state.client.scheduled = none) (kind : Kind)
    (arguments : ByteString) (timeout : BitVec 32) (replaceEol : Bool) (status : Status) :
    Session (state.construct env kind arguments timeout replaceEol status) :=
  session.serves_idle (.construct ..) { session.toCoordinated with } id rfl idle

theorem orderly_of_serving (session : Session state) (move : Move) : orderly state move := by
  have serving := session.serving
  cases move with
  | client input =>
      cases client_eq : state.client <;> simp_all [orderly, Client.destroying]
  | worker outcome =>
      cases client_eq : state.client <;> simp_all [orderly, Client.destroying]
  | _ => rfl

theorem coordinated_step (session : Session state) {move : Move}
    (taken : step env state move = some state') : Coordinated state' :=
  Coordinated.keeps state state' session.toCoordinated
    ⟨move, session.orderly_of_serving move, taken⟩

theorem set (session : Session state) (idle : state.client = .idle)
    (componentName objectName payload : ByteString) :
    Session (state.set env componentName objectName payload) := by
  rcases Runner.set_cases env componentName objectName payload state with
    ⟨cacheBuffer, position⟩
  have coordinated : Coordinated (state.set env componentName objectName payload) :=
    session.toCoordinated.set idle componentName objectName payload
  apply session.serves_idle (.set componentName objectName payload state) coordinated _ cacheBuffer
  · rcases position with position | ⟨arguments, position⟩ <;> rw [position] <;> rfl
  · rcases position with position | ⟨arguments, position⟩ <;> simp [position, Client.constructing]

theorem cacheCommand (session : Session state) {caller : Caller}
    (coordinated : Coordinated (state.cacheCommand caller ref)) (below : ref < state.next)
    (constructing : (Client.evicting caller ref).constructing → state.client.constructing)
    (scheduled : (Client.evicting caller ref).scheduled = some ref →
      state.client.scheduled = some ref) : Session (state.cacheCommand caller ref) := by
  have extended := Runner.Extends.cacheCommand caller ref state
  rcases Runner.cacheCommand_cases caller ref state with
    ⟨-, cacheBuffer, position⟩ | ⟨-, refused⟩
  · apply session.serves extended coordinated
    · rwa [position]
    · rw [cacheBuffer]
      intro other buffered
      apply lt_of_lt_of_le _ extended.next
      rcases List.mem_cons.mp buffered with rfl | earlier
      · exact below
      · exact session.lt other earlier
    · rw [position]
      intro other scheduled_eq
      cases caller with
      | load statuses failed => cases scheduled_eq
      | schedule =>
          cases scheduled_eq
          exact .inl (scheduled rfl)
    · rw [position, cacheBuffer]
      intro other cached_eq
      cases caller with
      | load statuses failed => cases cached_eq
      | schedule =>
          cases cached_eq
          exact List.mem_cons_self
  · rw [refused] at coordinated extended ⊢
    apply session.serves_idle extended coordinated
    · cases caller with
      | load statuses failed => exact constructing
      | schedule => exact constructing
    · exact Runner.refuse_cacheBuffer caller ref state
    · exact Runner.refuse_scheduled caller ref state

theorem evict (session : Session state) {caller : Caller}
    (client_eq : state.client = .evicting caller ref)
    (coordinated : Coordinated (state.evict caller ref)) : Session (state.evict caller ref) := by
  have extended := Runner.Extends.evict caller ref state
  rcases Runner.evict_cases caller ref state with
    ⟨waits, -⟩ | ⟨oldest, -, -, -, evicts⟩ | ⟨-, proceeds⟩
  · rwa [waits]
  · rw [evicts] at coordinated extended ⊢
    apply session.serves extended coordinated
    · rw [Runner.evictOldest_client]
      exact id
    · rw [Runner.evictOldest_cacheBuffer]
      intro other buffered
      exact (session.lt other (List.mem_of_mem_dropLast buffered)).trans_le extended.next
    · rw [Runner.evictOldest_client]
      intro other scheduled_eq
      exact .inl scheduled_eq
    · -- The command at hand is not complete, so it is not the one that leaves.
      rw [Runner.evictOldest_client]
      intro other cached_eq
      rcases session.scheduled other (Client.scheduled_of_cached cached_eq) with ⟨below, -, incomplete⟩
      exact extended.kept other below (session.cached other cached_eq) incomplete
  · cases caller with
    | load statuses failed =>
        rw [proceeds] at coordinated extended ⊢
        apply session.serves_idle extended coordinated _ rfl rfl
        rw [client_eq]
        exact id
    | schedule =>
        rw [proceeds] at coordinated extended ⊢
        apply session.serves extended coordinated
        · rintro ⟨⟩
        · exact session.lt
        · intro other scheduled_eq
          left
          rw [client_eq]
          exact scheduled_eq
        · intro other cached_eq
          apply session.cached other
          rw [client_eq]
          exact cached_eq

theorem clientStep (session : Session state) {input : Runner.Input}
    (taken : state.clientStep env input = some state') : Session state' := by
  have coordinated : Coordinated state' :=
    session.coordinated_step (show step env state (.client input) = some state' from taken)
  have serving := session.serving
  cases Runner.served taken with
  | loads client_eq =>
      have empty := session.constructing (by rw [client_eq]; rfl)
      refine { coordinated with
        serving := rfl
        running := by simp [Runner.load]
        constructing := by simp [Runner.load, Client.constructing]
        nodup := session.nodup
        element := session.element
        lt := session.lt
        queued := by simp [Runner.load, empty]
        scheduled := by simp [Runner.load, Client.scheduled]
        cached := by simp [Runner.load, Client.cached]
        finished := ?_ }
      intro ref last recorded
      refine ⟨(session.finished ref last recorded).1, ?_, ?_⟩
      · simp [Runner.load, empty]
      · simp [Runner.load, Client.scheduled]
  | @constructs status _ _ client_eq =>
      have constructed : Session (state.construct env .command [] 0 true status) :=
        session.construct (by rw [client_eq]; rfl) ..
      apply constructed.cacheCommand coordinated (Nat.lt_succ_self _)
      · intro _
        change state.client.constructing
        rw [client_eq]
        rfl
      · rintro ⟨⟩
  | @dispatches payloadHash arguments _ =>
      have extended : state.Extends (state.dispatch env input.created payloadHash arguments) :=
        .dispatch input.created payloadHash arguments state
      rcases Runner.dispatch_cases env input.created payloadHash arguments state with
        ⟨cacheBuffer, position | ⟨position, grows, incomplete⟩⟩
      · apply session.serves_idle extended coordinated _ cacheBuffer
        · rw [position]
          rfl
        · simp [position, Client.constructing]
      · apply session.serves extended coordinated
        · simp [position, Client.constructing]
        · rw [cacheBuffer]
          intro ref buffered
          exact (session.lt ref buffered).trans_le extended.next
        · rw [position]
          rintro _ ⟨⟩
          exact .inr ⟨rfl, grows ▸ Nat.lt_succ_self _, incomplete⟩
        · rw [position]
          rintro _ ⟨⟩
  | @caches ref client_eq _ =>
      have scheduled := session.scheduled ref (by rw [client_eq]; rfl)
      apply session.cacheCommand coordinated scheduled.1
      · rintro ⟨⟩
      · intro _
        rw [client_eq]
        rfl
  | @refuses ref client_eq _ =>
      have scheduled := session.scheduled ref (by rw [client_eq]; rfl)
      apply session.serves_idle ((Runner.Extends.reply ..).trans (.release ..)) coordinated _ rfl
        rfl
      rintro ⟨⟩
  | evicts client_eq => exact session.evict client_eq coordinated
  | @pushes ref client_eq =>
      have scheduled_eq : state.client.scheduled = some ref := by rw [client_eq]; rfl
      rcases session.scheduled ref scheduled_eq with ⟨below, absent, incomplete⟩
      have buffered := session.cached ref (by rw [client_eq]; rfl)
      refine { coordinated with
        serving := rfl
        running := session.running
        constructing := by simp [Runner.reply, Client.constructing]
        lt := session.lt
        scheduled := by simp [Runner.reply, Client.scheduled]
        cached := by simp [Runner.reply, Client.cached]
        nodup := ?_
        element := ?_
        queued := ?_
        finished := ?_ }
      · apply List.Nodup.append session.nodup (List.nodup_singleton _)
        simpa using absent
      · simpa [Runner.reply] using session.element
      · intro other queued
        rcases List.mem_append.mp queued with before | pushed
        · exact session.queued other before
        · cases List.mem_singleton.mp pushed
          exact ⟨below, .inr ⟨buffered, incomplete⟩⟩
      · intro other last recorded
        rcases session.finished other last recorded with ⟨less, done, notScheduled⟩
        refine ⟨less, ?_, by simp [Runner.reply, Client.scheduled]⟩
        intro queued
        rcases List.mem_append.mp queued with before | pushed
        · exact done before
        · cases List.mem_singleton.mp pushed
          exact absurd scheduled_eq notScheduled
  | closes at_ | pops at_ | cancels at_ | drops at_ | ends at_ | joins at_ =>
      simp [at_, Client.destroying] at serving

theorem alive_of_queued (session : Session state) (queued : some ref ∈ state.commandQueue)
    (fronting : state.worker.current = none) : state.alive ref := by
  rcases (session.queued ref queued).2 with current | ⟨buffered, -⟩
  · rw [fronting] at current
    cases current
  · simp [Runner.alive, buffered]

theorem current_mem (session : Session state) (current : state.worker.current = some ref) :
    some ref ∈ state.commandQueue :=
  List.mem_of_mem_head? (session.front ref current)

theorem works (session : Session state) (works : state.Works state')
    (coordinated : Coordinated state') (running : state'.worker ≠ .exited)
    (queue : state'.commandQueue <:+ state.commandQueue)
    (current : ∀ ref, some ref ∈ state'.commandQueue → state.worker.current = some ref →
      state'.worker.current = some ref)
    (finished : ∀ ref last, .finished ref last ∈ state'.history → ref < state.next ∧
      (some ref ∈ state'.commandQueue → state'.worker.done = some ref) ∧
      state.client.scheduled ≠ some ref) : Session state' := by
  have same : ∀ ref, state.worker.current ≠ some ref →
      state'.isComplete ref = state.isComplete ref := by
    intro ref other
    rw [Runner.isComplete, works.object ref other, Runner.isComplete]
  refine { coordinated with
    running := running
    serving := ?_
    constructing := ?_
    nodup := session.nodup.sublist queue.sublist
    element := fun sentinel => session.element (queue.subset sentinel)
    lt := ?_
    queued := ?_
    scheduled := ?_
    cached := ?_
    finished := ?_ }
  · rw [works.client]
    exact session.serving
  · rw [works.client]
    intro constructing
    rw [session.constructing constructing] at queue
    exact List.suffix_nil.mp queue
  · rw [works.cacheBuffer, works.next]
    exact session.lt
  · intro ref queued
    rcases session.queued ref (queue.subset queued) with ⟨below, atHand | ⟨buffered, incomplete⟩⟩
    · exact ⟨works.next ▸ below, .inl (current ref queued atHand)⟩
    · refine ⟨works.next ▸ below, ?_⟩
      by_cases atHand : state.worker.current = some ref
      · exact .inl (current ref queued atHand)
      · rw [works.cacheBuffer, same ref atHand]
        exact .inr ⟨buffered, incomplete⟩
  · rw [works.client, works.next]
    intro ref scheduled_eq
    rcases session.scheduled ref scheduled_eq with ⟨below, absent, incomplete⟩
    refine ⟨below, fun queued => absent (queue.subset queued), ?_⟩
    rw [same ref, incomplete]
    intro atHand
    exact absent (session.current_mem atHand)
  · rw [works.client, works.cacheBuffer]
    exact session.cached
  · rw [works.client, works.next]
    exact finished

theorem finished_goesOn (session : Session state) {outcome : Runner.Outcome}
    (taken : state.workerStep outcome = some state')
    (same : state'.commandQueue = state.commandQueue) :
    ∀ ref last, .finished ref last ∈ state'.history → ref < state.next ∧
      (some ref ∈ state'.commandQueue → state'.worker.done = some ref) ∧
      state.client.scheduled ≠ some ref := by
  intro ref last recorded
  have earlier : .finished ref last ∈ state.history →
      ref < state.next ∧ (some ref ∈ state'.commandQueue → state'.worker.done = some ref) ∧
        state.client.scheduled ≠ some ref := by
    intro before
    rcases session.finished ref last before with ⟨below, done, notScheduled⟩
    refine ⟨below, ?_, notScheduled⟩
    rw [same]
    intro queued
    rcases Runner.workerStep_done taken (done queued) with ⟨popping, -⟩ | ⟨head, queue_eq, -⟩
    · rw [popping]
      rfl
    · rw [same] at queue_eq
      exact absurd queue_eq.symm (List.cons_ne_self head _)
  rcases Runner.workerStep_history taken with
    ⟨history, -⟩ | ⟨other, -, -, history⟩ | ⟨other, atHand, executed, history⟩
  · rw [history] at recorded
    exact earlier recorded
  · rw [history] at recorded
    rcases List.mem_cons.mp recorded with new | before
    · cases new
    · exact earlier before
  · rw [history] at recorded
    rcases List.mem_cons.mp recorded with new | before
    · cases new
      have queued := session.current_mem atHand
      refine ⟨(session.queued ref queued).1, ?_, ?_⟩
      · intro _
        rw [executed]
        rfl
      · intro scheduled_eq
        exact (session.scheduled ref scheduled_eq).2.1 queued
    · exact earlier before

theorem workerStep (session : Session state) {outcome : Runner.Outcome}
    (taken : state.workerStep outcome = some state') : Session state' := by
  have works := Runner.Works.workerStep taken
  have coordinated : Coordinated state' :=
    session.toCoordinated.workerStep (session.orderly_of_serving (.worker outcome)) taken
  rcases Runner.workerStep_cases taken with
    ⟨previous, ref, rest, fronting, queue_eq, takes, same⟩ |
    ⟨previous, element, rest, fronting, queue_eq, unlocked, -, -⟩ |
    ⟨ref, current, current', -, same⟩ | ⟨ref, head, popping, queue_eq, fronting⟩
  · apply session.works works coordinated
    · simp [takes]
    · rw [same]
    · rw [fronting]
      rintro _ _ ⟨⟩
    · exact session.finished_goesOn taken same
  · -- Whatever is in the queue can be locked, so the worker does not exit.
    cases element with
    | none => exact absurd (queue_eq ▸ List.mem_cons_self) session.element
    | some ref =>
        have queued : some ref ∈ state.commandQueue := queue_eq ▸ List.mem_cons_self
        have alive := session.alive_of_queued queued (by rw [fronting]; rfl)
        simp [alive] at unlocked
  · apply session.works works coordinated
    · intro exited
      simp [exited, Worker.current] at current'
    · rw [same]
    · intro other _ atHand
      rw [current] at atHand
      rw [current', atHand]
    · exact session.finished_goesOn taken same
  · have front := session.front ref (by rw [popping]; rfl)
    have suffix : state'.commandQueue <:+ state.commandQueue := by
      rw [queue_eq]
      exact List.suffix_cons _ _
    have gone : some ref ∉ state'.commandQueue := by
      have nodup := session.nodup
      rw [queue_eq] at front nodup
      cases front
      exact (List.nodup_cons.mp nodup).1
    apply session.works works coordinated
    · simp [fronting]
    · exact suffix
    · rw [popping]
      rintro _ queued ⟨⟩
      exact absurd queued gone
    · intro other last recorded
      rcases Runner.workerStep_history taken with
        ⟨history, -⟩ | ⟨_, started, -, -⟩ | ⟨_, -, executed, -⟩
      · rw [history] at recorded
        rcases session.finished other last recorded with ⟨below, done, notScheduled⟩
        refine ⟨below, ?_, notScheduled⟩
        intro queued
        have done := done (suffix.subset queued)
        rw [popping] at done
        cases done
        exact absurd queued gone
      · rw [popping] at started
        cases started
      · rw [fronting] at executed
        cases executed

theorem keeps : Keeps (Taken (step env) fun _ move => inSession move) Session := by
  rintro state state' session ⟨move, met, taken⟩
  cases move with
  | tick time =>
      cases taken
      exact { session with }
  | set componentName objectName payload =>
      rcases step_set taken with ⟨idle, rfl⟩
      exact session.set idle componentName objectName payload
  | close => cases met
  | client input => exact session.clientStep taken
  | worker outcome => exact session.workerStep taken

theorem start (env : Environment) (clock : ℕ) (files : List ByteString)
    (file : Option ByteString) : Session (start env clock files file) := by
  refine ⟨.start env clock files file, ?_, ?_, ?_, ?_, ?_, ?_, ?_, ?_, ?_, ?_⟩ <;>
    simp [CommandRunner.start, Client.destroying, Client.scheduled, Client.cached]

end Session

section Progress

/-- How far the worker is from executing a command: the steps for each command before it, and
those of the round at hand. -/
def Runner.rank (ref : Ref) (state : Runner) : ℕ :=
  8 * state.commandQueue.idxOf (some ref) + state.worker.stage

/-- The command is in the queue and its `Execute` has not returned. -/
structure Waiting (ref : Ref) (state : Runner) : Prop where
  session : Session state
  queued : some ref ∈ state.commandQueue
  unfinished : state.worker.done ≠ some ref

def ofWorker : Move → Prop
  | .worker _ => True
  | _ => False

def ofClient : Move → Prop
  | .client _ => True
  | _ => False

/-- No call is at hand and the worker waits. -/
def Runner.atRest (state : Runner) : Bool :=
  match state.client, state.commandQueue, state.worker with
  | .idle, [], .fronting _ => true
  | _, _, _ => false

theorem step_of_atRest {move : Move} (rests : state.atRest) (own : ofWorker move ∨ ofClient move) :
    step env state move = none := by
  rw [Runner.atRest] at rests
  split at rests
  · rename_i idle empty fronting
    cases move with
    | client input => simp [step, Runner.clientStep, idle]
    | worker outcome => simp [step, Runner.workerStep, fronting, empty]
    | _ => simp [ofWorker, ofClient] at own
  · cases rests

namespace Waiting

theorem ready (waiting : Waiting ref state) :
    ∃ move, ofWorker move ∧ step env state move ≠ none := by
  refine ⟨.worker (.exits 0 []), trivial, ?_⟩
  rcases waiting with ⟨session, queued, -⟩
  have nonempty : state.commandQueue ≠ [] := List.ne_nil_of_mem queued
  rcases List.exists_cons_of_ne_nil nonempty with ⟨element, rest, queue_eq⟩
  cases worker_eq : state.worker with
  | notStarted => exact absurd (session.constructing (session.started worker_eq)) nonempty
  | fronting previous =>
      simp only [step, Runner.workerStep, worker_eq, queue_eq]
      split <;> simp
  | taken command =>
      simp only [step, Runner.workerStep, worker_eq]
      split
      · split <;> simp
      · simp
  | cleared command => simp [step, Runner.workerStep, worker_eq]
  | executing command => simp [step, Runner.workerStep, worker_eq]
  | returned command exitCode textResult =>
      simp only [step, Runner.workerStep, worker_eq]
      split <;> simp
  | executed command => simp [step, Runner.workerStep, worker_eq]
  | popping command => simp [step, Runner.workerStep, worker_eq, queue_eq]
  | exited => exact absurd worker_eq session.running

theorem of_client (waiting : Waiting ref state) (session : Session state')
    (worker : state'.worker = state.worker) (pushed : List (Option Ref))
    (queue : state'.commandQueue = state.commandQueue ++ pushed) :
    Waiting ref state' ∧ state'.rank ref = state.rank ref := by
  refine ⟨⟨session, ?_, ?_⟩, ?_⟩
  · rw [queue]
    exact List.mem_append_left _ waiting.queued
  · rw [worker]
    exact waiting.unfinished
  · rw [Runner.rank, Runner.rank, worker, queue, List.idxOf_append_of_mem waiting.queued]

theorem clientStep (waiting : Waiting ref state) {input : Runner.Input}
    (taken : state.clientStep env input = some state') :
    Waiting ref state' ∧ state'.rank ref = state.rank ref := by
  have session := waiting.session.clientStep taken
  rcases Runner.clientStep_cases waiting.session.serving taken with
    ⟨failed, loading⟩ | ⟨pushed, -, queue, worker⟩ | extended
  · -- Nothing is queued before the constructor returns.
    have empty := waiting.session.constructing (by rw [loading]; rfl)
    have queued := waiting.queued
    simp [empty] at queued
  · exact waiting.of_client session worker _ queue
  · apply waiting.of_client session extended.worker []
    rw [extended.commandQueue, List.append_nil]

theorem workerStep (waiting : Waiting ref state) {outcome : Runner.Outcome}
    (taken : state.workerStep outcome = some state') :
    (∃ last, .finished ref last ∈ state'.history) ∨
      Waiting ref state' ∧ state'.rank ref < state.rank ref := by
  have session := waiting.session.workerStep taken
  have unfinished : (∃ last, .finished ref last ∈ state'.history) ∨ state'.worker.done ≠ some ref := by
    rcases Runner.workerStep_history taken with
      ⟨-, done⟩ | ⟨other, -, cleared, -⟩ | ⟨other, -, executed, history⟩
    · exact .inr fun equal => waiting.unfinished (done ref equal)
    · exact .inr (by simp [cleared, Worker.done])
    · by_cases equal : other = ref
      · subst equal
        exact .inl ⟨_, history ▸ List.mem_cons_self⟩
      · exact .inr (by simp [executed, Worker.done, equal])
  rcases unfinished with finished | unfinished
  · exact .inl finished
  right
  rcases Runner.workerStep_cases taken with
    ⟨previous, other, rest, fronting, queue_eq, takes, same⟩ |
    ⟨previous, element, rest, fronting, queue_eq, -, exits, same⟩ |
    ⟨other, current, current', lower, same⟩ | ⟨other, head, popping, queue_eq, fronting⟩
  · refine ⟨⟨session, same ▸ waiting.queued, unfinished⟩, ?_⟩
    simp [Runner.rank, same, fronting, takes, Worker.stage]
  · exact absurd exits session.running
  · refine ⟨⟨session, same ▸ waiting.queued, unfinished⟩, ?_⟩
    rw [Runner.rank, Runner.rank, same]
    omega
  · have front := waiting.session.front other (by rw [popping]; rfl)
    have different : some other ≠ some ref := by
      have executed := waiting.unfinished
      rwa [popping] at executed
    rw [queue_eq] at front
    cases front
    have queued : some ref ∈ state'.commandQueue := by
      have before := waiting.queued
      rw [queue_eq] at before
      exact List.mem_of_ne_of_mem different.symm before
    refine ⟨⟨session, queued, unfinished⟩, ?_⟩
    rw [Runner.rank, Runner.rank, queue_eq, List.idxOf_cons_ne _ different, popping, fronting]
    simp only [Worker.stage]
    omega

theorem moves {move : Move} (waiting : Waiting ref state) (met : inSession move)
    (taken : step env state move = some state') :
    (∃ last, .finished ref last ∈ state'.history) ∨ Waiting ref state' ∧
      state'.rank ref ≤ state.rank ref ∧ (ofWorker move → state'.rank ref < state.rank ref) := by
  cases move with
  | tick time =>
      cases taken
      exact .inr ⟨{ waiting with session := { waiting.session with } }, le_refl _, False.elim⟩
  | set componentName objectName payload =>
      rcases step_set taken with ⟨idle, rfl⟩
      have extended : state.Extends (state.set env componentName objectName payload) :=
        .set componentName objectName payload state
      rcases waiting.of_client (waiting.session.set idle componentName objectName payload)
        extended.worker [] (by rw [extended.commandQueue, List.append_nil]) with
        ⟨still, rank_eq⟩
      exact .inr ⟨still, rank_eq.le, False.elim⟩
  | close => cases met
  | client input =>
      rcases waiting.clientStep taken with ⟨still, rank_eq⟩
      exact .inr ⟨still, rank_eq.le, False.elim⟩
  | worker outcome =>
      rcases waiting.workerStep taken with finished | ⟨still, lower⟩
      · exact .inl finished
      · exact .inr ⟨still, lower.le, fun _ => lower⟩

end Waiting

theorem queued_finishes {meets : Runner → Move → Prop}
    (session : ∀ state move, meets state move → inSession move)
    (trace : Trace (step env) meets) (fair : trace.Fair ofWorker) {n : ℕ}
    (waiting : Waiting ref (trace.state n)) :
    ∃ m, n ≤ m ∧ ∃ last, .finished ref last ∈ (trace.state m).history := by
  apply trace.eventually (Waiting ref) (fun state => ∃ last, .finished ref last ∈ state.history)
    (Runner.rank ref) fair _ _ waiting
  · intro state waiting
    exact waiting.ready
  · intro state move state' waiting met taken
    exact waiting.moves (session state move met) taken

end Progress

end OsConfig.CommandRunner
