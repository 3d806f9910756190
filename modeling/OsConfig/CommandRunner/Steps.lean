import OsConfig.CommandRunner

/-!
# What the steps of the two threads can do

While a runner is constructed and `Set` is called, the client never touches the
worker, and the queue only when it pushes a command. It may construct commands
at new addresses, but never changes an existing one, and it takes a command from
the cache only when it is complete. These facts are collected in one relation,
which the parts of `Set` are shown to satisfy one by one.

The worker changes the status of no command but the one between its `Front` and
its `Pop`, and nothing of the cache and the map.
-/

namespace OsConfig.CommandRunner

/-- The destructor has been called. -/
def Client.destroying : Client → Bool
  | .closing | .popping | .popped _ | .pushingSentinel | .joining | .closed => true
  | _ => false

/-- The command of a call of `ScheduleCommand`. -/
def Client.scheduled : Client → Option Ref
  | .persisting ref | .evicting .schedule ref | .pushing ref => some ref
  | _ => none

theorem step_set {env : Environment} {state state' : Runner}
    {componentName objectName payload : ByteString}
    (taken : step env state (.set componentName objectName payload) = some state') :
    state.client = .idle ∧ state' = state.set env componentName objectName payload := by
  rw [step] at taken
  split at taken
  · rename_i idle
    cases taken
    exact ⟨idle, rfl⟩
  · cases taken

theorem step_close {env : Environment} {state state' : Runner}
    (taken : step env state .close = some state') :
    state.client = .idle ∧ state' = state.goTo .closing := by
  rw [step] at taken
  split at taken
  · rename_i idle
    cases taken
    exact ⟨idle, rfl⟩
  · cases taken

namespace Runner

variable {env : Environment} {state state' : Runner} {ref : Ref}

section Release

variable (state ref)

@[simp]
theorem release_worker : (state.release ref).worker = state.worker := rfl

@[simp]
theorem release_client : (state.release ref).client = state.client := rfl

@[simp]
theorem release_commandQueue : (state.release ref).commandQueue = state.commandQueue := rfl

@[simp]
theorem release_object : (state.release ref).object = state.object := rfl

@[simp]
theorem release_next : (state.release ref).next = state.next := rfl

@[simp]
theorem release_cacheBuffer : (state.release ref).cacheBuffer = state.cacheBuffer := rfl

@[simp]
theorem release_commandMap : (state.release ref).commandMap = state.commandMap := rfl

@[simp]
theorem release_history : (state.release ref).history = state.history := rfl

/-- Releasing pointers changes nothing but the files. -/
theorem releaseAny_eq (previous : Option Ref) :
    state.releaseAny previous = { state with files := (state.releaseAny previous).files } := by
  cases previous <;> rfl

end Release

/-- The client has changed nothing that the worker relies on. -/
structure Extends (state state' : Runner) : Prop where
  serving : state.client.destroying = false → state'.client.destroying = false
  worker : state'.worker = state.worker
  commandQueue : state'.commandQueue = state.commandQueue
  next : state.next ≤ state'.next
  object : ∀ ref, ref < state.next → state'.object ref = state.object ref
  kept : ∀ ref, ref < state.next → ref ∈ state.cacheBuffer → state.isComplete ref = false →
    ref ∈ state'.cacheBuffer
  before : state.history <:+ state'.history
  history : ∀ event ∈ state'.history, event ∈ state.history ∨
    ∃ id ref before status, event = .cancel id ref before status

namespace Extends

theorem refl (state : Runner) : Extends state state where
  serving := fun serving => serving
  worker := rfl
  commandQueue := rfl
  next := Nat.le_refl _
  object := fun _ _ => rfl
  kept := fun _ _ cached _ => cached
  before := List.suffix_refl _
  history := fun _ recorded => .inl recorded

theorem isComplete (extended : Extends state state') (lt : ref < state.next) :
    state'.isComplete ref = state.isComplete ref := by
  rw [Runner.isComplete, extended.object ref lt, Runner.isComplete]

theorem trans {last : Runner} (first : Extends state state') (second : Extends state' last) :
    Extends state last where
  serving := fun serving => second.serving (first.serving serving)
  worker := second.worker.trans first.worker
  commandQueue := second.commandQueue.trans first.commandQueue
  next := first.next.trans second.next
  object := by
    intro ref lt
    rw [second.object ref (lt.trans_le first.next), first.object ref lt]
  kept := by
    intro ref lt cached incomplete
    apply second.kept ref (lt.trans_le first.next) (first.kept ref lt cached incomplete)
    rw [first.isComplete lt, incomplete]
  before := first.before.trans second.before
  history := by
    intro event recorded
    rcases second.history event recorded with earlier | canceled
    · exact first.history event earlier
    · exact .inr canceled

theorem goTo (state : Runner) {client : Client} (serving : client.destroying = false) :
    Extends state (state.goTo client) :=
  { refl state with serving := fun _ => serving }

theorem reply (state : Runner) (status : ℤ) : Extends state (state.reply status) :=
  { refl state with serving := fun _ => rfl }

theorem release (state : Runner) (ref : Ref) : Extends state (state.release ref) :=
  { refl state with }

theorem releaseAny (state : Runner) (previous : Option Ref) :
    Extends state (state.releaseAny previous) := by
  cases previous with
  | none => exact refl state
  | some ref => exact release state ref

theorem storeMap (state : Runner) (commandMap : Std.ExtTreeMap ByteString Ref) :
    Extends state { state with commandMap } :=
  { refl state with }

theorem construct (env : Environment) (state : Runner) (kind : Kind) (arguments : ByteString)
    (timeout : BitVec 32) (replaceEol : Bool) (status : Status) :
    Extends state (state.construct env kind arguments timeout replaceEol status) where
  serving := fun serving => serving
  worker := rfl
  commandQueue := rfl
  next := Nat.le_succ _
  object := fun _ lt => Function.update_of_ne (Nat.ne_of_lt lt) _ _
  kept := fun _ _ cached _ => cached
  before := List.suffix_refl _
  history := fun _ recorded => .inl recorded

theorem refuse (caller : Caller) (ref : Ref) (state : Runner) :
    Extends state (state.refuse caller ref) := by
  cases caller with
  | load statuses failed => exact (goTo state rfl).trans (release _ ref)
  | schedule => exact (reply state _).trans (release _ ref)

theorem cacheCommand (caller : Caller) (ref : Ref) (state : Runner) :
    Extends state (state.cacheCommand caller ref) := by
  rw [Runner.cacheCommand]
  split
  · split
    · exact { refl state with
        serving := fun _ => rfl
        kept := fun _ _ cached _ => List.mem_cons_of_mem _ cached }
    · exact refuse caller ref state
  · exact refuse caller ref state

theorem evictOldest {oldest : Ref} (last : state.cacheBuffer.getLast? = some oldest)
    (complete : state.isComplete oldest) : Extends state (state.evictOldest oldest) := by
  refine .trans ?_ ((release _ oldest).trans (releaseAny _ _))
  refine { refl state with kept := ?_ }
  intro ref _ cached incomplete
  rw [List.getLast?_eq_some_iff] at last
  rcases last with ⟨others, buffer_eq⟩
  rw [buffer_eq, List.mem_append, List.mem_singleton] at cached
  rcases cached with younger | rfl
  · simpa [buffer_eq] using younger
  · simp [complete] at incomplete

theorem evict (caller : Caller) (ref : Ref) (state : Runner) :
    Extends state (state.evict caller ref) := by
  simp only [Runner.evict]
  split
  · cases last : state.cacheBuffer.getLast? with
    | none => exact refl state
    | some oldest =>
        simp only
        split
        · rename_i complete
          exact evictOldest last complete
        · exact refl state
  · cases caller with
    | load statuses failed => exact (goTo state rfl).trans (release _ ref)
    | schedule => exact goTo state rfl

theorem schedule (kind : Kind) (id arguments : ByteString) (timeout : BitVec 32)
    (replaceEol : Bool) (state : Runner) :
    Extends state (state.schedule env kind id arguments timeout replaceEol) := by
  refine .trans (construct env state kind arguments timeout replaceEol
    ⟨id, 0, [], .unknown⟩) ?_
  rw [Runner.schedule]
  split
  · split
    · exact (reply _ _).trans (release _ _)
    · exact (reply _ _).trans (release _ _)
  · exact goTo _ rfl

theorem cancelCommand (created : Bool) (ref : Ref) (state : Runner) :
    Extends state (state.cancelCommand created ref).2 := by
  rw [Runner.cancelCommand]
  split
  · exact { refl state with }
  · exact refl state

theorem cancel (created : Bool) (id : ByteString) (state : Runner) :
    Extends state (state.cancel created id) := by
  rw [Runner.cancel]
  split
  · rename_i ref _
    refine .trans (cancelCommand created ref state) ?_
    refine { refl (state.cancelCommand created ref).2 with
      serving := fun _ => rfl, before := ?_, history := ?_ }
    · exact List.suffix_cons _ _
    · intro event recorded
      rcases List.mem_cons.mp recorded with rfl | earlier
      · exact .inr ⟨_, _, _, _, rfl⟩
      · exact .inl earlier
  · exact reply state _

theorem refresh (id : ByteString) (state : Runner) : Extends state (state.refresh id) := by
  rw [Runner.refresh]
  split
  · exact { refl state with serving := fun _ => rfl }
  · exact reply state _

theorem dispatch (created : Bool) (payloadHash : BitVec 64) (arguments : Arguments)
    (state : Runner) : Extends state (state.dispatch env created payloadHash arguments) := by
  have hashed : Extends state { state with lastPayloadHash := payloadHash } :=
    { refl state with }
  rw [Runner.dispatch]
  split
  · apply hashed.trans
    simp only
    split
    · exact schedule _ _ _ _ _ _
    · exact schedule _ _ _ _ _ _
    · exact schedule _ _ _ _ _ _
    · exact cancel _ _ _
    · exact refresh _ _
    · exact reply _ _
    · exact reply _ _
  · exact reply state _

theorem updateLoaded (arguments : Arguments) (state : Runner) :
    Extends state (state.updateLoaded env arguments) := by
  rw [Runner.updateLoaded]
  split
  · rename_i loaded _
    refine .trans (construct env state .command arguments.arguments arguments.timeout
      arguments.singleLineTextResult { (state.object loaded).status with id := arguments.id }) ?_
    exact (storeMap _ _).trans (release _ loaded)
  · exact refl state

theorem set (componentName objectName payload : ByteString) (state : Runner) :
    Extends state (state.set env componentName objectName payload) := by
  rw [Runner.set]
  split
  · exact reply state _
  · split
    · split
      · exact (updateLoaded _ state).trans (goTo _ rfl)
      · exact reply state _
    · exact reply state _

end Extends

/-- The ways in which the worker takes a step. -/
inductive Worked (state : Runner) (outcome : Outcome) : Runner → Prop where
  | fronts {previous : Option Ref} {ref : Ref} {rest : List (Option Ref)}
      (fronting : state.worker = .fronting previous)
      (queue : state.commandQueue = some ref :: rest) (alive : state.alive ref) :
      Worked state outcome ({ state with worker := .taken ref }.releaseAny previous)
  | exits {previous element : Option Ref} {rest : List (Option Ref)}
      (fronting : state.worker = .fronting previous)
      (queue : state.commandQueue = element :: rest) (gone : element.filter state.alive = none) :
      Worked state outcome ({ state with worker := .exited }.releaseAny previous)
  | cancels {ref : Ref} (taken : state.worker = .taken ref) (canceled : state.isCanceled ref)
      (kind : (state.object ref).kind = .command) :
      Worked state outcome ((state.setStatus ref ecanceled [] .canceled).finish ref)
  | skips {ref : Ref} (taken : state.worker = .taken ref) (canceled : state.isCanceled ref)
      (kind : (state.object ref).kind = .shutdownCommand) : Worked state outcome (state.finish ref)
  | starts {ref : Ref} (taken : state.worker = .taken ref) (unflagged : ¬ state.isCanceled ref) :
      Worked state outcome
        { state with worker := .cleared ref, history := .started ref :: state.history }
  | executes {ref : Ref} (cleared : state.worker = .cleared ref) :
      Worked state outcome
        { state.setStatus ref 0 [] (match (state.object ref).kind with
            | .command => .running
            | .shutdownCommand => .succeeded) with worker := .executing ref }
  | returns {ref : Ref} {exitCode : ℤ} {textResult : ByteString}
      (executing : state.worker = .executing ref) (exits : outcome = .exits exitCode textResult) :
      Worked state outcome { state with worker := .returned ref exitCode textResult }
  | aborts {ref : Ref} {textResult : ByteString} (executing : state.worker = .executing ref)
      (kind : (state.object ref).kind = .command) (canceled : state.isCanceled ref) :
      Worked state outcome { state.removeFile (state.object ref).tmpFile with
        worker := .returned ref ecanceled textResult }
  | finishes {ref : Ref} {exitCode : ℤ} {textResult : ByteString}
      (returned : state.worker = .returned ref exitCode textResult)
      (kind : (state.object ref).kind = .command) :
      Worked state outcome
        ((state.setStatus ref exitCode textResult (.ofExitCode exitCode)).finish ref)
  | shuts {ref : Ref} {exitCode : ℤ} {textResult : ByteString}
      (returned : state.worker = .returned ref exitCode textResult)
      (kind : (state.object ref).kind = .shutdownCommand) : Worked state outcome (state.finish ref)
  | persists {ref : Ref} (executed : state.worker = .executed ref) :
      Worked state outcome { state with worker := .popping ref }
  | pops {ref : Ref} {head : Option Ref} {rest : List (Option Ref)}
      (popping : state.worker = .popping ref) (queue : state.commandQueue = head :: rest) :
      Worked state outcome { state with commandQueue := rest, worker := .fronting (some ref) }

theorem worked {outcome : Outcome} (taken : state.workerStep outcome = some state') :
    Worked state outcome state' := by
  rw [workerStep] at taken
  split at taken
  · cases taken
  · rename_i previous fronting
    split at taken
    · cases taken
    · rename_i element rest queue
      split at taken
      · rename_i ref locked
        cases taken
        rw [Option.filter_eq_some_iff] at locked
        exact .fronts fronting (locked.1 ▸ queue) locked.2
      · rename_i gone
        cases taken
        exact .exits fronting queue gone
  · rename_i ref position
    split at taken
    · rename_i canceled
      split at taken <;> rename_i kind <;> cases taken
      · exact .cancels position canceled kind
      · exact .skips position canceled kind
    · rename_i unflagged
      cases taken
      exact .starts position unflagged
  · rename_i ref cleared
    cases taken
    exact .executes cleared
  · rename_i ref executing
    split at taken
    · cases taken
      exact .returns executing rfl
    · split at taken
      · rename_i found
        cases taken
        exact .aborts executing found.1 found.2
      · cases taken
  · rename_i ref exitCode textResult returned
    split at taken <;> rename_i kind <;> cases taken
    · exact .finishes returned kind
    · exact .shuts returned kind
  · rename_i ref executed
    cases taken
    exact .persists executed
  · rename_i ref popping
    split at taken
    · cases taken
    · rename_i head rest queue
      cases taken
      exact .pops popping queue
  · cases taken

/-- The steps of the client. -/
inductive Served (env : Environment) (input : Input) (state : Runner) : Runner → Prop where
  | loads {failed : Bool} (client_eq : state.client = .loading [] failed) :
      Served env input state (state.load env [] failed)
  | constructs {status : Status} {rest : List Status} {failed : Bool}
      (client_eq : state.client = .loading (status :: rest) failed) :
      Served env input state
        ((state.construct env .command [] 0 true status).cacheCommand (.load rest failed) state.next)
  | dispatches {payloadHash : BitVec 64} {arguments : Arguments}
      (client_eq : state.client = .dispatching payloadHash arguments) :
      Served env input state (state.dispatch env input.created payloadHash arguments)
  | caches {ref : Ref} (client_eq : state.client = .persisting ref)
      (persisted : ¬ env.usePersistedCache ∨ input.persisted = 0) :
      Served env input state (state.cacheCommand .schedule ref)
  | refuses {ref : Ref} (client_eq : state.client = .persisting ref)
      (failed : ¬ (¬ env.usePersistedCache ∨ input.persisted = 0)) :
      Served env input state ((state.reply input.persisted).release ref)
  | evicts {caller : Caller} {ref : Ref} (client_eq : state.client = .evicting caller ref) :
      Served env input state (state.evict caller ref)
  | pushes {ref : Ref} (client_eq : state.client = .pushing ref) :
      Served env input state
        ({ state with commandQueue := state.commandQueue ++ [some ref] }.reply 0 |>.release ref)
  | closes (client_eq : state.client = .closing) :
      Served env input state
        (state.goTo (if state.commandQueue = [] then .pushingSentinel else .popping))
  | pops {element : Option Ref} {rest : List (Option Ref)} (client_eq : state.client = .popping)
      (queue : state.commandQueue = element :: rest) :
      Served env input state { state with commandQueue := rest, client := .popped element }
  | cancels {element : Option Ref} {ref : Ref} (client_eq : state.client = .popped element)
      (locked : element.filter state.alive = some ref) :
      Served env input state
        ((state.cancelCommand input.created ref).2.goTo .closing |>.release ref)
  | drops {element : Option Ref} (client_eq : state.client = .popped element)
      (gone : element.filter state.alive = none) : Served env input state (state.goTo .closing)
  | ends (client_eq : state.client = .pushingSentinel) :
      Served env input state
        { state with commandQueue := state.commandQueue ++ [none], client := .joining }
  | joins (client_eq : state.client = .joining) (exited : state.worker = .exited) :
      Served env input state (state.goTo .closed)

theorem served {env : Environment} {input : Input}
    (taken : state.clientStep env input = some state') : Served env input state state' := by
  rw [clientStep] at taken
  split at taken
  · rename_i statuses failed client_eq
    cases taken
    cases statuses with
    | nil => exact .loads client_eq
    | cons => exact .constructs client_eq
  · cases taken
  · rename_i client_eq
    cases taken
    exact .dispatches client_eq
  · rename_i client_eq
    split at taken <;> rename_i persisted <;> cases taken
    · exact .caches client_eq persisted
    · exact .refuses client_eq persisted
  · rename_i client_eq
    cases taken
    exact .evicts client_eq
  · rename_i client_eq
    cases taken
    exact .pushes client_eq
  · rename_i client_eq
    cases taken
    exact .closes client_eq
  · rename_i client_eq
    split at taken <;> rename_i queue <;> cases taken
    exact .pops client_eq queue
  · rename_i client_eq
    split at taken <;> rename_i locked <;> cases taken
    · exact .cancels client_eq locked
    · exact .drops client_eq locked
  · rename_i client_eq
    cases taken
    exact .ends client_eq
  · rename_i client_eq
    split at taken
    · rename_i exited
      cases taken
      exact .joins client_eq exited
    · cases taken
  · cases taken

/-- The worker has changed nothing but its own command and the queue. -/
structure Works (state state' : Runner) : Prop where
  client : state'.client = state.client
  next : state'.next = state.next
  cacheBuffer : state'.cacheBuffer = state.cacheBuffer
  commandMap : state'.commandMap = state.commandMap
  object : ∀ ref, state.worker.current ≠ some ref → state'.object ref = state.object ref
  kind : ∀ ref, (state'.object ref).kind = (state.object ref).kind
  id : ∀ ref, (state'.object ref).id = (state.object ref).id
  tmpFile : ∀ ref, (state'.object ref).tmpFile = (state.object ref).tmpFile

namespace Works

theorem refl (state : Runner) : Works state state where
  client := rfl
  next := rfl
  cacheBuffer := rfl
  commandMap := rfl
  object := fun _ _ => rfl
  kind := fun _ => rfl
  id := fun _ => rfl
  tmpFile := fun _ => rfl

theorem releaseAny (works : Works state state') (previous : Option Ref) :
    Works state (state'.releaseAny previous) := by
  rw [releaseAny_eq]
  exact { works with }

/-- Setting the status of the command at hand leaves what identifies it. -/
theorem setStatus (state : Runner) (current : state.worker.current = some ref) (exitCode : ℤ)
    (textResult : ByteString) (newState : State) :
    Works state (state.setStatus ref exitCode textResult newState) := by
  have fixed : ∀ (field : Command → ByteString) (other : Ref),
      field ((state.object ref).setStatus exitCode textResult newState) =
        field (state.object ref) →
      field ((state.setStatus ref exitCode textResult newState).object other) =
        field (state.object other) := by
    intro field other same
    by_cases equal : other = ref
    · subst equal
      simpa [Runner.setStatus] using same
    · simp [Runner.setStatus, Function.update_of_ne equal]
  refine { refl state with object := ?_, kind := ?_, id := ?_, tmpFile := ?_ }
  · intro other different
    apply Function.update_of_ne
    rintro rfl
    exact different current
  · intro other
    by_cases equal : other = ref
    · subst equal
      simp [Runner.setStatus, Command.setStatus]
    · simp [Runner.setStatus, Function.update_of_ne equal]
  · intro other
    exact fixed Command.id other rfl
  · intro other
    exact fixed Command.tmpFile other rfl

theorem workerStep {outcome : Outcome} (taken : state.workerStep outcome = some state') :
    Works state state' := by
  cases worked taken with
  | fronts | exits =>
      apply releaseAny
      exact { refl state with }
  | cancels position | executes position | finishes position =>
      have current := congrArg Worker.current position
      exact { setStatus state current _ _ _ with }
  | _ => exact { refl state with }

end Works

end Runner

/-- How many steps the worker is from its next `Front`. -/
def Worker.stage : Worker → ℕ
  | .fronting _ => 7
  | .taken _ => 6
  | .cleared _ => 5
  | .executing _ => 4
  | .returned _ _ _ => 3
  | .executed _ => 2
  | .popping _ => 1
  | .notStarted | .exited => 0

/-- The command whose `Execute` has returned. -/
def Worker.done : Worker → Option Ref
  | .executed ref | .popping ref => some ref
  | _ => none

namespace Runner

variable {state state' : Runner}

theorem workerStep_cases {outcome : Outcome} (taken : state.workerStep outcome = some state') :
    (∃ previous ref rest, state.worker = .fronting previous ∧
      state.commandQueue = some ref :: rest ∧ state'.worker = .taken ref ∧
      state'.commandQueue = state.commandQueue) ∨
    (∃ previous element rest, state.worker = .fronting previous ∧
      state.commandQueue = element :: rest ∧ element.filter state.alive = none ∧
      state'.worker = .exited ∧ state'.commandQueue = state.commandQueue) ∨
    (∃ ref, state.worker.current = some ref ∧ state'.worker.current = some ref ∧
      state'.worker.stage < state.worker.stage ∧ state'.commandQueue = state.commandQueue) ∨
    ∃ ref head, state.worker = .popping ref ∧ state.commandQueue = head :: state'.commandQueue ∧
      state'.worker = .fronting (some ref) := by
  cases worked taken with
  | @fronts previous ref rest fronting queue _ =>
      rw [releaseAny_eq]
      exact .inl ⟨previous, ref, rest, fronting, queue, rfl, rfl⟩
  | @exits previous element rest fronting queue gone =>
      rw [releaseAny_eq]
      exact .inr (.inl ⟨previous, element, rest, fronting, queue, gone, rfl, rfl⟩)
  | @pops ref head rest popping queue =>
      exact .inr (.inr (.inr ⟨ref, head, popping, queue, rfl⟩))
  | @cancels ref position | @skips ref position | @starts ref position | @executes ref position
  | @returns ref _ _ position | @aborts ref _ position | @finishes ref _ _ position
  | @shuts ref _ _ position | @persists ref position =>
      refine .inr (.inr (.inl ⟨ref, by rw [position]; rfl, rfl, ?_, rfl⟩))
      simp [position, Worker.stage, finish]

/-- What the worker records: nothing, that its command starts, or that `Execute` returns. -/
theorem workerStep_history {outcome : Outcome} (taken : state.workerStep outcome = some state') :
    (state'.history = state.history ∧
      ∀ ref, state'.worker.done = some ref → state.worker.done = some ref) ∨
    (∃ ref, state.worker = .taken ref ∧ state'.worker = .cleared ref ∧
      state'.history = .started ref :: state.history) ∨
    ∃ ref, state.worker.current = some ref ∧ state'.worker = .executed ref ∧
      state'.history = .finished ref (state'.object ref).status.state :: state.history := by
  cases worked taken with
  | fronts | exits =>
      rw [releaseAny_eq]
      exact .inl ⟨rfl, by simp [Worker.done]⟩
  | @starts ref position => exact .inr (.inl ⟨ref, position, rfl, rfl⟩)
  | @cancels ref position | @skips ref position | @finishes ref _ _ position
  | @shuts ref _ _ position => exact .inr (.inr ⟨ref, by rw [position]; rfl, rfl, rfl⟩)
  | executes position | returns position | aborts position | persists position | pops position =>
      exact .inl ⟨rfl, by simp [position, Worker.done]⟩

theorem workerStep_queue {outcome : Outcome} (taken : state.workerStep outcome = some state') :
    state'.commandQueue <:+ state.commandQueue := by
  rcases workerStep_cases taken with
    ⟨_, _, _, -, -, -, same⟩ | ⟨_, _, _, -, -, -, -, same⟩ | ⟨_, -, -, -, same⟩ |
    ⟨_, head, -, queue_eq, -⟩
  · rw [same]
  · rw [same]
  · rw [same]
  · rw [queue_eq]
    exact List.suffix_cons _ _

/-- A command whose `Execute` has returned is persisted and popped. -/
theorem workerStep_done {outcome : Outcome} {ref : Ref}
    (taken : state.workerStep outcome = some state') (done : state.worker.done = some ref) :
    state'.worker = .popping ref ∧ state'.history = state.history ∨
      ∃ head, state.commandQueue = head :: state'.commandQueue ∧
        state'.worker = .fronting (some ref) := by
  cases worked taken with
  | persists position =>
      rw [position] at done
      cases done
      exact .inl ⟨rfl, rfl⟩
  | @pops _ head _ position queue =>
      rw [position] at done
      cases done
      exact .inr ⟨head, queue, rfl⟩
  | fronts position | exits position | cancels position | skips position | starts position
  | executes position | returns position | aborts position | finishes position | shuts position =>
      rw [position] at done
      cases done

theorem workerStep_executed {outcome : Outcome} {ref : Ref}
    (taken : state.workerStep outcome = some state') (executed : state'.worker = .executed ref) :
    state.worker.done = none := by
  cases done : state.worker.done with
  | none => rfl
  | some other =>
      rcases workerStep_done taken done with ⟨popping, -⟩ | ⟨head, -, fronting⟩
      · rw [popping] at executed
        cases executed
      · rw [fronting] at executed
        cases executed

section Positions

/-- `CacheCommand` takes the command and enters its loop, or refuses it. -/
theorem cacheCommand_cases (caller : Caller) (ref : Ref) (state : Runner) :
    ((state.idOf ref ≠ [] ∧ state.idOf ref ∉ state.commandMap) ∧
      (state.cacheCommand caller ref).cacheBuffer = ref :: state.cacheBuffer ∧
      (state.cacheCommand caller ref).client = .evicting caller ref) ∨
    (state.idOf ref = [] ∨ state.idOf ref ∈ state.commandMap) ∧
      state.cacheCommand caller ref = state.refuse caller ref := by
  rw [cacheCommand]
  split
  · rename_i nonempty
    split
    · rename_i absent
      exact .inl ⟨⟨nonempty, absent⟩, rfl, rfl⟩
    · rename_i present
      exact .inr ⟨.inr (by simpa using present), rfl⟩
  · rename_i empty
    exact .inr ⟨.inl (by simpa using empty), rfl⟩

theorem evict_cases (caller : Caller) (ref : Ref) (state : Runner) :
    (state.evict caller ref = state ∧ ∃ oldest, state.cacheBuffer.getLast? = some oldest ∧
      maxCacheSize < state.cacheBuffer.length ∧ state.isComplete oldest = false) ∨
    (∃ oldest, state.cacheBuffer.getLast? = some oldest ∧
      maxCacheSize < state.cacheBuffer.length ∧ state.isComplete oldest ∧
      state.evict caller ref = state.evictOldest oldest) ∨
    state.cacheBuffer.length ≤ maxCacheSize ∧
    match caller with
    | .load statuses failed =>
        state.evict caller ref = (state.goTo (.loading statuses failed)).release ref
    | .schedule => state.evict caller ref = state.goTo (.pushing ref) := by
  simp only [evict]
  split
  · rename_i exceeds
    cases last : state.cacheBuffer.getLast? with
    | none =>
        rw [List.getLast?_eq_none_iff] at last
        simp [last, maxCacheSize] at exceeds
    | some oldest =>
        simp only
        split
        · rename_i complete
          exact .inr (.inl ⟨oldest, rfl, exceeds, complete, rfl⟩)
        · rename_i incomplete
          exact .inl ⟨rfl, oldest, rfl, exceeds, by simpa using incomplete⟩
  · rename_i fits
    rw [not_lt] at fits
    cases caller with
    | load statuses failed => exact .inr (.inr ⟨fits, rfl⟩)
    | schedule => exact .inr (.inr ⟨fits, rfl⟩)

theorem evictOldest_client (oldest : Ref) (state : Runner) :
    (state.evictOldest oldest).client = state.client := by
  rw [evictOldest, releaseAny_eq]
  rfl

theorem evictOldest_cacheBuffer (oldest : Ref) (state : Runner) :
    (state.evictOldest oldest).cacheBuffer = state.cacheBuffer.dropLast := by
  rw [evictOldest, releaseAny_eq]
  rfl

theorem refuse_cacheBuffer (caller : Caller) (ref : Ref) (state : Runner) :
    (state.refuse caller ref).cacheBuffer = state.cacheBuffer := by
  cases caller <;> rfl

theorem refuse_scheduled (caller : Caller) (ref : Ref) (state : Runner) :
    (state.refuse caller ref).client.scheduled = none := by
  cases caller <;> rfl

variable (env : Environment)

theorem schedule_cases (kind : Kind) (id arguments : ByteString) (timeout : BitVec 32)
    (replaceEol : Bool) (state : Runner) :
    (state.schedule env kind id arguments timeout replaceEol).cacheBuffer = state.cacheBuffer ∧
      ((state.schedule env kind id arguments timeout replaceEol).client = .idle ∨
        (state.schedule env kind id arguments timeout replaceEol).client = .persisting state.next ∧
        (state.schedule env kind id arguments timeout replaceEol).next = state.next + 1 ∧
        (state.schedule env kind id arguments timeout replaceEol).isComplete state.next =
          false) := by
  rw [schedule]
  split
  · split
    · exact ⟨rfl, .inl rfl⟩
    · exact ⟨rfl, .inl rfl⟩
  · refine ⟨rfl, .inr ⟨rfl, rfl, ?_⟩⟩
    simp [isComplete, goTo, construct, Command.isComplete, State.isComplete]

theorem cancelCommand_cacheBuffer (created : Bool) (ref : Ref) (state : Runner) :
    (state.cancelCommand created ref).2.cacheBuffer = state.cacheBuffer := by
  rw [cancelCommand]
  split <;> rfl

theorem dispatch_cases (created : Bool) (payloadHash : BitVec 64) (arguments : Arguments)
    (state : Runner) :
    (state.dispatch env created payloadHash arguments).cacheBuffer = state.cacheBuffer ∧
      ((state.dispatch env created payloadHash arguments).client = .idle ∨
        (state.dispatch env created payloadHash arguments).client = .persisting state.next ∧
        (state.dispatch env created payloadHash arguments).next = state.next + 1 ∧
        (state.dispatch env created payloadHash arguments).isComplete state.next = false) := by
  rw [dispatch]
  split
  · simp only
    split
    · exact schedule_cases env _ _ _ _ _ { state with lastPayloadHash := payloadHash }
    · exact schedule_cases env _ _ _ _ _ { state with lastPayloadHash := payloadHash }
    · exact schedule_cases env _ _ _ _ _ { state with lastPayloadHash := payloadHash }
    · rw [cancel]
      split
      · exact ⟨cancelCommand_cacheBuffer created _ _, .inl rfl⟩
      · exact ⟨rfl, .inl rfl⟩
    · rw [refresh]
      split <;> exact ⟨rfl, .inl rfl⟩
    · exact ⟨rfl, .inl rfl⟩
    · exact ⟨rfl, .inl rfl⟩
  · exact ⟨rfl, .inl rfl⟩

theorem updateLoaded_client (arguments : Arguments) (state : Runner) :
    (state.updateLoaded env arguments).client = state.client := by
  rw [updateLoaded]
  split <;> rfl

theorem updateLoaded_cacheBuffer (arguments : Arguments) (state : Runner) :
    (state.updateLoaded env arguments).cacheBuffer = state.cacheBuffer := by
  rw [updateLoaded]
  split <;> rfl

theorem set_cases (componentName objectName payload : ByteString) (state : Runner) :
    (state.set env componentName objectName payload).cacheBuffer = state.cacheBuffer ∧
      ((state.set env componentName objectName payload).client = .idle ∨
        ∃ arguments, (state.set env componentName objectName payload).client =
          .dispatching (hashString payload) arguments) := by
  rw [set]
  split
  · exact ⟨rfl, .inl rfl⟩
  · split
    · split
      · exact ⟨updateLoaded_cacheBuffer env _ state, .inr ⟨_, rfl⟩⟩
      · exact ⟨rfl, .inl rfl⟩
    · exact ⟨rfl, .inl rfl⟩

variable {env}

theorem clientStep_cases {input : Input} (serving : state.client.destroying = false)
    (taken : state.clientStep env input = some state') :
    (∃ failed, state.client = .loading [] failed) ∨
    (∃ ref, state.client = .pushing ref ∧
      state'.commandQueue = state.commandQueue ++ [some ref] ∧ state'.worker = state.worker) ∨
    state.Extends state' := by
  cases served taken with
  | @loads failed client_eq => exact .inl ⟨failed, client_eq⟩
  | constructs => exact .inr (.inr ((Extends.construct ..).trans (.cacheCommand ..)))
  | dispatches => exact .inr (.inr (.dispatch ..))
  | caches => exact .inr (.inr (.cacheCommand ..))
  | refuses => exact .inr (.inr ((Extends.reply ..).trans (.release ..)))
  | evicts => exact .inr (.inr (.evict ..))
  | @pushes ref client_eq => exact .inr (.inl ⟨ref, client_eq, rfl, rfl⟩)
  | closes at_ | pops at_ | cancels at_ | drops at_ | ends at_ | joins at_ =>
      simp [at_, Client.destroying] at serving

end Positions

end Runner

end OsConfig.CommandRunner
