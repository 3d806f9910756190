import OsConfig.CommandRunner.Steps
import OsConfig.Library.Transitions

/-!
# Shutting the command runner down

The worker leaves a command at the front of the queue until it has executed it,
and the destructor takes commands from the same end. If the destructor pops the
command that is being executed, the worker pops what comes next: a command it
has not executed, or the empty pointer that was to stop it, after which it waits
for ever and the destructor waits for it. If the worker pops the last command
between the destructor's look at the queue and its `Pop`, both wait as well.

In runs without these two steps the worker removes what it has executed and the
destructor gets to its end.
-/

namespace OsConfig.CommandRunner

open Transitions

variable {env : Environment} {state state' : Runner}

/-- The worker is in `Front` or `Pop` with nothing to take. -/
def Runner.WaitsOnEmpty (state : Runner) : Prop :=
  state.commandQueue = [] ∧
    ((∃ previous, state.worker = .fronting previous) ∨ ∃ ref, state.worker = .popping ref)

/-- The destructor waits, in `Pop` or in `join`, and neither thread can take a step. -/
def Runner.Deadlocked (env : Environment) (state : Runner) : Prop :=
  (state.client = .popping ∨ state.client = .joining) ∧
    (∀ input, state.clientStep env input = none) ∧ ∀ outcome, state.workerStep outcome = none

/-- The destructor does not pop while the worker is between `Front` and `Pop`, and the worker
does not pop the last element while the destructor is about to pop. -/
def orderly (state : Runner) : Move → Bool
  | .client _ =>
      match state.client with
      | .popping => state.worker.current = none
      | _ => true
  | .worker _ =>
      match state.client, state.worker with
      | .popping, .popping _ => 1 < state.commandQueue.length
      | _, _ => true
  | _ => true

/-- The constructor has not returned. -/
def Client.constructing : Client → Bool
  | .loading _ _ | .evicting (.load _ _) _ => true
  | _ => false

/-- What the two threads can rely on. -/
structure Coordinated (state : Runner) : Prop where
  front : ∀ ref, state.worker.current = some ref → state.commandQueue.head? = some (some ref)
  started : state.worker = .notStarted → state.client.constructing
  popping : state.client = .popping → state.commandQueue ≠ []
  pushingSentinel : state.client = .pushingSentinel → state.commandQueue = []
  joining : state.client = .joining → state.commandQueue = [none]

namespace Coordinated

/-- The parts of the constructor and of `Set` that do not push. -/
theorem serves (coordinated : Coordinated state) (extended : state.Extends state')
    (serving : state.client.destroying = false)
    (started : state.worker = .notStarted → state'.client.constructing) : Coordinated state' := by
  have serving' := extended.serving serving
  constructor
  · rw [extended.worker, extended.commandQueue]
    exact coordinated.front
  · rw [extended.worker]
    exact started
  · intro client_eq
    simp [client_eq, Client.destroying] at serving'
  · intro client_eq
    simp [client_eq, Client.destroying] at serving'
  · intro client_eq
    simp [client_eq, Client.destroying] at serving'

theorem worker_ne_notStarted (coordinated : Coordinated state)
    (constructed : state.client.constructing = false) : state.worker ≠ .notStarted := by
  intro notStarted
  simp [coordinated.started notStarted] at constructed

theorem serves_started (coordinated : Coordinated state) (extended : state.Extends state')
    (serving : state.client.destroying = false) (constructed : state.client.constructing = false) :
    Coordinated state' := by
  apply coordinated.serves extended serving
  intro notStarted
  exact absurd notStarted (coordinated.worker_ne_notStarted constructed)

theorem constructing_cacheCommand (statuses : List Status) (failed : Bool) (ref : Ref)
    (state : Runner) :
    (state.cacheCommand (.load statuses failed) ref).client.constructing := by
  rw [Runner.cacheCommand]
  split
  · split <;> rfl
  · rfl

theorem constructing_evict (statuses : List Status) (failed : Bool) (ref : Ref) {state : Runner}
    (client_eq : state.client = .evicting (.load statuses failed) ref) :
    (state.evict (.load statuses failed) ref).client.constructing := by
  have same : state.client.constructing := by rw [client_eq]; rfl
  simp only [Runner.evict]
  split
  · split
    · split
      · rw [Runner.evictOldest, Runner.releaseAny_eq]
        exact same
      · exact same
    · exact same
  · rfl

theorem set (coordinated : Coordinated state) (idle : state.client = .idle)
    (componentName objectName payload : ByteString) :
    Coordinated (state.set env componentName objectName payload) := by
  apply coordinated.serves_started (.set componentName objectName payload state)
  · rw [idle]; rfl
  · rw [idle]; rfl

theorem clientStep (coordinated : Coordinated state) {input : Runner.Input}
    (met : orderly state (.client input)) (taken : state.clientStep env input = some state') :
    Coordinated state' := by
  cases Runner.served taken with
  | loads => constructor <;> simp [Runner.load, Worker.current]
  | constructs client_eq =>
      apply coordinated.serves ((Runner.Extends.construct ..).trans (.cacheCommand ..))
      · rw [client_eq]; rfl
      · intro _
        exact constructing_cacheCommand ..
  | dispatches client_eq =>
      apply coordinated.serves_started (.dispatch ..)
      · rw [client_eq]; rfl
      · rw [client_eq]; rfl
  | caches client_eq _ =>
      apply coordinated.serves_started (.cacheCommand ..)
      · rw [client_eq]; rfl
      · rw [client_eq]; rfl
  | refuses client_eq _ =>
      apply coordinated.serves_started ((Runner.Extends.reply ..).trans (.release ..))
      · rw [client_eq]; rfl
      · rw [client_eq]; rfl
  | @evicts caller _ client_eq =>
      cases caller with
      | load statuses failed =>
          apply coordinated.serves (.evict ..)
          · rw [client_eq]; rfl
          · intro _
            exact constructing_evict _ _ _ client_eq
      | schedule =>
          apply coordinated.serves_started (.evict ..)
          · rw [client_eq]; rfl
          · rw [client_eq]; rfl
  | pushes client_eq =>
      constructor
      · intro current current_eq
        have front := coordinated.front current current_eq
        simp [Runner.reply, front]
      · intro notStarted
        exact absurd notStarted (coordinated.worker_ne_notStarted (by rw [client_eq]; rfl))
      · simp [Runner.reply]
      · simp [Runner.reply]
      · simp [Runner.reply]
  | closes client_eq =>
      refine ⟨coordinated.front, ?_, ?_, ?_, ?_⟩
      · intro notStarted
        exact absurd notStarted (coordinated.worker_ne_notStarted (by rw [client_eq]; rfl))
      · simp only [Runner.goTo]
        split <;> simp_all
      · simp only [Runner.goTo]
        split <;> simp_all
      · simp only [Runner.goTo]
        split <;> simp
  | pops client_eq queue =>
      simp only [orderly, client_eq, decide_eq_true_eq] at met
      constructor
      · simp [met]
      · intro notStarted
        exact absurd notStarted (coordinated.worker_ne_notStarted (by rw [client_eq]; rfl))
      · simp
      · simp
      · simp
  | @cancels _ ref client_eq _ =>
      have extended := Runner.Extends.cancelCommand input.created ref state
      constructor
      · simp only [Runner.release_worker, Runner.release_commandQueue, Runner.goTo]
        rw [extended.worker, extended.commandQueue]
        exact coordinated.front
      · simp only [Runner.release_worker, Runner.goTo]
        rw [extended.worker]
        intro notStarted
        exact absurd notStarted (coordinated.worker_ne_notStarted (by rw [client_eq]; rfl))
      · simp [Runner.goTo]
      · simp [Runner.goTo]
      · simp [Runner.goTo]
  | drops client_eq =>
      refine ⟨coordinated.front, ?_, ?_, ?_, ?_⟩
      · intro notStarted
        exact absurd notStarted (coordinated.worker_ne_notStarted (by rw [client_eq]; rfl))
      · simp [Runner.goTo]
      · simp [Runner.goTo]
      · simp [Runner.goTo]
  | ends client_eq =>
      have empty := coordinated.pushingSentinel client_eq
      constructor
      · intro ref current_eq
        -- The worker is not between `Front` and `Pop`, since nothing is in the queue.
        have front := coordinated.front ref current_eq
        simp [empty] at front
      · intro notStarted
        exact absurd notStarted (coordinated.worker_ne_notStarted (by rw [client_eq]; rfl))
      · simp
      · simp
      · simp [empty]
  | joins _ exited =>
      constructor
      · simp [Runner.goTo, exited, Worker.current]
      · simp [Runner.goTo, exited]
      · simp [Runner.goTo]
      · simp [Runner.goTo]
      · simp [Runner.goTo]

theorem advances (coordinated : Coordinated state) (works : state.Works state')
    (queue : state'.commandQueue = state.commandQueue) (started : state'.worker ≠ .notStarted)
    (front : ∀ ref, state'.worker.current = some ref →
      state.commandQueue.head? = some (some ref)) : Coordinated state' := by
  constructor
  · rw [queue]
    exact front
  · intro notStarted
    exact absurd notStarted started
  · rw [works.client, queue]
    exact coordinated.popping
  · rw [works.client, queue]
    exact coordinated.pushingSentinel
  · rw [works.client, queue]
    exact coordinated.joining

theorem workerStep (coordinated : Coordinated state) {outcome : Runner.Outcome}
    (met : orderly state (.worker outcome)) (taken : state.workerStep outcome = some state') :
    Coordinated state' := by
  have works := Runner.Works.workerStep taken
  rcases Runner.workerStep_cases taken with
    ⟨previous, ref, rest, fronting, queue_eq, takes, same⟩ |
    ⟨previous, element, rest, fronting, queue_eq, -, exits, same⟩ |
    ⟨ref, current, current', -, same⟩ | ⟨ref, head, popping, queue_eq, fronting⟩
  · apply coordinated.advances works same (by simp [takes])
    intro other other_eq
    simp only [takes, Worker.current, Option.some.injEq] at other_eq
    simp [queue_eq, other_eq]
  · apply coordinated.advances works same (by simp [exits])
    simp [exits, Worker.current]
  · apply coordinated.advances works same
    · intro notStarted
      simp [notStarted, Worker.current] at current'
    · intro other other_eq
      rw [current'] at other_eq
      rw [← Option.some.inj other_eq]
      exact coordinated.front ref current
  · have front := coordinated.front ref (by rw [popping]; rfl)
    constructor
    · simp [fronting, Worker.current]
    · simp [fronting]
    · -- The last element is not popped while the destructor is about to pop.
      rw [works.client]
      intro client_eq
      simp only [orderly, client_eq, popping, decide_eq_true_eq] at met
      simp only [queue_eq, List.length_cons] at met
      apply List.ne_nil_of_length_pos
      omega
    · rw [works.client]
      intro client_eq
      simp [coordinated.pushingSentinel client_eq] at queue_eq
    · rw [works.client]
      intro client_eq
      simp [coordinated.joining client_eq] at front

theorem keeps : Keeps (Taken (step env) fun state move => orderly state move) Coordinated := by
  rintro state state' coordinated ⟨move, met, taken⟩
  cases move with
  | tick time =>
      cases taken
      exact { coordinated with }
  | set componentName objectName payload =>
      rcases step_set taken with ⟨idle, rfl⟩
      exact coordinated.set idle componentName objectName payload
  | close =>
      rcases step_close taken with ⟨idle, rfl⟩
      refine ⟨coordinated.front, ?_, ?_, ?_, ?_⟩
      · intro notStarted
        exact absurd notStarted (coordinated.worker_ne_notStarted (by rw [idle]; rfl))
      · simp [Runner.goTo]
      · simp [Runner.goTo]
      · simp [Runner.goTo]
  | client input => exact coordinated.clientStep met taken
  | worker outcome => exact coordinated.workerStep met taken

theorem start (env : Environment) (clock : ℕ) (files : List ByteString)
    (file : Option ByteString) : Coordinated (start env clock files file) := by
  constructor <;> simp [CommandRunner.start, Worker.current, Client.constructing]

theorem not_deadlocked (coordinated : Coordinated state) : ¬ state.Deadlocked env := by
  rintro ⟨popping | joining, blocked, idle⟩
  · have element := coordinated.popping popping
    have waits := blocked ⟨0, true⟩
    simp only [Runner.clientStep, popping] at waits
    split at waits
    · contradiction
    · cases waits
  · have sentinel := coordinated.joining joining
    cases worker_eq : state.worker with
    | notStarted =>
        have constructing := coordinated.started worker_eq
        simp [joining, Client.constructing] at constructing
    | fronting previous =>
        have waits := idle (.exits 0 [])
        simp [Runner.workerStep, worker_eq, sentinel] at waits
    | exited =>
        have waits := blocked ⟨0, true⟩
        simp [Runner.clientStep, joining, worker_eq] at waits
    | _ ref =>
        have front := coordinated.front ref (by rw [worker_eq]; rfl)
        simp [sentinel] at front

end Coordinated

/-- In every run in which the destructor never pops while the worker is between `Front` and `Pop`,
and the worker never pops the last element while the destructor is about to pop, what the worker
pops is what it has executed, and the two threads never wait for each other. -/
theorem shutdown_coordinated {env : Environment} {clock : ℕ} {files : List ByteString}
    {file : Option ByteString} {final : Runner}
    (run : Run (Taken (step env) fun state move => orderly state move)
      (start env clock files file) final) :
    (∀ ref, final.worker = .popping ref → final.commandQueue.head? = some (some ref)) ∧
      ¬ (final.client = .joining ∧ final.WaitsOnEmpty) ∧ ¬ final.Deadlocked env := by
  have coordinated := Coordinated.keeps.run (.start env clock files file) run
  refine ⟨?_, ?_, coordinated.not_deadlocked⟩
  · intro ref popping
    apply coordinated.front ref
    rw [popping]
    rfl
  · rintro ⟨joining, empty, -⟩
    simp [coordinated.joining joining] at empty

def sleepRequest : ByteString × Json := request "1" "sleep 10s" 3

def echoRequest : ByteString × Json := request "2" "echo hello" 3

def sleepEnvironment : Environment := sampleEnvironment [sleepRequest, echoRequest]

/-- The destructor has seen two commands in the queue, and the worker is about to pop the first
one, which it has executed. -/
theorem shutdown_coordinated_two_commands :
    ∃ final, Run (Taken (step sleepEnvironment) fun state move => orderly state move)
        (start sleepEnvironment 0 [] none) final ∧
      (final.client = .popping ∧ final.worker = .popping 0) ∧
      final.commandQueue.head? = some (some 0) := by
  have reached : ∃ final, Run (Taken (step sleepEnvironment) fun state move => orderly state move)
      (start sleepEnvironment 0 [] none) final ∧
      decide (final.client = .popping ∧ final.worker = .popping 0) = true :=
    exists_run_of_follow (clientGoesOn :: runRequest sleepRequest ++ runRequest echoRequest ++
      .close :: clientGoesOn :: List.replicate 6 (workerGoesOn 0)) (by decide +kernel)
  rcases reached with ⟨final, run, passed⟩
  rw [decide_eq_true_eq] at passed
  exact ⟨final, run, passed, (shutdown_coordinated run).1 0 passed.2⟩

/-- The destructor pops the command that is being executed, cancels it and pushes the empty
pointer. The worker finds the command cancelled and pops that pointer, and then both wait. -/
theorem destructor_pops_executing :
    ∃ popping final,
      Run (Taken (step sleepEnvironment) fun _ _ => True) (start sleepEnvironment 0 [] none)
        popping ∧
      (popping.worker = .popping 0 ∧ popping.commandQueue.head? = some none) ∧
      Run (Taken (step sleepEnvironment) fun _ _ => True) popping final ∧
      final.client = .joining ∧ final.WaitsOnEmpty := by
  have reached : ∃ popping,
      Run (Taken (step sleepEnvironment) fun _ _ => true) (start sleepEnvironment 0 [] none)
        popping ∧
      decide ((popping.worker = .popping 0 ∧ popping.commandQueue.head? = some none) ∧
        (follow (step sleepEnvironment) (fun _ _ => true) popping [workerGoesOn 0]).any
          fun final => final.client = .joining ∧ final.commandQueue = [] ∧
            final.worker = .fronting (some 0)) = true :=
    exists_run_of_follow (clientGoesOn :: runRequest sleepRequest ++
      List.replicate 3 (workerGoesOn 0) ++ .close :: List.replicate 5 clientGoesOn ++
      [.worker (.polls []), workerGoesOn 0, workerGoesOn 0]) (by decide +kernel)
  rcases reached with ⟨popping, run, passed⟩
  rw [decide_eq_true_eq] at passed
  rcases exists_run_of_follow [workerGoesOn 0] passed.2 with ⟨final, rest, ended⟩
  simp only [decide_eq_true_eq] at ended
  simp only at run rest
  exact ⟨popping, final, run, passed.1, rest, ended.1, ended.2.1, .inl ⟨_, ended.2.2⟩⟩

end OsConfig.CommandRunner
