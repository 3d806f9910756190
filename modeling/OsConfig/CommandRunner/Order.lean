import OsConfig.CommandRunner.Cancellation
import OsConfig.CommandRunner.Reported

/-!
# The order of execution

The worker takes commands from the front of the queue, and the client pushes them
behind the others. The commands that have been executed, followed by those that
wait in the queue, are a list that only grows at its end. In every session it is
in the order in which the commands were constructed: none is executed twice or
before an earlier one, and none that was pushed is lost.
-/

namespace OsConfig.CommandRunner

open Transitions

variable {env : Environment} {state state' : Runner} {ref : Ref}

def Event.executed : Event → Option Ref
  | .finished ref _ => some ref
  | _ => none

/-- The commands in the queue that are still to be executed. The worker leaves a command at the
front until it has persisted its status. -/
def Runner.pending (state : Runner) : List Ref :=
  (if state.worker.done.isSome then state.commandQueue.tail
    else state.commandQueue).reduceOption

/-- The commands that have been executed and those that are to be, in turn. -/
def Runner.timeline (state : Runner) : List Ref :=
  (state.history.filterMap Event.executed).reverse ++ state.pending

theorem Runner.timeline_eq (executed :
      state'.history.filterMap Event.executed = state.history.filterMap Event.executed)
    (done : state'.worker.done = state.worker.done)
    (queue : state'.commandQueue = state.commandQueue) : state'.timeline = state.timeline := by
  rw [timeline, timeline, pending, pending, executed, done, queue]

namespace Session

/-- Execution moves the first waiting command behind those that were executed. -/
theorem workerStep_timeline (session : Session state) {outcome : Runner.Outcome}
    (taken : state.workerStep outcome = some state') : state'.timeline = state.timeline := by
  have finishes (ref : Ref) (current : state.worker.current = some ref)
      (undone : state.worker.done = none) (last : State) (worker : state'.worker = .executed ref)
      (queue : state'.commandQueue = state.commandQueue)
      (history : state'.history = .finished ref last :: state.history) :
      state'.timeline = state.timeline := by
    rcases List.head?_eq_some_iff.mp (session.front ref current) with ⟨rest, queue_eq⟩
    rw [Runner.timeline, Runner.timeline, Runner.pending, Runner.pending, undone, worker, queue,
      history, queue_eq]
    simp [Worker.done, Event.executed]
  cases Runner.worked taken with
  | fronts position | exits position =>
      rw [Runner.releaseAny_eq]
      exact Runner.timeline_eq rfl (by rw [position]; rfl) rfl
  | pops position queue => simp [Runner.timeline, Runner.pending, position, queue, Worker.done]
  | starts position | executes position | returns position | aborts position
  | persists position => exact Runner.timeline_eq rfl (by rw [position]; rfl) rfl
  | cancels position | skips position | finishes position | shuts position =>
      apply finishes _ (congrArg Worker.current position) (congrArg Worker.done position) _ rfl rfl
      rfl

/-- The client leaves the commands as they are or adds the one that it pushes. -/
theorem clientStep_timeline (session : Session state) {input : Runner.Input}
    (taken : state.clientStep env input = some state') :
    state'.timeline = state.timeline ∨ ∃ ref, state.client = .pushing ref ∧
      state'.client.scheduled = none ∧ state'.timeline = state.timeline ++ [ref] := by
  have executed :
      state'.history.filterMap Event.executed = state.history.filterMap Event.executed := by
    rcases Runner.clientStep_history taken with same | ⟨payloadHash, arguments, -, -, -, rfl⟩
    · rw [same]
    · rcases Runner.cancel_history input.created arguments.id
        { state with lastPayloadHash := payloadHash } with same | ⟨ref, before, status, added⟩
      · rw [same]
      · rw [added]
        rfl
  rcases Runner.clientStep_cases session.serving taken with
    ⟨failed, loading⟩ | ⟨ref, pushing, queue, worker⟩ | extended
  · have empty := session.constructing (by rw [loading]; rfl)
    rw [Runner.clientStep, loading] at taken
    cases taken
    left
    simp [Runner.timeline, Runner.pending, Runner.load, empty]
  · have unscheduled : state'.client.scheduled = none := by
      rw [Runner.clientStep, pushing] at taken
      cases taken
      rfl
    refine .inr ⟨ref, pushing, unscheduled, ?_⟩
    rw [Runner.timeline, Runner.timeline, executed, Runner.pending, Runner.pending, worker, queue]
    cases done : state.worker.done with
    | none => simp [List.reduceOption_append]
    | some other =>
        rcases List.head?_eq_some_iff.mp (session.front other (Worker.current_of_done done)) with
          ⟨rest, queue_eq⟩
        simp [queue_eq, List.reduceOption_append]
  · exact .inl (Runner.timeline_eq executed (congrArg Worker.done extended.worker)
      extended.commandQueue)

theorem timeline_of_step (session : Session state) {move : Move} (met : inSession move)
    (taken : step env state move = some state') :
    state'.timeline = state.timeline ∨ ∃ ref, state.client = .pushing ref ∧
      state'.client.scheduled = none ∧ state'.timeline = state.timeline ++ [ref] := by
  cases move with
  | tick time =>
      cases taken
      exact .inl rfl
  | set componentName objectName payload =>
      rcases step_set taken with ⟨idle, rfl⟩
      have extended : state.Extends (state.set env componentName objectName payload) :=
        .set componentName objectName payload state
      exact .inl (Runner.timeline_eq (by rw [Runner.set_history])
        (congrArg Worker.done extended.worker) extended.commandQueue)
  | close => cases met
  | worker outcome => exact .inl (session.workerStep_timeline taken)
  | client input => exact session.clientStep_timeline taken

theorem lt_of_mem_timeline (session : Session state) (mem : ref ∈ state.timeline) :
    ref < state.next := by
  rw [Runner.timeline, List.mem_append, List.mem_reverse, List.mem_filterMap] at mem
  rcases mem with ⟨event, recorded, executed⟩ | waiting
  · cases event with
    | finished other last =>
        cases executed
        exact (session.finished ref last recorded).1
    | _ => cases executed
  · rw [Runner.pending, List.reduceOption_mem_iff] at waiting
    split at waiting
    · exact (session.queued ref (List.mem_of_mem_tail waiting)).1
    · exact (session.queued ref waiting).1

end Session

/-- The commands follow each other as they were constructed, and the one that `Set` is about to
push comes last. -/
structure Ordered (state : Runner) : Prop where
  session : Session state
  increasing : state.timeline.Pairwise (· < ·)
  scheduled : ∀ ref, state.client.scheduled = some ref → ∀ other ∈ state.timeline, other < ref

theorem Ordered.step (ordered : Ordered state) {move : Move} (met : inSession move)
    (taken : step env state move = some state') : Ordered state' := by
  have session := ordered.session
  have session' : Session state' := Session.keeps state state' session ⟨move, met, taken⟩
  have scheduled (unpushed : state'.timeline = state.timeline) :
      ∀ ref, state'.client.scheduled = some ref → ∀ other ∈ state'.timeline, other < ref := by
    intro ref scheduled_eq other mem
    rw [unpushed] at mem
    rcases lt_or_ge ref state.next with below | new
    · exact ordered.scheduled ref (session.scheduled_of_step met taken below scheduled_eq) other mem
    · exact (session.lt_of_mem_timeline mem).trans_le new
  rcases session.timeline_of_step met taken with
    same | ⟨pushed, pushing, unscheduled, added⟩
  · refine ⟨session', ?_, scheduled same⟩
    rw [same]
    exact ordered.increasing
  · have before : state.client.scheduled = some pushed := by
      rw [pushing]
      rfl
    refine ⟨session', ?_, ?_⟩
    · rw [added, List.pairwise_append]
      refine ⟨ordered.increasing, List.pairwise_singleton _ _, fun other mem last last_eq => ?_⟩
      rw [List.mem_singleton.mp last_eq]
      exact ordered.scheduled pushed before other mem
    · rw [unscheduled]
      rintro _ ⟨⟩

theorem Ordered.start (env : Environment) (clock : ℕ) (files : List ByteString)
    (file : Option ByteString) : Ordered (start env clock files file) where
  session := .start env clock files file
  increasing := List.Pairwise.nil
  scheduled := fun _ _ _ mem => absurd mem List.not_mem_nil

/-- The commands of a session that have been executed or wait in the queue are in the order of
their construction, each of them once, and keep their places for the rest of the session. -/
theorem executed_in_order {clock : ℕ} {files : List ByteString} {file : Option ByteString}
    (run : Run (Taken (step env) fun _ move => inSession move) (start env clock files file) state)
    (goesOn : Run (Taken (step env) fun _ move => inSession move) state state') :
    state'.timeline.Pairwise (· < ·) ∧ state.timeline <+: state'.timeline := by
  have keeps : Keeps (Taken (step env) fun _ move => inSession move) Ordered := by
    rintro _ _ ordered ⟨move, met, taken⟩
    exact ordered.step met taken
  have ordered := keeps.run (.start env clock files file) run
  refine ⟨(keeps.run ordered goesOn).increasing, ?_⟩
  have grows : Keeps (Taken (step env) fun _ move => inSession move) fun later =>
      Ordered later ∧ state.timeline <+: later.timeline := by
    rintro _ _ ⟨ordered, earlier⟩ ⟨move, met, taken⟩
    refine ⟨ordered.step met taken, ?_⟩
    rcases ordered.session.timeline_of_step met taken with same | ⟨ref, -, -, added⟩
    · rw [same]
      exact earlier
    · rw [added]
      exact earlier.trans (List.prefix_append _ _)
  exact (grows.run ⟨ordered, List.prefix_refl _⟩ goesOn).2

/-- The first of two commands is executed while the second one waits. -/
theorem executed_in_order_two_commands :
    ∃ state state' : Runner, state.commandQueue = [some 0, some 1] ∧
      state'.history.head? = some (.finished 0 .succeeded) ∧
      state'.timeline.Pairwise (· < ·) ∧ state.timeline <+: state'.timeline := by
  have reached : ∃ state,
      Run (Taken (step sleepEnvironment) fun _ move => inSession move)
        (start sleepEnvironment 0 [] none) state ∧
      decide (state.commandQueue = [some 0, some 1] ∧
        (follow (step sleepEnvironment) (fun _ move => inSession move) state
          (List.replicate 5 (workerGoesOn 0))).any
            fun state' => state'.history.head? = some (.finished 0 .succeeded)) = true :=
    exists_run_of_follow (clientGoesOn :: runRequest sleepRequest ++ runRequest echoRequest)
      (by decide +kernel)
  rcases reached with ⟨state, run, passed⟩
  rw [decide_eq_true_eq] at passed
  rcases exists_run_of_follow _ passed.2 with ⟨state', goesOn, finished⟩
  exact ⟨state, state', passed.1, by simpa using finished, executed_in_order run goesOn⟩

end OsConfig.CommandRunner
