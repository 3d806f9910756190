import OsConfig.CommandRunner.FlagFiles
import OsConfig.CommandRunner.PersistedCache
import OsConfig.CommandRunner.Repetition

/-!
# Calls under watch

A call of `Set` is followed from its first step on, with the cache file and with
what each of its own steps found and left. The worker and the clock may take
steps in between, and the worker may write the file as well; what they change is
not put down to the call.

Where `PersistCommandStatus` opens the file, whatever the file held before is
gone, and a text is left that nothing is known about. The text may be cut short
although `fputs` has not failed, since nobody looks at what `fflush` and
`fclose` return.
-/

namespace OsConfig.CommandRunner

open Transitions

section Writing

/-- What happens to the cache file in `PersistCommandStatus`: it cannot be opened, or it is opened
and left with a text, with an error of `fputs` or without one. -/
inductive Writing where
  | denied
  | broken (errno : ℤ) (text : ByteString)
  | written (text : ByteString)

def eacces : ℤ := 13

/-- What `PersistCommandStatus` returns. -/
def Writing.status : Writing → ℤ
  | .denied => eacces
  | .broken errno _ => if errno ≠ 0 then errno else einval
  | .written _ => 0

/-- The file after `PersistCommandStatus`. -/
def Writing.leave (file : Option ByteString) : Writing → Option ByteString
  | .denied => file
  | .broken _ text | .written text => some text

end Writing

section Watching

/-- What a call of `Set` may change. -/
structure Footprint where
  commandMap : Std.ExtTreeMap ByteString Ref
  cacheBuffer : List Ref
  commandQueue : List (Option Ref)
  reportedStatusId : ByteString
  file : Option ByteString

/-- A runner and the cache file, with what the steps of the call found and left, the last one
first. -/
structure Watched where
  runner : Runner
  file : Option ByteString
  changes : List (Footprint × Footprint)

def Watched.footprint (state : Watched) : Footprint where
  commandMap := state.runner.commandMap
  cacheBuffer := state.runner.cacheBuffer
  commandQueue := state.runner.commandQueue
  reportedStatusId := state.runner.reportedStatusId
  file := state.file

/-- The step is one of the thread that calls `Set`. -/
def Move.ofCaller : Move → Bool
  | .set _ _ _ | .client _ => true
  | _ => false

/-- The move with what `PersistCommandStatus` returns in it. -/
def Move.answered (status : ℤ) : Move → Move
  | .client input => .client { input with persisted := status }
  | move => move

/-- A step with what happens to the file if it is written. -/
def watchedStep (env : Environment) (state : Watched) (move : Move × Writing) : Option Watched :=
  (step env state.runner (move.1.answered move.2.status)).map fun runner =>
    let after : Watched :=
      { state with
        runner
        file := if (state.runner.persisted env move.1).isSome then move.2.leave state.file
          else state.file }
    if move.1.ofCaller then
      { after with changes := (state.footprint, after.footprint) :: state.changes }
    else after

variable (env : Environment) (componentName objectName payload : ByteString)

/-- A call of `Set`, from the state in which it is made to any state up to its return. -/
def Calls (runner : Runner) (file : Option ByteString) (reached : Watched) : Prop :=
  ∃ called, watchedStep env ⟨runner, file, []⟩ (.set componentName objectName payload, .denied) =
      some called ∧
    Run (Taken (watchedStep env) fun state _ => state.runner.calling) called reached

end Watching

section Interference

/-- A command as it was asked for. -/
def Command.request (command : Command) : ByteString × ByteString × BitVec 32 × Bool :=
  (command.id, command.arguments, command.timeout, command.replaceEol)

theorem Command.same_iff {command other : Command} :
    command.same other ↔ command.request = other.request := by
  simp [Command.same, Command.request, and_assoc]

variable {env : Environment} {state state' : Runner} {ref : Ref}

/-- The clock or the worker has taken a step. -/
structure Interferes (state state' : Runner) : Prop where
  client : state'.client = state.client
  status : state'.status = state.status
  lastPayloadHash : state'.lastPayloadHash = state.lastPayloadHash
  next : state'.next = state.next
  commandMap : state'.commandMap = state.commandMap
  request : ∀ ref, (state'.object ref).request = (state.object ref).request
  files : state'.files ⊆ state.files
  aside : ∀ ref, some ref ∉ state.commandQueue → state.worker.current ≠ some ref →
    some ref ∉ state'.commandQueue ∧ state'.worker.current ≠ some ref ∧
      state'.object ref = state.object ref

/-- The worker changes what is asked for in no command, and creates no file. -/
theorem Runner.workerStep_request {outcome : Runner.Outcome}
    (taken : state.workerStep outcome = some state') :
    (∀ ref, (state'.object ref).request = (state.object ref).request) ∧
      state'.files ⊆ state.files := by
  have set (ref other : Ref) (exitCode : ℤ) (textResult : ByteString) (newState : State) :
      ((state.setStatus ref exitCode textResult newState).object other).request =
        (state.object other).request := by
    by_cases equal : other = ref
    · simp only [equal, Runner.setStatus, Function.update_self]
      rfl
    · simp only [Runner.setStatus, Function.update_of_ne equal]
  have releases (worker : Worker) (previous : Option Ref) :
      ({ state with worker }.releaseAny previous).files ⊆ state.files := by
    cases previous with
    | none => exact List.Subset.refl _
    | some gone => exact Isolated.release_files_subset _ gone
  cases Runner.worked taken with
  | fronts | exits => exact ⟨fun _ => by rw [releaseAny_eq], releases _ _⟩
  | cancels | executes | finishes => exact ⟨fun other => set _ other _ _ _, List.Subset.refl _⟩
  | aborts => exact ⟨fun _ => rfl, List.filter_subset_self _⟩
  | _ => exact ⟨fun _ => rfl, List.Subset.refl _⟩

theorem Runner.workerStep_current {outcome : Runner.Outcome}
    (taken : state.workerStep outcome = some state') (unqueued : some ref ∉ state.commandQueue)
    (other : state.worker.current ≠ some ref) : state'.worker.current ≠ some ref := by
  rcases Runner.workerStep_cases taken with
    ⟨_, front, _, -, queue, worker, -⟩ | ⟨_, _, _, -, -, -, worker, -⟩ |
    ⟨current, before, after, -, -⟩ | ⟨_, _, -, -, worker⟩
  · rw [worker]
    rintro ⟨⟩
    rw [queue] at unqueued
    exact unqueued List.mem_cons_self
  · rw [worker]
    exact nofun
  · rw [after, ← before]
    exact other
  · rw [worker]
    exact nofun

theorem Interferes.worker {outcome : Runner.Outcome}
    (taken : state.workerStep outcome = some state') : Interferes state state' := by
  have works := Runner.Works.workerStep taken
  rcases Runner.workerStep_answers taken with ⟨-, last, status⟩
  rcases Runner.workerStep_request taken with ⟨request, files⟩
  exact
    { client := works.client
      status := status
      lastPayloadHash := last
      next := works.next
      commandMap := works.commandMap
      request := request
      files := files
      aside := fun ref unqueued other =>
        ⟨fun queued => unqueued ((Runner.workerStep_queue taken).subset queued),
          Runner.workerStep_current taken unqueued other, works.object ref other⟩ }

theorem Interferes.tick (state : Runner) (clock : ℕ) : Interferes state { state with clock } where
  client := rfl
  status := rfl
  lastPayloadHash := rfl
  next := rfl
  commandMap := rfl
  request := fun _ => rfl
  files := List.Subset.refl _
  aside := fun _ unqueued other => ⟨unqueued, other, rfl⟩

end Interference

section Scheduling

variable {env : Environment} {state : Runner} {kind : Kind} {id arguments : ByteString}
  {timeout : BitVec 32} {replaceEol : Bool}

/-- The identifiers of the map are not empty, and are those of its commands. -/
structure Mapped (state : Runner) : Prop where
  named : [] ∉ state.commandMap
  commands : ∀ (id : ByteString) ref, state.commandMap[id]? = some ref →
    ref < state.next ∧ (state.object ref).id = id

theorem Consistent.mapped_commands {notices : List Notice} (consistent : Consistent state notices) :
    Mapped state where
  named := by
    rw [consistent.keys, List.mem_map]
    rintro ⟨ref, buffered, empty⟩
    exact consistent.nonempty ref buffered empty
  commands := consistent.mapped

theorem Interferes.mapped {state' : Runner} (interferes : Interferes state state')
    (mapped : Mapped state) : Mapped state' where
  named := by
    rw [interferes.commandMap]
    exact mapped.named
  commands := by
    intro id ref found
    rw [interferes.commandMap] at found
    rcases mapped.commands id ref found with ⟨below, named⟩
    rw [interferes.next]
    exact ⟨below, (congrArg Prod.fst (interferes.request ref)).trans named⟩

theorem Runner.updateLoaded_commandMap {request : Arguments} {loaded : Ref}
    (found : state.partialCommand env request.id = some loaded) :
    (state.updateLoaded env request).commandMap = state.commandMap.insert request.id state.next := by
  simp only [Runner.updateLoaded, found]
  rfl

theorem Runner.updateLoaded_of_none {request : Arguments}
    (none_eq : state.partialCommand env request.id = none) :
    state.updateLoaded env request = state := by
  simp only [Runner.updateLoaded, none_eq]

theorem Runner.mapped_of_partialCommand {loaded : Ref}
    (found : state.partialCommand env id = some loaded) : state.commandMap[id]? = some loaded := by
  rw [Runner.partialCommand] at found
  split at found
  · exact (Option.filter_eq_some_iff.mp found).1
  · cases found

theorem Mapped.updateLoaded_ne (mapped : Mapped state) {request : Arguments} {loaded : Ref}
    (found : state.partialCommand env request.id = some loaded) :
    (state.updateLoaded env request).commandMap ≠ state.commandMap := by
  intro same
  have before := Runner.mapped_of_partialCommand found
  rw [← same, Runner.updateLoaded_commandMap found, Std.ExtTreeMap.getElem?_insert_self,
    Option.some.injEq] at before
  have below := (mapped.commands _ loaded (Runner.mapped_of_partialCommand found)).1
  exact absurd before (Nat.ne_of_gt below)

/-- The command that has the identifier already is compared with the new one. -/
theorem Runner.schedule_of_mapped {cached : Ref} (found : state.commandMap[id]? = some cached)
    (below : cached < state.next) :
    state.schedule env kind id arguments timeout replaceEol =
      ((state.construct env kind arguments timeout replaceEol ⟨id, 0, [], .unknown⟩).reply
        (if (state.object cached).request = (id, arguments, timeout, replaceEol) then 0
          else einval)).release state.next := by
  have found' : (state.construct env kind arguments timeout replaceEol
      ⟨id, 0, [], .unknown⟩).commandMap[id]? = some cached := found
  have object : (state.construct env kind arguments timeout replaceEol
      ⟨id, 0, [], .unknown⟩).object cached = state.object cached :=
    Function.update_of_ne (Nat.ne_of_lt below) _ _
  have constructed : ((state.construct env kind arguments timeout replaceEol
      ⟨id, 0, [], .unknown⟩).object state.next).request = (id, arguments, timeout, replaceEol) := by
    simp only [Runner.construct, Function.update_self]
    rfl
  simp only [Runner.schedule, found', object, Command.same_iff, constructed]
  split
  · rfl
  · rfl

theorem Runner.schedule_of_absent (absent : id ∉ state.commandMap) :
    state.schedule env kind id arguments timeout replaceEol =
      (state.construct env kind arguments timeout replaceEol ⟨id, 0, [], .unknown⟩).goTo
        (.persisting state.next) := by
  have none_eq : (state.construct env kind arguments timeout replaceEol
      ⟨id, 0, [], .unknown⟩).commandMap[id]? = none :=
    Std.ExtTreeMap.getElem?_eq_none absent
  simp only [Runner.schedule, none_eq]

/-- A new command goes on to the cache once it has been persisted. -/
theorem Runner.clientStep_persisted {ref : Ref} {input : Runner.Input}
    (client_eq : state.client = .persisting ref)
    (persisted : ¬ env.usePersistedCache ∨ input.persisted = 0) :
    state.clientStep env input = some (state.cacheCommand .schedule ref) := by
  rw [Runner.clientStep, client_eq]
  exact if_pos persisted

theorem Runner.clientStep_unpersisted {ref : Ref} {input : Runner.Input}
    (client_eq : state.client = .persisting ref) (persists : env.usePersistedCache)
    (failed : input.persisted ≠ 0) :
    state.clientStep env input = some ((state.reply input.persisted).release ref) := by
  rw [Runner.clientStep, client_eq]
  refine if_neg ?_
  rintro (unstored | written)
  · exact unstored persists
  · exact failed written

end Scheduling

section Calls

/-- The file after a step of the call. -/
def Watched.leave (env : Environment) (writing : Writing) (state : Watched) : Option ByteString :=
  match state.runner.client with
  | .persisting _ => if env.usePersistedCache then writing.leave state.file else state.file
  | _ => state.file

variable {env : Environment} {componentName objectName payload : ByteString} {runner : Runner}
  {file : Option ByteString} {state state' reached : Watched}

theorem Watched.leave_eq {input : Runner.Input} (writing : Writing) (state : Watched) :
    (if (state.runner.persisted env (.client input)).isSome then writing.leave state.file
      else state.file) = state.leave env writing := by
  by_cases persists : env.usePersistedCache
  · cases client_eq : state.runner.client with
    | persisting ref => simp [Watched.leave, Runner.persisted, client_eq, persists]
    | _ => simp [Watched.leave, Runner.persisted, client_eq]
  · cases client_eq : state.runner.client with
    | persisting ref => simp [Watched.leave, Runner.persisted, client_eq, persists]
    | _ => simp [Watched.leave, Runner.persisted, client_eq]

/-- A step while a call is at hand is one of the worker or the clock, or one of the call, which is
put down with what it found and left. -/
theorem watchedStep_cases {move : Move × Writing} (calling : state.runner.calling)
    (taken : watchedStep env state move = some state') :
    Interferes state.runner state'.runner ∧ state'.changes = state.changes ∨
      ∃ input, input.persisted = move.2.status ∧
        state.runner.clientStep env input = some state'.runner ∧
        state'.file = state.leave env move.2 ∧
        state'.changes = (state.footprint, state'.footprint) :: state.changes := by
  rcases move with ⟨move, writing⟩
  rcases Option.map_eq_some_iff.mp taken with ⟨next, stepped, rfl⟩
  cases move with
  | tick time =>
      cases stepped
      exact .inl ⟨.tick state.runner time, rfl⟩
  | set componentName objectName payload =>
      simp only [Move.answered, step] at stepped
      split at stepped
      · rename_i idle
        simp [Runner.calling, idle] at calling
      · cases stepped
  | close =>
      simp only [Move.answered, step] at stepped
      split at stepped
      · rename_i idle
        simp [Runner.calling, idle] at calling
      · cases stepped
  | worker outcome => exact .inl ⟨.worker stepped, rfl⟩
  | client input =>
      exact .inr ⟨{ input with persisted := writing.status }, rfl, stepped,
        Watched.leave_eq writing state, rfl⟩

theorem Calls.keeps {property : Watched → Prop}
    (calls : Calls env componentName objectName payload runner file reached)
    (begins : ∀ called, called.runner = runner.set env componentName objectName payload →
      called.file = file → runner.client = .idle →
      called.changes = [(Watched.footprint ⟨runner, file, []⟩, called.footprint)] →
      property called)
    (interferes : ∀ state state', property state → Interferes state.runner state'.runner →
      state'.changes = state.changes → property state')
    (goesOn : ∀ state state' (input : Runner.Input) (writing : Writing), property state →
      input.persisted = writing.status → state.runner.clientStep env input = some state'.runner →
      state'.file = state.leave env writing →
      state'.changes = (state.footprint, state'.footprint) :: state.changes → property state') :
    property reached := by
  rcases calls with ⟨called, first, run⟩
  have keeps : Keeps (Taken (watchedStep env) fun state _ => state.runner.calling) property := by
    rintro state state' holds ⟨move, calling, taken⟩
    rcases watchedStep_cases calling taken with
      ⟨other, same⟩ | ⟨input, answered, stepped, file, changes⟩
    · exact interferes state state' holds other same
    · exact goesOn state state' input move.2 holds answered stepped file changes
  refine keeps.run ?_ run
  rcases Option.map_eq_some_iff.mp first with ⟨next, stepped, rfl⟩
  simp only [Move.answered, step] at stepped
  split at stepped
  · rename_i idle
    cases stepped
    refine begins _ rfl ?_ idle rfl
    simp [Move.ofCaller, Runner.persisted]
  · cases stepped

/-- The first step of a call. -/
theorem Calls.begin (idle : runner.client = .idle) :
    ∃ called, Calls env componentName objectName payload runner file called ∧
      called.runner = runner.set env componentName objectName payload ∧ called.file = file ∧
      called.changes = [(Watched.footprint ⟨runner, file, []⟩, called.footprint)] := by
  have stepped : step env runner (.set componentName objectName payload) =
      some (runner.set env componentName objectName payload) := by
    simp only [step, idle]
  refine ⟨_, ⟨_, Option.map_eq_some_iff.mpr ⟨_, stepped, rfl⟩, .refl⟩, rfl, ?_, rfl⟩
  simp [Move.ofCaller, Runner.persisted]

theorem Calls.next (calls : Calls env componentName objectName payload runner file reached)
    (calling : reached.runner.calling) (writing : Writing) (created : Bool) {next : Runner}
    (stepped : reached.runner.clientStep env ⟨writing.status, created⟩ = some next) :
    ∃ final, Calls env componentName objectName payload runner file final ∧
      final.runner = next ∧
      final.file = reached.leave env writing ∧
      final.changes = (reached.footprint, final.footprint) :: reached.changes := by
  rcases calls with ⟨called, first, run⟩
  have taken : watchedStep env reached (.client ⟨0, created⟩, writing) = some _ :=
    Option.map_eq_some_iff.mpr ⟨next, stepped, rfl⟩
  exact ⟨_, ⟨called, first, run.tail ⟨_, calling, taken⟩⟩, rfl, Watched.leave_eq writing reached,
    rfl⟩

theorem Calls.dispatched {arguments : Arguments} (idle : runner.client = .idle)
    (some_eq : requested env componentName objectName payload = some arguments) :
    ∃ called reached, Calls env componentName objectName payload runner file called ∧
      Calls env componentName objectName payload runner file reached ∧
      called.runner = (runner.updateLoaded env arguments).goTo
        (.dispatching (hashString payload) arguments) ∧
      reached.runner = called.runner.dispatch env true (hashString payload) arguments ∧
      called.file = file ∧ reached.file = file ∧
      called.changes = [(Watched.footprint ⟨runner, file, []⟩, called.footprint)] ∧
      reached.changes = (called.footprint, reached.footprint) :: called.changes := by
  rcases Calls.begin idle with ⟨called, calls, runner_eq, file_eq, changes⟩
  rw [Runner.set_eq_goTo some_eq] at runner_eq
  have client_eq : called.runner.client = .dispatching (hashString payload) arguments := by
    rw [runner_eq]
    rfl
  have stepped : called.runner.clientStep env ⟨Writing.denied.status, true⟩ =
      some (called.runner.dispatch env true (hashString payload) arguments) := by
    rw [Runner.clientStep, client_eq]
  rcases calls.next (by simp [Runner.calling, client_eq]) .denied true stepped with
    ⟨reached, later, runner_eq', file_eq', changes'⟩
  rw [Watched.leave, client_eq] at file_eq'
  exact ⟨called, reached, calls, later, runner_eq, runner_eq', file_eq, file_eq'.trans file_eq,
    changes, changes'⟩

theorem Calls.exists_of_follow {test : Watched → Bool} (moves : List (Move × Writing))
    (passes : ((watchedStep env ⟨runner, file, []⟩
        (.set componentName objectName payload, .denied)).bind fun called =>
      follow (watchedStep env) (fun state _ => state.runner.calling) called moves).any test) :
    ∃ reached, Calls env componentName objectName payload runner file reached ∧ test reached := by
  rw [Option.any_eq_true] at passes
  rcases passes with ⟨reached, follows, passed⟩
  rcases Option.bind_eq_some_iff.mp follows with ⟨called, begins, rest⟩
  exact ⟨reached, ⟨called, begins, run_of_follow rest⟩, passed⟩

end Calls

end OsConfig.CommandRunner
