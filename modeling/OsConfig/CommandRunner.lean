import OsConfig.CommandRunner.Command

/-!
# The command runner

A `CommandRunner` keeps commands in a cache, oldest last, and in a map from
identifiers, and passes them to its worker through a queue of weak pointers.
Two threads take steps: the client, which constructs the runner, calls `Set` and
destroys the runner, and the worker. A step is a stretch of code that the other
thread cannot tell apart, in most places what is done under one mutex. The clock
may show any time at any step.

Command objects live as long as the cache, the map, the worker or the call at
hand points to them, and the destructor of a command removes its flag file. The
text of the persisted cache is read when the runner starts. What is written to
it later is not modelled, only whether writing it succeeded.
-/

namespace OsConfig.CommandRunner

/-- What the runner is started with and takes from the libraries: the parsers of
`nlohmann::json`, and the numbers that `rand` returns after a call of `srand`. -/
structure Environment where
  parse : ByteString → Option Json
  parseStream : ByteString → Option Json
  clientName : ByteString
  usePersistedCache : Bool
  tmpDir : ByteString
  pid : ℕ
  rand : BitVec 32 → ℕ → ℕ

/-- The name that a command constructed at the given time gets for its flag file. -/
def Environment.flagAt (env : Environment) (time : ℕ) : ByteString :=
  flagName env.tmpDir (env.rand (seed time env.pid))

/-- The address of a command object. Objects are numbered in the order of construction. -/
abbrev Ref := ℕ

instance : LawfulBEq (Option Ref) :=
  inferInstance

/-- What the worker does next, and the command it points to. -/
inductive Worker where
  | notStarted
  | fronting (previous : Option Ref)
  | taken (command : Ref)
  | cleared (command : Ref)
  | executing (command : Ref)
  | returned (command : Ref) (exitCode : ℤ) (textResult : ByteString)
  | executed (command : Ref)
  | popping (command : Ref)
  | exited
  deriving DecidableEq

namespace Worker

/-- The command that the variable of `WorkerThread` points to. -/
def command : Worker → Option Ref
  | .fronting previous => previous
  | .taken ref | .cleared ref | .executing ref | .returned ref _ _ | .executed ref
  | .popping ref => some ref
  | .notStarted | .exited => none

/-- The command between `Front` and `Pop`. -/
def current : Worker → Option Ref
  | .taken ref | .cleared ref | .executing ref | .returned ref _ _ | .executed ref
  | .popping ref => some ref
  | .notStarted | .fronting _ | .exited => none

end Worker

/-- From where `CacheCommand` is called: `LoadPersistedCommandStatus` with the statuses that are
left, or `ScheduleCommand`. -/
inductive Caller where
  | load (statuses : List Status) (failed : Bool)
  | schedule
  deriving DecidableEq

/-- What the client does next. -/
inductive Client where
  | loading (statuses : List Status) (failed : Bool)
  | idle
  | dispatching (payloadHash : BitVec 64) (arguments : Arguments)
  | persisting (command : Ref)
  | evicting (caller : Caller) (command : Ref)
  | pushing (command : Ref)
  | closing
  | popping
  | popped (element : Option Ref)
  | pushingSentinel
  | joining
  | closed
  deriving DecidableEq

/-- The command that the call at hand points to. -/
def Client.command : Client → Option Ref
  | .persisting ref | .evicting _ ref | .pushing ref => some ref
  | _ => none

/-- What is recorded of a run. -/
inductive Event where
  | cancel (id : ByteString) (command : Ref) (state : State) (status : ℤ)
  | started (command : Ref)
  | finished (command : Ref) (state : State)
  deriving DecidableEq

structure Runner where
  clock : ℕ
  files : List ByteString
  object : Ref → Command
  next : Ref
  cacheBuffer : List Ref
  commandMap : Std.ExtTreeMap ByteString Ref
  commandQueue : List (Option Ref)
  commandIdLoadedFromDisk : ByteString
  lastPayloadHash : BitVec 64
  reportedStatusId : ByteString
  status : ℤ
  worker : Worker
  client : Client
  history : List Event

def maxCacheSize : ℕ := 10

def einval : ℤ := 22

namespace Runner

def goTo (state : Runner) (client : Client) : Runner :=
  { state with client }

/-- The end of a call of `Set`. -/
def reply (state : Runner) (status : ℤ) : Runner :=
  { state with client := .idle, status }

section Objects

def idOf (state : Runner) (ref : Ref) : ByteString :=
  (state.object ref).id

def isComplete (state : Runner) (ref : Ref) : Bool :=
  (state.object ref).isComplete

/-- `IsCanceled`: the flag file exists. -/
def isCanceled (state : Runner) (ref : Ref) : Bool :=
  (state.object ref).tmpFile ∈ state.files

/-- Whether a shared pointer to the object is left. The map has commands under their own
identifiers. -/
def alive (state : Runner) (ref : Ref) : Bool :=
  ref ∈ state.cacheBuffer || state.commandMap[state.idOf ref]? = some ref ||
    state.worker.command = some ref || state.client.command = some ref

/-- `remove`. -/
def removeFile (state : Runner) (name : ByteString) : Runner :=
  { state with files := state.files.filter (· ≠ name) }

/-- A shared pointer is gone. The last one takes the object with it, and the object its file. -/
def release (state : Runner) (ref : Ref) : Runner :=
  { state with
    files := if state.alive ref then state.files
      else (state.removeFile (state.object ref).tmpFile).files }

def releaseAny (state : Runner) : Option Ref → Runner
  | some ref => state.release ref
  | none => state

/-- `std::make_shared` of a command, at the next address. -/
def construct (env : Environment) (state : Runner) (kind : Kind) (arguments : ByteString)
    (timeout : BitVec 32) (replaceEol : Bool) (status : Status) : Runner :=
  { state with
    object := Function.update state.object state.next
      { kind, arguments, timeout, replaceEol, status, tmpFile := env.flagAt state.clock }
    next := state.next + 1 }

/-- `SetStatus` on an object. -/
def setStatus (state : Runner) (ref : Ref) (exitCode : ℤ) (textResult : ByteString)
    (newState : State) : Runner :=
  { state with
    object := Function.update state.object ref
      ((state.object ref).setStatus exitCode textResult newState) }

/-- `Command::Cancel`, with what it returns. Whether the file was created is not looked at. -/
def cancelCommand (created : Bool) (ref : Ref) (state : Runner) : ℤ × Runner :=
  if (state.object ref).status.state ≠ .canceled ∧ ¬ state.isCanceled ref then
    (0, { state with
      files := if created then (state.object ref).tmpFile :: state.files else state.files })
  else (ecanceled, state)

end Objects

section Cache

/-- `CacheCommand` did not take the command. -/
def refuse (caller : Caller) (ref : Ref) (state : Runner) : Runner :=
  match caller with
  | .load statuses _ => (state.goTo (.loading statuses true)).release ref
  | .schedule => (state.reply einval).release ref

/-- `CacheCommand` up to its loop. -/
def cacheCommand (caller : Caller) (ref : Ref) (state : Runner) : Runner :=
  let id := state.idOf ref
  if id ≠ [] then
    if id ∉ state.commandMap then
      { state with
        commandMap := state.commandMap.insert id ref
        cacheBuffer := ref :: state.cacheBuffer
        reportedStatusId := id
        client := .evicting caller ref }
    else state.refuse caller ref
  else state.refuse caller ref

/-- The oldest command leaves the cache, and whatever the map has for its identifier. -/
def evictOldest (oldest : Ref) (state : Runner) : Runner :=
  let id := state.idOf oldest
  let erased := { state with
    cacheBuffer := state.cacheBuffer.dropLast
    commandMap := state.commandMap.erase id }
  (erased.release oldest).releaseAny state.commandMap[id]?

/-- One round of the loop in `CacheCommand`. It does nothing while the oldest command is not
complete. -/
def evict (caller : Caller) (ref : Ref) (state : Runner) : Runner :=
  if maxCacheSize < state.cacheBuffer.length then
    match state.cacheBuffer.getLast? with
    | some oldest => if state.isComplete oldest then state.evictOldest oldest else state
    | none => state
  else
    match caller with
    | .load statuses failed => (state.goTo (.loading statuses failed)).release ref
    | .schedule => state.goTo (.pushing ref)

end Cache

section Requests

/-- `Run`, `Reboot` and `Shutdown`: a new command, and `ScheduleCommand` up to
`PersistCommandStatus`. -/
def schedule (env : Environment) (kind : Kind) (id arguments : ByteString) (timeout : BitVec 32)
    (replaceEol : Bool) (state : Runner) : Runner :=
  let ref := state.next
  let state := state.construct env kind arguments timeout replaceEol ⟨id, 0, [], .unknown⟩
  match state.commandMap[id]? with
  | some cached =>
      if (state.object cached).same (state.object ref) then (state.reply 0).release ref
      else (state.reply einval).release ref
  | none => state.goTo (.persisting ref)

def cancel (created : Bool) (id : ByteString) (state : Runner) : Runner :=
  match state.commandMap[id]? with
  | some ref =>
      let (status, canceled) := state.cancelCommand created ref
      { canceled with
        history := .cancel id ref (state.object ref).status.state status :: canceled.history
      }.reply status
  | none => state.reply einval

def refresh (id : ByteString) (state : Runner) : Runner :=
  if id ∈ state.commandMap then { state with reportedStatusId := id }.reply 0
  else state.reply einval

/-- The part of `Set` after the loaded command has been updated. -/
def dispatch (env : Environment) (created : Bool) (payloadHash : BitVec 64)
    (arguments : Arguments) (state : Runner) : Runner :=
  if state.lastPayloadHash ≠ payloadHash then
    let state := { state with lastPayloadHash := payloadHash }
    match arguments.action with
    | .runCommand =>
        state.schedule env .command arguments.id arguments.arguments arguments.timeout
          arguments.singleLineTextResult
    | .reboot => state.schedule env .shutdownCommand arguments.id (bytes "shutdown -r now") 0 false
    | .shutdown => state.schedule env .shutdownCommand arguments.id (bytes "shutdown now") 0 false
    | .cancelCommand => state.cancel created arguments.id
    | .refreshCommandStatus => state.refresh arguments.id
    | .none => state.reply 0
    | .other _ => state.reply einval
  else state.reply 0

/-- The command that `Set` replaces in the map by one with a complete payload. -/
def partialCommand (env : Environment) (id : ByteString) (state : Runner) : Option Ref :=
  if env.usePersistedCache then
    state.commandMap[id]?.filter fun ref => state.idOf ref = state.commandIdLoadedFromDisk
  else none

/-- The update of the command loaded from disk. The cache keeps the partial one. -/
def updateLoaded (env : Environment) (arguments : Arguments) (state : Runner) : Runner :=
  match state.partialCommand env arguments.id with
  | some loaded =>
      let ref := state.next
      let status := { (state.object loaded).status with id := arguments.id }
      let state := state.construct env .command arguments.arguments arguments.timeout
        arguments.singleLineTextResult status
      { state with commandMap := state.commandMap.insert arguments.id ref }.release loaded
  | none => state

/-- `Set` up to the update of the command loaded from disk. -/
def set (env : Environment) (componentName objectName payload : ByteString) (state : Runner) :
    Runner :=
  match env.parse payload with
  | none => state.reply einval
  | some document =>
      if componentName = bytes "CommandRunner" then
        if objectName = bytes "commandArguments" then
          let arguments := Arguments.deserialize document
          (state.updateLoaded env arguments).goTo (.dispatching (hashString payload) arguments)
        else state.reply einval
      else state.reply einval

/-- The status that `Get` reports. -/
def getReportedStatus (state : Runner) : Status :=
  match state.commandMap[state.reportedStatusId]? with
  | some ref => (state.object ref).status
  | none => ⟨[], 0, [], .unknown⟩

end Requests

section Threads

/-- What decides a step of the client from outside: the status of `PersistCommandStatus`, and
whether a flag file could be created. -/
structure Input where
  persisted : ℤ
  created : Bool

/-- A step of `LoadPersistedCommandStatus`, and of the constructor after it. -/
def load (env : Environment) (statuses : List Status) (failed : Bool) (state : Runner) : Runner :=
  match statuses with
  | [] =>
      { state with
        commandIdLoadedFromDisk := if failed then [] else state.commandMap.keys.getLast?.getD []
        worker := .fronting none
        client := .idle }
  | status :: rest =>
      (state.construct env .command [] 0 true status).cacheCommand (.load rest failed) state.next

/-- The next step of the client. It waits in `Pop` while the queue is empty, and in `join`. -/
def clientStep (env : Environment) (input : Input) (state : Runner) : Option Runner :=
  match state.client with
  | .loading statuses failed => some (state.load env statuses failed)
  | .idle => none
  | .dispatching payloadHash arguments =>
      some (state.dispatch env input.created payloadHash arguments)
  | .persisting ref =>
      if ¬ env.usePersistedCache ∨ input.persisted = 0 then
        some (state.cacheCommand .schedule ref)
      else some ((state.reply input.persisted).release ref)
  | .evicting caller ref => some (state.evict caller ref)
  | .pushing ref =>
      some ({ state with commandQueue := state.commandQueue ++ [some ref] }.reply 0 |>.release ref)
  | .closing => some (state.goTo (if state.commandQueue = [] then .pushingSentinel else .popping))
  | .popping =>
      match state.commandQueue with
      | [] => none
      | element :: rest => some { state with commandQueue := rest, client := .popped element }
  | .popped element =>
      match element.filter state.alive with
      | some ref => some ((state.cancelCommand input.created ref).2.goTo .closing |>.release ref)
      | none => some (state.goTo .closing)
  | .pushingSentinel =>
      some { state with commandQueue := state.commandQueue ++ [none], client := .joining }
  | .joining =>
      match state.worker with
      | .exited => some (state.goTo .closed)
      | _ => none
  | .closed => none

/-- What `ExecuteCommand` does next: it returns, or calls the callback, which looks for the
flag file. A call that does not find the file has no effect. -/
inductive Outcome where
  | exits (exitCode : ℤ) (textResult : ByteString)
  | polls (textResult : ByteString)

/-- `Execute` returns. -/
def finish (ref : Ref) (state : Runner) : Runner :=
  { state with
    worker := .executed ref
    history := .finished ref (state.object ref).status.state :: state.history }

/-- The next step of the worker. It waits in `Front` and in `Pop` while the queue is empty. -/
def workerStep (outcome : Outcome) (state : Runner) : Option Runner :=
  match state.worker with
  | .notStarted => none
  | .fronting previous =>
      match state.commandQueue with
      | [] => none
      | element :: _ =>
          match element.filter state.alive with
          | some ref => some ({ state with worker := .taken ref }.releaseAny previous)
          | none => some ({ state with worker := .exited }.releaseAny previous)
  | .taken ref =>
      if state.isCanceled ref then
        match (state.object ref).kind with
        | .command => some ((state.setStatus ref ecanceled [] .canceled).finish ref)
        | .shutdownCommand => some (state.finish ref)
      else some { state with worker := .cleared ref, history := .started ref :: state.history }
  | .cleared ref =>
      let newState := match (state.object ref).kind with
        | .command => State.running
        | .shutdownCommand => State.succeeded
      some { state.setStatus ref 0 [] newState with worker := .executing ref }
  | .executing ref =>
      match outcome with
      | .exits exitCode textResult =>
          some { state with worker := .returned ref exitCode textResult }
      | .polls textResult =>
          if (state.object ref).kind = .command ∧ state.isCanceled ref then
            some { state.removeFile (state.object ref).tmpFile with
              worker := .returned ref ecanceled textResult }
          else none
  | .returned ref exitCode textResult =>
      match (state.object ref).kind with
      | .command =>
          some ((state.setStatus ref exitCode textResult (.ofExitCode exitCode)).finish ref)
      | .shutdownCommand => some (state.finish ref)
  | .executed ref => some { state with worker := .popping ref }
  | .popping ref =>
      match state.commandQueue with
      | [] => none
      | _ :: rest => some { state with commandQueue := rest, worker := .fronting (some ref) }
  | .exited => none

end Threads

end Runner

/-- The moves of a run: the clock shows another time, the client starts to call `Set` or the
destructor, or a thread takes its next step. -/
inductive Move where
  | tick (time : ℕ)
  | set (componentName objectName payload : ByteString)
  | close
  | client (input : Runner.Input)
  | worker (outcome : Runner.Outcome)

def step (env : Environment) (state : Runner) : Move → Option Runner
  | .tick time => some { state with clock := time }
  | .set componentName objectName payload =>
      match state.client with
      | .idle => some (state.set env componentName objectName payload)
      | _ => none
  | .close =>
      match state.client with
      | .idle => some (state.goTo .closing)
      | _ => none
  | .client input => state.clientStep env input
  | .worker outcome => state.workerStep outcome

/-- What `LoadPersistedCommandStatus` reads from the cache file, and whether it failed. -/
def persistedStatuses (env : Environment) (file : Option ByteString) : List Status × Bool :=
  if env.usePersistedCache then
    match file with
    | none => ([], false)
    | some text =>
        match env.parseStream text with
        | none => ([], true)
        | some document =>
            if document.isObject then
              match document.find env.clientName with
              | some (.array values) => (values.map Status.deserialize, false)
              | _ => ([], false)
            else ([], true)
  else ([], false)

/-- The constructor is called, at some time and with some flag files left by other processes. -/
def start (env : Environment) (clock : ℕ) (files : List ByteString) (file : Option ByteString) :
    Runner where
  clock := clock
  files := files
  object := fun _ => ⟨.command, [], 0, false, ⟨[], 0, [], .unknown⟩, []⟩
  next := 0
  cacheBuffer := []
  commandMap := ∅
  commandQueue := []
  commandIdLoadedFromDisk := []
  lastPayloadHash := 0
  reportedStatusId := []
  status := 0
  worker := .notStarted
  client := .loading (persistedStatuses env file).1 (persistedStatuses env file).2
  history := []

section Samples

/-- A request as it is sent, and the document it is parsed to. -/
def request (id arguments : String) (action : ℕ) : ByteString × Json :=
  (bytes ("\x7b\"commandId\":\"" ++ id ++ "\",\"arguments\":\"" ++ arguments ++ "\",\"action\":") ++
      toDecimal action ++ bytes "\x7d",
    .object [(bytes "commandId", .string (bytes id)), (bytes "arguments", .string (bytes arguments)),
      (bytes "action", .unsigned (BitVec.ofNat 64 action))])

/-- A machine on which the given texts are read, with the generator that POSIX shows as an
example of `rand`. -/
def sampleEnvironment (documents : List (ByteString × Json)) : Environment where
  parse := fun text => documents.lookup text
  parseStream := fun text => documents.lookup text
  clientName := bytes "client"
  usePersistedCache := true
  tmpDir := bytes "/tmp"
  pid := 1000
  rand := fun seed i =>
    (Nat.iterate (fun next : BitVec 32 => next * 1103515245 + 12345) (i + 1) seed).toNat / 65536 %
      32768

/-- The call of `Set` with a request. -/
def send (request : ByteString × Json) : Move :=
  .set (bytes "CommandRunner") (bytes "commandArguments") request.1

/-- A step of the client, in which files can be written. -/
def clientGoesOn : Move := .client ⟨0, true⟩

/-- A step of the worker, in which a process ends with the given code. -/
def workerGoesOn (exitCode : ℤ) : Move := .worker (.exits exitCode [])

/-- All steps of a `RunCommand` request: the call, the dispatch, `PersistCommandStatus` with
`CacheCommand`, the end of its loop and `Push`. -/
def runRequest (request : ByteString × Json) : List Move :=
  send request :: List.replicate 4 clientGoesOn

end Samples

end OsConfig.CommandRunner
