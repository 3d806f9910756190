import OsConfig.CommandRunner.Cache

/-!
# Repeated requests

`Set` remembers the hash of a payload before it does what the payload asks for,
and answers the payload whose hash it remembers with success. So a request that
has failed is answered with success when it is made again, although nothing is
done. The same holds of another payload with the same hash.
-/

namespace OsConfig.CommandRunner

open Transitions

variable {env : Environment} {state state' : Runner} {ref : Ref}

section Calls

/-- The request that a call of `Set` makes, if its payload is read and its names are right. -/
def requested (env : Environment) (componentName objectName payload : ByteString) :
    Option Arguments :=
  match env.parse payload with
  | none => none
  | some document =>
      if componentName = bytes "CommandRunner" ∧ objectName = bytes "commandArguments" then
        some (Arguments.deserialize document)
      else none

/-- A call is at hand. -/
def Runner.calling (state : Runner) : Bool :=
  state.client ≠ .idle

/-- A call of `Set`, from the state in which it is made to the state in which it returns. Between
the two the other thread takes steps as well, and files are written or not. -/
def Returns (env : Environment) (componentName objectName payload : ByteString)
    (state final : Runner) : Prop :=
  ∃ called, step env state (.set componentName objectName payload) = some called ∧
    Run (Taken (step env) fun state _ => state.calling) called final ∧ final.client = .idle

def betweenCalls : Move → Bool
  | .tick _ | .worker _ => true
  | _ => false

/-- What a call did that performed the request: a new command is cached and queued, a command was
cancelled, or a cached command is going to be reported. -/
def Performed (arguments : Arguments) (state final : Runner) : Prop :=
  match arguments.action with
  | .runCommand | .reboot | .shutdown =>
      ∃ ref, state.next ≤ ref ∧ final.idOf ref = arguments.id ∧ ref ∈ final.cacheBuffer ∧
        some ref ∈ final.commandQueue
  | .cancelCommand =>
      ∃ ref was later, .cancel arguments.id ref was 0 :: later ++ state.history <:+ final.history
  | .refreshCommandStatus =>
      arguments.id ∈ final.commandMap ∧ final.reportedStatusId = arguments.id
  | .none | .other _ => False

variable {componentName objectName payload : ByteString} {arguments : Arguments}

theorem exists_of_requested {componentName objectName payload : ByteString} {arguments : Arguments}
    (some_eq : requested env componentName objectName payload = some arguments) :
    ∃ document, arguments = Arguments.deserialize document := by
  simp only [requested] at some_eq
  split at some_eq
  · cases some_eq
  · rename_i document parsed
    split at some_eq
    · cases some_eq
      exact ⟨document, rfl⟩
    · cases some_eq

theorem Runner.set_eq_reply (none_eq : requested env componentName objectName payload = none) :
    state.set env componentName objectName payload = state.reply einval := by
  simp only [requested] at none_eq
  rw [Runner.set]
  split
  · rfl
  · rename_i document parsed
    simp only [parsed] at none_eq
    split
    · split
      · rename_i component object
        simp [component, object] at none_eq
      · rfl
    · rfl

theorem Runner.set_eq_goTo
    (some_eq : requested env componentName objectName payload = some arguments) :
    state.set env componentName objectName payload =
      (state.updateLoaded env arguments).goTo (.dispatching (hashString payload) arguments) := by
  simp only [requested] at some_eq
  split at some_eq
  · cases some_eq
  · rename_i document parsed
    split at some_eq
    · rename_i names
      cases some_eq
      simp only [Runner.set, parsed, names, if_true]
    · cases some_eq

/-- The update of the command loaded from disk changes none of what a call remembers. -/
theorem Runner.updateLoaded_keeps (env : Environment) (arguments : Arguments) (state : Runner) :
    (state.updateLoaded env arguments).lastPayloadHash = state.lastPayloadHash ∧
      (state.updateLoaded env arguments).history = state.history ∧
      ∀ id, id ∈ (state.updateLoaded env arguments).commandMap ↔ id ∈ state.commandMap := by
  rw [Runner.updateLoaded]
  split
  · rename_i loaded loaded_eq
    refine ⟨rfl, rfl, ?_⟩
    have present : arguments.id ∈ state.commandMap := by
      rw [Runner.partialCommand] at loaded_eq
      split at loaded_eq
      · rw [Std.ExtTreeMap.mem_iff_isSome_getElem?, (Option.filter_eq_some_iff.mp loaded_eq).1]
        rfl
      · cases loaded_eq
    intro id
    simp only [Runner.release_commandMap, Std.ExtTreeMap.mem_insert, Std.compare_eq_iff_eq]
    constructor
    · rintro (rfl | before)
      · exact present
      · exact before
    · exact .inr
  · exact ⟨rfl, rfl, fun _ => Iff.rfl⟩

theorem Runner.dispatch_eq_reply {created : Bool} {payloadHash : BitVec 64}
    (last : state.lastPayloadHash = payloadHash) :
    state.dispatch env created payloadHash arguments = state.reply 0 := by
  rw [Runner.dispatch, if_neg]
  exact not_not.mpr last

/-- A run that ends where it begins, since no call is at hand. -/
theorem eq_of_run_idle {final : Runner} (idle : state.client = .idle)
    (run : Run (Taken (step env) fun state _ => state.calling) state final) : final = state := by
  cases run.cases_head with
  | inl equal => exact equal.symm
  | inr later =>
      rcases later with ⟨_, ⟨_, calling, -⟩, -⟩
      simp [Runner.calling, idle] at calling

theorem Returns.status_of_not_requested {final : Runner}
    (none_eq : requested env componentName objectName payload = none)
    (returns : Returns env componentName objectName payload state final) :
    final.status = einval := by
  rcases returns with ⟨called, begins, run, -⟩
  simp only [step] at begins
  split at begins
  · cases begins
    rw [Runner.set_eq_reply none_eq] at run
    rw [eq_of_run_idle rfl run]
    rfl
  · cases begins

theorem Returns.again (idle : state.client = .idle)
    (some_eq : requested env componentName objectName payload = some arguments)
    (last : state.lastPayloadHash = hashString payload) :
    Returns env componentName objectName payload state
      ((state.updateLoaded env arguments).reply 0) := by
  refine ⟨(state.updateLoaded env arguments).goTo (.dispatching (hashString payload) arguments),
    ?_, ?_, rfl⟩
  · simp only [step, idle, Runner.set_eq_goTo some_eq]
  · have same : ((state.updateLoaded env arguments).goTo
        (.dispatching (hashString payload) arguments)).lastPayloadHash = hashString payload :=
      (state.updateLoaded_keeps env arguments).1.trans last
    apply Relation.ReflTransGen.single
    refine ⟨clientGoesOn, rfl, ?_⟩
    exact congrArg some (Runner.dispatch_eq_reply same)

theorem Returns.exists_of_follow {test : Runner → Bool} (moves : List Move)
    (passes : ((step env state (.set componentName objectName payload)).bind fun called =>
      follow (step env) (fun state _ => state.calling) called moves).any fun final =>
        final.client = .idle ∧ test final) :
    ∃ final, Returns env componentName objectName payload state final ∧ test final := by
  rw [Option.any_eq_true] at passes
  rcases passes with ⟨final, follows, passed⟩
  rw [decide_eq_true_eq] at passed
  rcases Option.bind_eq_some_iff.mp follows with ⟨called, begins, rest⟩
  exact ⟨final, ⟨called, begins, run_of_follow rest, passed.1⟩, passed.2⟩

end Calls

section Answers

theorem einval_ne_zero : einval ≠ 0 := by decide

/-- How far the call has got, and what it will answer. -/
def Answering (payloadHash : BitVec 64) (arguments : Arguments) (fresh : Prop) (state : Runner) :
    Prop :=
  match state.client with
  | .dispatching hash request =>
      (hash = payloadHash ∧ request = arguments) ∧
        (fresh → state.lastPayloadHash ≠ payloadHash ∨ arguments.id ∈ state.commandMap)
  | .persisting ref | .evicting .schedule ref =>
      state.lastPayloadHash = payloadHash ∧ arguments.action ≠ .refreshCommandStatus ∧
        state.idOf ref = arguments.id
  | .pushing _ =>
      state.lastPayloadHash = payloadHash ∧ arguments.action ≠ .refreshCommandStatus ∧
        arguments.id ∈ state.commandMap
  | .idle =>
      state.lastPayloadHash = payloadHash ∧
        (arguments.action = .refreshCommandStatus → state.status ≠ 0 →
          arguments.id ∉ state.commandMap) ∧
        (arguments.action = .runCommand → fresh → state.status = 0 →
          arguments.id ∈ state.commandMap)
  | _ => False

namespace Answering

variable {payloadHash : BitVec 64} {arguments : Arguments} {fresh : Prop}

theorem of_same (answering : Answering payloadHash arguments fresh state)
    (client : state'.client = state.client) (commandMap : state'.commandMap = state.commandMap)
    (last : state'.lastPayloadHash = state.lastPayloadHash) (status : state'.status = state.status)
    (id : ∀ ref, state.client.scheduled = some ref → state'.idOf ref = state.idOf ref) :
    Answering payloadHash arguments fresh state' := by
  simp only [Answering, client, commandMap, last, status] at answering ⊢
  cases client_eq : state.client with
  | persisting ref =>
      simp only [client_eq] at answering ⊢
      rwa [id ref (by rw [client_eq]; rfl)]
  | evicting caller ref =>
      cases caller with
      | load statuses failed => simp [client_eq] at answering
      | schedule =>
          simp only [client_eq] at answering ⊢
          rwa [id ref (by rw [client_eq]; rfl)]
  | _ => rwa [client_eq] at answering

/-- A call that refuses the request. -/
theorem reply (last : state.lastPayloadHash = payloadHash)
    (other : arguments.action ≠ .refreshCommandStatus) {status : ℤ} (refused : status ≠ 0) :
    Answering payloadHash arguments fresh (state.reply status) := by
  refine ⟨last, ?_, ?_⟩
  · intro refresh
    exact absurd refresh other
  · intro _ _ zero
    exact absurd zero refused

/-- `Run`, `Reboot` and `Shutdown`. -/
theorem schedule (last : state.lastPayloadHash = payloadHash)
    (other : arguments.action ≠ .refreshCommandStatus) (kind : Kind) (text : ByteString)
    (timeout : BitVec 32) (replaceEol : Bool) :
    Answering payloadHash arguments fresh
      (state.schedule env kind arguments.id text timeout replaceEol) := by
  rw [Runner.schedule]
  split
  · rename_i cached found
    split
    · refine ⟨last, fun refresh => absurd refresh other, ?_⟩
      intro _ _ _
      change arguments.id ∈ state.commandMap
      change state.commandMap[arguments.id]? = some cached at found
      rw [Std.ExtTreeMap.mem_iff_isSome_getElem?, found]
      rfl
    · exact reply last other einval_ne_zero
  · refine ⟨last, other, ?_⟩
    simp [Runner.idOf, Runner.goTo, Runner.construct, Command.id]

theorem dispatch {created : Bool}
    (free : fresh → state.lastPayloadHash ≠ payloadHash ∨ arguments.id ∈ state.commandMap) :
    Answering payloadHash arguments fresh
      (state.dispatch env created payloadHash arguments) := by
  by_cases last : state.lastPayloadHash = payloadHash
  · rw [Runner.dispatch_eq_reply last]
    refine ⟨last, fun _ failed => absurd rfl failed, ?_⟩
    intro _ isFresh _
    rcases free isFresh with new | present
    · exact absurd last new
    · exact present
  · rw [Runner.dispatch, if_pos last]
    cases action_eq : arguments.action with
    | runCommand => exact schedule rfl (by simp [action_eq]) _ _ _ _
    | reboot => exact schedule rfl (by simp [action_eq]) _ _ _ _
    | shutdown => exact schedule rfl (by simp [action_eq]) _ _ _ _
    | cancelCommand =>
        simp only [Runner.cancel]
        split
        · simp only [Runner.cancelCommand]
          split <;> refine ⟨rfl, ?_, ?_⟩ <;> simp [action_eq]
        · exact reply rfl (by simp [action_eq]) einval_ne_zero
    | refreshCommandStatus =>
        simp only [Runner.refresh]
        split
        · refine ⟨rfl, fun _ failed => absurd rfl failed, ?_⟩
          simp [action_eq]
        · rename_i absent
          refine ⟨rfl, fun _ _ => absent, ?_⟩
          simp [action_eq]
    | none =>
        refine ⟨rfl, ?_, ?_⟩ <;> simp [action_eq]
    | other value => exact reply rfl (by simp [action_eq]) einval_ne_zero

theorem cacheCommand (last : state.lastPayloadHash = payloadHash)
    (other : arguments.action ≠ .refreshCommandStatus) (id : state.idOf ref = arguments.id) :
    Answering payloadHash arguments fresh (state.cacheCommand .schedule ref) := by
  rw [Runner.cacheCommand]
  split
  · split
    · exact ⟨last, other, id⟩
    · exact reply last other einval_ne_zero
  · exact reply last other einval_ne_zero

theorem evict {notices : List Notice} (consistent : Consistent state notices)
    (client_eq : state.client = .evicting .schedule ref)
    (last : state.lastPayloadHash = payloadHash)
    (other : arguments.action ≠ .refreshCommandStatus) (id : state.idOf ref = arguments.id) :
    Answering payloadHash arguments fresh (state.evict .schedule ref) := by
  have here : Answering payloadHash arguments fresh state := by
    simp only [Answering, client_eq]
    exact ⟨last, other, id⟩
  rcases Runner.evict_cases .schedule ref state with
    ⟨waits, -⟩ | ⟨oldest, -, -, -, evicts⟩ | ⟨-, proceeds⟩
  · rwa [waits]
  · rw [evicts, Answering, Runner.evictOldest_client, client_eq]
    rw [Runner.evictOldest, Runner.releaseAny_eq]
    exact ⟨last, other, id⟩
  · rw [proceeds]
    refine ⟨last, other, ?_⟩
    rcases consistent.newest ref (by rw [client_eq]; rfl) with ⟨head, -⟩
    have buffered := List.mem_of_mem_head? head
    change arguments.id ∈ state.commandMap
    rw [consistent.keys, ← id]
    exact List.mem_map_of_mem buffered

theorem clientStep {notices : List Notice} (consistent : Consistent state notices)
    (answering : Answering payloadHash arguments fresh state) {input : Runner.Input}
    (taken : state.clientStep env input = some state') :
    Answering payloadHash arguments fresh state' := by
  cases Runner.served taken with
  | dispatches client_eq =>
      simp only [Answering, client_eq] at answering
      rcases answering with ⟨⟨rfl, rfl⟩, free⟩
      exact dispatch free
  | caches client_eq _ =>
      simp only [Answering, client_eq] at answering
      rcases answering with ⟨last, other, id⟩
      exact cacheCommand last other id
  | refuses client_eq failed =>
      simp only [Answering, client_eq] at answering
      rcases answering with ⟨last, other, id⟩
      exact reply last other (fun persisted => failed (.inr persisted))
  | @evicts caller _ client_eq =>
      cases caller with
      | load statuses failed => simp [Answering, client_eq] at answering
      | schedule =>
          simp only [Answering, client_eq] at answering
          rcases answering with ⟨last, other, id⟩
          exact evict consistent client_eq last other id
  | pushes client_eq =>
      simp only [Answering, client_eq] at answering
      rcases answering with ⟨last, other, present⟩
      exact ⟨last, fun refresh => absurd refresh other, fun _ _ _ => present⟩
  | loads at_ | constructs at_ | closes at_ | pops at_ | cancels at_ | drops at_ | ends at_
  | joins at_ => simp [Answering, at_] at answering

theorem step {notices : List Notice} (consistent : Consistent state notices)
    (answering : Answering payloadHash arguments fresh state) {move : Move}
    (calling : state.calling) (taken : step env state move = some state') :
    Answering payloadHash arguments fresh state' := by
  cases move with
  | tick time =>
      cases taken
      exact answering
  | set componentName objectName payload =>
      rcases CommandRunner.step_set taken with ⟨idle, -⟩
      simp [Runner.calling, idle] at calling
  | close =>
      rcases CommandRunner.step_close taken with ⟨idle, -⟩
      simp [Runner.calling, idle] at calling
  | worker outcome =>
      have works := Runner.Works.workerStep taken
      rcases Runner.workerStep_answers taken with ⟨-, last, status⟩
      apply answering.of_same works.client works.commandMap last status
      intro ref _
      exact works.id ref
  | client input => exact answering.clientStep consistent taken

end Answering

theorem inSession_of_calling {move : Move} (calling : state.calling)
    (taken : step env state move = some state') : inSession move := by
  cases move with
  | close =>
      rcases step_close taken with ⟨idle, -⟩
      simp [Runner.calling, idle] at calling
  | _ => rfl

variable {componentName objectName payload : ByteString} {arguments : Arguments}
  {final : Runner}

/-- What the answer says of the cache, if the payload is new or its identifier is cached. -/
theorem Returns.answering {notices : List Notice} (consistent : Consistent state notices)
    (some_eq : requested env componentName objectName payload = some arguments)
    (returns : Returns env componentName objectName payload state final) :
    (∃ notices, Consistent final notices) ∧
      Answering (hashString payload) arguments
        (hashString payload ≠ state.lastPayloadHash ∨ arguments.id ∈ state.commandMap) final := by
  rcases returns with ⟨called, begins, run, -⟩
  have keeps : Keeps (Taken (step env) fun state _ => state.calling) fun reached =>
      (∃ notices, Consistent reached notices) ∧ Answering (hashString payload) arguments
        (hashString payload ≠ state.lastPayloadHash ∨ arguments.id ∈ state.commandMap)
        reached := by
    rintro state state' ⟨⟨notices, consistent⟩, answering⟩ ⟨move, calling, taken⟩
    exact ⟨consistent.next (inSession_of_calling calling taken) taken,
      answering.step consistent calling taken⟩
  refine keeps.run ⟨consistent.next rfl begins, ?_⟩ run
  simp only [step] at begins
  split at begins
  · cases begins
    rw [Runner.set_eq_goTo some_eq]
    rcases state.updateLoaded_keeps env arguments with ⟨last, -, keys⟩
    refine ⟨⟨rfl, rfl⟩, ?_⟩
    change _ → (state.updateLoaded env arguments).lastPayloadHash ≠ _ ∨
      _ ∈ (state.updateLoaded env arguments).commandMap
    rw [last, keys, ne_comm]
    exact id
  · cases begins

theorem not_performed_again {notices : List Notice} (consistent : Consistent state notices)
    (idle : state.client = .idle) {fresh : Prop}
    (answering : Answering (hashString payload) arguments fresh state)
    (failed : state.status ≠ 0) :
    ¬ Performed arguments state ((state.updateLoaded env arguments).reply 0) := by
  rcases state.updateLoaded_keeps env arguments with ⟨-, history, keys⟩
  have extended : state.Extends (state.updateLoaded env arguments) :=
    .updateLoaded arguments state
  simp only [Answering, idle] at answering
  have unqueued : ∀ ref, state.next ≤ ref →
      some ref ∉ ((state.updateLoaded env arguments).reply 0).commandQueue := by
    intro ref new queued
    change some ref ∈ (state.updateLoaded env arguments).commandQueue at queued
    rw [extended.commandQueue] at queued
    exact absurd (consistent.session.queued ref queued).1 (not_lt.mpr new)
  intro performed
  simp only [Performed] at performed
  split at performed
  · rcases performed with ⟨ref, new, -, -, queued⟩
    exact unqueued ref new queued
  · rcases performed with ⟨ref, new, -, -, queued⟩
    exact unqueued ref new queued
  · rcases performed with ⟨ref, new, -, -, queued⟩
    exact unqueued ref new queued
  · rcases performed with ⟨ref, was, later, recorded⟩
    change _ <:+ (state.updateLoaded env arguments).history at recorded
    rw [history] at recorded
    have length_le := recorded.length_le
    simp only [List.cons_append, List.length_cons, List.length_append] at length_le
    omega
  · rename_i refresh
    change _ ∈ (state.updateLoaded env arguments).commandMap ∧ _ at performed
    rw [keys] at performed
    exact answering.2.1 refresh failed performed.1
  · exact performed
  · exact performed

end Answers

/-- After a call that failed, each further call with the payload performs the request or fails if
and only if the payload is no request at all. A `RunCommand` is answered with success only when its
identifier is cached if and only if the payload is not the one whose hash is remembered, or the
identifier is cached already. -/
theorem repeated_request_performed_iff {env : Environment} {clock : ℕ} {files : List ByteString}
    {file : Option ByteString} {state : Runner}
    (reached : Run (Taken (step env) fun _ move => inSession move) (start env clock files file)
      state) (idle : state.client = .idle) (componentName objectName payload : ByteString) :
    (∀ failed, Returns env componentName objectName payload state failed → failed.status ≠ 0 →
      ((∀ again final, Run (Taken (step env) fun _ move => betweenCalls move) failed again →
          Returns env componentName objectName payload again final →
          final.status ≠ 0 ∨ ∃ arguments,
            requested env componentName objectName payload = some arguments ∧
              Performed arguments again final) ↔
        requested env componentName objectName payload = none)) ∧
    ∀ arguments, requested env componentName objectName payload = some arguments →
      arguments.action = .runCommand →
      ((∀ final, Returns env componentName objectName payload state final → final.status = 0 →
          arguments.id ∈ final.commandMap) ↔
        hashString payload ≠ state.lastPayloadHash ∨ arguments.id ∈ state.commandMap) := by
  rcases exists_consistent reached with ⟨notices, consistent⟩
  constructor
  · intro failed returns nonzero
    constructor
    · intro performs
      by_contra requests
      rcases Option.ne_none_iff_exists'.mp requests with ⟨arguments, some_eq⟩
      have failedIdle : failed.client = .idle := by
        rcases returns with ⟨-, -, -, failedIdle⟩
        exact failedIdle
      rcases returns.answering consistent some_eq with ⟨⟨_, consistent'⟩, answering⟩
      have last : failed.lastPayloadHash = hashString payload := by
        have answered := answering
        simp only [Answering, failedIdle] at answered
        exact answered.1
      rcases performs failed _ .refl (.again failedIdle some_eq last) with
        fails | ⟨_, some_eq', performed⟩
      · exact fails rfl
      · rw [some_eq] at some_eq'
        cases some_eq'
        exact not_performed_again consistent' failedIdle answering nonzero performed
    · intro none_eq again final _ returns'
      left
      rw [returns'.status_of_not_requested none_eq]
      exact einval_ne_zero
  · intro arguments some_eq run
    constructor
    · intro cached
      by_contra neither
      rw [not_or, not_not] at neither
      refine neither.2 ?_
      rcases state.updateLoaded_keeps env arguments with ⟨-, -, keys⟩
      have present := cached _ (.again idle some_eq neither.1.symm) rfl
      exact (keys _).mp present
    · intro fresh final returns zero
      have finalIdle : final.client = .idle := by
        rcases returns with ⟨-, -, -, finalIdle⟩
        exact finalIdle
      have answering := (returns.answering consistent some_eq).2
      simp only [Answering, finalIdle] at answering
      exact answering.2.2 run fresh zero

/-- A step of the client, in which the persisted cache cannot be written. -/
def clientIsDenied : Move := .client ⟨13, true⟩

/-- The persisted cache cannot be written, so the command is not scheduled. Its payload will be
answered with success. -/
theorem repeated_request_performed_iff_denied :
    ∃ state failed,
      Run (Taken (step sleepEnvironment) fun _ move => inSession move)
        (start sleepEnvironment 0 [] none) state ∧
      Returns sleepEnvironment (bytes "CommandRunner") (bytes "commandArguments") sleepRequest.1 state
        failed ∧
      failed.status = 13 ∧
      (¬ ∀ again final, Run (Taken (step sleepEnvironment) fun _ move => betweenCalls move) failed
          again →
        Returns sleepEnvironment (bytes "CommandRunner") (bytes "commandArguments") sleepRequest.1
          again final →
        final.status ≠ 0 ∨ ∃ arguments,
          requested sleepEnvironment (bytes "CommandRunner") (bytes "commandArguments")
            sleepRequest.1 = some arguments ∧ Performed arguments again final) ∧
      ∀ final, Returns sleepEnvironment (bytes "CommandRunner") (bytes "commandArguments")
        sleepRequest.1 state final → final.status = 0 → bytes "1" ∈ final.commandMap := by
  have reached : ∃ state, Run (Taken (step sleepEnvironment) fun _ move => inSession move)
      (start sleepEnvironment 0 [] none) state ∧
      decide ((state.client = .idle ∧ state.lastPayloadHash = 0) ∧
        ((step sleepEnvironment state (send sleepRequest)).bind fun called =>
          follow (step sleepEnvironment) (fun state _ => state.calling) called
            [clientGoesOn, clientIsDenied]).any fun final =>
              final.client = .idle ∧ decide (final.status = 13)) = true :=
    exists_run_of_follow [clientGoesOn] (by decide +kernel)
  rcases reached with ⟨state, run, passed⟩
  rw [decide_eq_true_eq] at passed
  rcases passed with ⟨⟨idle, last⟩, denied⟩
  rcases Returns.exists_of_follow [clientGoesOn, clientIsDenied] denied with
    ⟨failed, returns, status⟩
  rw [decide_eq_true_eq] at status
  have asked : (requested sleepEnvironment (bytes "CommandRunner") (bytes "commandArguments")
      sleepRequest.1).isSome = true := by decide
  have differs : hashString sleepRequest.1 ≠ 0 := by decide +kernel
  rcases repeated_request_performed_iff run idle (bytes "CommandRunner") (bytes "commandArguments")
    sleepRequest.1 with ⟨again, once⟩
  refine ⟨state, failed, run, returns, status, ?_, ?_⟩
  · rw [again failed returns (by simp [status])]
    intro none_eq
    rw [none_eq] at asked
    cases asked
  · refine (once ⟨bytes "1", bytes "sleep 10s", .runCommand, 0, true⟩ ?_ rfl).mpr (.inl ?_)
    · decide
    · rw [last]
      exact differs

/-- The persisted cache cannot be written, and the same request is made again: the answer is
success, and the command is not cached. -/
theorem denied_request_answered_with_success :
    ∃ state failed final,
      Run (Taken (step sleepEnvironment) fun _ move => inSession move)
        (start sleepEnvironment 0 [] none) state ∧
      (Returns sleepEnvironment (bytes "CommandRunner") (bytes "commandArguments") sleepRequest.1
        state failed ∧ failed.status = 13) ∧
      (Returns sleepEnvironment (bytes "CommandRunner") (bytes "commandArguments") sleepRequest.1
        failed final ∧ final.status = 0) ∧
      bytes "1" ∉ final.commandMap ∧ final.cacheBuffer = [] ∧ final.commandQueue = [] := by
  have reached : ∃ state, Run (Taken (step sleepEnvironment) fun _ move => inSession move)
      (start sleepEnvironment 0 [] none) state ∧
      decide (((step sleepEnvironment state (send sleepRequest)).bind fun called =>
          follow (step sleepEnvironment) (fun state _ => state.calling) called
            [clientGoesOn, clientIsDenied]).any fun failed =>
        failed.client = .idle ∧ decide (failed.status = 13 ∧
          ((step sleepEnvironment failed (send sleepRequest)).bind fun called =>
            follow (step sleepEnvironment) (fun state _ => state.calling) called
              [clientGoesOn]).any fun final =>
                final.client = .idle ∧ decide (final.status = 0 ∧
                  bytes "1" ∉ final.commandMap ∧ final.cacheBuffer = [] ∧
                  final.commandQueue = []))) = true :=
    exists_run_of_follow [clientGoesOn] (by decide +kernel)
  rcases reached with ⟨state, run, passed⟩
  rw [decide_eq_true_eq] at passed
  rcases Returns.exists_of_follow [clientGoesOn, clientIsDenied] passed with
    ⟨failed, returns, later⟩
  rw [decide_eq_true_eq] at later
  rcases later with ⟨status, answered⟩
  rcases Returns.exists_of_follow [clientGoesOn] answered with ⟨final, returns', passed'⟩
  rw [decide_eq_true_eq] at passed'
  rcases passed' with ⟨zero, nothing⟩
  exact ⟨state, failed, final, run, ⟨returns, status⟩, ⟨returns', zero⟩, nothing⟩

end OsConfig.CommandRunner
