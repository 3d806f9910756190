import OsConfig.CommandRunner.FlagFiles

/-!
# Cancelling commands

Commands constructed in one second share a flag file: a request for one of them
cancels whichever looks first and takes the file away, and the others may run. A
process that exits with the value of `ECANCELED` counts as cancelled without a
request, a `ShutdownCommand` that is found cancelled keeps its status, and a
request for a command that is only known from disk, or that the map has replaced
by a copy, goes to an object that is never executed.

In sessions in which requests reach a file that no other command has, all commands
get files that do not exist yet, and cancelled commands are in the queue, a
command ends as cancelled if and only if it was asked to.
-/

namespace OsConfig.CommandRunner

open Transitions

variable {env : Environment} {state state' : Runner} {ref : Ref}

section History

namespace Runner

theorem refuse_history (caller : Caller) (ref : Ref) (state : Runner) :
    (state.refuse caller ref).history = state.history := by
  cases caller <;> rfl

theorem cacheCommand_history (caller : Caller) (ref : Ref) (state : Runner) :
    (state.cacheCommand caller ref).history = state.history := by
  rw [cacheCommand]
  split
  · split
    · rfl
    · exact refuse_history caller ref state
  · exact refuse_history caller ref state

theorem evictOldest_history (oldest : Ref) (state : Runner) :
    (state.evictOldest oldest).history = state.history := by
  rw [evictOldest, releaseAny_eq]
  rfl

theorem evict_history (caller : Caller) (ref : Ref) (state : Runner) :
    (state.evict caller ref).history = state.history := by
  rcases evict_cases caller ref state with ⟨waits, -⟩ | ⟨oldest, -, -, -, evicts⟩ | ⟨-, proceeds⟩
  · rw [waits]
  · rw [evicts, evictOldest_history]
  · cases caller with
    | load statuses failed =>
        rw [proceeds]
        rfl
    | schedule =>
        rw [proceeds]
        rfl

theorem schedule_history (kind : Kind) (id arguments : ByteString) (timeout : BitVec 32)
    (replaceEol : Bool) (state : Runner) :
    (state.schedule env kind id arguments timeout replaceEol).history = state.history := by
  rw [schedule]
  split
  · split <;> rfl
  · rfl

theorem set_history (componentName objectName payload : ByteString) (state : Runner) :
    (state.set env componentName objectName payload).history = state.history := by
  have updateLoaded_history (arguments : Arguments) :
      (state.updateLoaded env arguments).history = state.history := by
    rw [updateLoaded]
    split <;> rfl
  rw [set]
  split
  · rfl
  · split
    · split
      · exact updateLoaded_history _
      · rfl
    · rfl

/-- The only step of the client that is recorded is a request to cancel. -/
theorem clientStep_history {input : Input} (taken : state.clientStep env input = some state') :
    state'.history = state.history ∨ ∃ payloadHash arguments,
      state.client = .dispatching payloadHash arguments ∧ state.lastPayloadHash ≠ payloadHash ∧
      arguments.action = .cancelCommand ∧
      state' = { state with lastPayloadHash := payloadHash }.cancel input.created arguments.id := by
  cases served taken with
  | loads => exact .inl rfl
  | constructs => exact .inl (cacheCommand_history ..)
  | @dispatches payloadHash arguments client_eq =>
      rw [dispatch]
      split
      · rename_i new
        cases action_eq : arguments.action with
        | runCommand => exact .inl (schedule_history ..)
        | reboot => exact .inl (schedule_history ..)
        | shutdown => exact .inl (schedule_history ..)
        | cancelCommand =>
            refine .inr ⟨payloadHash, arguments, client_eq, new, action_eq, ?_⟩
            simp only [client_eq]
        | refreshCommandStatus =>
            left
            simp only [refresh]
            split <;> rfl
        | none => exact .inl rfl
        | other value => exact .inl rfl
      · exact .inl rfl
  | caches => exact .inl (cacheCommand_history ..)
  | evicts => exact .inl (evict_history ..)
  | cancels =>
      left
      simp only [release, goTo, cancelCommand]
      split <;> rfl
  | refuses | pushes | closes | pops | drops | ends | joins => exact .inl rfl

theorem cancel_history (created : Bool) (id : ByteString) (state : Runner) :
    (state.cancel created id).history = state.history ∨ ∃ ref before status,
      (state.cancel created id).history = .cancel id ref before status :: state.history := by
  rw [cancel]
  split
  · rename_i ref mapped
    refine .inr ⟨ref, (state.object ref).status.state, (state.cancelCommand created ref).1, ?_⟩
    simp only [reply, cancelCommand]
    split <;> rfl
  · exact .inl rfl

/-- What is recorded stays recorded. -/
theorem step_history {move : Move} (taken : step env state move = some state') :
    state.history <:+ state'.history := by
  cases move with
  | tick time =>
      cases taken
      exact List.suffix_refl _
  | set componentName objectName payload =>
      rcases step_set taken with ⟨-, rfl⟩
      rw [set_history]
  | close =>
      rcases step_close taken with ⟨-, rfl⟩
      exact List.suffix_refl _
  | client input =>
      rcases clientStep_history taken with same | ⟨payloadHash, arguments, -, -, -, rfl⟩
      · rw [same]
      · rcases cancel_history input.created arguments.id
          { state with lastPayloadHash := payloadHash } with same | ⟨_, _, _, grown⟩
        · rw [same]
        · rw [grown]
          exact List.suffix_cons _ _
  | worker outcome =>
      rcases workerStep_history taken with ⟨same, -⟩ | ⟨_, -, -, grown⟩ | ⟨_, -, -, grown⟩
      · rw [same]
      · rw [grown]
        exact List.suffix_cons _ _
      · rw [grown]
        exact List.suffix_cons _ _

end Runner

theorem Doomed.mono {history history' : List Event} (doomed : Doomed history ref)
    (grown : history <:+ history') : Doomed history' ref := by
  rcases doomed with ⟨id, earlier, within, notStarted, notFinished⟩
  exact ⟨id, earlier, within.trans grown, notStarted, notFinished⟩

theorem Doomed.keeps {meets : Runner → Move → Prop} :
    Keeps (Taken (step env) meets) fun state => Doomed state.history ref := by
  rintro state state' doomed ⟨move, -, taken⟩
  exact doomed.mono (Runner.step_history taken)

end History

namespace Isolated

/-- A request changes neither the commands with other identifiers nor their files. -/
theorem spares_cancel (isolated : Isolated state) {created : Bool} {id : ByteString}
    (met : state.cancellable created id) {other : Ref} (alive : state.alive other)
    (different : state.idOf other ≠ id) :
    (state.cancel created id).isCanceled other = state.isCanceled other := by
  rw [Runner.cancel]
  cases mapped : state.commandMap[id]? with
  | none => rfl
  | some ref =>
      have distinct : other ≠ ref := by
        rintro rfl
        exact different (isolated.map id other mapped)
      by_cases accepts : (state.object ref).status.state ≠ .canceled ∧ ¬ state.isCanceled ref
      · simp only [Runner.cancelCommand, if_pos accepts]
        cases created with
        | false => rfl
        | true =>
            simp only [Runner.cancellable, mapped, if_pos accepts, Bool.not_true, Bool.false_or,
              Bool.and_eq_true] at met
            have otherFile : (state.object other).tmpFile ≠ (state.object ref).tmpFile := by
              intro same
              apply distinct
              exact Runner.eq_of_ownsFlag met.1 (isolated.known other alive) alive same
            simp [Runner.isCanceled, Runner.reply, otherFile]
      · simp only [Runner.cancelCommand, if_neg accepts]
        rfl

/-- The step in which a request is answered leaves commands with other identifiers as they are. -/
theorem spares (isolated : Isolated state) {move : Move} (met : isolating env state move)
    (taken : step env state move = some state') {id : ByteString} {before : State} {status : ℤ}
    (recorded : state'.history = .cancel id ref before status :: state.history) {other : Ref}
    (alive : state.alive other) (different : state.idOf other ≠ id) :
    state'.object other = state.object other ∧
      state'.isCanceled other = state.isCanceled other := by
  have changed : state'.history ≠ state.history := by
    rw [recorded]
    exact List.cons_ne_self _ _
  cases move with
  | tick time =>
      cases taken
      exact absurd rfl changed
  | set componentName objectName payload =>
      rcases step_set taken with ⟨-, rfl⟩
      exact absurd (Runner.set_history ..) changed
  | close => cases met
  | client input =>
      rcases Runner.clientStep_history taken with
        same | ⟨payloadHash, arguments, client_eq, new, action_eq, rfl⟩
      · exact absurd same changed
      · simp only [isolating, client_eq, action_eq, Bool.or_eq_true, decide_eq_true_eq] at met
        replace met := met.resolve_left new
        let hashed : Runner := { state with lastPayloadHash := payloadHash }
        have hashedIsolated : Isolated hashed :=
          isolated.drops { isolated.session with } { Runner.Extends.refl state with } rfl rfl rfl
            rfl (.inr rfl) (.inr rfl)
        have extended := Runner.Extends.cancel input.created arguments.id hashed
        have id_eq : arguments.id = id := by
          rcases Runner.cancel_history input.created arguments.id hashed with
            same | ⟨_, _, _, grown⟩
          · exact absurd same changed
          · rw [grown] at recorded
            cases recorded
            rfl
        subst id_eq
        exact ⟨extended.object other (isolated.known other alive),
          hashedIsolated.spares_cancel met alive different⟩
  | worker outcome =>
      rcases Runner.workerStep_history taken with ⟨same, -⟩ | ⟨_, -, -, grown⟩ | ⟨_, -, -, grown⟩
      · exact absurd same changed
      · rw [grown] at recorded
        cases recorded
      · rw [grown] at recorded
        cases recorded

end Isolated

/-- A command that was cancelled before it started is in the queue until it ends as cancelled. -/
theorem doomed_ends {trace : Trace (step env) fun state move => isolating env state move}
    (fair : trace.Fair ofWorker) (isolated : ∀ n, Isolated (trace.state n)) {n : ℕ}
    (doomed : Doomed (trace.state n).history ref) :
    ∃ m, n ≤ m ∧ .finished ref .canceled ∈ (trace.state m).history := by
  have ends : ∃ m, n ≤ m ∧ ∃ last, .finished ref last ∈ (trace.state m).history := by
    by_cases finished : ∃ last, .finished ref last ∈ (trace.state n).history
    · exact ⟨n, le_refl n, finished⟩
    · rw [not_exists] at finished
      rcases (isolated n).doomed ref doomed with ⟨-, -, -, waits⟩
      rcases waits finished with ⟨-, -, queued⟩
      have unfinished : (trace.state n).worker.done ≠ some ref := by
        intro done
        rcases (isolated n).done ref done with ⟨last, recorded⟩
        exact finished last recorded
      apply queued_finishes _ trace fair ⟨(isolated n).session, queued, unfinished⟩
      intro state move met
      exact inSession_of_isolating met
  rcases ends with ⟨m, le, last, recorded⟩
  have still : Doomed (trace.state m).history ref := Doomed.keeps.run doomed (trace.run le)
  rcases (isolated m).doomed ref still with ⟨-, -, canceled, -⟩
  rw [canceled last recorded] at recorded
  exact ⟨m, le, recorded⟩

/-- In sessions in which commands get new flag files and requests reach files of their own: a
command that ends as cancelled was asked to, under its own identifier and before it ended, one that
was asked to before it started never starts and ends as cancelled, and requests leave the commands
with other identifiers and their files as they are. -/
theorem cancellation_isolated (env : Environment) (clock : ℕ) (files : List ByteString)
    (file : Option ByteString) :
    (∀ final, Run (Taken (step env) fun state move => isolating env state move)
        (start env clock files file) final →
      (∀ ref earlier, (.finished ref .canceled :: earlier) <:+ final.history →
        Accepted earlier (final.idOf ref) ref) ∧
      (∀ ref, Doomed final.history ref → .started ref ∉ final.history ∧
        ∀ last, .finished ref last ∈ final.history → last = .canceled) ∧
      ∀ move final', isolating env final move → step env final move = some final' →
        ∀ id ref before, final'.history = .cancel id ref before 0 :: final.history →
          ∀ other, final.alive other → final.idOf other ≠ id →
            final'.object other = final.object other ∧
              final'.isCanceled other = final.isCanceled other) ∧
    ∀ trace : Trace (step env) fun state move => isolating env state move,
      trace.state 0 = start env clock files file → trace.Fair ofWorker →
        ∀ n ref, Doomed (trace.state n).history ref →
          ∃ m, n ≤ m ∧ .finished ref .canceled ∈ (trace.state m).history := by
  constructor
  · intro final run
    have isolated := Isolated.keeps.run (.start env clock files file) run
    refine ⟨isolated.canceled, ?_, ?_⟩
    · intro ref doomed
      rcases isolated.doomed ref doomed with ⟨-, started, finished, -⟩
      exact ⟨started, finished⟩
    · intro move final' met taken id ref before recorded other alive different
      exact isolated.spares met taken recorded alive different
  · intro trace started fair n ref doomed
    apply doomed_ends fair _ doomed
    intro n
    apply Isolated.keeps.run (.start env clock files file)
    rw [← started]
    exact trace.run (Nat.zero_le n)

def cancelEchoRequest : ByteString × Json := request "2" "" 5

def cancelEnvironment : Environment :=
  sampleEnvironment [sleepRequest, echoRequest, cancelEchoRequest]

/-- The command `sleep` is executed, and the request for `echo`, which was constructed in the next
second, has been received. -/
def cancelMoves : List Move :=
  clientGoesOn :: runRequest sleepRequest ++ .tick 1 :: runRequest echoRequest ++
    List.replicate 3 (workerGoesOn 0) ++ [send cancelEchoRequest]

/-- The request reaches `echo` and leaves `sleep` alone, and only `echo` ends as cancelled. -/
theorem cancellation_isolated_next_second :
    (∃ received answered,
      Run (Taken (step cancelEnvironment) fun state move => isolating cancelEnvironment state move)
        (start cancelEnvironment 0 [] none) received ∧
      (received.worker = .executing 0 ∧ received.alive 0 ∧ received.idOf 0 ≠ bytes "2") ∧
      isolating cancelEnvironment received clientGoesOn ∧
      step cancelEnvironment received clientGoesOn = some answered ∧
      answered.history = .cancel (bytes "2") 1 .unknown 0 :: received.history ∧
      answered.object 0 = received.object 0 ∧
      answered.isCanceled 0 = received.isCanceled 0) ∧
    (∃ final,
      Run (Taken (step cancelEnvironment) fun state move => isolating cancelEnvironment state move)
        (start cancelEnvironment 0 [] none) final ∧
      (final.history = [.finished 1 .canceled, .finished 0 .succeeded,
          .cancel (bytes "2") 1 .unknown 0, .started 0] ∧ final.idOf 1 = bytes "2") ∧
      Accepted [.finished 0 .succeeded, .cancel (bytes "2") 1 .unknown 0, .started 0]
        (final.idOf 1) 1 ∧
      .started 1 ∉ final.history ∧ ∀ last, .finished 1 last ∈ final.history → last = .canceled) ∧
    ∃ trace : Trace (step cancelEnvironment)
        fun state move => isolating cancelEnvironment state move,
      trace.state 0 = start cancelEnvironment 0 [] none ∧ trace.Fair ofWorker ∧
        ∃ n, Doomed (trace.state n).history 1 ∧
          ∃ m, n ≤ m ∧ .finished 1 .canceled ∈ (trace.state m).history := by
  have isolated := cancellation_isolated cancelEnvironment 0 [] none
  have doomed : Doomed [.finished 1 .canceled, .finished 0 .succeeded,
      .cancel (bytes "2") 1 .unknown 0, .started 0] 1 := by
    refine ⟨bytes "2", [.started 0], ?_, ?_, ?_⟩
    · exact ⟨[.finished 1 .canceled, .finished 0 .succeeded], rfl⟩
    · simp
    · simp
  have finishes : ((follow (step cancelEnvironment) (isolating cancelEnvironment)
      (start cancelEnvironment 0 [] none)
      (cancelMoves ++ clientGoesOn :: List.replicate 8 (workerGoesOn 0))).any
      fun final => (final.history = [.finished 1 .canceled, .finished 0 .succeeded,
          .cancel (bytes "2") 1 .unknown 0, .started 0] ∧ final.idOf 1 = bytes "2") ∧
        final.clock = 1 ∧ final.atRest) = true := by decide +kernel
  rw [Option.any_eq_true] at finishes
  rcases finishes with ⟨final, follows, finishes⟩
  rw [decide_eq_true_eq] at finishes
  rcases finishes with ⟨⟨history, id_eq⟩, clock, rests⟩
  refine ⟨?_, ⟨final, run_of_follow follows, ⟨history, id_eq⟩, ?_⟩, ?_⟩
  · have reached : ∃ received,
        Run (Taken (step cancelEnvironment)
          fun state move => isolating cancelEnvironment state move)
          (start cancelEnvironment 0 [] none) received ∧
        decide ((received.worker = .executing 0 ∧ received.alive 0 ∧
            received.idOf 0 ≠ bytes "2") ∧
          isolating cancelEnvironment received clientGoesOn ∧
          (step cancelEnvironment received clientGoesOn).any fun answered =>
            answered.history = .cancel (bytes "2") 1 .unknown 0 :: received.history) = true :=
      exists_run_of_follow cancelMoves (by decide +kernel)
    rcases reached with ⟨received, run, passed⟩
    rw [decide_eq_true_eq, Option.any_eq_true] at passed
    rcases passed with ⟨executing, met, answered, taken, recorded⟩
    rw [decide_eq_true_eq] at recorded
    rcases (isolated.1 received run).2.2 _ _ met taken _ _ _ recorded 0 executing.2.1
      executing.2.2 with ⟨sameObject, sameFile⟩
    exact ⟨received, answered, run, executing, met, taken, recorded, sameObject, sameFile⟩
  · rcases isolated.1 final (run_of_follow follows) with ⟨canceled, waits, -⟩
    rw [history] at canceled waits ⊢
    exact ⟨canceled 1 _ (List.suffix_refl _), waits 1 doomed⟩
  · have ticks : step cancelEnvironment final (.tick 1) = some final := by
      rw [← clock]
      rfl
    rcases Trace.exists_of_follow follows rfl ticks with ⟨trace, begins, ends⟩
    have fair : trace.Fair ofWorker :=
      Trace.fair_of_rests ends fun _ own => step_of_atRest rests (.inl own)
    rw [← history, ← ends _ (le_refl _)] at doomed
    exact ⟨trace, begins, fair, _, doomed, isolated.2 trace begins fair _ 1 doomed⟩

/-- Commands constructed in one second share their flag file. The request for `echo` cancels
`sleep`, which was not asked to, and takes the file away, so that `echo` runs. -/
theorem cancel_hits_other_command :
    ∃ final, Run (Taken (step cancelEnvironment) fun _ _ => True)
        (start cancelEnvironment 0 [] none) final ∧
      final.history = [.finished 1 .succeeded, .started 1, .finished 0 .canceled,
        .cancel (bytes "2") 1 .unknown 0, .started 0] ∧
      (¬ ∃ id, Accepted final.history id 0) ∧ Doomed final.history 1 := by
  have reached : ∃ final, Run (Taken (step cancelEnvironment) fun _ _ => true)
      (start cancelEnvironment 0 [] none) final ∧
      decide (final.history = [.finished 1 .succeeded, .started 1, .finished 0 .canceled,
        .cancel (bytes "2") 1 .unknown 0, .started 0]) = true :=
    exists_run_of_follow (clientGoesOn :: runRequest sleepRequest ++ runRequest echoRequest ++
      List.replicate 3 (workerGoesOn 0) ++ [send cancelEchoRequest, clientGoesOn,
        .worker (.polls [])] ++ List.replicate 8 (workerGoesOn 0)) (by decide +kernel)
  rcases reached with ⟨final, run, history⟩
  rw [decide_eq_true_eq] at history
  simp only at run
  refine ⟨final, run, history, ?_, ?_⟩
  · rintro ⟨id, before, requested⟩
    simp [history] at requested
  · rw [history]
    refine ⟨bytes "2", [.started 0], ?_, ?_, ?_⟩
    · exact ⟨[.finished 1 .succeeded, .started 1, .finished 0 .canceled], rfl⟩
    · simp
    · simp

end OsConfig.CommandRunner
