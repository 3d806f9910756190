import OsConfig.CommandRunner.Session

/-!
# Evicting commands from the cache

`CacheCommand` waits in a loop, under the mutex of the cache, until the oldest
command is complete. The worker does not need the mutex, so the loop ends as long
as the oldest command is still going to be executed.

Two ways into the cache have no way out. A command loaded from the persisted
cache is never queued, so it is never executed when its persisted state was not
a complete one, which is what a process leaves that is stopped while commands are
waiting. And the status of a `ShutdownCommand` that is found cancelled is not set
before it leaves the queue. Without them every cached command is complete or in
the queue, or belongs to the call of `Set` at hand, and no eviction lasts for
ever.
-/

namespace OsConfig.CommandRunner

open Transitions

variable {env : Environment} {state state' : Runner} {ref : Ref}

/-- A session in which no command that is cached from disk is incomplete, and no shutdown is
found cancelled when it is executed. -/
def settling (state : Runner) : Move → Bool
  | .close => false
  | .client _ =>
      match state.client with
      | .loading (status :: _) _ =>
          status.state.isComplete || status.id = [] || status.id ∈ state.commandMap
      | _ => true
  | .worker _ =>
      match state.worker with
      | .taken ref => (state.object ref).kind = .command || !state.isCanceled ref
      | _ => true
  | _ => true

theorem inSession_of_settling {move : Move} (met : settling state move) : inSession move := by
  cases move with
  | close => cases met
  | _ => rfl

/-- The command that runs. -/
def Worker.underway : Worker → Option Ref
  | .executing ref | .returned ref _ _ => some ref
  | _ => none

theorem Worker.current_of_underway {worker : Worker} (underway_eq : worker.underway = some ref) :
    worker.current = some ref := by
  cases worker with
  | executing other => exact underway_eq
  | returned other exitCode textResult => exact underway_eq
  | _ => cases underway_eq

/-- The command that has been taken but does not run yet. -/
def Worker.unstarted : Worker → Option Ref
  | .taken ref | .cleared ref => some ref
  | _ => none

theorem Worker.current_of_unstarted {worker : Worker}
    (unstarted_eq : worker.unstarted = some ref) : worker.current = some ref := by
  cases worker with
  | taken other => exact unstarted_eq
  | cleared other => exact unstarted_eq
  | _ => cases unstarted_eq

/-- Cached commands are complete, queued, or of the call at hand. -/
structure Settled (state : Runner) : Prop where
  session : Session state
  settled : ∀ ref ∈ state.cacheBuffer, state.isComplete ref ∨ some ref ∈ state.commandQueue ∨
    state.client.scheduled = some ref
  nodup : state.cacheBuffer.Nodup
  newest : ∀ caller ref, state.client = .evicting caller ref →
    state.cacheBuffer.head? = some ref
  fresh : ∀ ref, state.client = .persisting ref → ref ∉ state.cacheBuffer
  unstarted : ∀ ref, state.worker.unstarted = some ref → state.isComplete ref = false
  underway : ∀ ref, state.worker.underway = some ref →
    (state.object ref).kind = .shutdownCommand → state.isComplete ref
  executed : ∀ ref, state.worker.done = some ref → state.isComplete ref
  finished : ∀ ref last, .finished ref last ∈ state.history → state.isComplete ref

namespace Settled

/-- The parts of the constructor and of `Set` that do not push. -/
theorem serves (settled : Settled state) (session : Session state')
    (extended : state.Extends state')
    (buffered : ∀ ref ∈ state'.cacheBuffer,
      ref ∈ state.cacheBuffer ∧
        (state.client.scheduled = some ref → state'.client.scheduled = some ref) ∨
      state'.isComplete ref ∨ state'.client.scheduled = some ref)
    (nodup : state'.cacheBuffer.Nodup)
    (newest : ∀ caller ref, state'.client = .evicting caller ref →
      state'.cacheBuffer.head? = some ref)
    (fresh : ∀ ref, state'.client = .persisting ref → ref ∉ state'.cacheBuffer) :
    Settled state' := by
  have below : ∀ ref, state.worker.current = some ref → ref < state.next := by
    intro ref current
    exact (settled.session.queued ref (settled.session.current_mem current)).1
  refine ⟨session, ?_, nodup, newest, fresh, ?_, ?_, ?_, ?_⟩
  · intro ref cached
    rcases buffered ref cached with ⟨before, scheduled⟩ | new
    · rw [extended.isComplete (settled.session.lt ref before), extended.commandQueue]
      rcases settled.settled ref before with complete | queued | atHand
      · exact .inl complete
      · exact .inr (.inl queued)
      · exact .inr (.inr (scheduled atHand))
    · rcases new with complete | atHand
      · exact .inl complete
      · exact .inr (.inr atHand)
  · rw [extended.worker]
    intro ref unstarted
    rw [extended.isComplete (below ref (Worker.current_of_unstarted unstarted))]
    exact settled.unstarted ref unstarted
  · rw [extended.worker]
    intro ref underway
    have lt := below ref (Worker.current_of_underway underway)
    rw [extended.isComplete lt, extended.object ref lt]
    exact settled.underway ref underway
  · rw [extended.worker]
    intro ref done
    rw [extended.isComplete (below ref (Worker.current_of_done done))]
    exact settled.executed ref done
  · intro ref last recorded
    have earlier : .finished ref last ∈ state.history := by
      rcases extended.history _ recorded with earlier | ⟨_, _, _, _, equal⟩
      · exact earlier
      · cases equal
    rw [extended.isComplete (settled.session.finished ref last earlier).1]
    exact settled.finished ref last earlier

/-- As above, where the cache stays as it is and no command is at hand. -/
theorem serves_idle (settled : Settled state) (session : Session state')
    (extended : state.Extends state') (cacheBuffer : state'.cacheBuffer = state.cacheBuffer)
    (idle : ∀ ref ∈ state.cacheBuffer, state.client.scheduled ≠ some ref)
    (position : ∀ caller ref, state'.client ≠ .evicting caller ref)
    (fresh : ∀ ref, state'.client = .persisting ref → state.next ≤ ref) : Settled state' := by
  apply settled.serves session extended
  · rw [cacheBuffer]
    intro ref cached
    exact .inl ⟨cached, fun scheduled => absurd scheduled (idle ref cached)⟩
  · rw [cacheBuffer]
    exact settled.nodup
  · intro caller ref evicting
    exact absurd evicting (position caller ref)
  · intro ref persisting cached
    rw [cacheBuffer] at cached
    have below := settled.session.lt ref cached
    have above := fresh ref persisting
    exact absurd below (not_lt_of_ge above)

theorem cacheCommand (settled : Settled state) {caller : Caller}
    (session : Session (state.cacheCommand caller ref)) (below : ref < state.next)
    (absent : ref ∉ state.cacheBuffer)
    (scheduled : ∀ other, state.client.scheduled = some other → other = ref)
    (complete : state.idOf ref ≠ [] ∧ state.idOf ref ∉ state.commandMap →
      state.isComplete ref ∨ (Client.evicting caller ref).scheduled = some ref) :
    Settled (state.cacheCommand caller ref) := by
  have extended := Runner.Extends.cacheCommand caller ref state
  rcases Runner.cacheCommand_cases caller ref state with
    ⟨accepted, cacheBuffer, position⟩ | ⟨-, refused⟩
  · apply settled.serves session extended
    · rw [cacheBuffer, position]
      intro other cached
      rcases List.mem_cons.mp cached with rfl | before
      · right
        rw [extended.isComplete below]
        exact complete accepted
      · left
        refine ⟨before, ?_⟩
        intro atHand
        rw [scheduled other atHand] at before
        exact absurd before absent
    · rw [cacheBuffer]
      exact List.nodup_cons.mpr ⟨absent, settled.nodup⟩
    · rw [position, cacheBuffer]
      rintro _ _ ⟨⟩
      rfl
    · rw [position]
      rintro _ ⟨⟩
  · rw [refused] at session extended ⊢
    apply settled.serves_idle session extended (Runner.refuse_cacheBuffer caller ref state)
    · intro other cached atHand
      rw [scheduled other atHand] at cached
      exact absent cached
    · cases caller with
      | load statuses failed => rintro _ _ ⟨⟩
      | schedule => rintro _ _ ⟨⟩
    · cases caller with
      | load statuses failed => rintro _ ⟨⟩
      | schedule => rintro _ ⟨⟩

theorem evict (settled : Settled state) {caller : Caller}
    (client_eq : state.client = .evicting caller ref)
    (session : Session (state.evict caller ref)) : Settled (state.evict caller ref) := by
  have extended := Runner.Extends.evict caller ref state
  rcases Runner.evict_cases caller ref state with
    ⟨waits, -⟩ | ⟨oldest, -, exceeds, -, evicts⟩ | ⟨-, proceeds⟩
  · rwa [waits]
  · rw [evicts] at session extended ⊢
    apply settled.serves session extended
    · rw [Runner.evictOldest_cacheBuffer, Runner.evictOldest_client]
      intro other cached
      exact .inl ⟨List.mem_of_mem_dropLast cached, id⟩
    · rw [Runner.evictOldest_cacheBuffer]
      exact settled.nodup.sublist (List.dropLast_sublist _)
    · rw [Runner.evictOldest_cacheBuffer, Runner.evictOldest_client, List.head?_dropLast]
      have two : 1 < state.cacheBuffer.length := by
        rw [maxCacheSize] at exceeds
        omega
      rw [if_pos two]
      exact settled.newest
    · rw [Runner.evictOldest_client, client_eq]
      rintro _ ⟨⟩
  · cases caller with
    | load statuses failed =>
        rw [proceeds] at session extended ⊢
        apply settled.serves_idle session extended rfl
        · rw [client_eq]
          rintro _ _ ⟨⟩
        · rintro _ _ ⟨⟩
        · rintro _ ⟨⟩
    | schedule =>
        rw [proceeds] at session extended ⊢
        apply settled.serves session extended
        · rw [client_eq]
          intro other cached
          exact .inl ⟨cached, id⟩
        · exact settled.nodup
        · rintro _ _ ⟨⟩
        · rintro _ ⟨⟩

theorem clientStep (settled : Settled state) {input : Runner.Input}
    (met : settling state (.client input)) (taken : state.clientStep env input = some state') :
    Settled state' := by
  have session := settled.session.clientStep taken
  have serving := settled.session.serving
  cases Runner.served taken with
  | loads client_eq =>
      have idle : ∀ ref ∈ state.cacheBuffer, state.isComplete ref ∨
          some ref ∈ state.commandQueue := by
        intro ref cached
        rcases settled.settled ref cached with complete | queued | atHand
        · exact .inl complete
        · exact .inr queued
        · rw [client_eq] at atHand
          cases atHand
      refine ⟨session, ?_, settled.nodup, ?_, ?_, ?_, ?_, ?_, settled.finished⟩
      · intro ref cached
        rcases idle ref cached with complete | queued
        · exact .inl complete
        · exact .inr (.inl queued)
      · rintro _ _ ⟨⟩
      · rintro _ ⟨⟩
      · rintro _ ⟨⟩
      · rintro _ ⟨⟩
      · rintro _ ⟨⟩
  | @constructs status _ _ client_eq =>
      simp only [settling, client_eq, Bool.or_eq_true, decide_eq_true_eq] at met
      have constructed : Session (state.construct env .command [] 0 true status) :=
        settled.session.construct (by rw [client_eq]; rfl) ..
      have scheduled : ∀ ref, state.client.scheduled ≠ some ref := by
        rw [client_eq]
        rintro _ ⟨⟩
      have before : Settled (state.construct env .command [] 0 true status) := by
        apply settled.serves_idle constructed (.construct ..) rfl
        · intro ref _
          exact scheduled ref
        · intro caller ref evicting
          change state.client = _ at evicting
          rw [client_eq] at evicting
          cases evicting
        · intro ref persisting
          change state.client = _ at persisting
          rw [client_eq] at persisting
          cases persisting
      apply before.cacheCommand session (Nat.lt_succ_self _)
      · intro cached
        exact absurd (settled.session.lt _ cached) (lt_irrefl _)
      · intro other atHand
        exact absurd atHand (scheduled other)
      · simp only [Runner.idOf, Runner.isComplete, Runner.construct, Function.update_self]
        rintro ⟨nonempty, absent⟩
        rcases met with (complete | empty) | present
        · exact .inl complete
        · exact absurd empty nonempty
        · exact absurd present absent
  | @dispatches payloadHash arguments client_eq =>
      rcases Runner.dispatch_cases env input.created payloadHash arguments state with
        ⟨cacheBuffer, position⟩
      apply settled.serves_idle session (.dispatch ..) cacheBuffer
      · rw [client_eq]
        rintro _ _ ⟨⟩
      · rcases position with position | ⟨position, -, -⟩ <;> rw [position] <;> rintro _ _ ⟨⟩
      · rcases position with position | ⟨position, -, -⟩
        · rw [position]
          rintro _ ⟨⟩
        · rw [position]
          rintro _ ⟨⟩
          exact le_refl _
  | @caches ref client_eq _ =>
      have absent := settled.fresh ref client_eq
      have scheduled : ∀ other, state.client.scheduled = some other → other = ref := by
        rw [client_eq]
        rintro _ ⟨⟩
        rfl
      have below := (settled.session.scheduled ref (by rw [client_eq]; rfl)).1
      apply settled.cacheCommand session below absent scheduled
      intro _
      exact .inr rfl
  | @refuses ref client_eq _ =>
      have absent := settled.fresh ref client_eq
      have scheduled : ∀ other, state.client.scheduled = some other → other = ref := by
        rw [client_eq]
        rintro _ ⟨⟩
        rfl
      have below := (settled.session.scheduled ref (by rw [client_eq]; rfl)).1
      apply settled.serves_idle session ((Runner.Extends.reply ..).trans (.release ..)) rfl
      · intro other cached atHand
        rw [scheduled other atHand] at cached
        exact absent cached
      · rintro _ _ ⟨⟩
      · rintro _ ⟨⟩
  | evicts client_eq => exact settled.evict client_eq session
  | pushes client_eq =>
      refine ⟨session, ?_, settled.nodup, ?_, ?_, settled.unstarted, settled.underway,
        settled.executed, settled.finished⟩
      · intro other cached
        rcases settled.settled other cached with complete | queued | atHand
        · exact .inl complete
        · exact .inr (.inl (List.mem_append_left _ queued))
        · rw [client_eq] at atHand
          cases atHand
          exact .inr (.inl (List.mem_append_right _ List.mem_cons_self))
      · rintro _ _ ⟨⟩
      · rintro _ ⟨⟩
  | closes at_ | pops at_ | cancels at_ | drops at_ | ends at_ | joins at_ =>
      simp [at_, Client.destroying] at serving

theorem works (settled : Settled state) {outcome : Runner.Outcome}
    (taken : state.workerStep outcome = some state')
    (popped : ∀ ref, some ref ∈ state.commandQueue → some ref ∉ state'.commandQueue →
      state'.isComplete ref)
    (unstarted : ∀ ref, state'.worker.unstarted = some ref → state'.isComplete ref = false)
    (underway : ∀ ref, state'.worker.underway = some ref →
      (state'.object ref).kind = .shutdownCommand → state'.isComplete ref)
    (executed : ∀ ref, state'.worker.done = some ref → state'.isComplete ref)
    (stays : ∀ ref, state.worker.done = some ref → state'.isComplete ref) : Settled state' := by
  have works := Runner.Works.workerStep taken
  have same : ∀ ref, state.worker.current ≠ some ref →
      state'.isComplete ref = state.isComplete ref := by
    intro ref other
    rw [Runner.isComplete, works.object ref other, Runner.isComplete]
  have queued : ∀ ref, some ref ∈ state.commandQueue →
      state'.isComplete ref ∨ some ref ∈ state'.commandQueue ∨
        state'.client.scheduled = some ref := by
    intro ref before
    by_cases after : some ref ∈ state'.commandQueue
    · exact .inr (.inl after)
    · exact .inl (popped ref before after)
  have earlier : ∀ ref last, .finished ref last ∈ state.history → state'.isComplete ref := by
    intro ref last recorded
    by_cases atHand : state.worker.current = some ref
    · apply stays ref
      exact (settled.session.finished ref last recorded).2.1 (settled.session.current_mem atHand)
    · rw [same ref atHand]
      exact settled.finished ref last recorded
  refine ⟨settled.session.workerStep taken, ?_, ?_, ?_, ?_, unstarted, underway, executed, ?_⟩
  · rw [works.cacheBuffer]
    intro ref cached
    by_cases atHand : state.worker.current = some ref
    · exact queued ref (settled.session.current_mem atHand)
    · rcases settled.settled ref cached with complete | before | scheduled
      · exact .inl (by rwa [same ref atHand])
      · exact queued ref before
      · exact .inr (.inr (by rwa [works.client]))
  · rw [works.cacheBuffer]
    exact settled.nodup
  · rw [works.client, works.cacheBuffer]
    exact settled.newest
  · rw [works.client, works.cacheBuffer]
    exact settled.fresh
  · intro ref last recorded
    rcases Runner.workerStep_history taken with
      ⟨history, -⟩ | ⟨other, -, -, history⟩ | ⟨other, -, position, history⟩
    · exact earlier ref last (history ▸ recorded)
    · rw [history] at recorded
      rcases List.mem_cons.mp recorded with new | before
      · cases new
      · exact earlier ref last before
    · rw [history] at recorded
      rcases List.mem_cons.mp recorded with new | before
      · cases new
        apply executed ref
        rw [position]
        rfl
      · exact earlier ref last before

theorem isComplete_finish_setStatus {exitCode : ℤ} {textResult : ByteString} {newState : State}
    (complete : newState.isComplete) :
    ((state.setStatus ref exitCode textResult newState).finish ref).isComplete ref := by
  simpa [Runner.isComplete, Runner.finish, Runner.setStatus, Command.isComplete,
    Command.setStatus] using complete

theorem workerStep (settled : Settled state) {outcome : Runner.Outcome}
    (met : settling state (.worker outcome)) (taken : state.workerStep outcome = some state') :
    Settled state' := by
  have goesOn (queue : state'.commandQueue = state.commandQueue)
      (idle : state.worker.done = none)
      (unstarted : ∀ ref, state'.worker.unstarted = some ref → state'.isComplete ref = false)
      (underway : ∀ ref, state'.worker.underway = some ref →
        (state'.object ref).kind = .shutdownCommand → state'.isComplete ref)
      (executed : ∀ ref, state'.worker.done = some ref → state'.isComplete ref) :
      Settled state' := by
    apply settled.works taken _ unstarted underway executed
    · rw [idle]
      rintro _ ⟨⟩
    · intro ref before after
      rw [queue] at after
      exact absurd before after
  have running : ∀ {ref : Ref}, state.worker = .executing ref →
      (state.object ref).kind = .shutdownCommand → state.isComplete ref := by
    intro ref position
    apply settled.underway ref
    rw [position]
    rfl
  cases Runner.worked taken with
  | @fronts previous ref rest fronting queue =>
      have queued : some ref ∈ state.commandQueue := by
        rw [queue]
        exact List.mem_cons_self
      rw [Runner.releaseAny_eq] at goesOn ⊢
      apply goesOn rfl (by rw [fronting]; rfl)
      · rintro _ ⟨⟩
        rcases (settled.session.queued ref queued).2 with current | ⟨-, incomplete⟩
        · rw [fronting] at current
          cases current
        · exact incomplete
      · rintro _ ⟨⟩
      · rintro _ ⟨⟩
  | exits fronting =>
      rw [Runner.releaseAny_eq] at goesOn ⊢
      apply goesOn rfl (by rw [fronting]; rfl)
      · rintro _ ⟨⟩
      · rintro _ ⟨⟩
      · rintro _ ⟨⟩
  | cancels position =>
      apply goesOn rfl (by rw [position]; rfl)
      · rintro _ ⟨⟩
      · rintro _ ⟨⟩
      · rintro _ ⟨⟩
        exact isComplete_finish_setStatus rfl
  | skips position canceled shutdown => simp [settling, position, shutdown, canceled] at met
  | starts position =>
      apply goesOn rfl (by rw [position]; rfl)
      · rintro _ ⟨⟩
        apply settled.unstarted
        rw [position]
        rfl
      · rintro _ ⟨⟩
      · rintro _ ⟨⟩
  | @executes ref position =>
      apply goesOn rfl (by rw [position]; rfl)
      · rintro _ ⟨⟩
      · rintro _ ⟨⟩ shutdown
        have kind : (state.object ref).kind = .shutdownCommand := by
          simpa [Runner.setStatus, Command.setStatus] using shutdown
        simp [Runner.isComplete, Runner.setStatus, Command.isComplete, Command.setStatus, kind,
          State.isComplete]
      · rintro _ ⟨⟩
  | returns position | aborts position =>
      apply goesOn rfl (by rw [position]; rfl)
      · rintro _ ⟨⟩
      · rintro _ ⟨⟩
        exact running position
      · rintro _ ⟨⟩
  | @finishes ref exitCode _ position =>
      apply goesOn rfl (by rw [position]; rfl)
      · rintro _ ⟨⟩
      · rintro _ ⟨⟩
      · rintro _ ⟨⟩
        exact isComplete_finish_setStatus (State.isComplete_ofExitCode exitCode)
  | shuts position shutdown =>
      apply goesOn rfl (by rw [position]; rfl)
      · rintro _ ⟨⟩
      · rintro _ ⟨⟩
      · rintro _ ⟨⟩
        apply settled.underway _ _ shutdown
        rw [position]
        rfl
  | @persists ref position =>
      have complete := settled.executed ref (by rw [position]; rfl)
      apply settled.works taken
      · intro other before after
        exact absurd before after
      · rintro _ ⟨⟩
      · rintro _ ⟨⟩
      · rintro _ ⟨⟩
        exact complete
      · rw [position]
        rintro _ ⟨⟩
        exact complete
  | @pops ref head rest position queue =>
      have complete := settled.executed ref (by rw [position]; rfl)
      have front := settled.session.front ref (by rw [position]; rfl)
      rw [queue] at front
      cases front
      apply settled.works taken
      · rw [queue]
        intro other before after
        rcases List.mem_cons.mp before with equal | later
        · cases equal
          exact complete
        · exact absurd later after
      · rintro _ ⟨⟩
      · rintro _ ⟨⟩
      · rintro _ ⟨⟩
      · rw [position]
        rintro _ ⟨⟩
        exact complete

theorem keeps : Keeps (Taken (step env) fun state move => settling state move) Settled := by
  rintro state state' settled ⟨move, met, taken⟩
  have session : Session state' :=
    Session.keeps state state' settled.session ⟨move, inSession_of_settling met, taken⟩
  cases move with
  | tick time =>
      cases taken
      exact { settled with session }
  | set componentName objectName payload =>
      rcases step_set taken with ⟨idle, rfl⟩
      rcases Runner.set_cases env componentName objectName payload state with
        ⟨cacheBuffer, position⟩
      apply settled.serves_idle session (.set ..) cacheBuffer
      · rw [idle]
        rintro _ _ ⟨⟩
      · rcases position with position | ⟨arguments, position⟩ <;> rw [position] <;> rintro _ _ ⟨⟩
      · rcases position with position | ⟨arguments, position⟩ <;> rw [position] <;> rintro _ ⟨⟩
  | close => cases met
  | client input => exact settled.clientStep met taken
  | worker outcome => exact settled.workerStep met taken

theorem start (env : Environment) (clock : ℕ) (files : List ByteString)
    (file : Option ByteString) : Settled (start env clock files file) := by
  refine ⟨.start env clock files file, ?_, ?_, ?_, ?_, ?_, ?_, ?_, ?_⟩ <;>
    simp [CommandRunner.start, Worker.unstarted, Worker.underway, Worker.done]

/-- A command that is complete stays so. -/
theorem isComplete_workerStep (settled : Settled state) {outcome : Runner.Outcome}
    (taken : state.workerStep outcome = some state') (complete : state.isComplete ref) :
    state'.isComplete ref := by
  have works := Runner.Works.workerStep taken
  by_cases atHand : state.worker.current = some ref
  · have unstarted : state.worker.unstarted ≠ some ref := by
      intro unstarted
      simp [settled.unstarted ref unstarted] at complete
    cases Runner.worked taken with
    | cancels position | skips position | starts position | executes position =>
        rw [position] at atHand unstarted
        exact absurd atHand unstarted
    | @finishes other exitCode _ position =>
        rw [position] at atHand
        cases atHand
        exact isComplete_finish_setStatus (State.isComplete_ofExitCode exitCode)
    | fronts position | exits position =>
        rw [position] at atHand
        cases atHand
    | _ => exact complete
  · rwa [Runner.isComplete, works.object ref atHand]

end Settled

section Loop

def Runner.Evicting (state : Runner) : Prop :=
  ∃ caller ref, state.client = .evicting caller ref

/-- The loop of `CacheCommand` stands at a cache. -/
structure Standing (buffer : List Ref) (state : Runner) : Prop where
  settled : Settled state
  evicting : state.Evicting
  cacheBuffer : state.cacheBuffer = buffer

/-- The loop has been left or has evicted a command. -/
def Advanced (buffer : List Ref) (state : Runner) : Prop :=
  ¬ state.Evicting ∨ state.cacheBuffer.length < buffer.length

/-- The loop does not have to wait. -/
def Open (buffer : List Ref) (state : Runner) : Prop :=
  buffer.length ≤ maxCacheSize ∨ ∃ oldest, buffer.getLast? = some oldest ∧ state.isComplete oldest

namespace Standing

variable {buffer : List Ref}

theorem moves (standing : Standing buffer state) {move : Move} (met : settling state move)
    (taken : step env state move = some state') :
    Advanced buffer state' ∨ Standing buffer state' ∧
      (∀ ref, state.isComplete ref → state'.isComplete ref) ∧
      (ofClient move → ¬ Open buffer state) := by
  have settled : Settled state' := Settled.keeps state state' standing.settled ⟨move, met, taken⟩
  rcases standing with ⟨before, ⟨caller, ref, client_eq⟩, buffer_eq⟩
  cases move with
  | tick time =>
      cases taken
      exact .inr ⟨⟨settled, ⟨caller, ref, client_eq⟩, buffer_eq⟩, fun _ => id, False.elim⟩
  | set componentName objectName payload => simp [step, client_eq] at taken
  | close => simp [step, client_eq] at taken
  | worker outcome =>
      have works := Runner.Works.workerStep taken
      refine .inr ⟨⟨settled, ⟨caller, ref, ?_⟩, ?_⟩, ?_, False.elim⟩
      · rw [works.client, client_eq]
      · rw [works.cacheBuffer, buffer_eq]
      · intro other complete
        exact before.isComplete_workerStep taken complete
  | client input =>
      simp only [step, Runner.clientStep, client_eq, Option.some.injEq] at taken
      subst taken
      rcases Runner.evict_cases caller ref state with
        ⟨waits, oldest, last, exceeds, incomplete⟩ | ⟨oldest, -, exceeds, -, evicts⟩ | ⟨-, proceeds⟩
      · rw [waits]
        refine .inr ⟨⟨before, ⟨caller, ref, client_eq⟩, buffer_eq⟩, fun _ => id, ?_⟩
        rw [buffer_eq] at last exceeds
        rintro - (fits | ⟨other, other_eq, complete⟩)
        · omega
        · rw [last] at other_eq
          cases other_eq
          simp [incomplete] at complete
      · left
        right
        rw [evicts, Runner.evictOldest_cacheBuffer, List.length_dropLast, buffer_eq]
        rw [buffer_eq] at exceeds
        omega
      · left
        left
        rintro ⟨other, another, position⟩
        cases caller with
        | load statuses failed =>
            rw [proceeds] at position
            cases position
        | schedule =>
            rw [proceeds] at position
            cases position

theorem oldest_settled (standing : Standing buffer state) {oldest : Ref}
    (last : buffer.getLast? = some oldest) (exceeds : maxCacheSize < buffer.length) :
    state.isComplete oldest ∨ some oldest ∈ state.commandQueue := by
  rcases standing with ⟨settled, ⟨caller, ref, client_eq⟩, rfl⟩
  rcases settled.settled oldest (List.mem_of_getLast? last) with complete | queued | scheduled
  · exact .inl complete
  · exact .inr queued
  · have newest := settled.newest caller ref client_eq
    rw [client_eq] at scheduled
    have equal : ref = oldest := by
      cases caller with
      | load statuses failed => cases scheduled
      | schedule => exact Option.some.inj scheduled
    have nodup := settled.nodup
    rw [List.getLast?_eq_some_iff] at last
    rcases last with ⟨others, buffer_eq⟩
    rw [buffer_eq] at newest nodup exceeds
    cases others with
    | nil => simp [maxCacheSize] at exceeds
    | cons first rest =>
        cases newest
        simp [equal] at nodup

end Standing

variable (trace : Trace (step env) fun state move => settling state move)

/-- The worker completes the oldest command while the loop stands. -/
theorem loop_opens (fair : trace.Fair ofWorker) {buffer : List Ref} {n : ℕ}
    (standing : Standing buffer (trace.state n)) :
    ∃ m, n ≤ m ∧ (Advanced buffer (trace.state m) ∨
      Standing buffer (trace.state m) ∧ Open buffer (trace.state m)) := by
  by_cases fits : buffer.length ≤ maxCacheSize
  · exact ⟨n, le_refl n, .inr ⟨standing, .inl fits⟩⟩
  rw [not_le] at fits
  have nonempty : buffer ≠ [] := by
    rintro rfl
    simp at fits
  rcases Option.ne_none_iff_exists'.mp
    (fun none => nonempty (List.getLast?_eq_none_iff.mp none)) with ⟨oldest, last⟩
  by_cases complete : (trace.state n).isComplete oldest
  · exact ⟨n, le_refl n, .inr ⟨standing, .inr ⟨oldest, last, complete⟩⟩⟩
  have queued : some oldest ∈ (trace.state n).commandQueue := by
    rcases standing.oldest_settled last fits with impossible | queued
    · exact absurd impossible complete
    · exact queued
  have unfinished : (trace.state n).worker.done ≠ some oldest := by
    intro done
    exact complete (standing.settled.executed oldest done)
  apply trace.eventually (fun state => Standing buffer state ∧ Waiting oldest state)
    (fun state => Advanced buffer state ∨ Standing buffer state ∧ Open buffer state)
    (Runner.rank oldest) fair _ _ ⟨standing, standing.settled.session, queued, unfinished⟩
  · rintro state ⟨-, waiting⟩
    exact waiting.ready
  · rintro state move state' ⟨standing, waiting⟩ met taken
    rcases standing.moves met taken with advanced | ⟨standing', -, -⟩
    · exact .inl (.inl advanced)
    · rcases waiting.moves (inSession_of_settling met) taken with ⟨last', finished⟩ | waiting'
      · exact .inl (.inr ⟨standing', .inr ⟨oldest, last,
          standing'.settled.finished oldest last' finished⟩⟩)
      · exact .inr ⟨⟨standing', waiting'.1⟩, waiting'.2⟩

/-- The client goes on once it does not have to wait. -/
theorem loop_advances (workerFair : trace.Fair ofWorker) (clientFair : trace.Fair ofClient)
    {buffer : List Ref} {n : ℕ} (standing : Standing buffer (trace.state n)) :
    ∃ m, n ≤ m ∧ Advanced buffer (trace.state m) := by
  rcases loop_opens trace workerFair standing with ⟨m, le, advanced | ⟨standing, isOpen⟩⟩
  · exact ⟨m, le, advanced⟩
  have goesOn : ∃ k, m ≤ k ∧ Advanced buffer (trace.state k) := by
    apply trace.eventually (fun state => Standing buffer state ∧ Open buffer state)
      (Advanced buffer) (fun _ => 0) clientFair _ _ ⟨standing, isOpen⟩
    · rintro state ⟨standing, -⟩
      rcases standing.evicting with ⟨caller, ref, client_eq⟩
      exact ⟨.client ⟨0, true⟩, trivial, by simp [step, Runner.clientStep, client_eq]⟩
    · rintro state move state' ⟨standing, isOpen⟩ met taken
      rcases standing.moves met taken with advanced | ⟨standing', complete, closed⟩
      · exact .inl advanced
      · refine .inr ⟨⟨standing', ?_⟩, le_refl _, fun own => absurd isOpen (closed own)⟩
        rcases isOpen with fits | ⟨oldest, last, done⟩
        · exact .inl fits
        · exact .inr ⟨oldest, last, complete oldest done⟩
  rcases goesOn with ⟨k, later, advanced⟩
  exact ⟨k, le.trans later, advanced⟩

theorem loop_ends (workerFair : trace.Fair ofWorker) (clientFair : trace.Fair ofClient)
    (settled : ∀ n, Settled (trace.state n)) (n : ℕ) :
    ∃ m, n ≤ m ∧ ¬ (trace.state m).Evicting := by
  induction size : (trace.state n).cacheBuffer.length using Nat.strong_induction_on
    generalizing n with
  | _ bound ih =>
      by_cases evicting : (trace.state n).Evicting
      · rcases loop_advances trace workerFair clientFair ⟨settled n, evicting, rfl⟩ with
          ⟨m, le, left | shorter⟩
        · exact ⟨m, le, left⟩
        · rcases ih _ (size ▸ shorter) m rfl with ⟨k, later, ended⟩
          exact ⟨k, le.trans later, ended⟩
      · exact ⟨n, le_refl n, evicting⟩

end Loop

/-- In every session in which no incomplete command is cached from disk and no shutdown is found
cancelled, each cached command is complete, in the queue, which the command being executed has not
left, or of the call of `Set` that is about to push it, and no eviction lasts for ever. -/
theorem cached_settled (env : Environment) (clock : ℕ) (files : List ByteString)
    (file : Option ByteString) :
    (∀ final, Run (Taken (step env) fun state move => settling state move)
        (start env clock files file) final →
      ∀ ref ∈ final.cacheBuffer, final.isComplete ref ∨ some ref ∈ final.commandQueue ∨
        final.client.scheduled = some ref) ∧
    ∀ trace : Trace (step env) fun state move => settling state move,
      trace.state 0 = start env clock files file → trace.Fair ofWorker → trace.Fair ofClient →
        ∀ n, ∃ m, n ≤ m ∧ ¬ (trace.state m).Evicting := by
  constructor
  · intro final run
    exact (Settled.keeps.run (.start env clock files file) run).settled
  · intro trace started workerFair clientFair
    apply loop_ends trace workerFair clientFair
    intro n
    apply Settled.keeps.run (.start env clock files file)
    rw [← started]
    exact trace.run (Nat.zero_le n)

/-- A command that runs is cached, not complete and in the queue. A trace that goes through a
request, executes its command and then rests is fair, and leaves the loop. -/
theorem cached_settled_running :
    (∃ final, Run (Taken (step sleepEnvironment) fun state move => settling state move)
        (start sleepEnvironment 0 [] none) final ∧
      (final.worker = .executing 0 ∧ 0 ∈ final.cacheBuffer ∧ final.isComplete 0 = false) ∧
      (final.isComplete 0 ∨ some 0 ∈ final.commandQueue ∨ final.client.scheduled = some 0)) ∧
    ∃ trace : Trace (step sleepEnvironment) fun state move => settling state move,
      trace.state 0 = start sleepEnvironment 0 [] none ∧ (trace.Fair ofWorker ∧
        trace.Fair ofClient) ∧ ∀ n, ∃ m, n ≤ m ∧ ¬ (trace.state m).Evicting := by
  have settled := cached_settled sleepEnvironment 0 [] none
  constructor
  · have reached : ∃ final,
        Run (Taken (step sleepEnvironment) fun state move => settling state move)
          (start sleepEnvironment 0 [] none) final ∧
        decide (final.worker = .executing 0 ∧ 0 ∈ final.cacheBuffer ∧
          final.isComplete 0 = false) = true :=
      exists_run_of_follow (clientGoesOn :: runRequest sleepRequest ++
        List.replicate 3 (workerGoesOn 0)) (by decide +kernel)
    rcases reached with ⟨final, run, passed⟩
    rw [decide_eq_true_eq] at passed
    exact ⟨final, run, passed, settled.1 final run 0 passed.2.1⟩
  · have rests : ((follow (step sleepEnvironment) settling (start sleepEnvironment 0 [] none)
        (clientGoesOn :: runRequest sleepRequest ++ List.replicate 7 (workerGoesOn 0))).any
        fun final => final.clock = 0 ∧ final.atRest) = true := by decide +kernel
    rw [Option.any_eq_true] at rests
    rcases rests with ⟨final, follows, rests⟩
    rw [decide_eq_true_eq] at rests
    have ticks : step sleepEnvironment final (.tick 0) = some final := by
      rw [← rests.1]
      rfl
    rcases Trace.exists_of_follow follows rfl ticks with ⟨trace, begins, ends⟩
    have workerFair : trace.Fair ofWorker :=
      Trace.fair_of_rests ends fun _ own => step_of_atRest rests.2 (.inl own)
    have clientFair : trace.Fair ofClient :=
      Trace.fair_of_rests ends fun _ own => step_of_atRest rests.2 (.inr own)
    exact ⟨trace, begins, ⟨workerFair, clientFair⟩, settled.2 trace begins workerFair clientFair⟩

/-- The persisted cache of a process that was stopped before its command had started. -/
def interruptedCache : ByteString × Json :=
  (bytes "\x7b\"client\":[\x7b\"commandId\":\"1\",\"currentState\":0,\"resultCode\":0\x7d]\x7d",
    .object [(bytes "client", .array [.object [(bytes "commandId", .string (bytes "1")),
      (bytes "currentState", .unsigned 0), (bytes "resultCode", .unsigned 0)]])])

def furtherRequests : List (ByteString × Json) :=
  (List.range 10).map fun i => request (String.ofList (List.replicate (i + 2) '1')) "true" 3

def interruptedEnvironment : Environment :=
  sampleEnvironment (interruptedCache :: furtherRequests)

/-- After a restart the command that had not started is neither complete nor queued. Ten commands
later the loop of `CacheCommand` waits for it, and no step of either thread changes anything. -/
theorem interrupted_command_never_evicted :
    ∃ final, Run (Taken (step interruptedEnvironment) fun _ _ => True)
        (start interruptedEnvironment 0 [] (some interruptedCache.1)) final ∧
      (0 ∈ final.cacheBuffer ∧ final.isComplete 0 = false ∧ some 0 ∉ final.commandQueue ∧
        final.worker.current ≠ some 0 ∧ final.client.scheduled ≠ some 0) ∧
      final.Evicting ∧
      (∀ input, final.clientStep interruptedEnvironment input = some final) ∧
      ∀ outcome, final.workerStep outcome = none := by
  have reached : ∃ final, Run (Taken (step interruptedEnvironment) fun _ _ => true)
      (start interruptedEnvironment 0 [] (some interruptedCache.1)) final ∧
      decide ((0 ∈ final.cacheBuffer ∧ final.isComplete 0 = false ∧
          some 0 ∉ final.commandQueue ∧ final.worker.current ≠ some 0 ∧
          final.client.scheduled ≠ some 0) ∧
        final.client = .evicting .schedule 10 ∧ final.cacheBuffer.getLast? = some 0 ∧
        maxCacheSize < final.cacheBuffer.length ∧ final.worker = .fronting (some 9) ∧
        final.commandQueue = []) = true :=
    exists_run_of_follow (List.replicate 3 clientGoesOn ++
      (furtherRequests.take 9).flatMap (fun request =>
        runRequest request ++ List.replicate 7 (workerGoesOn 0)) ++
      (furtherRequests.drop 9).flatMap fun request =>
        send request :: List.replicate 2 clientGoesOn) (by decide +kernel)
  rcases reached with ⟨final, run, passed⟩
  rw [decide_eq_true_eq] at passed
  rcases passed with ⟨unsettled, evicting, last, exceeds, fronting, empty⟩
  simp only at run
  refine ⟨final, run, unsettled, ⟨_, _, evicting⟩, ?_, ?_⟩
  · intro input
    simp [Runner.clientStep, evicting, Runner.evict, exceeds, last, unsettled.2.1]
  · intro outcome
    simp [Runner.workerStep, fronting, empty]

end OsConfig.CommandRunner
