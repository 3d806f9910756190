import OsConfig.CommandRunner.Session

/-!
# Flag files of commands

A command is cancelled through its flag file, and the name of the file depends
only on the second in which the command was constructed. This module is about
sessions in which commands get files that do not exist yet and requests reach a
file that no other command has. It ties the files to the requests that created
them, and to the ends of commands, in one invariant. Each operation keeps it.
-/

namespace OsConfig.CommandRunner

open Transitions

variable {env : Environment} {state state' : Runner} {ref : Ref}

namespace Runner

/-- No other command that is alive has the flag file of this one. -/
def ownsFlag (state : Runner) (ref : Ref) : Bool :=
  (List.range state.next).all fun other =>
    !state.alive other || (state.object other).tmpFile ≠ (state.object ref).tmpFile || other = ref

theorem eq_of_ownsFlag {other : Ref} (owns : state.ownsFlag ref) (below : other < state.next)
    (alive : state.alive other)
    (same : (state.object other).tmpFile = (state.object ref).tmpFile) : other = ref := by
  rw [ownsFlag, List.all_eq_true] at owns
  have owned := owns other (List.mem_range.mpr below)
  simpa [alive, same] using owned

/-- A command that is constructed now gets a flag file that does not exist. -/
def freshFlag (env : Environment) (state : Runner) : Bool :=
  env.flagAt state.clock ∉ state.files

def notStarted (state : Runner) (ref : Ref) : Bool :=
  (state.object ref).status.state = .unknown && state.worker ≠ .cleared ref

/-- A request that is accepted creates a file of the command's own. If the command has not
started, the file is created, and the command is not a shutdown and in the queue. -/
def cancellable (state : Runner) (created : Bool) (id : ByteString) : Bool :=
  match state.commandMap[id]? with
  | some ref =>
      if (state.object ref).status.state ≠ .canceled ∧ ¬ state.isCanceled ref then
        (!created || state.ownsFlag ref) &&
          (!state.notStarted ref ||
            created && (state.object ref).kind = .command && some ref ∈ state.commandQueue)
      else true
  | none => true

end Runner

/-- A session in which commands are constructed with fresh flag files, requests reach files of the
command's own, and processes that were not cancelled do not return `ECANCELED`. -/
def isolating (env : Environment) (state : Runner) : Move → Bool
  | .close => false
  | .set componentName objectName payload =>
      match env.parse payload with
      | some document =>
          componentName ≠ bytes "CommandRunner" || objectName ≠ bytes "commandArguments" ||
            (state.partialCommand env (Arguments.deserialize document).id).isNone ||
            state.freshFlag env
      | none => true
  | .client input =>
      match state.client with
      | .loading (_ :: _) _ => state.freshFlag env
      | .dispatching payloadHash arguments =>
          state.lastPayloadHash = payloadHash ||
            match arguments.action with
            | .runCommand | .reboot | .shutdown => state.freshFlag env
            | .cancelCommand => state.cancellable input.created arguments.id
            | _ => true
      | _ => true
  | .worker (.exits exitCode _) =>
      match state.worker with
      | .executing ref =>
          (state.object ref).kind = .shutdownCommand || exitCode ≠ ecanceled ||
            state.isCanceled ref
      | _ => true
  | _ => true

theorem inSession_of_isolating {move : Move} (met : isolating env state move) :
    inSession move := by
  cases move with
  | close => cases met
  | _ => rfl

/-- A request for the command has been accepted. -/
def Accepted (history : List Event) (id : ByteString) (ref : Ref) : Prop :=
  ∃ before, .cancel id ref before 0 ∈ history

/-- A request for the command was accepted when it had not started. -/
def Doomed (history : List Event) (ref : Ref) : Prop :=
  ∃ id earlier, (.cancel id ref .unknown 0 :: earlier) <:+ history ∧ .started ref ∉ earlier ∧
    ∀ last, .finished ref last ∉ earlier

/-- The command whose process has been started and whose `Execute` has not returned. -/
def Worker.begun : Worker → Option Ref
  | .cleared ref | .executing ref | .returned ref _ _ => some ref
  | _ => none

section Events

variable {history : List Event} {event : Event}

theorem Accepted.cons {id : ByteString} (accepted : Accepted history id ref) (event : Event) :
    Accepted (event :: history) id ref := by
  rcases accepted with ⟨before, requested⟩
  exact ⟨before, List.mem_cons_of_mem event requested⟩

theorem doomed_cons : Doomed (event :: history) ref ↔ Doomed history ref ∨
    (∃ id, event = .cancel id ref .unknown 0) ∧ .started ref ∉ history ∧
      ∀ last, .finished ref last ∉ history := by
  constructor
  · rintro ⟨id, earlier, within, notStarted, notFinished⟩
    rcases List.suffix_cons_iff.mp within with equal | inside
    · cases equal
      exact .inr ⟨⟨id, rfl⟩, notStarted, notFinished⟩
    · exact .inl ⟨id, earlier, inside, notStarted, notFinished⟩
  · rintro (⟨id, earlier, inside, notStarted, notFinished⟩ |
      ⟨⟨id, rfl⟩, notStarted, notFinished⟩)
    · exact ⟨id, earlier, inside.trans (List.suffix_cons _ _), notStarted, notFinished⟩
    · exact ⟨id, history, List.suffix_refl _, notStarted, notFinished⟩

end Events

/-- What ties flag files, requests and the ends of commands together. -/
structure Isolated (state : Runner) : Prop where
  session : Session state
  known : ∀ ref, state.alive ref → ref < state.next
  map : ∀ id ref, state.commandMap[id]? = some ref → state.idOf ref = id
  unique : ∀ ref other, state.alive ref → state.alive other →
    (state.object ref).tmpFile = (state.object other).tmpFile → state.isCanceled ref → ref = other
  accepted : ∀ ref, state.alive ref → state.isCanceled ref →
    Accepted state.history (state.idOf ref) ref
  returned : ∀ ref textResult, state.worker = .returned ref ecanceled textResult →
    (state.object ref).kind = .command → Accepted state.history (state.idOf ref) ref
  begun : ∀ ref, state.worker.begun = some ref → .started ref ∈ state.history
  done : ∀ ref, state.worker.done = some ref → ∃ last, .finished ref last ∈ state.history
  unset : ∀ ref, some ref ∈ state.commandQueue → state.worker.done ≠ some ref →
    (state.object ref).status.state ≠ .canceled
  unsetScheduled : ∀ ref, state.client.scheduled = some ref →
    (state.object ref).status.state ≠ .canceled
  canceled : ∀ ref earlier, (.finished ref .canceled :: earlier) <:+ state.history →
    Accepted earlier (state.idOf ref) ref
  doomed : ∀ ref, Doomed state.history ref → ref < state.next ∧
    .started ref ∉ state.history ∧ (∀ last, .finished ref last ∈ state.history → last = .canceled) ∧
    ((∀ last, .finished ref last ∉ state.history) → (state.object ref).kind = .command ∧
      state.isCanceled ref ∧ some ref ∈ state.commandQueue)

theorem Runner.alive_iff : state.alive ref ↔ ref ∈ state.cacheBuffer ∨
    state.commandMap[state.idOf ref]? = some ref ∨ state.worker.command = some ref ∨
      state.client.command = some ref := by
  simp [Runner.alive, or_assoc]

theorem Worker.command_of_current {worker : Worker} (current_eq : worker.current = some ref) :
    worker.command = some ref := by
  cases worker with
  | fronting previous => cases current_eq
  | _ => exact current_eq

theorem Session.alive_of_mem (session : Session state) (queued : some ref ∈ state.commandQueue) :
    state.alive ref := by
  rw [Runner.alive_iff]
  rcases (session.queued ref queued).2 with current | ⟨buffered, -⟩
  · exact .inr (.inr (.inl (Worker.command_of_current current)))
  · exact .inl buffered

namespace Isolated

/-- The parts of the constructor and of `Set` that record nothing. -/
theorem serves (isolated : Isolated state) (session : Session state')
    (extended : state.Extends state') (history : state'.history = state.history)
    (alive : ∀ ref, state'.alive ref → state.alive ref ∨
      ref < state'.next ∧ state'.isCanceled ref = false)
    (files : state'.files ⊆ state.files)
    (kept : ∀ ref, state.alive ref → state'.alive ref → state.isCanceled ref →
      state'.isCanceled ref)
    (map : ∀ id ref, state'.commandMap[id]? = some ref → state'.idOf ref = id)
    (scheduled : ∀ ref, state'.client.scheduled = some ref →
      state.client.scheduled = some ref ∨ (state'.object ref).status.state ≠ .canceled) :
    Isolated state' := by
  have object : ∀ ref, state.alive ref → state'.object ref = state.object ref := by
    intro ref before
    exact extended.object ref (isolated.known ref before)
  -- What has a file now was there before, with the same file.
  have flagged : ∀ ref, state'.alive ref → state'.isCanceled ref →
      state.alive ref ∧ state.isCanceled ref := by
    intro ref after canceled
    rcases alive ref after with before | ⟨-, unflagged⟩
    · refine ⟨before, ?_⟩
      rw [Runner.isCanceled, object ref before, decide_eq_true_eq] at canceled
      rw [Runner.isCanceled, decide_eq_true_eq]
      exact files canceled
    · simp [unflagged] at canceled
  have below : ∀ ref, state.worker.current = some ref → ref < state.next := by
    intro ref current
    exact (isolated.session.queued ref (isolated.session.current_mem current)).1
  constructor
  · exact session
  · intro ref after
    rcases alive ref after with before | ⟨lt, -⟩
    · exact (isolated.known ref before).trans_le extended.next
    · exact lt
  · exact map
  · intro ref other after otherAfter same canceled
    rcases flagged ref after canceled with ⟨before, flag⟩
    have otherCanceled : state'.isCanceled other := by
      rwa [Runner.isCanceled, ← same, ← Runner.isCanceled]
    rcases flagged other otherAfter otherCanceled with ⟨otherBefore, -⟩
    rw [object ref before, object other otherBefore] at same
    exact isolated.unique ref other before otherBefore same flag
  · intro ref after canceled
    rcases flagged ref after canceled with ⟨before, flag⟩
    rw [history, Runner.idOf, object ref before]
    exact isolated.accepted ref before flag
  · rw [extended.worker, history]
    intro ref textResult returned
    have lt := below ref (by rw [returned]; rfl)
    rw [Runner.idOf, extended.object ref lt]
    exact isolated.returned ref textResult returned
  · rw [extended.worker, history]
    exact isolated.begun
  · rw [extended.worker, history]
    exact isolated.done
  · rw [extended.worker, extended.commandQueue]
    intro ref queued
    rw [extended.object ref (isolated.session.queued ref queued).1]
    exact isolated.unset ref queued
  · intro ref scheduled_eq
    rcases scheduled ref scheduled_eq with before | new
    · rw [extended.object ref (isolated.session.scheduled ref before).1]
      exact isolated.unsetScheduled ref before
    · exact new
  · rw [history]
    intro ref earlier within
    have recorded : .finished ref .canceled ∈ state.history :=
      within.subset List.mem_cons_self
    rw [Runner.idOf, extended.object ref (isolated.session.finished ref _ recorded).1]
    exact isolated.canceled ref earlier within
  · rw [history]
    intro ref doomed
    rcases isolated.doomed ref doomed with ⟨lt, started, finished, waits⟩
    refine ⟨lt.trans_le extended.next, started, finished, ?_⟩
    intro unfinished
    rcases waits unfinished with ⟨kind, flag, queued⟩
    have queued' : some ref ∈ state'.commandQueue := by
      rwa [extended.commandQueue]
    refine ⟨?_, ?_, queued'⟩
    · rw [extended.object ref lt]
      exact kind
    · exact kept ref (isolated.session.alive_of_mem queued) (session.alive_of_mem queued') flag

/-- Pointers come and go, but at most one command gets its first one, and no file changes. -/
theorem changes (isolated : Isolated state) (session : Session state')
    (extended : state.Extends state') (history : state'.history = state.history)
    (files : state'.files = state.files) (adopted : Option Ref)
    (fresh : ∀ ref, adopted = some ref → state.alive ref ∨
      ref < state'.next ∧ state'.isCanceled ref = false)
    (buffer : ∀ ref ∈ state'.cacheBuffer, ref ∈ state.cacheBuffer ∨ adopted = some ref)
    (map : ∀ id ref, state'.commandMap[id]? = some ref →
      state.commandMap[id]? = some ref ∨ adopted = some ref ∧ state'.idOf ref = id)
    (command : ∀ ref, state'.client.command = some ref →
      state.client.command = some ref ∨ adopted = some ref)
    (scheduled : ∀ ref, state'.client.scheduled = some ref →
      state.client.scheduled = some ref ∨ (state'.object ref).status.state ≠ .canceled) :
    Isolated state' := by
  have mapped : ∀ (id : ByteString) ref, state.commandMap[id]? = some ref → state.alive ref := by
    intro id ref found
    rw [Runner.alive_iff, isolated.map id ref found]
    exact .inr (.inl found)
  apply isolated.serves session extended history
  · intro ref after
    rcases Runner.alive_iff.mp after with buffered | found | held | atHand
    · rcases buffer ref buffered with before | new
      · exact .inl (Runner.alive_iff.mpr (.inl before))
      · exact fresh ref new
    · rcases map _ ref found with before | ⟨new, -⟩
      · exact .inl (mapped _ ref before)
      · exact fresh ref new
    · rw [extended.worker] at held
      exact .inl (Runner.alive_iff.mpr (.inr (.inr (.inl held))))
    · rcases command ref atHand with before | new
      · exact .inl (Runner.alive_iff.mpr (.inr (.inr (.inr before))))
      · exact fresh ref new
  · rw [files]
    exact List.Subset.refl _
  · intro ref before _ canceled
    rwa [Runner.isCanceled, extended.object ref (isolated.known ref before), files,
      ← Runner.isCanceled]
  · intro id ref found
    rcases map id ref found with before | ⟨-, equal⟩
    · rw [Runner.idOf, extended.object ref (isolated.known ref (mapped id ref before))]
      exact isolated.map id ref before
    · exact equal
  · exact scheduled

/-- A command that is alive keeps its file when a pointer to another one goes. -/
theorem isCanceled_release {gone : Ref} (alive : state.alive ref) (canceled : state.isCanceled ref)
    (distinct : (state.object ref).tmpFile = (state.object gone).tmpFile → ref = gone) :
    (state.release gone).isCanceled ref := by
  by_cases goneAlive : state.alive gone
  · simpa [Runner.isCanceled, Runner.release, goneAlive] using canceled
  · have different : (state.object ref).tmpFile ≠ (state.object gone).tmpFile := by
      intro same
      rw [distinct same] at alive
      exact goneAlive alive
    simp only [Runner.isCanceled, decide_eq_true_eq] at canceled
    simp [Runner.isCanceled, Runner.release, Runner.removeFile, goneAlive, canceled, different]

theorem release_files_subset (state : Runner) (gone : Ref) :
    (state.release gone).files ⊆ state.files := by
  rw [Runner.release]
  split
  · exact List.Subset.refl _
  · exact List.filter_sublist.subset

/-- The last pointer to a command may go, if its file is not that of another command. -/
theorem release (isolated : Isolated state) (gone : Ref)
    (distinct : ∀ ref, state.alive ref → state.isCanceled ref →
      (state.object ref).tmpFile = (state.object gone).tmpFile → ref = gone) :
    Isolated (state.release gone) := by
  have session : Session (state.release gone) := { isolated.session with }
  apply isolated.serves session (.release state gone) rfl
  · intro ref after
    exact .inl after
  · exact release_files_subset state gone
  · intro ref before _ canceled
    exact isCanceled_release before canceled (distinct ref before canceled)
  · exact isolated.map
  · intro ref scheduled_eq
    exact .inl scheduled_eq

/-- The call at hand lets its command go, or keeps it. -/
theorem drops (isolated : Isolated state) (session : Session state')
    (extended : state.Extends state') (history : state'.history = state.history)
    (files : state'.files = state.files) (buffer : state'.cacheBuffer = state.cacheBuffer)
    (map : state'.commandMap = state.commandMap)
    (command : state'.client.command = none ∨ state'.client.command = state.client.command)
    (scheduled : state'.client.scheduled = none ∨
      state'.client.scheduled = state.client.scheduled) : Isolated state' := by
  apply isolated.changes session extended history files none
  · rintro _ ⟨⟩
  · rw [buffer]
    exact fun _ => .inl
  · rw [map]
    exact fun _ _ => .inl
  · intro ref atHand
    rcases command with none | same
    · rw [none] at atHand
      cases atHand
    · exact .inl (same ▸ atHand)
  · intro ref atHand
    rcases scheduled with none | same
    · rw [none] at atHand
      cases atHand
    · exact .inl (same ▸ atHand)

/-- A pointer to a command goes that was alive before the step, or had no file. -/
theorem releases (isolated : Isolated state) (middle : Isolated state')
    (extended : state.Extends state') (files : state'.files ⊆ state.files)
    (alive : ∀ ref, state'.alive ref → state.alive ref ∨ state'.isCanceled ref = false)
    {gone : Ref} (below : gone < state.next)
    (owned : state.alive gone ∨ state.isCanceled gone = false) :
    Isolated (state'.release gone) := by
  apply middle.release
  intro ref after canceled same
  have before : state.alive ref := by
    rcases alive ref after with before | unflagged
    · exact before
    · simp [unflagged] at canceled
  rw [extended.object ref (isolated.known ref before), extended.object gone below] at same
  have canceledBefore : state.isCanceled ref := by
    rw [Runner.isCanceled, extended.object ref (isolated.known ref before), decide_eq_true_eq]
      at canceled
    rw [Runner.isCanceled, decide_eq_true_eq]
    exact files canceled
  rcases owned with owned | unflagged
  · exact isolated.unique ref gone before owned same canceledBefore
  · rw [Runner.isCanceled, same, ← Runner.isCanceled, unflagged] at canceledBefore
    cases canceledBefore

theorem alive_of_goTo (client : Client) (none : client.command = none)
    (after : (state.goTo client).alive ref) : state.alive ref := by
  rw [Runner.alive_iff] at after ⊢
  rcases after with buffered | found | held | atHand
  · exact .inl buffered
  · exact .inr (.inl found)
  · exact .inr (.inr (.inl held))
  · rw [Runner.goTo, none] at atHand
    cases atHand

theorem refuse (isolated : Isolated state) (caller : Caller)
    (session : Session (state.refuse caller ref)) (below : ref < state.next)
    (owned : state.alive ref ∨ state.isCanceled ref = false) :
    Isolated (state.refuse caller ref) := by
  cases caller with
  | load statuses failed =>
      have dropped : Isolated (state.goTo (.loading statuses true)) :=
        isolated.drops { session with } (.goTo state rfl) rfl rfl rfl rfl (.inl rfl) (.inl rfl)
      apply isolated.releases dropped (.goTo state rfl) (List.Subset.refl _) _ below owned
      intro other after
      exact .inl (alive_of_goTo _ rfl after)
  | schedule =>
      have dropped : Isolated (state.reply einval) :=
        isolated.drops { session with } (.reply state _) rfl rfl rfl rfl (.inl rfl) (.inl rfl)
      apply isolated.releases dropped (.reply state _) (List.Subset.refl _) _ below owned
      intro other after
      exact .inl (alive_of_goTo .idle rfl after)

theorem construct (isolated : Isolated state) (kind : Kind) (arguments : ByteString)
    (timeout : BitVec 32) (replaceEol : Bool) (status : Status)
    (session : Session (state.construct env kind arguments timeout replaceEol status)) :
    Isolated (state.construct env kind arguments timeout replaceEol status) :=
  isolated.drops session (.construct ..) rfl rfl rfl rfl (.inr rfl) (.inr rfl)

theorem construct_idOf (kind : Kind) (arguments : ByteString) (timeout : BitVec 32)
    (replaceEol : Bool) (status : Status) :
    (state.construct env kind arguments timeout replaceEol status).idOf state.next = status.id := by
  simp [Runner.idOf, Runner.construct, Command.id]

theorem construct_fresh (fresh : state.freshFlag env) (kind : Kind) (arguments : ByteString)
    (timeout : BitVec 32) (replaceEol : Bool) (status : Status) :
    (state.construct env kind arguments timeout replaceEol status).isCanceled state.next =
      false := by
  simpa [Runner.isCanceled, Runner.construct, Runner.freshFlag] using fresh

theorem cacheCommand (isolated : Isolated state) (caller : Caller)
    (session : Session (state.cacheCommand caller ref)) (below : ref < state.next)
    (owned : state.alive ref ∨ state.isCanceled ref = false)
    (unset : (Client.evicting caller ref).scheduled = some ref →
      state.client.scheduled = some ref) : Isolated (state.cacheCommand caller ref) := by
  have extended := Runner.Extends.cacheCommand caller ref state
  rw [Runner.cacheCommand] at session extended ⊢
  split at session
  · rename_i nonempty
    rw [if_pos nonempty] at extended ⊢
    split at session
    · rename_i absent
      rw [if_pos absent] at extended ⊢
      apply isolated.changes session extended rfl rfl (some ref)
      · rintro _ ⟨⟩
        rcases owned with alive | unflagged
        · exact .inl alive
        · exact .inr ⟨below, unflagged⟩
      · intro other buffered
        rcases List.mem_cons.mp buffered with rfl | before
        · exact .inr rfl
        · exact .inl before
      · intro id other found
        rw [Std.ExtTreeMap.getElem?_insert] at found
        split at found
        · rename_i same
          cases found
          exact .inr ⟨rfl, Std.LawfulEqCmp.eq_of_compare same⟩
        · exact .inl found
      · rintro _ ⟨⟩
        exact .inr rfl
      · intro other scheduled_eq
        cases caller with
        | load statuses failed => cases scheduled_eq
        | schedule =>
            cases scheduled_eq
            exact .inl (unset rfl)
    · rename_i present
      rw [if_neg present] at extended ⊢
      exact isolated.refuse caller session below owned
  · rename_i empty
    rw [if_neg empty] at extended ⊢
    exact isolated.refuse caller session below owned

theorem alive_of_mapped (isolated : Isolated state) {id : ByteString}
    (found : state.commandMap[id]? = some ref) : state.alive ref := by
  rw [Runner.alive_iff, isolated.map id ref found]
  exact .inr (.inl found)

theorem evictOldest (isolated : Isolated state) {oldest : Ref}
    (last : state.cacheBuffer.getLast? = some oldest) (complete : state.isComplete oldest)
    (session : Session (state.evictOldest oldest)) : Isolated (state.evictOldest oldest) := by
  have oldestAlive : state.alive oldest :=
    Runner.alive_iff.mpr (.inl (List.mem_of_getLast? last))
  -- The state without the two pointers, and what is alive in it.
  let erased : Runner := { state with
    cacheBuffer := state.cacheBuffer.dropLast
    commandMap := state.commandMap.erase (state.idOf oldest) }
  have unmapped : ∀ (id : ByteString) ref, erased.commandMap[id]? = some ref →
      state.commandMap[id]? = some ref := by
    intro id ref found
    simp only [erased, Std.ExtTreeMap.getElem?_erase] at found
    split at found
    · cases found
    · exact found
  have alive : ∀ ref, erased.alive ref → state.alive ref := by
    intro ref after
    rw [Runner.alive_iff] at after ⊢
    rcases after with buffered | found | held | atHand
    · exact .inl (List.mem_of_mem_dropLast buffered)
    · exact .inr (.inl (unmapped _ ref found))
    · exact .inr (.inr (.inl held))
    · exact .inr (.inr (.inr atHand))
  have extended : state.Extends erased := by
    have whole := Runner.Extends.evictOldest last complete
    rw [Runner.evictOldest, Runner.releaseAny_eq] at whole
    exact { whole with }
  have erasedSession : Session erased := by
    rw [Runner.evictOldest, Runner.releaseAny_eq] at session
    exact { session with }
  have erasedIsolated : Isolated erased := by
    apply isolated.changes erasedSession extended rfl rfl none
    · rintro _ ⟨⟩
    · intro ref buffered
      exact .inl (List.mem_of_mem_dropLast buffered)
    · intro id ref found
      exact .inl (unmapped id ref found)
    · exact fun _ => .inl
    · exact fun _ => .inl
  have released : Isolated (erased.release oldest) :=
    isolated.releases erasedIsolated extended (List.Subset.refl _) (fun ref => .inl ∘ alive ref)
      (isolated.known oldest oldestAlive) (.inl oldestAlive)
  change Isolated ((erased.release oldest).releaseAny state.commandMap[state.idOf oldest]?)
  cases mapped : state.commandMap[state.idOf oldest]? with
  | none => exact released
  | some ref =>
      have mappedAlive := isolated.alive_of_mapped mapped
      apply isolated.releases released (extended.trans (.release erased oldest)) _
        (fun ref => .inl ∘ alive ref) (isolated.known ref mappedAlive) (.inl mappedAlive)
      exact release_files_subset erased oldest

theorem evict (isolated : Isolated state) {caller : Caller}
    (client_eq : state.client = .evicting caller ref)
    (session : Session (state.evict caller ref)) : Isolated (state.evict caller ref) := by
  have alive : state.alive ref := by
    rw [Runner.alive_iff, client_eq]
    exact .inr (.inr (.inr rfl))
  rcases Runner.evict_cases caller ref state with
    ⟨waits, -⟩ | ⟨oldest, last, -, complete, evicts⟩ | ⟨-, proceeds⟩
  · rwa [waits]
  · rw [evicts] at session ⊢
    exact isolated.evictOldest last complete session
  · cases caller with
    | load statuses failed =>
        rw [proceeds] at session ⊢
        have dropped : Isolated (state.goTo (.loading statuses failed)) :=
          isolated.drops { session with } (.goTo state rfl) rfl rfl rfl rfl (.inl rfl) (.inl rfl)
        apply isolated.releases dropped (.goTo state rfl) (List.Subset.refl _) _
          (isolated.known ref alive) (.inl alive)
        intro other after
        exact .inl (alive_of_goTo _ rfl after)
    | schedule =>
        rw [proceeds] at session ⊢
        apply isolated.drops session (.goTo state rfl) rfl rfl rfl rfl
        · rw [client_eq]
          exact .inr rfl
        · rw [client_eq]
          exact .inr rfl

theorem schedule (isolated : Isolated state) (idle : state.client.scheduled = none)
    (fresh : state.freshFlag env) (kind : Kind) (id arguments : ByteString) (timeout : BitVec 32)
    (replaceEol : Bool)
    (session : Session (state.schedule env kind id arguments timeout replaceEol)) :
    Isolated (state.schedule env kind id arguments timeout replaceEol) := by
  let constructed := state.construct env kind arguments timeout replaceEol ⟨id, 0, [], .unknown⟩
  have before : Isolated constructed :=
    isolated.construct kind arguments timeout replaceEol _ (isolated.session.construct idle ..)
  have unflagged : constructed.isCanceled state.next = false :=
    construct_fresh fresh kind arguments timeout replaceEol _
  have below : state.next < constructed.next := Nat.lt_succ_self _
  have refuses : ∀ status, Session ((constructed.reply status).release state.next) →
      Isolated ((constructed.reply status).release state.next) := by
    intro status session
    have dropped : Isolated (constructed.reply status) :=
      before.drops { session with } (.reply ..) rfl rfl rfl rfl (.inl rfl) (.inl rfl)
    apply before.releases dropped (.reply ..) (List.Subset.refl _) _ below (.inr unflagged)
    intro other after
    exact .inl (alive_of_goTo .idle rfl after)
  rw [Runner.schedule] at session ⊢
  cases found : state.commandMap[id]? with
  | some cached =>
      have found' : constructed.commandMap[id]? = some cached := found
      simp only [constructed] at found'
      simp only [found'] at session ⊢
      split at session
      · rename_i same
        rw [if_pos same]
        exact refuses 0 session
      · rename_i different
        rw [if_neg different]
        exact refuses einval session
  | none =>
      have found' : constructed.commandMap[id]? = none := found
      simp only [constructed] at found'
      simp only [found'] at session ⊢
      apply before.changes session (.goTo constructed rfl) rfl rfl (some state.next)
      · rintro _ ⟨⟩
        exact .inr ⟨below, unflagged⟩
      · exact fun _ => .inl
      · exact fun _ _ => .inl
      · rintro _ ⟨⟩
        exact .inr rfl
      · rintro _ ⟨⟩
        right
        simp [Runner.goTo, Runner.construct]

theorem updateLoaded (isolated : Isolated state) (idle : state.client.scheduled = none)
    (arguments : Arguments)
    (fresh : (state.partialCommand env arguments.id).isNone ∨ state.freshFlag env)
    (session : Session (state.updateLoaded env arguments)) :
    Isolated (state.updateLoaded env arguments) := by
  rw [Runner.updateLoaded] at session ⊢
  cases partial_eq : state.partialCommand env arguments.id with
  | none => exact isolated
  | some loaded =>
      have fresh : state.freshFlag env := by
        rcases fresh with none | fresh
        · simp [partial_eq] at none
        · exact fresh
      have mapped : state.commandMap[arguments.id]? = some loaded := by
        rw [Runner.partialCommand] at partial_eq
        split at partial_eq
        · exact (Option.filter_eq_some_iff.mp partial_eq).1
        · cases partial_eq
      simp only [partial_eq] at session ⊢
      let constructed := state.construct env .command arguments.arguments arguments.timeout
        arguments.singleLineTextResult { (state.object loaded).status with id := arguments.id }
      let replaced := { constructed with
        commandMap := constructed.commandMap.insert arguments.id state.next }
      have before : Isolated constructed :=
        isolated.construct _ _ _ _ _ (isolated.session.construct idle ..)
      have unflagged : constructed.isCanceled state.next = false :=
        construct_fresh fresh _ _ _ _ _
      have stores : constructed.Extends replaced := .storeMap constructed _
      have remapped : ∀ (id : ByteString) ref, replaced.commandMap[id]? = some ref →
          constructed.commandMap[id]? = some ref ∨
            some state.next = some ref ∧ replaced.idOf ref = id := by
        intro id ref found
        simp only [replaced, Std.ExtTreeMap.getElem?_insert] at found
        split at found
        · rename_i same
          cases found
          refine .inr ⟨rfl, ?_⟩
          rw [← Std.LawfulEqCmp.eq_of_compare same]
          exact construct_idOf ..
        · exact .inl found
      have replacedSession : Session replaced := { session with }
      have after : Isolated replaced := by
        apply before.changes replacedSession stores rfl rfl (some state.next)
        · rintro _ ⟨⟩
          exact .inr ⟨Nat.lt_succ_self _, unflagged⟩
        · exact fun _ => .inl
        · exact remapped
        · exact fun _ => .inl
        · exact fun _ => .inl
      have loadedAlive := isolated.alive_of_mapped mapped
      have loadedBelow := isolated.known loaded loadedAlive
      apply before.releases after stores (List.Subset.refl _) _
        (loadedBelow.trans (Nat.lt_succ_self _)) (.inl (before.alive_of_mapped mapped))
      intro ref alive
      rw [Runner.alive_iff] at alive
      rcases alive with buffered | found | held | atHand
      · exact .inl (Runner.alive_iff.mpr (.inl buffered))
      · rcases remapped _ ref found with unchanged | ⟨new, -⟩
        · exact .inl (before.alive_of_mapped unchanged)
        · cases new
          exact .inr unflagged
      · exact .inl (Runner.alive_iff.mpr (.inr (.inr (.inl held))))
      · exact .inl (Runner.alive_iff.mpr (.inr (.inr (.inr atHand))))

theorem set (isolated : Isolated state) (idle : state.client = .idle)
    (componentName objectName payload : ByteString)
    (met : isolating env state (.set componentName objectName payload)) :
    Isolated (state.set env componentName objectName payload) := by
  have session : Session (state.set env componentName objectName payload) :=
    isolated.session.set idle componentName objectName payload
  rw [Runner.set] at session ⊢
  cases parsed : env.parse payload with
  | none =>
      simp only [parsed] at session
      exact isolated.drops session (.reply ..) rfl rfl rfl rfl (.inl rfl) (.inl rfl)
  | some document =>
      simp only [isolating, parsed, Bool.or_eq_true, decide_eq_true_eq] at met
      simp only [parsed] at session ⊢
      split at session
      · rename_i component
        rw [if_pos component]
        split at session
        · rename_i object
          rw [if_pos object]
          let arguments := Arguments.deserialize document
          have fresh : (state.partialCommand env arguments.id).isNone ∨ state.freshFlag env := by
            rcases met with ((otherComponent | otherObject) | none) | fresh
            · exact absurd component otherComponent
            · exact absurd object otherObject
            · exact .inl none
            · exact .inr fresh
          have serving : state.client.destroying = false := isolated.session.serving
          have extended : state.Extends (state.updateLoaded env arguments) :=
            .updateLoaded arguments state
          have client_eq := Runner.updateLoaded_client env arguments state
          have updated : Session (state.updateLoaded env arguments) := by
            apply isolated.session.serves_idle extended
            · apply isolated.session.toCoordinated.serves_started extended serving
              rw [idle]
              rfl
            · rw [client_eq]
              exact id
            · exact Runner.updateLoaded_cacheBuffer env arguments state
            · rw [client_eq, idle]
              rfl
          have before := isolated.updateLoaded (by rw [idle]; rfl) arguments fresh updated
          exact before.drops session (.goTo _ rfl) rfl rfl rfl rfl (.inl rfl) (.inl rfl)
        · rename_i object
          rw [if_neg object]
          exact isolated.drops session (.reply ..) rfl rfl rfl rfl (.inl rfl) (.inl rfl)
      · rename_i component
        rw [if_neg component]
        exact isolated.drops session (.reply ..) rfl rfl rfl rfl (.inl rfl) (.inl rfl)

/-- A request is answered, and may have created the file of its command. -/
theorem records (isolated : Isolated state) (session : Session state')
    (extended : state.Extends state') {id : ByteString} {before : State} {status : ℤ}
    (history : state'.history = .cancel id ref before status :: state.history)
    (alive : ∀ ref, state'.alive ref → state.alive ref)
    (map : state'.commandMap = state.commandMap) (files : state.files ⊆ state'.files)
    (flagged : ∀ other, state.alive other → state'.isCanceled other → state.isCanceled other ∨
      other = ref ∧ status = 0)
    (owns : status = 0 → state'.isCanceled ref → ∀ other, state.alive other →
      (state.object other).tmpFile = (state.object ref).tmpFile → other = ref)
    (mapped : state.commandMap[id]? = some ref) (idle : state'.client.scheduled = none)
    (doomed : before = .unknown → status = 0 → .started ref ∉ state.history →
      (state.object ref).kind = .command ∧ state'.isCanceled ref ∧
        some ref ∈ state.commandQueue) : Isolated state' := by
  have object : ∀ ref, state.alive ref → state'.object ref = state.object ref := by
    intro ref before
    exact extended.object ref (isolated.known ref before)
  have below : ∀ ref, state.worker.current = some ref → ref < state.next := by
    intro ref current
    exact (isolated.session.queued ref (isolated.session.current_mem current)).1
  have refAlive := isolated.alive_of_mapped mapped
  have kept : ∀ other, state.alive other → state.isCanceled other → state'.isCanceled other := by
    intro other otherAlive canceled
    rw [Runner.isCanceled, decide_eq_true_eq] at canceled
    rw [Runner.isCanceled, object other otherAlive, decide_eq_true_eq]
    exact files canceled
  constructor
  · exact session
  · intro other after
    exact (isolated.known other (alive other after)).trans_le extended.next
  · rw [map]
    intro other found other_eq
    rw [Runner.idOf, object found (isolated.alive_of_mapped other_eq)]
    exact isolated.map other found other_eq
  · intro first other after otherAfter same canceled
    have firstAlive := alive first after
    have otherAlive := alive other otherAfter
    rw [object first firstAlive, object other otherAlive] at same
    rcases flagged first firstAlive canceled with flag | ⟨rfl, zero⟩
    · exact isolated.unique first other firstAlive otherAlive same flag
    · exact (owns zero canceled other otherAlive same.symm).symm
  · rw [history]
    intro other after canceled
    have otherAlive := alive other after
    rw [Runner.idOf, object other otherAlive]
    rcases flagged other otherAlive canceled with flag | ⟨rfl, rfl⟩
    · exact (isolated.accepted other otherAlive flag).cons _
    · refine ⟨before, ?_⟩
      rw [← Runner.idOf, isolated.map id other mapped]
      exact List.mem_cons_self
  · rw [extended.worker, history]
    intro other textResult returned kind
    have lt := below other (by rw [returned]; rfl)
    rw [extended.object other lt] at kind
    rw [Runner.idOf, extended.object other lt]
    exact (isolated.returned other textResult returned kind).cons _
  · rw [extended.worker, history]
    intro other begun
    exact List.mem_cons_of_mem _ (isolated.begun other begun)
  · rw [extended.worker, history]
    intro other done
    rcases isolated.done other done with ⟨last, finished⟩
    exact ⟨last, List.mem_cons_of_mem _ finished⟩
  · rw [extended.worker, extended.commandQueue]
    intro other queued
    rw [extended.object other (isolated.session.queued other queued).1]
    exact isolated.unset other queued
  · rw [idle]
    rintro _ ⟨⟩
  · rw [history]
    intro other earlier within
    rcases List.suffix_cons_iff.mp within with equal | inside
    · cases equal
    · have recorded : .finished other .canceled ∈ state.history :=
        inside.subset List.mem_cons_self
      rw [Runner.idOf, extended.object other (isolated.session.finished other _ recorded).1]
      exact isolated.canceled other earlier inside
  · rw [history, extended.commandQueue]
    intro other otherDoomed
    have notFinished : ∀ {last}, .finished other last ∈
        (.cancel id ref before status :: state.history : List Event) →
        .finished other last ∈ state.history := by
      intro last recorded
      rcases List.mem_cons.mp recorded with equal | earlier
      · cases equal
      · exact earlier
    have notStarted : .started other ∈ (.cancel id ref before status :: state.history : List Event) →
        .started other ∈ state.history := by
      intro recorded
      rcases List.mem_cons.mp recorded with equal | earlier
      · cases equal
      · exact earlier
    rcases doomed_cons.mp otherDoomed with earlier | ⟨⟨_, equal⟩, started, finished⟩
    · rcases isolated.doomed other earlier with ⟨lt, started, finished, waits⟩
      refine ⟨lt.trans_le extended.next, fun recorded => started (notStarted recorded), ?_, ?_⟩
      · intro last recorded
        exact finished last (notFinished recorded)
      · intro unfinished
        rcases waits fun last recorded => unfinished last (List.mem_cons_of_mem _ recorded) with
          ⟨kind, flag, queued⟩
        refine ⟨?_, kept other (isolated.session.alive_of_mem queued) flag, queued⟩
        rw [extended.object other lt]
        exact kind
    · cases equal
      rcases doomed rfl rfl started with ⟨kind, flag, queued⟩
      refine ⟨(isolated.known ref refAlive).trans_le extended.next,
        fun recorded => started (notStarted recorded), ?_, ?_⟩
      · intro last recorded
        exact absurd (notFinished recorded) (finished last)
      · intro _
        rw [object ref refAlive]
        exact ⟨kind, flag, queued⟩

theorem cancel (isolated : Isolated state) (created : Bool)
    (id : ByteString) (met : state.cancellable created id)
    (session : Session (state.cancel created id)) : Isolated (state.cancel created id) := by
  have extended := Runner.Extends.cancel created id state
  rw [Runner.cancel] at session extended ⊢
  cases mapped : state.commandMap[id]? with
  | none =>
      simp only [mapped] at session
      exact isolated.drops session (.reply ..) rfl rfl rfl rfl (.inl rfl) (.inl rfl)
  | some ref =>
      have refAlive := isolated.alive_of_mapped mapped
      by_cases accepts : (state.object ref).status.state ≠ .canceled ∧ ¬ state.isCanceled ref
      · have result : state.cancelCommand created ref = (0, { state with
            files := if created then (state.object ref).tmpFile :: state.files
              else state.files }) := by
          rw [Runner.cancelCommand, if_pos accepts]
        simp only [Runner.cancellable, mapped, if_pos accepts, Bool.and_eq_true, Bool.or_eq_true,
          Bool.not_eq_true', decide_eq_true_eq] at met
        rcases met with ⟨owns, reaches⟩
        simp only [mapped, result] at session extended ⊢
        apply isolated.records session extended rfl _ rfl _ _ _ mapped rfl
        · intro before_eq _ started
          have notStarted : state.notStarted ref := by
            simp only [Runner.notStarted, before_eq, decide_true, Bool.true_and, decide_eq_true_eq]
            intro cleared
            exact started (isolated.begun ref (by rw [cleared]; rfl))
          rcases reaches with impossible | ⟨⟨rfl, kind⟩, queued⟩
          · simp [notStarted] at impossible
          · exact ⟨kind, by simp [Runner.isCanceled, Runner.reply], queued⟩
        · intro other after
          exact alive_of_goTo .idle rfl after
        · simp only [Runner.reply]
          split
          · exact List.subset_cons_self _ _
          · exact List.Subset.refl _
        · intro other otherAlive canceled
          cases created with
          | false => exact .inl canceled
          | true =>
              simp only [Runner.isCanceled, Runner.reply, if_true, List.mem_cons,
                decide_eq_true_eq] at canceled
              rcases canceled with same | flag
              · right
                refine ⟨?_, rfl⟩
                rcases owns with impossible | owns
                · cases impossible
                · exact Runner.eq_of_ownsFlag owns (isolated.known other otherAlive) otherAlive same
              · exact .inl (by simpa [Runner.isCanceled] using flag)
        · intro _ canceled other otherAlive same
          rcases owns with rfl | owns
          · exact absurd canceled accepts.2
          · exact Runner.eq_of_ownsFlag owns (isolated.known other otherAlive) otherAlive same
      · have result : state.cancelCommand created ref = (ecanceled, state) := by
          rw [Runner.cancelCommand, if_neg accepts]
        simp only [mapped, result] at session extended ⊢
        apply isolated.records session extended rfl _ rfl (List.Subset.refl _) _ _ mapped rfl
        · rintro _ ⟨⟩
        · intro other after
          exact alive_of_goTo .idle rfl after
        · intro other _ canceled
          exact .inl canceled
        · rintro ⟨⟩

theorem dispatch (isolated : Isolated state) {input : Runner.Input} {payloadHash : BitVec 64}
    {arguments : Arguments} (client_eq : state.client = .dispatching payloadHash arguments)
    (met : isolating env state (.client input))
    (session : Session (state.dispatch env input.created payloadHash arguments)) :
    Isolated (state.dispatch env input.created payloadHash arguments) := by
  have idle : state.client.scheduled = none := by rw [client_eq]; rfl
  let hashed : Runner := { state with lastPayloadHash := payloadHash }
  have hashedSession : Session hashed := { isolated.session with }
  have before : Isolated hashed :=
    isolated.drops hashedSession { Runner.Extends.refl state with } rfl rfl rfl rfl (.inr rfl)
      (.inr rfl)
  rw [Runner.dispatch] at session ⊢
  split at session
  · rename_i new
    rw [if_pos new]
    simp only [isolating, client_eq, Bool.or_eq_true, decide_eq_true_eq] at met
    replace met := met.resolve_left new
    cases action_eq : arguments.action with
    | runCommand =>
        simp only [action_eq] at met session ⊢
        exact before.schedule idle met _ _ _ _ _ session
    | reboot =>
        simp only [action_eq] at met session ⊢
        exact before.schedule idle met _ _ _ _ _ session
    | shutdown =>
        simp only [action_eq] at met session ⊢
        exact before.schedule idle met _ _ _ _ _ session
    | cancelCommand =>
        simp only [action_eq] at met session ⊢
        exact before.cancel _ _ met session
    | refreshCommandStatus =>
        simp only [action_eq] at session ⊢
        rw [Runner.refresh] at session ⊢
        split at session
        · rename_i present
          rw [if_pos present]
          exact before.drops session { Runner.Extends.refl hashed with serving := fun _ => rfl } rfl
            rfl rfl rfl (.inl rfl) (.inl rfl)
        · rename_i absent
          rw [if_neg absent]
          exact before.drops session (.reply ..) rfl rfl rfl rfl (.inl rfl) (.inl rfl)
    | none =>
        simp only [action_eq] at session ⊢
        exact before.drops session (.reply ..) rfl rfl rfl rfl (.inl rfl) (.inl rfl)
    | other value =>
        simp only [action_eq] at session ⊢
        exact before.drops session (.reply ..) rfl rfl rfl rfl (.inl rfl) (.inl rfl)
  · rename_i repeated
    rw [if_neg repeated]
    exact isolated.drops session (.reply ..) rfl rfl rfl rfl (.inl rfl) (.inl rfl)

theorem advances (isolated : Isolated state) (session : Session state')
    (object : state'.object = state.object) (next : state'.next = state.next)
    (files : state'.files = state.files) (history : state'.history = state.history)
    (map : state'.commandMap = state.commandMap)
    (alive : ∀ ref, state'.alive ref → state.alive ref)
    (queue : state.commandQueue ⊆ state'.commandQueue)
    (returned : ∀ ref exitCode textResult, state'.worker ≠ .returned ref exitCode textResult ∨
      state'.worker = state.worker)
    (begun : ∀ ref, state'.worker.begun = some ref → state.worker.begun = some ref)
    (done : ∀ ref, state'.worker.done = some ref → state.worker.done = some ref)
    (unset : ∀ ref, some ref ∈ state'.commandQueue → state'.worker.done ≠ some ref →
      (state.object ref).status.state ≠ .canceled)
    (idle : state'.client.scheduled = none) : Isolated state' := by
  have same : ∀ ref, state'.isCanceled ref = state.isCanceled ref := by
    intro ref
    rw [Runner.isCanceled, object, files, Runner.isCanceled]
  have idOf : ∀ ref, state'.idOf ref = state.idOf ref := by
    intro ref
    rw [Runner.idOf, object, Runner.idOf]
  constructor
  · exact session
  · intro ref after
    rw [next]
    exact isolated.known ref (alive ref after)
  · rw [map]
    intro id ref found
    rw [idOf]
    exact isolated.map id ref found
  · rw [object]
    intro ref other after otherAfter equal canceled
    rw [same] at canceled
    exact isolated.unique ref other (alive ref after) (alive other otherAfter) equal canceled
  · rw [history]
    intro ref after canceled
    rw [same] at canceled
    rw [idOf]
    exact isolated.accepted ref (alive ref after) canceled
  · rw [history, object]
    intro ref textResult position
    rw [idOf]
    rcases returned ref ecanceled textResult with impossible | worker
    · exact absurd position impossible
    · exact isolated.returned ref textResult (worker ▸ position)
  · rw [history]
    intro ref position
    exact isolated.begun ref (begun ref position)
  · rw [history]
    intro ref position
    exact isolated.done ref (done ref position)
  · rw [object]
    exact unset
  · rw [idle]
    rintro _ ⟨⟩
  · rw [history]
    intro ref earlier within
    rw [idOf]
    exact isolated.canceled ref earlier within
  · rw [history, next, object]
    intro ref doomed
    rcases isolated.doomed ref doomed with ⟨lt, started, finished, waits⟩
    refine ⟨lt, started, finished, ?_⟩
    intro unfinished
    rcases waits unfinished with ⟨kind, flag, queued⟩
    exact ⟨kind, by rwa [same], queue queued⟩

theorem clientStep (isolated : Isolated state) {input : Runner.Input}
    (met : isolating env state (.client input)) (taken : state.clientStep env input = some state') :
    Isolated state' := by
  have session := isolated.session.clientStep taken
  have serving := isolated.session.serving
  cases Runner.served taken with
  | loads client_eq =>
      have empty := isolated.session.constructing (by rw [client_eq]; rfl)
      apply isolated.advances session rfl rfl rfl rfl rfl
      · intro ref after
        rw [Runner.alive_iff] at after ⊢
        rcases after with buffered | found | held | atHand
        · exact .inl buffered
        · exact .inr (.inl found)
        · cases held
        · cases atHand
      · exact List.Subset.refl _
      · intro _ _ _
        exact .inl (by simp [Runner.load])
      · rintro _ ⟨⟩
      · rintro _ ⟨⟩
      · intro ref queued
        change some ref ∈ state.commandQueue at queued
        simp [empty] at queued
      · rfl
  | @constructs status _ _ client_eq =>
      simp only [isolating, client_eq] at met
      have before : Isolated (state.construct env .command [] 0 true status) :=
        isolated.construct _ _ _ _ _
          (isolated.session.construct (by rw [client_eq]; rfl) ..)
      apply before.cacheCommand _ session (Nat.lt_succ_self _)
      · exact .inr (construct_fresh met ..)
      · rintro ⟨⟩
  | dispatches client_eq => exact isolated.dispatch client_eq met session
  | @caches ref client_eq _ =>
      have alive : state.alive ref := by
        rw [Runner.alive_iff, client_eq]
        exact .inr (.inr (.inr rfl))
      apply isolated.cacheCommand _ session (isolated.known ref alive) (.inl alive)
      intro _
      rw [client_eq]
      rfl
  | @refuses ref client_eq _ =>
      have alive : state.alive ref := by
        rw [Runner.alive_iff, client_eq]
        exact .inr (.inr (.inr rfl))
      have dropped : Isolated (state.reply input.persisted) :=
        isolated.drops { session with } (.reply ..) rfl rfl rfl rfl (.inl rfl) (.inl rfl)
      apply isolated.releases dropped (.reply ..) (List.Subset.refl _) _
        (isolated.known ref alive) (.inl alive)
      intro other after
      exact .inl (alive_of_goTo .idle rfl after)
  | evicts client_eq => exact isolated.evict client_eq session
  | @pushes ref client_eq =>
      have alive : state.alive ref := by
        rw [Runner.alive_iff, client_eq]
        exact .inr (.inr (.inr rfl))
      let pushed := { state with commandQueue := state.commandQueue ++ [some ref] }.reply 0
      have weaker : ∀ other, pushed.alive other → state.alive other := by
        intro other after
        exact alive_of_goTo .idle rfl after
      have pushedSession : Session pushed := { session with }
      have pushedIsolated : Isolated pushed := by
        apply isolated.advances pushedSession rfl rfl rfl rfl rfl weaker
        · exact List.subset_append_left _ _
        · exact fun _ _ _ => .inr rfl
        · exact fun _ => id
        · exact fun _ => id
        · intro other queued done
          rcases List.mem_append.mp queued with before | new
          · exact isolated.unset other before done
          · cases List.mem_singleton.mp new
            apply isolated.unsetScheduled ref
            rw [client_eq]
            rfl
        · rfl
      apply pushedIsolated.release
      intro other after canceled same
      exact isolated.unique other ref (weaker other after) alive same canceled
  | closes at_ | pops at_ | cancels at_ | drops at_ | ends at_ | joins at_ =>
      simp [at_, Client.destroying] at serving

/-- A command that ends as cancelled after a step of the worker has been asked to. -/
theorem canceled_workerStep (isolated : Isolated state) {outcome : Runner.Outcome}
    (taken : state.workerStep outcome = some state')
    (finishes : ∀ ref, state'.worker = .executed ref →
      (state'.object ref).status.state = .canceled →
        Accepted state.history (state.idOf ref) ref) {earlier : List Event}
    (within : (.finished ref .canceled :: earlier) <:+ state'.history) :
    Accepted earlier (state.idOf ref) ref := by
  rcases Runner.workerStep_history taken with
    ⟨history, -⟩ | ⟨other, -, -, history⟩ | ⟨other, -, executed, history⟩
  · rw [history] at within
    exact isolated.canceled ref earlier within
  · rw [history] at within
    rcases List.suffix_cons_iff.mp within with equal | inside
    · cases equal
    · exact isolated.canceled ref earlier inside
  · rw [history] at within
    rcases List.suffix_cons_iff.mp within with equal | inside
    · simp only [List.cons.injEq, Event.finished.injEq] at equal
      rcases equal with ⟨⟨rfl, canceled⟩, rfl⟩
      exact finishes ref executed canceled.symm
    · exact isolated.canceled ref earlier inside

theorem doomed_workerStep (isolated : Isolated state) {outcome : Runner.Outcome}
    (taken : state.workerStep outcome = some state')
    (starts : ∀ ref, state.worker = .taken ref → state'.worker = .cleared ref →
      state.isCanceled ref = false)
    (cancels : ∀ ref, state'.worker = .executed ref → state.worker.begun ≠ some ref →
      (state.object ref).kind = .command → (state'.object ref).status.state = .canceled)
    (doomed : Doomed state'.history ref) :
    Doomed state.history ref ∧ .started ref ∉ state'.history ∧
      ∀ last, .finished ref last ∈ state'.history → last = .canceled := by
  -- A command at hand that is not done has not finished before.
  have unfinished : ∀ {ref}, state.worker.current = some ref → state.worker.done = none →
      ∀ last, .finished ref last ∉ state.history := by
    intro ref current done last recorded
    have queued := isolated.session.current_mem current
    rw [(isolated.session.finished ref last recorded).2.1 queued] at done
    cases done
  rcases Runner.workerStep_history taken with
    ⟨history, -⟩ | ⟨other, taken_eq, cleared, history⟩ | ⟨other, current, executed, history⟩
  · rw [history] at doomed ⊢
    rcases isolated.doomed ref doomed with ⟨-, started, finished, -⟩
    exact ⟨doomed, started, finished⟩
  · rw [history] at doomed ⊢
    rcases doomed_cons.mp doomed with earlier | ⟨⟨_, equal⟩, -⟩
    · rcases isolated.doomed ref earlier with ⟨-, started, finished, waits⟩
      refine ⟨earlier, ?_, ?_⟩
      · intro recorded
        rcases List.mem_cons.mp recorded with equal | before
        · cases equal
          have flag := (waits (unfinished (by rw [taken_eq]; rfl) (by rw [taken_eq]; rfl))).2.1
          simp [starts ref taken_eq cleared] at flag
        · exact started before
      · intro last recorded
        rcases List.mem_cons.mp recorded with equal | before
        · cases equal
        · exact finished last before
    · cases equal
  · rw [history] at doomed ⊢
    rcases doomed_cons.mp doomed with earlier | ⟨⟨_, equal⟩, -⟩
    · rcases isolated.doomed ref earlier with ⟨-, started, finished, waits⟩
      refine ⟨earlier, ?_, ?_⟩
      · intro recorded
        rcases List.mem_cons.mp recorded with equal | before
        · cases equal
        · exact started before
      · intro last recorded
        rcases List.mem_cons.mp recorded with equal | before
        · cases equal
          apply cancels ref executed
          · intro begun
            exact started (isolated.begun ref begun)
          · exact (waits (unfinished current (Runner.workerStep_executed taken executed))).1
        · exact finished last before
    · cases equal

theorem works (isolated : Isolated state) {outcome : Runner.Outcome}
    (taken : state.workerStep outcome = some state')
    (owner : ∀ ref, state'.worker.command = some ref → state.alive ref)
    (files : state'.files ⊆ state.files)
    (kept : ∀ ref, state.alive ref → state'.alive ref → state.worker.begun ≠ some ref →
      state.isCanceled ref → state'.isCanceled ref)
    (returned : ∀ ref textResult, state'.worker = .returned ref ecanceled textResult →
      (state.object ref).kind = .command → Accepted state.history (state.idOf ref) ref)
    (begun : ∀ ref, state'.worker.begun = some ref → .started ref ∈ state'.history)
    (done : ∀ ref, state'.worker.done = some ref → ∃ last, .finished ref last ∈ state'.history)
    (unset : ∀ ref, state.worker.current = some ref → some ref ∈ state'.commandQueue →
      state'.worker.done ≠ some ref → (state'.object ref).status.state ≠ .canceled)
    (starts : ∀ ref, state.worker = .taken ref → state'.worker = .cleared ref →
      state.isCanceled ref = false)
    (finishes : ∀ ref, state'.worker = .executed ref →
      ((state'.object ref).status.state = .canceled →
        Accepted state.history (state.idOf ref) ref) ∧
      (state.worker.begun ≠ some ref → (state.object ref).kind = .command →
        (state'.object ref).status.state = .canceled)) : Isolated state' := by
  have session := isolated.session.workerStep taken
  have works := Runner.Works.workerStep taken
  have queue := Runner.workerStep_queue taken
  have idOf : ∀ ref, state'.idOf ref = state.idOf ref := works.id
  have alive : ∀ ref, state'.alive ref → state.alive ref := by
    intro ref after
    rcases Runner.alive_iff.mp after with buffered | found | held | atHand
    · rw [works.cacheBuffer] at buffered
      exact Runner.alive_iff.mpr (.inl buffered)
    · rw [works.commandMap, idOf] at found
      exact Runner.alive_iff.mpr (.inr (.inl found))
    · exact owner ref held
    · rw [works.client] at atHand
      exact Runner.alive_iff.mpr (.inr (.inr (.inr atHand)))
  have flagged : ∀ ref, state'.isCanceled ref → state.isCanceled ref := by
    intro ref canceled
    rw [Runner.isCanceled, works.tmpFile, decide_eq_true_eq] at canceled
    rw [Runner.isCanceled, decide_eq_true_eq]
    exact files canceled
  have recordsMore : state.history ⊆ state'.history := by
    rcases Runner.workerStep_history taken with
      ⟨history, -⟩ | ⟨_, -, -, history⟩ | ⟨_, -, -, history⟩
    · rw [history]
      exact List.Subset.refl _
    · rw [history]
      exact List.subset_cons_self _ _
    · rw [history]
      exact List.subset_cons_self _ _
  have grows : ∀ {id ref}, Accepted state.history id ref → Accepted state'.history id ref := by
    rintro id ref ⟨before, requested⟩
    exact ⟨before, recordsMore requested⟩
  constructor
  · exact session
  · rw [works.next]
    intro ref after
    exact isolated.known ref (alive ref after)
  · rw [works.commandMap]
    intro id ref found
    rw [idOf]
    exact isolated.map id ref found
  · intro ref other after otherAfter same canceled
    rw [works.tmpFile, works.tmpFile] at same
    exact isolated.unique ref other (alive ref after) (alive other otherAfter) same
      (flagged ref canceled)
  · intro ref after canceled
    rw [idOf]
    exact grows (isolated.accepted ref (alive ref after) (flagged ref canceled))
  · intro ref textResult position kind
    rw [works.kind] at kind
    rw [idOf]
    exact grows (returned ref textResult position kind)
  · exact begun
  · exact done
  · intro ref queued notDone
    by_cases current : state.worker.current = some ref
    · exact unset ref current queued notDone
    · rw [works.object ref current]
      apply isolated.unset ref (queue.subset queued)
      intro before
      exact current (Worker.current_of_done before)
  · rw [works.client]
    intro ref scheduled
    rw [works.object ref]
    · exact isolated.unsetScheduled ref scheduled
    · intro current
      exact (isolated.session.scheduled ref scheduled).2.1 (isolated.session.current_mem current)
  · intro ref earlier within
    rw [idOf]
    exact isolated.canceled_workerStep taken (fun ref executed => (finishes ref executed).1) within
  · intro ref doomed
    rcases isolated.doomed_workerStep taken starts
      (fun ref executed => (finishes ref executed).2) doomed with ⟨before, started, finished⟩
    rcases isolated.doomed ref before with ⟨lt, notStarted, -, waits⟩
    refine ⟨works.next ▸ lt, started, finished, ?_⟩
    intro unfinished
    have unfinishedBefore : ∀ last, .finished ref last ∉ state.history := by
      intro last recorded
      exact unfinished last (recordsMore recorded)
    rcases waits unfinishedBefore with ⟨kind, flag, queued⟩
    have queued' : some ref ∈ state'.commandQueue := by
      rcases Runner.workerStep_cases taken with
        ⟨_, _, _, -, -, -, same⟩ | ⟨_, _, _, -, -, -, -, same⟩ | ⟨_, -, -, -, same⟩ |
        ⟨other, head, popping, queue_eq, -⟩
      · rwa [same]
      · rwa [same]
      · rwa [same]
      · have front := isolated.session.front other (by rw [popping]; rfl)
        rw [queue_eq] at front queued
        cases front
        rcases List.mem_cons.mp queued with equal | later
        · cases equal
          rcases isolated.done ref (by rw [popping]; rfl) with ⟨last, recorded⟩
          exact absurd recorded (unfinishedBefore last)
        · exact later
    refine ⟨by rw [works.kind, kind], ?_, queued'⟩
    apply kept ref (isolated.session.alive_of_mem queued) (session.alive_of_mem queued') _ flag
    intro begun
    exact notStarted (isolated.begun ref begun)

theorem alive_of_current (current : state.worker.current = some ref) : state.alive ref :=
  Runner.alive_iff.mpr (.inr (.inr (.inl (Worker.command_of_current current))))

theorem works_quietly (isolated : Isolated state) {outcome : Runner.Outcome}
    (taken : state.workerStep outcome = some state')
    (owner : ∀ ref, state'.worker.command = some ref → state.alive ref)
    (files : state'.files = state.files) (history : state'.history = state.history)
    (returned : ∀ ref textResult, state'.worker = .returned ref ecanceled textResult →
      (state.object ref).kind = .command → Accepted state.history (state.idOf ref) ref)
    (begun : ∀ ref, state'.worker.begun = some ref → state.worker.begun = some ref)
    (done : ∀ ref, state'.worker.done = some ref → state.worker.done = some ref)
    (unset : ∀ ref, state.worker.current = some ref → some ref ∈ state'.commandQueue →
      state'.worker.done ≠ some ref → (state'.object ref).status.state ≠ .canceled) :
    Isolated state' := by
  have works := Runner.Works.workerStep taken
  apply isolated.works taken owner _ _ returned _ _ unset
  · intro ref taken_eq cleared
    have before := begun ref (by rw [cleared]; rfl)
    rw [taken_eq] at before
    cases before
  · intro ref executed
    have before := done ref (by rw [executed]; rfl)
    rw [Runner.workerStep_executed taken executed] at before
    cases before
  · rw [files]
    exact List.Subset.refl _
  · intro ref _ _ _ canceled
    rwa [Runner.isCanceled, works.tmpFile, files, ← Runner.isCanceled]
  · rw [history]
    intro ref position
    exact isolated.begun ref (begun ref position)
  · rw [history]
    intro ref position
    exact isolated.done ref (done ref position)

theorem fronts (isolated : Isolated state) {previous : Option Ref}
    (fronting : state.worker = .fronting previous) {outcome : Runner.Outcome} {worker : Worker}
    (taken : state.workerStep outcome = some ({ state with worker }.releaseAny previous))
    (owner : ∀ ref, worker.command = some ref → state.alive ref)
    (idle : worker.begun = none ∧ worker.done = none) :
    Isolated ({ state with worker }.releaseAny previous) := by
  have same : ({ state with worker }.releaseAny previous).worker = worker := by
    rw [Runner.releaseAny_eq]
  have before : ∀ gone, previous = some gone → state.alive gone := by
    rintro gone rfl
    exact Runner.alive_iff.mpr (.inr (.inr (.inl (by rw [fronting]; rfl))))
  apply isolated.works taken
  · rwa [same]
  · cases previous with
    | none => exact List.Subset.refl _
    | some gone => exact release_files_subset _ gone
  · intro ref alive after _ canceled
    cases previous with
    | none => exact canceled
    | some gone =>
        change (({ state with worker } : Runner).release gone).isCanceled ref
        apply isCanceled_release
        · exact after
        · exact canceled
        · intro equal
          exact isolated.unique ref gone alive (before gone rfl) equal canceled
  · rw [same]
    rintro ref textResult rfl
    cases idle.1
  · rw [same, idle.1]
    rintro _ ⟨⟩
  · rw [same, idle.2]
    rintro _ ⟨⟩
  · rw [fronting]
    rintro _ ⟨⟩
  · rw [fronting]
    rintro _ ⟨⟩
  · rw [same]
    rintro ref rfl
    cases idle.2

/-- `Execute` returns. -/
theorem finishes (isolated : Isolated state) (current : state.worker.current = some ref)
    {outcome : Runner.Outcome} {set : Runner}
    (taken : state.workerStep outcome = some (set.finish ref)) (files : set.files = state.files)
    (accepted : (set.object ref).status.state = .canceled →
      Accepted state.history (state.idOf ref) ref)
    (cancels : state.worker.begun ≠ some ref → (state.object ref).kind = .command →
      (set.object ref).status.state = .canceled) : Isolated (set.finish ref) := by
  have works := Runner.Works.workerStep taken
  apply isolated.works taken
  · rintro _ ⟨⟩
    exact alive_of_current current
  · exact files ▸ List.Subset.refl _
  · intro other _ _ _ canceled
    have same : (set.finish ref).files = state.files := files
    rwa [Runner.isCanceled, works.tmpFile, same, ← Runner.isCanceled]
  · rintro _ _ ⟨⟩
  · rintro _ ⟨⟩
  · rintro _ ⟨⟩
    exact ⟨_, List.mem_cons_self⟩
  · intro other atHand _ notDone
    rw [current] at atHand
    exact absurd atHand notDone
  · rintro _ _ ⟨⟩
  · rintro _ ⟨⟩
    exact ⟨accepted, cancels⟩

theorem workerStep (isolated : Isolated state) {outcome : Runner.Outcome}
    (met : isolating env state (.worker outcome)) (taken : state.workerStep outcome = some state') :
    Isolated state' := by
  have unset (idle : state.worker.done = none) : ∀ other, state.worker.current = some other →
      (state.object other).status.state ≠ .canceled := by
    intro other atHand
    apply isolated.unset other (isolated.session.current_mem atHand)
    rw [idle]
    rintro ⟨⟩
  cases Runner.worked taken with
  | fronts fronting _ alive =>
      apply isolated.fronts fronting taken _ ⟨rfl, rfl⟩
      rintro _ ⟨⟩
      exact alive
  | exits fronting =>
      apply isolated.fronts fronting taken _ ⟨rfl, rfl⟩
      rintro _ ⟨⟩
  | @cancels ref position canceled =>
      have current : state.worker.current = some ref := by rw [position]; rfl
      have accepted := isolated.accepted ref (alive_of_current current) canceled
      apply isolated.finishes current taken rfl fun _ => accepted
      intro _ _
      simp [Runner.setStatus, Command.setStatus]
  | @skips ref position canceled shutdown =>
      have current : state.worker.current = some ref := by rw [position]; rfl
      have accepted := isolated.accepted ref (alive_of_current current) canceled
      apply isolated.finishes current taken rfl fun _ => accepted
      intro _ command
      rw [shutdown] at command
      cases command
  | @starts ref position unflagged =>
      apply isolated.works taken
      · rintro _ ⟨⟩
        exact alive_of_current (by rw [position]; rfl)
      · exact List.Subset.refl _
      · intro _ _ _ _ canceled
        exact canceled
      · rintro _ _ ⟨⟩
      · rintro _ ⟨⟩
        exact List.mem_cons_self
      · rintro _ ⟨⟩
      · intro other atHand _ _
        exact unset (by rw [position]; rfl) other atHand
      · intro other taken_eq _
        rw [position] at taken_eq
        cases taken_eq
        simpa using unflagged
      · rintro _ ⟨⟩
  | @executes ref position =>
      have current : state.worker.current = some ref := by rw [position]; rfl
      apply isolated.works_quietly taken
      · rintro _ ⟨⟩
        exact alive_of_current current
      · rfl
      · rfl
      · rintro _ _ ⟨⟩
      · rw [position]
        exact fun _ => id
      · rintro _ ⟨⟩
      · intro other atHand _ _
        rw [current] at atHand
        cases atHand
        simp only [Runner.setStatus, Function.update_self, Command.setStatus]
        split <;> simp
  | @returns ref exitCode textResult position exits =>
      have alive : state.alive ref := alive_of_current (by rw [position]; rfl)
      simp only [isolating, position, exits, Bool.or_eq_true, decide_eq_true_eq] at met
      apply isolated.works_quietly taken
      · rintro _ ⟨⟩
        exact alive
      · rfl
      · rfl
      · rintro _ _ ⟨⟩ command
        rcases met with (shutdown | other) | canceled
        · rw [shutdown] at command
          cases command
        · exact absurd rfl other
        · exact isolated.accepted ref alive canceled
      · rw [position]
        exact fun _ => id
      · rintro _ ⟨⟩
      · intro other atHand _ _
        exact unset (by rw [position]; rfl) other atHand
  | @aborts ref textResult position _ found =>
      have alive : state.alive ref := alive_of_current (by rw [position]; rfl)
      apply isolated.works taken
      · rintro _ ⟨⟩
        exact alive
      · exact List.filter_sublist.subset
      · intro other otherAlive _ begun canceled
        have different : (state.object other).tmpFile ≠ (state.object ref).tmpFile := by
          intro same
          rw [isolated.unique other ref otherAlive alive same canceled, position] at begun
          exact begun rfl
        simp only [Runner.isCanceled, decide_eq_true_eq] at canceled
        simp [Runner.isCanceled, Runner.removeFile, canceled, different]
      · rintro _ _ ⟨⟩ _
        exact isolated.accepted ref alive found
      · rintro _ ⟨⟩
        apply isolated.begun ref
        rw [position]
        rfl
      · rintro _ ⟨⟩
      · intro other atHand _ _
        exact unset (by rw [position]; rfl) other atHand
      · rintro _ _ ⟨⟩
      · rintro _ ⟨⟩
  | @finishes ref exitCode textResult position command =>
      apply isolated.finishes (by rw [position]; rfl) taken rfl
      · intro canceled
        simp only [Runner.setStatus, Function.update_self, Command.setStatus] at canceled
        apply isolated.returned ref textResult _ command
        rw [position, State.ofExitCode_eq_canceled canceled]
      · intro notBegun
        exact absurd (by rw [position]; rfl) notBegun
  | @shuts ref exitCode textResult position =>
      have current : state.worker.current = some ref := by rw [position]; rfl
      apply isolated.finishes current taken rfl
      · intro canceled
        exact absurd canceled (unset (by rw [position]; rfl) ref current)
      · intro notBegun
        exact absurd (by rw [position]; rfl) notBegun
  | @persists ref position =>
      have current : state.worker.current = some ref := by rw [position]; rfl
      apply isolated.works_quietly taken
      · rintro _ ⟨⟩
        exact alive_of_current current
      · rfl
      · rfl
      · rintro _ _ ⟨⟩
      · rintro _ ⟨⟩
      · rw [position]
        exact fun _ => id
      · intro other atHand _ notDone
        rw [current] at atHand
        exact absurd atHand notDone
  | @pops ref head rest position queue =>
      have current : state.worker.current = some ref := by rw [position]; rfl
      have front := isolated.session.front ref current
      have nodup := isolated.session.nodup
      apply isolated.works_quietly taken
      · rintro _ ⟨⟩
        exact alive_of_current current
      · rfl
      · rfl
      · rintro _ _ ⟨⟩
      · rintro _ ⟨⟩
      · rintro _ ⟨⟩
      · intro other atHand later _
        rw [current] at atHand
        cases atHand
        rw [queue] at front nodup
        cases front
        exact absurd later (List.nodup_cons.mp nodup).1

theorem keeps : Keeps (Taken (step env) fun state move => isolating env state move) Isolated := by
  rintro state state' isolated ⟨move, met, taken⟩
  cases move with
  | tick time =>
      cases taken
      have session : Session { state with clock := time } := { isolated.session with }
      exact isolated.drops session { Runner.Extends.refl state with } rfl rfl rfl rfl (.inr rfl)
        (.inr rfl)
  | set componentName objectName payload =>
      rcases step_set taken with ⟨idle, rfl⟩
      exact isolated.set idle componentName objectName payload met
  | close => cases met
  | client input => exact isolated.clientStep met taken
  | worker outcome => exact isolated.workerStep met taken

theorem start (env : Environment) (clock : ℕ) (files : List ByteString)
    (file : Option ByteString) : Isolated (start env clock files file) := by
  refine ⟨.start env clock files file, ?_, ?_, ?_, ?_, ?_, ?_, ?_, ?_, ?_, ?_, ?_⟩ <;>
    simp [CommandRunner.start, Runner.alive, Worker.command, Worker.begun, Worker.done,
      Client.command, Client.scheduled, Doomed]

end Isolated

end OsConfig.CommandRunner
