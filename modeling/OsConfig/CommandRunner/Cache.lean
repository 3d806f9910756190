import OsConfig.CommandRunner.Session

/-!
# The cache of commands

The map from identifiers, the buffer of cached commands and the identifier of the
reported command are changed by `CacheCommand`, by its eviction loop, by a refresh
and by the update of the command that was loaded from disk. This module says once
what a step of a session can do to them, and notes which commands are accepted and
which are refreshed. In every state of a session the map and the buffer have the
same identifiers. Between calls the buffer has the commands that were accepted
last, and the reported command is the one that was noted last.
-/

namespace OsConfig.CommandRunner

open Transitions

variable {env : Environment} {state state' : Runner} {ref : Ref}

/-- The command for which `CacheCommand` is in its loop. -/
def Client.evicted : Client → Option Ref
  | .evicting _ ref => some ref
  | _ => none

/-- A command that was accepted into the cache, or the identifier of one that was refreshed. -/
inductive Notice where
  | accepted (command : Ref)
  | refreshed (id : ByteString)
  deriving DecidableEq

namespace Notice

def id (state : Runner) : Notice → ByteString
  | .accepted ref => state.idOf ref
  | .refreshed id => id

def command : Notice → Option Ref
  | .accepted ref => some ref
  | .refreshed _ => none

end Notice

namespace Runner

/-- What is noted of a step. -/
def notice (state : Runner) (move : Move) (state' : Runner) : Option Notice :=
  match state.client.evicted, state'.client.evicted with
  | none, some ref => some (.accepted ref)
  | _, _ =>
      match move, state.client with
      | .client _, .dispatching payloadHash arguments =>
          if state.lastPayloadHash ≠ payloadHash ∧ arguments.action = .refreshCommandStatus ∧
              state'.status = 0 then
            some (.refreshed arguments.id)
          else none
      | _, _ => none

/-- Commands that exist keep their identifiers, and all but the one at hand their status. -/
structure Preserves (state state' : Runner) : Prop where
  next : state.next ≤ state'.next
  id : ∀ ref, ref < state.next → state'.idOf ref = state.idOf ref
  object : ∀ ref, ref < state.next → state.worker.current ≠ some ref →
    state'.object ref = state.object ref

theorem Works.preserves (works : state.Works state') : state.Preserves state' where
  next := works.next.ge
  id := fun ref _ => works.id ref
  object := fun ref _ other => works.object ref other

/-- What a step of a session does to the cache, and what is noted of it. -/
inductive CacheStep (state : Runner) (env : Environment) (move : Move) (state' : Runner) :
    Option Notice → Prop where
  | keeps (cacheBuffer : state'.cacheBuffer = state.cacheBuffer)
      (commandMap : state'.commandMap = state.commandMap)
      (reported : state'.reportedStatusId = state.reportedStatusId)
      (loop : state'.client.evicted = state.client.evicted ∨
        state'.client.evicted = none ∧ state.cacheBuffer.length ≤ maxCacheSize) :
      CacheStep state env move state' none
  | accepts (ref : Ref) (below : ref < state'.next) (nonempty : state'.idOf ref ≠ [])
      (absent : state'.idOf ref ∉ state.commandMap)
      (cacheBuffer : state'.cacheBuffer = ref :: state.cacheBuffer)
      (commandMap : state'.commandMap = state.commandMap.insert (state'.idOf ref) ref)
      (reported : state'.reportedStatusId = state'.idOf ref)
      (outside : state.client.evicted = none) (loop : state'.client.evicted = some ref) :
      CacheStep state env move state' (some (.accepted ref))
  | evicts (oldest newest : Ref) (last : state.cacheBuffer.getLast? = some oldest)
      (exceeds : maxCacheSize < state.cacheBuffer.length) (complete : state.isComplete oldest)
      (cacheBuffer : state'.cacheBuffer = state.cacheBuffer.dropLast)
      (commandMap : state'.commandMap = state.commandMap.erase (state.idOf oldest))
      (reported : state'.reportedStatusId = state.reportedStatusId)
      (loop : state.client.evicted = some newest) (loop' : state'.client.evicted = some newest) :
      CacheStep state env move state' none
  | replaces (componentName objectName payload : ByteString) (document : Json)
      (set : move = .set componentName objectName payload)
      (names : componentName = bytes "CommandRunner" ∧ objectName = bytes "commandArguments")
      (parsed : env.parse payload = some document) (id : ByteString)
      (id_eq : (Arguments.deserialize document).id = id) (loaded copy : Ref)
      (loaded_eq : state.partialCommand env id = some loaded)
      (mapped : state.commandMap[id]? = some loaded) (below : copy < state'.next) (new : state.next ≤ copy)
      (status : (state'.object copy).status = { (state.object loaded).status with id })
      (cacheBuffer : state'.cacheBuffer = state.cacheBuffer)
      (commandMap : state'.commandMap = state.commandMap.insert id copy)
      (reported : state'.reportedStatusId = state.reportedStatusId)
      (idle : state.client = .idle) (outside : state'.client.evicted = none) :
      CacheStep state env move state' none
  | refreshes (id : ByteString) (present : id ∈ state.commandMap)
      (cacheBuffer : state'.cacheBuffer = state.cacheBuffer)
      (commandMap : state'.commandMap = state.commandMap)
      (reported : state'.reportedStatusId = id)
      (outside : state.client.evicted = none) (outside' : state'.client.evicted = none) :
      CacheStep state env move state' (some (.refreshed id))

/-- The worker leaves what calls of `Set` remember and answer. -/
theorem workerStep_answers {outcome : Outcome} (taken : state.workerStep outcome = some state') :
    state'.reportedStatusId = state.reportedStatusId ∧
      state'.lastPayloadHash = state.lastPayloadHash ∧ state'.status = state.status := by
  cases worked taken with
  | fronts | exits =>
      rw [releaseAny_eq]
      exact ⟨rfl, rfl, rfl⟩
  | _ => exact ⟨rfl, rfl, rfl⟩

/-- Nothing is noted of a step that does not enter the loop and does not refresh. -/
theorem notice_eq_none {move : Move}
    (loop : state'.client.evicted = state.client.evicted ∨ state'.client.evicted = none)
    (silent : ∀ payloadHash arguments, state.client = .dispatching payloadHash arguments →
      arguments.action = .refreshCommandStatus → state.lastPayloadHash ≠ payloadHash →
        ∀ input, move = .client input → state'.status ≠ 0) : state.notice move state' = none := by
  simp only [notice]
  split
  · rename_i outside inside
    rw [outside, inside] at loop
    simp at loop
  · split
    · rename_i input payloadHash arguments client_eq
      rw [if_neg]
      rintro ⟨new, action_eq, zero⟩
      exact silent payloadHash arguments client_eq action_eq new input rfl zero
    · rfl

theorem notice_eq_accepted {move : Move} (outside : state.client.evicted = none)
    (inside : state'.client.evicted = some ref) :
    state.notice move state' = some (.accepted ref) := by
  simp only [notice, outside, inside]

theorem schedule_keeps (env : Environment) (kind : Kind) (id arguments : ByteString)
    (timeout : BitVec 32) (replaceEol : Bool) (state : Runner) :
    (state.schedule env kind id arguments timeout replaceEol).cacheBuffer = state.cacheBuffer ∧
      (state.schedule env kind id arguments timeout replaceEol).commandMap = state.commandMap ∧
      (state.schedule env kind id arguments timeout replaceEol).reportedStatusId =
        state.reportedStatusId ∧
      (state.schedule env kind id arguments timeout replaceEol).client.evicted = none := by
  rw [schedule]
  split
  · split <;> exact ⟨rfl, rfl, rfl, rfl⟩
  · exact ⟨rfl, rfl, rfl, rfl⟩

theorem cancel_keeps (created : Bool) (id : ByteString) (state : Runner) :
    (state.cancel created id).cacheBuffer = state.cacheBuffer ∧
      (state.cancel created id).commandMap = state.commandMap ∧
      (state.cancel created id).reportedStatusId = state.reportedStatusId ∧
      (state.cancel created id).client.evicted = none := by
  rw [cancel]
  split
  · simp only [cancelCommand]
    split <;> exact ⟨rfl, rfl, rfl, rfl⟩
  · exact ⟨rfl, rfl, rfl, rfl⟩

namespace CacheStep

theorem workerStep {outcome : Outcome} (taken : state.workerStep outcome = some state') :
    CacheStep state env (.worker outcome) state' (state.notice (.worker outcome) state') := by
  have works := Works.workerStep taken
  have same : state'.client.evicted = state.client.evicted := by rw [works.client]
  rw [notice_eq_none (.inl same)]
  · exact keeps works.cacheBuffer works.commandMap (workerStep_answers taken).1 (.inl same)
  · rintro _ _ _ _ _ _ ⟨⟩

theorem keeps_outside {move : Move} (cacheBuffer : state'.cacheBuffer = state.cacheBuffer)
    (commandMap : state'.commandMap = state.commandMap)
    (reported : state'.reportedStatusId = state.reportedStatusId)
    (outside : state.client.evicted = none) (outside' : state'.client.evicted = none)
    (silent : ∀ payloadHash arguments, state.client = .dispatching payloadHash arguments →
      arguments.action = .refreshCommandStatus → state.lastPayloadHash ≠ payloadHash →
        state'.status ≠ 0) : CacheStep state env move state' (state.notice move state') := by
  rw [notice_eq_none (.inr outside')]
  · exact keeps cacheBuffer commandMap reported (.inl (outside'.trans outside.symm))
  · intro payloadHash arguments client_eq action_eq new _ _
    exact silent payloadHash arguments client_eq action_eq new

/-- `CacheCommand` takes the command or refuses it. -/
theorem cacheCommand {caller : Caller} {move : Move} {before : Runner}
    (buffer : state.cacheBuffer = before.cacheBuffer) (map : state.commandMap = before.commandMap)
    (reported : state.reportedStatusId = before.reportedStatusId)
    (outside : before.client.evicted = none)
    (silent : ∀ payloadHash arguments, before.client ≠ .dispatching payloadHash arguments)
    (below : ref < state.next) :
    CacheStep before env move (state.cacheCommand caller ref)
      (before.notice move (state.cacheCommand caller ref)) := by
  have refused : CacheStep before env move (state.refuse caller ref)
      (before.notice move (state.refuse caller ref)) := by
    apply keeps_outside _ _ _ outside
    · cases caller <;> rfl
    · intro payloadHash arguments client_eq
      exact absurd client_eq (silent payloadHash arguments)
    · rw [← buffer]
      cases caller <;> rfl
    · rw [← map]
      cases caller <;> rfl
    · rw [← reported]
      cases caller <;> rfl
  rw [Runner.cacheCommand]
  split
  · rename_i nonempty
    split
    · rename_i absent
      rw [notice_eq_accepted outside rfl]
      refine accepts ref below nonempty ?_ ?_ ?_ rfl outside rfl
      · rw [← map]
        exact absent
      · rw [← buffer]
      · rw [← map]
        rfl
    · exact refused
  · exact refused

theorem evict {caller : Caller} {move : Move} (client_eq : state.client = .evicting caller ref) :
    CacheStep state env move (state.evict caller ref)
      (state.notice move (state.evict caller ref)) := by
  have inside : state.client.evicted = some ref := by rw [client_eq]; rfl
  have silent : ∀ payloadHash arguments, state.client = .dispatching payloadHash arguments →
      arguments.action = .refreshCommandStatus → state.lastPayloadHash ≠ payloadHash →
        ∀ input, move = .client input → (state.evict caller ref).status ≠ 0 := by
    simp [client_eq]
  rcases evict_cases caller ref state with
    ⟨waits, -⟩ | ⟨oldest, last, exceeds, complete, evicts_eq⟩ | ⟨fits, proceeds⟩
  · rw [notice_eq_none (.inl (by rw [waits])) silent, waits]
    exact keeps rfl rfl rfl (.inl rfl)
  · have same : (state.evictOldest oldest).client = state.client := evictOldest_client oldest state
    rw [notice_eq_none (.inl (by rw [evicts_eq, same])) silent, evicts_eq]
    apply evicts oldest ref last exceeds complete (evictOldest_cacheBuffer oldest state)
    · rw [evictOldest, releaseAny_eq]
      rfl
    · rw [evictOldest, releaseAny_eq]
      rfl
    · exact inside
    · rw [same]
      exact inside
  · cases caller with
    | load statuses failed =>
        rw [notice_eq_none (.inr (by rw [proceeds]; rfl)) silent, proceeds]
        exact keeps rfl rfl rfl (.inr ⟨rfl, fits⟩)
    | schedule =>
        rw [notice_eq_none (.inr (by rw [proceeds]; rfl)) silent, proceeds]
        exact keeps rfl rfl rfl (.inr ⟨rfl, fits⟩)

theorem dispatch {input : Input} {payloadHash : BitVec 64} {arguments : Arguments}
    (client_eq : state.client = .dispatching payloadHash arguments) :
    CacheStep state env (.client input) (state.dispatch env input.created payloadHash arguments)
      (state.notice (.client input)
        (state.dispatch env input.created payloadHash arguments)) := by
  have outside : state.client.evicted = none := by rw [client_eq]; rfl
  -- A request of another kind, or the same payload again.
  have other : ∀ after : Runner, after.cacheBuffer = state.cacheBuffer →
      after.commandMap = state.commandMap → after.reportedStatusId = state.reportedStatusId →
      after.client.evicted = none →
      (arguments.action = .refreshCommandStatus → state.lastPayloadHash ≠ payloadHash →
        after.status ≠ 0) →
      CacheStep state env (.client input) after (state.notice (.client input) after) := by
    intro after cacheBuffer commandMap reported outside' silent
    apply keeps_outside cacheBuffer commandMap reported outside outside'
    intro _ _ position action_eq new
    rw [client_eq] at position
    cases position
    exact silent action_eq new
  have scheduled : ∀ (kind : Kind) (text : ByteString) (timeout : BitVec 32) (replaceEol : Bool),
      arguments.action ≠ .refreshCommandStatus →
      CacheStep state env (.client input)
        ({ state with lastPayloadHash := payloadHash }.schedule env kind arguments.id text timeout
          replaceEol)
        (state.notice (.client input)
          ({ state with lastPayloadHash := payloadHash }.schedule env kind arguments.id text timeout
            replaceEol)) := by
    intro kind text timeout replaceEol different
    rcases schedule_keeps env kind arguments.id text timeout replaceEol
      { state with lastPayloadHash := payloadHash } with ⟨cacheBuffer, commandMap, reported, outside'⟩
    exact other _ cacheBuffer commandMap reported outside' (fun refresh => absurd refresh different)
  rw [Runner.dispatch]
  split
  · rename_i new
    cases action_eq : arguments.action with
    | runCommand => exact scheduled _ _ _ _ (by simp [action_eq])
    | reboot => exact scheduled _ _ _ _ (by simp [action_eq])
    | shutdown => exact scheduled _ _ _ _ (by simp [action_eq])
    | cancelCommand =>
        rcases cancel_keeps input.created arguments.id
          { state with lastPayloadHash := payloadHash } with
          ⟨cacheBuffer, commandMap, reported, outside'⟩
        exact other _ cacheBuffer commandMap reported outside' (by simp [action_eq])
    | refreshCommandStatus =>
        simp only [refresh]
        split
        · rename_i present
          have noted : state.notice (.client input)
              ({ state with lastPayloadHash := payloadHash, reportedStatusId := arguments.id }.reply
                0) = some (.refreshed arguments.id) := by
            simp [notice, client_eq, Client.evicted, reply, new, action_eq]
          rw [noted]
          exact refreshes arguments.id present rfl rfl rfl outside rfl
        · refine other _ rfl rfl rfl rfl ?_
          intro _ _
          simp [reply, einval]
    | none => exact other _ rfl rfl rfl rfl (by simp [action_eq])
    | other value => exact other _ rfl rfl rfl rfl (by simp [action_eq])
  · rename_i repeated
    exact other _ rfl rfl rfl rfl (fun _ new => absurd new repeated)

theorem set (idle : state.client = .idle) (componentName objectName payload : ByteString) :
    CacheStep state env (.set componentName objectName payload)
      (state.set env componentName objectName payload)
      (state.notice (.set componentName objectName payload)
        (state.set env componentName objectName payload)) := by
  have outside : state.client.evicted = none := by rw [idle]; rfl
  have unchanged : ∀ after : Runner, after.cacheBuffer = state.cacheBuffer →
      after.commandMap = state.commandMap → after.reportedStatusId = state.reportedStatusId →
      after.client.evicted = none →
      CacheStep state env (.set componentName objectName payload) after
        (state.notice (.set componentName objectName payload) after) := by
    intro after cacheBuffer commandMap reported outside'
    apply keeps_outside cacheBuffer commandMap reported outside outside'
    simp [idle]
  rw [Runner.set]
  split
  · exact unchanged _ rfl rfl rfl rfl
  · split
    · split
      · rename_i document parsed component object
        cases loaded_eq : state.partialCommand env (Arguments.deserialize document).id with
        | none =>
            simp only [updateLoaded, loaded_eq]
            exact unchanged _ rfl rfl rfl rfl
        | some loaded =>
            simp only [updateLoaded, loaded_eq]
            have mapped : state.commandMap[(Arguments.deserialize document).id]? = some loaded := by
              rw [partialCommand] at loaded_eq
              split at loaded_eq
              · exact (Option.filter_eq_some_iff.mp loaded_eq).1
              · cases loaded_eq
            rw [notice_eq_none (.inr rfl) (by simp [idle])]
            refine replaces componentName objectName payload document rfl ⟨component, object⟩ parsed _
              rfl loaded state.next loaded_eq mapped (Nat.lt_succ_self _) (le_refl _) ?_ rfl rfl rfl
              idle rfl
            simp [goTo, release, construct]
      · exact unchanged _ rfl rfl rfl rfl
    · exact unchanged _ rfl rfl rfl rfl

end CacheStep

end Runner

theorem Session.cacheStep (session : Session state) {move : Move} (met : inSession move)
    (taken : step env state move = some state') :
    state.CacheStep env move state' (state.notice move state') := by
  cases move with
  | tick time =>
      cases taken
      have silent : state.notice (.tick time) { state with clock := time } = none := by
        refine Runner.notice_eq_none (.inl rfl) ?_
        rintro _ _ _ _ _ _ ⟨⟩
      rw [silent]
      exact .keeps rfl rfl rfl (.inl rfl)
  | set componentName objectName payload =>
      rcases step_set taken with ⟨idle, rfl⟩
      exact .set idle componentName objectName payload
  | close => cases met
  | worker outcome => exact .workerStep taken
  | client input =>
      have serving := session.serving
      cases Runner.served taken with
      | loads client_eq =>
          refine .keeps_outside rfl rfl rfl ?_ rfl ?_
          · rw [client_eq]
            rfl
          · simp [client_eq]
      | constructs client_eq =>
          refine .cacheCommand rfl rfl rfl ?_ ?_ (Nat.lt_succ_self _)
          · rw [client_eq]
            rfl
          · simp [client_eq]
      | dispatches client_eq => exact .dispatch client_eq
      | @caches ref client_eq _ =>
          have below := (session.scheduled ref (by rw [client_eq]; rfl)).1
          refine .cacheCommand rfl rfl rfl ?_ ?_ below
          · rw [client_eq]
            rfl
          · simp [client_eq]
      | @refuses ref client_eq _ =>
          have below := (session.scheduled ref (by rw [client_eq]; rfl)).1
          refine .keeps_outside rfl rfl rfl ?_ rfl ?_
          · rw [client_eq]
            rfl
          · simp [client_eq]
      | evicts client_eq => exact .evict client_eq
      | pushes client_eq =>
          refine .keeps_outside rfl rfl rfl ?_ rfl ?_
          · rw [client_eq]
            rfl
          · simp [client_eq]
      | closes at_ | pops at_ | cancels at_ | drops at_ | ends at_ | joins at_ =>
          simp [at_, Client.destroying] at serving

theorem Session.step_cases (session : Session state) {move : Move} (met : inSession move)
    (taken : step env state move = some state') :
    (∃ outcome, move = .worker outcome ∧ state.workerStep outcome = some state') ∨
      state.next ≤ state'.next ∧
        (∀ ref, ref < state.next → state'.object ref = state.object ref) ∧
        (state'.worker = state.worker ∨
          state.commandQueue = [] ∧ state'.worker = .fronting none) := by
  cases move with
  | tick time =>
      cases taken
      exact .inr ⟨le_refl _, fun _ _ => rfl, .inl rfl⟩
  | set componentName objectName payload =>
      rcases step_set taken with ⟨-, rfl⟩
      have extended : state.Extends (state.set env componentName objectName payload) :=
        .set componentName objectName payload state
      exact .inr ⟨extended.next, extended.object, .inl extended.worker⟩
  | close => cases met
  | worker outcome => exact .inl ⟨outcome, rfl, taken⟩
  | client input =>
      rcases Runner.clientStep_cases session.serving taken with
        ⟨failed, loading⟩ | ⟨ref, pushing, -, -⟩ | extended
      · simp only [step, Runner.clientStep, loading, Option.some.injEq] at taken
        subst taken
        have empty := session.constructing (by rw [loading]; rfl)
        exact .inr ⟨le_refl _, fun _ _ => rfl, .inr ⟨empty, rfl⟩⟩
      · simp only [step, Runner.clientStep, pushing, Option.some.injEq] at taken
        subst taken
        exact .inr ⟨le_refl _, fun _ _ => rfl, .inl rfl⟩
      · exact .inr ⟨extended.next, extended.object, .inl extended.worker⟩

theorem Session.preserves (session : Session state) {move : Move} (met : inSession move)
    (taken : step env state move = some state') : state.Preserves state' := by
  rcases session.step_cases met taken with ⟨outcome, -, works⟩ | ⟨next, object, -⟩
  · exact (Runner.Works.workerStep works).preserves
  · refine ⟨next, ?_, fun ref below _ => object ref below⟩
    intro ref below
    rw [Runner.idOf, object ref below, Runner.idOf]

/-- A step pushes nothing but the command of the call at hand. -/
theorem Session.queued_of_step (session : Session state) {move : Move} (met : inSession move)
    (taken : step env state move = some state') (queued : some ref ∈ state'.commandQueue) :
    some ref ∈ state.commandQueue ∨ state.client = .pushing ref := by
  cases move with
  | tick time =>
      cases taken
      exact .inl queued
  | set componentName objectName payload =>
      rcases step_set taken with ⟨-, rfl⟩
      have extended : state.Extends (state.set env componentName objectName payload) :=
        .set componentName objectName payload state
      rw [extended.commandQueue] at queued
      exact .inl queued
  | close => cases met
  | worker outcome => exact .inl ((Runner.workerStep_queue taken).subset queued)
  | client input =>
      rcases Runner.clientStep_cases session.serving taken with
        ⟨failed, loading⟩ | ⟨other, pushing, queue, -⟩ | extended
      · simp only [step, Runner.clientStep, loading, Option.some.injEq] at taken
        subst taken
        exact .inl queued
      · rw [queue] at queued
        rcases List.mem_append.mp queued with before | pushed
        · exact .inl before
        · cases List.mem_singleton.mp pushed
          exact .inr pushing
      · rw [extended.commandQueue] at queued
        exact .inl queued

/-- A step with what is noted of it. The latest notice is the first. -/
def noticingStep (env : Environment) (state : Runner × List Notice) (move : Move) :
    Option (Runner × List Notice) :=
  (step env state.1 move).map fun state' =>
    (state', (state.1.notice move state').toList ++ state.2)

/-- The commands that were accepted, latest first. -/
def accepted (notices : List Notice) : List Ref :=
  notices.filterMap Notice.command

/-- What holds between the map, the buffer, the reported identifier and the notices. -/
structure Consistent (state : Runner) (notices : List Notice) : Prop where
  session : Session state
  nonempty : ∀ ref ∈ state.cacheBuffer, state.idOf ref ≠ []
  nodup : (state.cacheBuffer.map state.idOf).Nodup
  keys : ∀ id, id ∈ state.commandMap ↔ id ∈ state.cacheBuffer.map state.idOf
  mapped : ∀ (id : ByteString) ref, state.commandMap[id]? = some ref →
    ref < state.next ∧ state.idOf ref = id
  recent : state.cacheBuffer <+: accepted notices
  full : state.cacheBuffer = accepted notices ∨ maxCacheSize ≤ state.cacheBuffer.length
  bounded : state.client.evicted = none → state.cacheBuffer.length ≤ maxCacheSize
  newest : ∀ ref, state.client.evicted = some ref →
    state.cacheBuffer.head? = some ref ∧ state.reportedStatusId = state.idOf ref
  noted : ∀ ref, notices.head? = some (.accepted ref) → ref < state.next
  reported : ∀ notice, notices.head? = some notice →
    state.reportedStatusId = notice.id state ∧ state.reportedStatusId ∈ state.commandMap

namespace Consistent

variable {notices : List Notice}

theorem mem_of_mapped (consistent : Consistent state notices) {id : ByteString}
    (found : state.commandMap[id]? = some ref) :
    ∃ cached ∈ state.cacheBuffer, state.idOf cached = id := by
  have present : id ∈ state.commandMap := by
    rw [Std.ExtTreeMap.mem_iff_isSome_getElem?, found]
    rfl
  rw [consistent.keys] at present
  simpa using present

theorem map_idOf (consistent : Consistent state notices) (preserved : state.Preserves state') :
    state.cacheBuffer.map state'.idOf = state.cacheBuffer.map state.idOf := by
  apply List.map_congr_left
  intro ref buffered
  exact preserved.id ref (consistent.session.lt ref buffered)

/-- The notices say the same after a step of which nothing is noted. -/
theorem noticed (consistent : Consistent state notices) (preserved : state.Preserves state')
    (reported : state'.reportedStatusId = state.reportedStatusId)
    (present : state.reportedStatusId ∈ state.commandMap →
      state.reportedStatusId ∈ state'.commandMap) :
    (∀ ref, notices.head? = some (.accepted ref) → ref < state'.next) ∧
      ∀ notice, notices.head? = some notice →
        state'.reportedStatusId = notice.id state' ∧
          state'.reportedStatusId ∈ state'.commandMap := by
  constructor
  · intro ref head
    exact (consistent.noted ref head).trans_le preserved.next
  · intro notice head
    rcases consistent.reported notice head with ⟨equal, mem⟩
    rw [reported]
    refine ⟨?_, present mem⟩
    rw [equal]
    cases notice with
    | accepted ref => exact (preserved.id ref (consistent.noted ref head)).symm
    | refreshed id => rfl

theorem keeps (consistent : Consistent state notices) (session : Session state')
    (preserved : state.Preserves state') (cacheBuffer : state'.cacheBuffer = state.cacheBuffer)
    (commandMap : state'.commandMap = state.commandMap)
    (reported : state'.reportedStatusId = state.reportedStatusId)
    (loop : state'.client.evicted = state.client.evicted ∨
      state'.client.evicted = none ∧ state.cacheBuffer.length ≤ maxCacheSize) :
    Consistent state' notices := by
  rcases consistent.noticed preserved reported (by rw [commandMap]; exact id) with ⟨noted, latest⟩
  refine ⟨session, ?_, ?_, ?_, ?_, ?_, ?_, ?_, ?_, noted, latest⟩
  · rw [cacheBuffer]
    intro ref buffered
    rw [preserved.id ref (consistent.session.lt ref buffered)]
    exact consistent.nonempty ref buffered
  · rw [cacheBuffer, consistent.map_idOf preserved]
    exact consistent.nodup
  · rw [cacheBuffer, commandMap, consistent.map_idOf preserved]
    exact consistent.keys
  · rw [commandMap]
    intro id ref found
    rcases consistent.mapped id ref found with ⟨below, equal⟩
    exact ⟨below.trans_le preserved.next, (preserved.id ref below).trans equal⟩
  · rw [cacheBuffer]
    exact consistent.recent
  · rw [cacheBuffer]
    exact consistent.full
  · rw [cacheBuffer]
    intro outside
    rcases loop with same | ⟨-, fits⟩
    · exact consistent.bounded (same ▸ outside)
    · exact fits
  · rw [cacheBuffer, reported]
    intro ref inside
    rcases loop with same | ⟨outside, -⟩
    · rcases consistent.newest ref (same ▸ inside) with ⟨head, equal⟩
      refine ⟨head, ?_⟩
      rw [equal, preserved.id ref]
      exact consistent.session.lt ref (List.mem_of_mem_head? head)
    · rw [outside] at inside
      cases inside

theorem accepts (consistent : Consistent state notices) (session : Session state')
    (preserved : state.Preserves state') (below : ref < state'.next)
    (nonempty : state'.idOf ref ≠ []) (absent : state'.idOf ref ∉ state.commandMap)
    (cacheBuffer : state'.cacheBuffer = ref :: state.cacheBuffer)
    (commandMap : state'.commandMap = state.commandMap.insert (state'.idOf ref) ref)
    (reported : state'.reportedStatusId = state'.idOf ref)
    (loop : state'.client.evicted = some ref) :
    Consistent state' (.accepted ref :: notices) := by
  have ids : state'.cacheBuffer.map state'.idOf =
      state'.idOf ref :: state.cacheBuffer.map state.idOf := by
    rw [cacheBuffer, List.map_cons, consistent.map_idOf preserved]
  have log : accepted (.accepted ref :: notices) = ref :: accepted notices := rfl
  refine ⟨session, ?_, ?_, ?_, ?_, ?_, ?_, ?_, ?_, ?_, ?_⟩
  · rw [cacheBuffer]
    intro other buffered
    rcases List.mem_cons.mp buffered with rfl | before
    · exact nonempty
    · rw [preserved.id other (consistent.session.lt other before)]
      exact consistent.nonempty other before
  · rw [ids, List.nodup_cons, ← consistent.keys]
    exact ⟨absent, consistent.nodup⟩
  · intro id
    rw [ids, commandMap, Std.ExtTreeMap.mem_insert, List.mem_cons, consistent.keys,
      Std.compare_eq_iff_eq, eq_comm]
  · intro id other found
    rw [commandMap, Std.ExtTreeMap.getElem?_insert] at found
    split at found
    · rename_i equal
      cases found
      exact ⟨below, by simpa using equal⟩
    · rcases consistent.mapped id other found with ⟨lt, equal⟩
      exact ⟨lt.trans_le preserved.next, (preserved.id other lt).trans equal⟩
  · rw [cacheBuffer, log]
    exact (List.prefix_cons_inj ref).mpr consistent.recent
  · rw [cacheBuffer, log]
    rcases consistent.full with all | enough
    · exact .inl (by rw [all])
    · right
      rw [List.length_cons]
      omega
  · rw [loop]
    rintro ⟨⟩
  · rw [loop, cacheBuffer, reported]
    rintro _ ⟨⟩
    exact ⟨rfl, rfl⟩
  · rintro _ ⟨⟩
    exact below
  · rintro _ ⟨⟩
    refine ⟨reported, ?_⟩
    rw [reported, commandMap]
    exact Std.ExtTreeMap.mem_insert_self

theorem evicts (consistent : Consistent state notices) (session : Session state')
    (preserved : state.Preserves state') {oldest newest : Ref}
    (last : state.cacheBuffer.getLast? = some oldest)
    (exceeds : maxCacheSize < state.cacheBuffer.length)
    (cacheBuffer : state'.cacheBuffer = state.cacheBuffer.dropLast)
    (commandMap : state'.commandMap = state.commandMap.erase (state.idOf oldest))
    (reported : state'.reportedStatusId = state.reportedStatusId)
    (loop : state.client.evicted = some newest) (loop' : state'.client.evicted = some newest) :
    Consistent state' notices := by
  rcases consistent.newest newest loop with ⟨head, latest⟩
  -- The buffer is long enough for its first and its last command to be different.
  obtain ⟨others, buffer_eq⟩ : ∃ others, state.cacheBuffer = newest :: others ++ [oldest] := by
    rw [List.getLast?_eq_some_iff] at last
    rcases last with ⟨front, equal⟩
    cases front with
    | nil => simp [equal, maxCacheSize] at exceeds
    | cons first others =>
        rw [equal] at head
        cases head
        exact ⟨others, equal⟩
  have dropped : state'.cacheBuffer = newest :: others := by
    rw [cacheBuffer, buffer_eq, List.dropLast_concat]
  have nodup := consistent.nodup
  have keys := consistent.keys
  rw [buffer_eq, List.map_append, List.nodup_append] at nodup
  have different : ∀ ref ∈ newest :: others, state.idOf ref ≠ state.idOf oldest := by
    intro ref mem
    exact nodup.2.2 _ (List.mem_map_of_mem mem) _ (by simp)
  have subset : ∀ ref ∈ newest :: others, ref < state.next := by
    intro ref mem
    exact consistent.session.lt ref (buffer_eq ▸ List.mem_append_left _ mem)
  have ids : (newest :: others).map state'.idOf = (newest :: others).map state.idOf := by
    apply List.map_congr_left
    intro ref mem
    exact preserved.id ref (subset ref mem)
  have newestLatest : state.reportedStatusId ∈ state.commandMap →
      state.reportedStatusId ∈ state'.commandMap := by
    intro present
    rw [commandMap, Std.ExtTreeMap.mem_erase]
    refine ⟨?_, present⟩
    rw [latest]
    simpa using (different newest List.mem_cons_self).symm
  rcases consistent.noticed preserved reported newestLatest with ⟨noted, noticed⟩
  refine ⟨session, ?_, ?_, ?_, ?_, ?_, ?_, ?_, ?_, noted, noticed⟩
  · rw [dropped]
    intro ref mem
    rw [preserved.id ref (subset ref mem)]
    exact consistent.nonempty ref (buffer_eq ▸ List.mem_append_left _ mem)
  · rw [dropped, ids]
    exact nodup.1
  · intro id
    rw [dropped, ids, commandMap, Std.ExtTreeMap.mem_erase, keys, buffer_eq, List.map_append,
      List.mem_append, List.map_singleton, List.mem_singleton]
    constructor
    · rintro ⟨other, kept | equal⟩
      · exact kept
      · simp [equal] at other
    · intro kept
      refine ⟨?_, .inl kept⟩
      rcases List.mem_map.mp kept with ⟨ref, mem, rfl⟩
      simpa using (different ref mem).symm
  · rw [commandMap]
    intro id ref found
    rw [Std.ExtTreeMap.getElem?_erase] at found
    split at found
    · cases found
    · rcases consistent.mapped id ref found with ⟨lt, equal⟩
      exact ⟨lt.trans_le preserved.next, (preserved.id ref lt).trans equal⟩
  · rw [cacheBuffer]
    exact (List.dropLast_prefix _).trans consistent.recent
  · right
    rw [cacheBuffer, List.length_dropLast]
    omega
  · rw [loop']
    rintro ⟨⟩
  · rw [loop', dropped, reported]
    rintro _ ⟨⟩
    refine ⟨rfl, ?_⟩
    rw [latest, preserved.id newest (subset newest List.mem_cons_self)]

theorem replaces (consistent : Consistent state notices) (session : Session state')
    (preserved : state.Preserves state') {id : ByteString} {loaded copy : Ref}
    (mapped : state.commandMap[id]? = some loaded) (below : copy < state'.next)
    (status : (state'.object copy).status = { (state.object loaded).status with id })
    (cacheBuffer : state'.cacheBuffer = state.cacheBuffer)
    (commandMap : state'.commandMap = state.commandMap.insert id copy)
    (reported : state'.reportedStatusId = state.reportedStatusId) (idle : state.client = .idle)
    (outside : state'.client.evicted = none) : Consistent state' notices := by
  have present : id ∈ state.commandMap := by
    rw [Std.ExtTreeMap.mem_iff_isSome_getElem?, mapped]
    rfl
  have keys : ∀ other, other ∈ state'.commandMap ↔ other ∈ state.commandMap := by
    intro other
    rw [commandMap, Std.ExtTreeMap.mem_insert, Std.compare_eq_iff_eq]
    constructor
    · rintro (rfl | before)
      · exact present
      · exact before
    · exact .inr
  rcases consistent.noticed preserved reported (keys _).mpr with ⟨noted, noticed⟩
  refine ⟨session, ?_, ?_, ?_, ?_, ?_, ?_, ?_, ?_, noted, noticed⟩
  · rw [cacheBuffer]
    intro ref buffered
    rw [preserved.id ref (consistent.session.lt ref buffered)]
    exact consistent.nonempty ref buffered
  · rw [cacheBuffer, consistent.map_idOf preserved]
    exact consistent.nodup
  · intro other
    rw [keys, cacheBuffer, consistent.map_idOf preserved]
    exact consistent.keys other
  · intro other ref found
    rw [commandMap, Std.ExtTreeMap.getElem?_insert] at found
    split at found
    · rename_i equal
      cases found
      refine ⟨below, ?_⟩
      rw [Runner.idOf, Command.id, status]
      simpa using equal
    · rcases consistent.mapped other ref found with ⟨lt, equal⟩
      exact ⟨lt.trans_le preserved.next, (preserved.id ref lt).trans equal⟩
  · rw [cacheBuffer]
    exact consistent.recent
  · rw [cacheBuffer]
    exact consistent.full
  · rw [cacheBuffer]
    intro _
    exact consistent.bounded (by rw [idle]; rfl)
  · rw [outside]
    rintro _ ⟨⟩

theorem refreshes (consistent : Consistent state notices) (session : Session state')
    (preserved : state.Preserves state') {id : ByteString} (present : id ∈ state.commandMap)
    (cacheBuffer : state'.cacheBuffer = state.cacheBuffer)
    (commandMap : state'.commandMap = state.commandMap) (reported : state'.reportedStatusId = id)
    (outside : state.client.evicted = none) (outside' : state'.client.evicted = none) :
    Consistent state' (.refreshed id :: notices) := by
  have log : accepted (.refreshed id :: notices) = accepted notices := rfl
  refine ⟨session, ?_, ?_, ?_, ?_, ?_, ?_, ?_, ?_, ?_, ?_⟩
  · rw [cacheBuffer]
    intro ref buffered
    rw [preserved.id ref (consistent.session.lt ref buffered)]
    exact consistent.nonempty ref buffered
  · rw [cacheBuffer, consistent.map_idOf preserved]
    exact consistent.nodup
  · rw [cacheBuffer, commandMap, consistent.map_idOf preserved]
    exact consistent.keys
  · rw [commandMap]
    intro other ref found
    rcases consistent.mapped other ref found with ⟨below, equal⟩
    exact ⟨below.trans_le preserved.next, (preserved.id ref below).trans equal⟩
  · rw [cacheBuffer, log]
    exact consistent.recent
  · rw [cacheBuffer, log]
    exact consistent.full
  · rw [cacheBuffer]
    intro _
    exact consistent.bounded outside
  · rw [outside']
    rintro _ ⟨⟩
  · rintro _ ⟨⟩
  · rintro _ ⟨⟩
    rw [reported, commandMap]
    exact ⟨rfl, present⟩

theorem cacheStep (consistent : Consistent state notices) (session : Session state')
    (preserved : state.Preserves state') {move : Move} {notice : Option Notice}
    (change : state.CacheStep env move state' notice) :
    Consistent state' (notice.toList ++ notices) := by
  cases change with
  | keeps cacheBuffer commandMap reported loop =>
      exact consistent.keeps session preserved cacheBuffer commandMap reported loop
  | accepts ref below nonempty absent cacheBuffer commandMap reported outside loop =>
      exact consistent.accepts session preserved below nonempty absent cacheBuffer commandMap
        reported loop
  | evicts oldest newest last exceeds complete cacheBuffer commandMap reported loop loop' =>
      exact consistent.evicts session preserved last exceeds cacheBuffer commandMap reported loop
        loop'
  | replaces _ _ _ _ _ _ _ id _ loaded copy _ mapped below _ status cacheBuffer commandMap reported
      idle outside =>
      exact consistent.replaces session preserved mapped below status cacheBuffer commandMap
        reported idle outside
  | refreshes id present cacheBuffer commandMap reported outside outside' =>
      exact consistent.refreshes session preserved present cacheBuffer commandMap reported outside
        outside'

theorem kept : Keeps (Taken (noticingStep env) fun _ move => inSession move)
    fun state => Consistent state.1 state.2 := by
  rintro ⟨state, notices⟩ final consistent ⟨move, met, taken⟩
  rcases Option.map_eq_some_iff.mp taken with ⟨state', step_eq, rfl⟩
  have session : Session state' :=
    Session.keeps state state' consistent.session ⟨move, met, step_eq⟩
  exact consistent.cacheStep session (consistent.session.preserves met step_eq)
    (consistent.session.cacheStep met step_eq)

theorem start (env : Environment) (clock : ℕ) (files : List ByteString)
    (file : Option ByteString) : Consistent (start env clock files file) [] := by
  refine ⟨.start env clock files file, ?_, ?_, ?_, ?_, ?_, ?_, ?_, ?_, ?_, ?_⟩ <;>
    simp [CommandRunner.start, accepted, Client.evicted]

theorem cacheBuffer_eq (consistent : Consistent state notices)
    (outside : state.client.evicted = none) :
    state.cacheBuffer = (accepted notices).take maxCacheSize := by
  have bounded := consistent.bounded outside
  rcases consistent.full with all | enough
  · rw [← all, List.take_of_length_le bounded]
  · have length_eq : state.cacheBuffer.length = maxCacheSize := le_antisymm bounded enough
    rw [← length_eq]
    exact List.prefix_iff_eq_take.mp consistent.recent

/-- The invariant of the cache along a session, whatever is noted of it. -/
theorem next {notices : List Notice} (consistent : Consistent state notices)
    {move : Move} (met : inSession move) (taken : step env state move = some state') :
    ∃ notices, Consistent state' notices := by
  have session : Session state' :=
    Session.keeps state state' consistent.session ⟨move, met, taken⟩
  exact ⟨_, consistent.cacheStep session (consistent.session.preserves met taken)
    (consistent.session.cacheStep met taken)⟩

end Consistent

theorem exists_consistent {clock : ℕ} {files : List ByteString} {file : Option ByteString}
    (reached : Run (Taken (step env) fun _ move => inSession move) (start env clock files file)
      state) : ∃ notices, Consistent state notices := by
  have keeps : Keeps (Taken (step env) fun _ move => inSession move)
      fun state => ∃ notices, Consistent state notices := by
    rintro state state' ⟨notices, consistent⟩ ⟨move, met, taken⟩
    exact consistent.next met taken
  exact keeps.run ⟨[], .start env clock files file⟩ reached

/-- In every state of a session the map has the identifiers of the cached commands, which are
different from each other. After each call at most `maxCacheSize` commands are cached, those that
were accepted last, and once a command has been accepted the reported status is that of the command
that was accepted or refreshed last. -/
theorem cache_consistent {env : Environment} {clock : ℕ} {files : List ByteString}
    {file : Option ByteString} {final : Runner × List Notice}
    (run : Run (Taken (noticingStep env) fun _ move => inSession move)
      (start env clock files file, []) final) :
    (∀ id, id ∈ final.1.commandMap ↔ id ∈ final.1.cacheBuffer.map final.1.idOf) ∧
    (final.1.cacheBuffer.map final.1.idOf).Nodup ∧
    (final.1.client = .idle → final.1.cacheBuffer.length ≤ maxCacheSize ∧
      final.1.cacheBuffer = (accepted final.2).take maxCacheSize) ∧
    ∀ notice earlier, final.2 = notice :: earlier →
      final.1.reportedStatusId ∈ final.1.commandMap ∧
        final.1.getReportedStatus.id = notice.id final.1 ∧ final.1.getReportedStatus.id ≠ [] := by
  have consistent : Consistent final.1 final.2 :=
    Consistent.kept.run (Consistent.start env clock files file) run
  refine ⟨consistent.keys, consistent.nodup, ?_, ?_⟩
  · intro idle
    have outside : final.1.client.evicted = none := by rw [idle]; rfl
    exact ⟨consistent.bounded outside, consistent.cacheBuffer_eq outside⟩
  · intro notice earlier notices_eq
    rcases consistent.reported notice (by rw [notices_eq]; rfl) with ⟨reported, present⟩
    have found := present
    rw [Std.ExtTreeMap.mem_iff_isSome_getElem?, Option.isSome_iff_exists] at found
    rcases found with ⟨ref, found⟩
    have status : final.1.getReportedStatus = (final.1.object ref).status := by
      simp only [Runner.getReportedStatus, found]
    have id_eq : final.1.getReportedStatus.id = final.1.reportedStatusId := by
      rw [status]
      exact (consistent.mapped _ ref found).2
    refine ⟨present, id_eq.trans reported, ?_⟩
    rw [consistent.keys] at present
    rcases List.mem_map.mp present with ⟨cached, buffered, equal⟩
    rw [id_eq, ← equal]
    exact consistent.nonempty cached buffered

/-- Requests to run eleven commands. -/
def elevenRequests : List (ByteString × Json) :=
  (List.range 11).map fun i => request (String.ofList (List.replicate (i + 1) 'a')) "true" 3

/-- A request to report the second of them. -/
def refreshRequest : ByteString × Json := request "aa" "" 4

/-- The eleventh command takes the place of the first, and the second is reported. -/
theorem cache_consistent_eleven_commands :
    ∃ final : Runner × List Notice,
      Run (Taken (noticingStep (sampleEnvironment (refreshRequest :: elevenRequests)))
          fun _ move => inSession move)
        (start (sampleEnvironment (refreshRequest :: elevenRequests)) 0 [] none, []) final ∧
      (final.1.client = .idle ∧ final.1.cacheBuffer = [10, 9, 8, 7, 6, 5, 4, 3, 2, 1] ∧
        final.2.head? = some (.refreshed (bytes "aa"))) ∧
      (final.1.cacheBuffer.length ≤ maxCacheSize ∧
        final.1.cacheBuffer = (accepted final.2).take maxCacheSize) ∧
      final.1.reportedStatusId ∈ final.1.commandMap ∧
      final.1.getReportedStatus.id = bytes "aa" := by
  have reached : ∃ final : Runner × List Notice,
      Run (Taken (noticingStep (sampleEnvironment (refreshRequest :: elevenRequests)))
          fun _ move => inSession move)
        (start (sampleEnvironment (refreshRequest :: elevenRequests)) 0 [] none, []) final ∧
      decide (final.1.client = .idle ∧ final.1.cacheBuffer = [10, 9, 8, 7, 6, 5, 4, 3, 2, 1] ∧
        final.2.head? = some (.refreshed (bytes "aa"))) = true :=
    exists_run_of_follow (clientGoesOn :: (elevenRequests.take 10).flatMap (fun request =>
        runRequest request ++ List.replicate 7 (workerGoesOn 0)) ++
      (elevenRequests.drop 10).flatMap (fun request => runRequest request ++ [clientGoesOn]) ++
      [send refreshRequest, clientGoesOn]) (by decide +kernel)
  rcases reached with ⟨final, run, passed⟩
  rw [decide_eq_true_eq] at passed
  rcases passed with ⟨idle, buffer, head⟩
  rcases cache_consistent run with ⟨-, -, recent, reported⟩
  rcases List.head?_eq_some_iff.mp head with ⟨earlier, notices_eq⟩
  rcases reported _ earlier notices_eq with ⟨present, status, -⟩
  exact ⟨final, run, ⟨idle, buffer, head⟩, recent idle, present, status⟩

end OsConfig.CommandRunner
