import OsConfig.CommandRunner.PersistedCache

/-!
# The persisted cache and the cache in memory

In a session that starts without persisted commands the entries of the client are
those of the ten commands that were cached last, provided that each command has
an identifier and that the worker has persisted the oldest of ten commands for
the last time when an eleventh arrives. Otherwise the worker puts the entry of
the oldest command back, in the place of another one.
-/

namespace OsConfig.CommandRunner

open Transitions

variable {env : Environment} {state state' : Runner} {ref : Ref}

namespace Runner

/-- The commands that the persisted cache has entries of. -/
def recent (state : Runner) : List Ref :=
  state.cacheBuffer.take maxCacheSize

/-- The worker is going to persist the command. -/
def Awaits (state : Runner) (ref : Ref) : Prop :=
  some ref ∈ state.commandQueue ∧ state.worker ≠ .popping ref

/-- The worker is not going to persist the command that a new one takes the place of. -/
def oldestSettled (state : Runner) : Bool :=
  state.cacheBuffer.length < maxCacheSize ||
    state.cacheBuffer.getLast?.all fun oldest =>
      some oldest ∉ state.commandQueue || state.worker = .popping oldest

end Runner

/-- A session in which files are written without failures, each new command has an identifier and
comes when the oldest one has been persisted for the last time. -/
def agreeing (env : Environment) (state : Runner × Option ByteString) (move : Move × ByteString) :
    Bool :=
  inSession move.1 && stores env state move &&
    match move.1, state.1.client with
    | .client _, .persisting ref => state.1.idOf ref ≠ [] && state.1.oldestSettled
    | _, _ => true

/-- The constructor has commands to load. -/
def Client.loads : Client → Bool
  | .loading (_ :: _) _ | .evicting (.load _ _) _ => true
  | _ => false

section Steps

/-- A command that the worker is going to persist has been one, or is pushed. -/
theorem Session.awaits_of_step (session : Session state) {move : Move} (met : inSession move)
    (taken : step env state move = some state') (awaits : state'.Awaits ref) :
    state.Awaits ref ∨ state.client = .pushing ref := by
  rcases session.queued_of_step met taken awaits.1 with before | pushing
  · refine .inl ⟨before, ?_⟩
    intro popping
    rcases session.step_cases met taken with ⟨outcome, rfl, works⟩ | ⟨-, -, worker | ⟨empty, -⟩⟩
    · have front := session.front ref (by rw [popping]; rfl)
      have nodup := session.nodup
      simp only [Runner.workerStep, popping] at works
      split at works
      · cases works
      · rename_i head rest queue_eq
        cases works
        rw [queue_eq] at front nodup
        cases front
        exact (List.nodup_cons.mp nodup).1 awaits.1
    · exact awaits.2 (worker.trans popping)
    · rw [empty] at before
      cases before
  · exact .inr pushing

/-- Once nothing is left to load, commands are cached only after they have been persisted. -/
theorem Session.loads_of_step (session : Session state) {move : Move} (met : inSession move)
    (taken : step env state move = some state') (loaded : state.client.loads = false) :
    state'.client.loads = false ∧
      ∀ ref, state.client.evicted = none → state'.client.evicted = some ref →
        ∃ input, move = .client input ∧ state.client = .persisting ref := by
  have outside : ∀ {client : Client}, state'.client = client → client.loads = false →
      client.evicted = none → state'.client.loads = false ∧
        ∀ ref, state.client.evicted = none → state'.client.evicted = some ref →
          ∃ input, move = .client input ∧ state.client = .persisting ref := by
    rintro _ rfl unloaded none_eq
    refine ⟨unloaded, ?_⟩
    intro ref _ inside
    rw [none_eq] at inside
    cases inside
  cases move with
  | tick time =>
      cases taken
      refine ⟨loaded, ?_⟩
      intro ref none_eq inside
      change state.client.evicted = some ref at inside
      rw [none_eq] at inside
      cases inside
  | set componentName objectName payload =>
      rcases step_set taken with ⟨-, rfl⟩
      rcases Runner.set_cases env componentName objectName payload state with
        ⟨-, position | ⟨arguments, position⟩⟩
      · exact outside position rfl rfl
      · exact outside position rfl rfl
  | close => cases met
  | worker outcome =>
      have client := (Runner.Works.workerStep taken).client
      rw [client]
      refine ⟨loaded, ?_⟩
      intro ref none_eq inside
      rw [none_eq] at inside
      cases inside
  | client input =>
      have serving := session.serving
      cases Runner.served taken with
      | loads client_eq =>
          rw [client_eq] at outside ⊢
          exact outside rfl rfl rfl
      | constructs client_eq => simp [client_eq, Client.loads] at loaded
      | @dispatches payloadHash arguments client_eq =>
          rw [client_eq] at outside ⊢
          rcases Runner.dispatch_cases env input.created payloadHash arguments state with
            ⟨-, position | ⟨position, -, -⟩⟩
          · exact outside position rfl rfl
          · exact outside position rfl rfl
      | @caches command client_eq _ =>
          rw [client_eq] at outside ⊢
          rcases Runner.cacheCommand_cases .schedule command state with
            ⟨-, -, position⟩ | ⟨-, refused⟩
          · rw [position]
            refine ⟨rfl, ?_⟩
            rintro _ _ ⟨⟩
            exact ⟨input, rfl, rfl⟩
          · exact outside (congrArg Runner.client refused) rfl rfl
      | refuses client_eq _ =>
          rw [client_eq] at outside ⊢
          exact outside rfl rfl rfl
      | @evicts caller command client_eq =>
          cases caller with
          | load statuses failed => simp [client_eq, Client.loads] at loaded
          | schedule =>
              rw [client_eq]
              refine ⟨?_, by rintro _ ⟨⟩⟩
              rcases Runner.evict_cases .schedule command state with
                ⟨waits, -⟩ | ⟨oldest, -, -, -, evicts⟩ | ⟨-, proceeds⟩
              · rw [waits, client_eq]
                rfl
              · rw [evicts, Runner.evictOldest_client, client_eq]
                rfl
              · rw [proceeds]
                rfl
      | pushes client_eq =>
          rw [client_eq] at outside ⊢
          exact outside rfl rfl rfl
      | closes at_ | pops at_ | cancels at_ | drops at_ | ends at_ | joins at_ =>
          simp [at_, Client.destroying] at serving

end Steps

/-- The entries of the client are those of the commands that were cached last, among them all that
the worker is going to persist. -/
structure Agrees (env : Environment) (state : Runner × Option ByteString)
    (notices : List Notice) : Prop where
  consistent : Consistent state.1 notices
  loaded : state.1.client.loads = false
  ids : (storedEntries env state.2).map entryId =
    (state.1.recent.map fun ref => some (state.1.idOf ref)).reverse
  awaited : ∀ ref, state.1.Awaits ref → ref ∈ state.1.recent

namespace Agrees

variable {notices : List Notice} {file file' : Option ByteString}

theorem map_recent (consistent : Consistent state notices) (preserved : state.Preserves state') :
    (state.recent.map fun ref => some (state'.idOf ref)) =
      state.recent.map fun ref => some (state.idOf ref) := by
  apply List.map_congr_left
  intro ref mem
  rw [preserved.id ref (consistent.session.lt ref (List.mem_of_mem_take mem))]

/-- Outside of the loop of `CacheCommand` all cached commands are recent. -/
theorem recent_eq (consistent : Consistent state notices)
    (outside : state.client.evicted = none) : state.recent = state.cacheBuffer :=
  List.take_of_length_le (consistent.bounded outside)

/-- A step after which the commands cached last are the same and so are the identifiers on the
disk. -/
theorem kept (agrees : Agrees env (state, file) notices) {move : Move} (met : inSession move)
    (taken : step env state move = some state') {notices' : List Notice}
    (consistent : Consistent state' notices') (recent : state'.recent = state.recent)
    (ids : (storedEntries env file').map entryId = (storedEntries env file).map entryId) :
    Agrees env (state', file') notices' := by
  have session := agrees.consistent.session
  refine ⟨consistent, (session.loads_of_step met taken agrees.loaded).1, ?_, ?_⟩
  · rw [ids, agrees.ids, recent, map_recent agrees.consistent (session.preserves met taken)]
  · intro ref awaits
    rw [recent]
    rcases session.awaits_of_step met taken awaits with before | pushing
    · exact agrees.awaited ref before
    · rw [recent_eq agrees.consistent (by rw [pushing]; rfl)]
      exact session.cached ref (by rw [pushing]; rfl)

theorem cacheCommand (agrees : Agrees env (state, file) notices)
    (client_eq : state.client = .persisting ref) {move : Move} (met : inSession move)
    (taken : step env state move = some (state.cacheCommand .schedule ref))
    {notices' : List Notice} (consistent : Consistent (state.cacheCommand .schedule ref) notices')
    (nonempty : state.idOf ref ≠ []) (settled : state.oldestSettled)
    (entries : storedEntries env file' =
      putEntry (state.object ref).status (storedEntries env file)) :
    Agrees env (state.cacheCommand .schedule ref, file') notices' := by
  have session := agrees.consistent.session
  have all := recent_eq agrees.consistent (by rw [client_eq]; rfl)
  have mem_iff : some (state.idOf ref) ∈ (storedEntries env file).map entryId ↔
      state.idOf ref ∈ state.commandMap := by
    rw [agrees.ids, agrees.consistent.keys, ← all]
    simp
  by_cases present : state.idOf ref ∈ state.commandMap
  · have refused : state.cacheCommand .schedule ref = state.refuse .schedule ref := by
      rw [Runner.cacheCommand]
      simp [present]
    apply agrees.kept met taken consistent
    · rw [refused]
      rfl
    · rw [entries]
      exact map_putEntry_of_mem (mem_iff.mpr present)
  · have buffer : (state.cacheCommand .schedule ref).cacheBuffer = ref :: state.cacheBuffer := by
      rw [Runner.cacheCommand]
      simp [nonempty, present]
    have preserved := session.preserves met taken
    have below : ref < state.next := (session.scheduled ref (by rw [client_eq]; rfl)).1
    have bounded : state.cacheBuffer.length ≤ maxCacheSize :=
      agrees.consistent.bounded (by rw [client_eq]; rfl)
    have length_eq : (storedEntries env file).length = state.cacheBuffer.length := by
      rw [← List.length_map entryId, agrees.ids, all]
      simp
    have recent : (state.cacheCommand .schedule ref).recent =
        ref :: if maxCacheSize ≤ state.cacheBuffer.length then state.cacheBuffer.dropLast
          else state.cacheBuffer := by
      rw [Runner.recent, buffer, maxCacheSize, List.take_succ_cons, List.cons.injEq]
      refine ⟨rfl, ?_⟩
      split
      · rw [List.dropLast_eq_take]
        congr 1
        simp only [maxCacheSize] at bounded
        omega
      · apply List.take_of_length_le
        omega
    refine ⟨consistent, (session.loads_of_step met taken agrees.loaded).1, ?_, ?_⟩
    · have same : ∀ refs : List Ref, refs ⊆ state.cacheBuffer →
          (refs.map fun ref' => some ((state.cacheCommand .schedule ref).idOf ref')) =
            refs.map fun ref' => some (state.idOf ref') := by
        intro refs subset
        apply List.map_congr_left
        intro ref' mem
        rw [preserved.id ref' (session.lt ref' (subset mem))]
      change (storedEntries env file').map entryId = _
      rw [entries, map_putEntry_of_not_mem (fun mem => present (mem_iff.mp mem)), length_eq,
        agrees.ids, all, recent, List.map_cons, List.reverse_cons, preserved.id ref below]
      congr 1
      split
      · rw [same _ (List.dropLast_subset _), List.tail_reverse, List.map_dropLast]
      · rw [same _ (List.Subset.refl _)]
    · intro awaited awaits
      rcases session.awaits_of_step met taken awaits with before | pushing
      · have buffered := agrees.awaited awaited before
        change awaited ∈ state.recent at buffered
        rw [all] at buffered
        rw [recent]
        apply List.mem_cons_of_mem
        split
        · rename_i full
          rcases List.eq_nil_or_concat state.cacheBuffer with nil | ⟨others, oldest, concat⟩
          · rw [nil] at buffered
            cases buffered
          · rw [concat, List.concat_eq_append] at buffered ⊢
            rw [List.dropLast_concat]
            rcases List.mem_append.mp buffered with other | last
            · exact other
            · cases List.mem_singleton.mp last
              -- The oldest of ten commands has been persisted for the last time.
              have done := settled
              simp only [Runner.oldestSettled, Bool.or_eq_true, decide_eq_true_eq, concat,
                List.concat_eq_append, List.getLast?_append, List.getLast?_singleton,
                Option.some_or, Option.all_some] at done
              rw [concat, List.concat_eq_append] at full
              rcases done with less | unqueued | popping
              · omega
              · exact absurd before.1 unqueued
              · exact absurd popping before.2
        · exact buffered
      · rw [client_eq] at pushing
        cases pushing

theorem step (persists : env.usePersistedCache) (agrees : Agrees env (state, file) notices)
    {move : Move × ByteString} {final : Runner × Option ByteString}
    (met : agreeing env (state, file) move)
    (taken : storingStep env (state, file) move = some final) :
    ∃ notices, Agrees env final notices := by
  simp only [agreeing, Bool.and_eq_true] at met
  rcases met with ⟨⟨within, stored⟩, orderly⟩
  rcases storedEntries_of_step stored taken with ⟨step_eq, entries, -⟩
  rcases agrees.consistent.next within step_eq with ⟨notices', consistent⟩
  have session := agrees.consistent.session
  rcases final with ⟨state', file'⟩
  refine ⟨notices', ?_⟩
  cases status_eq : state.persisted env move.1 with
  | some status =>
      rw [status_eq, Option.elim_some] at entries
      simp only [Runner.persisted, if_pos persists] at status_eq
      split at status_eq
      · rename_i input ref move_eq client_eq
        cases status_eq
        have written : input.persisted = 0 := by
          simp only [stores, Runner.persisted, if_pos persists, move_eq, client_eq,
            Bool.and_eq_true, decide_eq_true_eq] at stored
          exact stored.2
        simp only [move_eq, client_eq, Bool.and_eq_true, decide_eq_true_eq] at orderly
        have cached : state.cacheCommand .schedule ref = state' := by
          simpa [CommandRunner.step, move_eq, Runner.clientStep, client_eq, written] using step_eq
        subst cached
        exact agrees.cacheCommand client_eq within step_eq consistent orderly.1 orderly.2 entries
      · rename_i outcome ref move_eq worker_eq
        cases status_eq
        have works : state.workerStep outcome = some state' := by
          simpa [CommandRunner.step, move_eq] using step_eq
        have current : state.worker.current = some ref := by
          rw [worker_eq]
          rfl
        have awaited := agrees.awaited ref ⟨session.current_mem current, by simp [worker_eq]⟩
        apply agrees.kept within step_eq consistent
        · rw [Runner.recent, (Runner.Works.workerStep works).cacheBuffer]
          rfl
        · rw [entries]
          apply map_putEntry_of_mem
          rw [agrees.ids, List.mem_reverse]
          exact List.mem_map_of_mem awaited
      · cases status_eq
  | none =>
      rw [status_eq, Option.elim_none] at entries
      refine agrees.kept within step_eq consistent ?_ (by rw [show storedEntries env file' = _ from entries])
      have change := session.cacheStep within step_eq
      generalize state.notice move.1 state' = notice at change
      cases change with
      | keeps cacheBuffer commandMap reported loop => rw [Runner.recent, cacheBuffer, Runner.recent]
      | accepts ref below nonempty absent cacheBuffer commandMap reported outside loop =>
          rcases (session.loads_of_step within step_eq agrees.loaded).2 ref outside loop with
            ⟨input, move_eq, client_eq⟩
          simp only at client_eq
          simp [Runner.persisted, persists, move_eq, client_eq] at status_eq
      | evicts oldest newest last exceeds complete cacheBuffer commandMap reported loop loop' =>
          rw [Runner.recent, cacheBuffer, Runner.recent, List.dropLast_eq_take, List.take_take]
          congr 1
          omega
      | replaces _ _ _ _ _ _ _ id _ loaded copy _ mapped below _ status cacheBuffer commandMap
          reported idle outside => rw [Runner.recent, cacheBuffer, Runner.recent]
      | refreshes id present cacheBuffer commandMap reported outside outside' =>
          rw [Runner.recent, cacheBuffer, Runner.recent]

theorem keeps (persists : env.usePersistedCache) :
    Keeps (Taken (storingStep env) fun state move => agreeing env state move)
      fun state => ∃ notices, Agrees env state notices := by
  rintro ⟨state, file⟩ final ⟨notices, agrees⟩ ⟨move, met, taken⟩
  exact agrees.step persists met taken

theorem start (persists : env.usePersistedCache) (clock : ℕ) (files : List ByteString)
    (empty : (persistedStatuses env file).1 = []) :
    Agrees env (start env clock files file, file) [] := by
  refine ⟨.start env clock files file, ?_, ?_, ?_⟩
  · simp only [CommandRunner.start, empty]
    rfl
  · rw [persistedStatuses_eq persists, List.map_eq_nil_iff] at empty
    rw [storedEntries, empty]
    rfl
  · rintro ref ⟨⟨⟩, -⟩

end Agrees

/-- In every state of such a session that is not within `CacheCommand`, the entries of the client
have the identifiers of the map, each of them once, and the document has what it had of other
clients at the start. -/
theorem persisted_ids_eq_mapped {env : Environment} (persists : env.usePersistedCache) {clock : ℕ}
    {files : List ByteString} {file : Option ByteString}
    (empty : (persistedStatuses env file).1 = []) {final : Runner × Option ByteString}
    (run : Run (Taken (storingStep env) fun state move => agreeing env state move)
      (start env clock files file, file) final) :
    (final.1.client.evicted = none →
      (∀ id, some id ∈ (storedEntries env final.2).map entryId ↔ id ∈ final.1.commandMap) ∧
        none ∉ (storedEntries env final.2).map entryId ∧
        ((storedEntries env final.2).map entryId).Nodup) ∧
      ∀ name, name ≠ env.clientName →
        (readCache env final.2).find name = (readCache env file).find name := by
  constructor
  · intro outside
    rcases (Agrees.keeps persists).run ⟨[], .start persists clock files empty⟩ run with
      ⟨notices, agrees⟩
    have consistent := agrees.consistent
    have ids : (storedEntries env final.2).map entryId =
        ((final.1.cacheBuffer.map final.1.idOf).map some).reverse := by
      rw [agrees.ids, Agrees.recent_eq consistent outside, List.map_map]
      rfl
    rw [ids]
    refine ⟨?_, ?_, ?_⟩
    · intro id
      rw [consistent.keys]
      simp
    · simp
    · rw [List.nodup_reverse]
      exact consistent.nodup.map (Option.some_injective _)
  · have keeps : Keeps (Taken (storingStep env) fun state move => agreeing env state move)
        fun state => ∀ name, name ≠ env.clientName →
          (readCache env state.2).find name = (readCache env file).find name := by
      rintro state state' same ⟨move, met, taken⟩ name other
      simp only [agreeing, Bool.and_eq_true] at met
      rw [(storedEntries_of_step met.1.2 taken).2.2 name other]
      exact same name other
    exact keeps.run (fun _ _ => rfl) run

section Samples

/-- A cache file with entries of one client, as `dump(4)` writes it, and the document. -/
def cacheSample (entries : List (ByteString × ℕ)) : ByteString × Json :=
  (bytes "\x7b\n    \"client\": [\n" ++
      ((entries.map fun entry =>
        bytes "        \x7b\n            \"commandId\": \"" ++ entry.1 ++
          bytes "\",\n            \"currentState\": " ++ toDecimal entry.2 ++
          bytes ",\n            \"resultCode\": 0\n        \x7d").intersperse
        (bytes ",\n")).flatten ++
      bytes "\n    ]\n\x7d",
    .object [(bytes "client", .array (entries.map fun entry =>
      Status.toJson ⟨entry.1, 0, [], .ofInt entry.2⟩ false))])

/-- The entries after each of a list of statuses has been persisted. -/
def cacheSamples (writes : List (ByteString × ℕ)) : List (ByteString × Json) :=
  (writes.scanl (fun entries write =>
    if entries.any (·.1 = write.1) then
      entries.map fun entry => if entry.1 = write.1 then write else entry
    else (if maxCacheSize ≤ entries.length then entries.tail else entries) ++ [write]) []).tail.map
    cacheSample

/-- Moves in which nothing is written. -/
def silently (moves : List Move) : List (Move × ByteString) :=
  moves.map (·, [])

/-- A `RunCommand` request, up to `CacheCommand`. -/
def storingRequest (request cache : ByteString × Json) : List (Move × ByteString) :=
  silently [send request, clientGoesOn] ++ [(clientGoesOn, cache.1)]

/-- The worker executes a command and persists its status. -/
def storingWorker (cache : ByteString × Json) : List (Move × ByteString) :=
  silently (List.replicate 5 (workerGoesOn 0)) ++ [(workerGoesOn 0, cache.1)]

end Samples

/-- The environment of requests and of the cache files that are written for them. -/
def oneWrittenEnvironment : Environment :=
  sampleEnvironment (sleepRequest :: cacheSamples [(bytes "1", 0), (bytes "1", 2)])

/-- A command is executed, and its entry is the one of the map. -/
theorem persisted_ids_eq_mapped_one :
    ∃ final : Runner × Option ByteString,
      Run (Taken (storingStep oneWrittenEnvironment) fun state move =>
          agreeing oneWrittenEnvironment state move)
        (start oneWrittenEnvironment 0 [] none, none) final ∧
      (final.1.client = .idle ∧ final.1.commandQueue = [] ∧ final.1.cacheBuffer = [0] ∧
        storedEntries oneWrittenEnvironment final.2 =
          [Status.toJson ⟨bytes "1", 0, [], .succeeded⟩ false]) ∧
      ∀ id, some id ∈ (storedEntries oneWrittenEnvironment final.2).map entryId ↔
        id ∈ final.1.commandMap := by
  have reached : ∃ final : Runner × Option ByteString,
      Run (Taken (storingStep oneWrittenEnvironment) fun state move =>
          agreeing oneWrittenEnvironment state move)
        (start oneWrittenEnvironment 0 [] none, none) final ∧
      decide (final.1.client = .idle ∧ final.1.commandQueue = [] ∧ final.1.cacheBuffer = [0] ∧
        storedEntries oneWrittenEnvironment final.2 =
          [Status.toJson ⟨bytes "1", 0, [], .succeeded⟩ false]) = true :=
    exists_run_of_follow (silently [clientGoesOn] ++
      storingRequest sleepRequest (cacheSample [(bytes "1", 0)]) ++
      silently [clientGoesOn, clientGoesOn] ++ storingWorker (cacheSample [(bytes "1", 2)]) ++
      silently [workerGoesOn 0]) (by decide +kernel)
  rcases reached with ⟨final, run, passed⟩
  rw [decide_eq_true_eq] at passed
  have outside : final.1.client.evicted = none := by
    rw [passed.1]
    rfl
  exact ⟨final, run, passed, ((persisted_ids_eq_mapped rfl rfl run).1 outside).1⟩

/-- A request that names no command. -/
def namelessRequest : ByteString × Json := request "" "true" 3

def namelessEnvironment : Environment :=
  sampleEnvironment (namelessRequest :: cacheSamples [([], 0)])

/-- A request that names no command is refused, but its status has been persisted before. -/
theorem entry_of_refused_persisted :
    ∃ final : Runner × Option ByteString,
      Run (Taken (storingStep namelessEnvironment) fun state move =>
          inSession move.1 && stores namelessEnvironment state move)
        (start namelessEnvironment 0 [] none, none) final ∧
      (final.1.client = .idle ∧ final.1.status = einval ∧ final.1.commandQueue = []) ∧
      (storedEntries namelessEnvironment final.2).map entryId = [some []] ∧
      [] ∉ final.1.commandMap := by
  have reached : ∃ final : Runner × Option ByteString,
      Run (Taken (storingStep namelessEnvironment) fun state move =>
          inSession move.1 && stores namelessEnvironment state move)
        (start namelessEnvironment 0 [] none, none) final ∧
      decide ((final.1.client = .idle ∧ final.1.status = einval ∧ final.1.commandQueue = []) ∧
        (storedEntries namelessEnvironment final.2).map entryId = [some []] ∧
        [] ∉ final.1.commandMap) = true :=
    exists_run_of_follow (silently [clientGoesOn] ++
      storingRequest namelessRequest (cacheSample [([], 0)])) (by decide +kernel)
  rcases reached with ⟨final, run, passed⟩
  rw [decide_eq_true_eq] at passed
  exact ⟨final, run, passed⟩

end OsConfig.CommandRunner
