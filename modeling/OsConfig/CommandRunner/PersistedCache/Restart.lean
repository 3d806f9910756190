import OsConfig.CommandRunner.PersistedCache.Agreement
import OsConfig.CommandRunner.Repetition

/-!
# Restarts

An entry of the persisted cache has the identifier and the status of a command,
but not its arguments. So a command that was loaded is not equal to the one that
the same request asks for, and a request that comes again after a restart is
refused. `Set` makes an exception for one identifier: it completes the command
that was loaded with the greatest identifier, if all entries could be loaded.
-/

namespace OsConfig.CommandRunner

open Transitions

variable {env : Environment} {state state' : Runner} {ref : Ref}

section Histories

/-- The cache files that sessions of a client leave behind, one after the other, when no write
fails. The process may be another one each time. -/
inductive Recorded (env : Environment) : Option ByteString → Prop where
  | unused {file : Option ByteString} (empty : (persistedStatuses env file).1 = []) :
      Recorded env file
  | session {file : Option ByteString} (recorded : Recorded env file) {pid clock : ℕ}
      {files : List ByteString} {final : Runner × Option ByteString}
      (run : Run (Taken (storingStep { env with pid }) fun state move =>
          stores { env with pid } state move)
        (start { env with pid } clock files file, file) final) : Recorded env final.2

/-- At most ten entries, with identifiers that are different from each other. -/
structure WellKept (env : Environment) (file : Option ByteString) : Prop where
  bounded : (storedEntries env file).length ≤ maxCacheSize
  identified : none ∉ (storedEntries env file).map entryId
  nodup : ((storedEntries env file).map entryId).Nodup

theorem WellKept.of_putEntry {file file' : Option ByteString} (kept : WellKept env file)
    {status : Status} (entries : storedEntries env file' = putEntry status (storedEntries env file)) :
    WellKept env file' := by
  have bounded := kept.bounded
  rw [← List.length_map entryId] at bounded
  by_cases present : some status.id ∈ (storedEntries env file).map entryId
  · have ids := map_putEntry_of_mem present
    rw [← entries] at ids
    refine ⟨?_, ?_, ?_⟩
    · rwa [← List.length_map entryId, ids]
    · rw [ids]
      exact kept.identified
    · rw [ids]
      exact kept.nodup
  · have ids := map_putEntry_of_not_mem present
    rw [← entries] at ids
    have tail := List.tail_sublist ((storedEntries env file).map entryId)
    rw [← List.length_map entryId] at ids
    split at ids
    · refine ⟨?_, ?_, ?_⟩
      · rw [← List.length_map entryId, ids, List.length_append, List.length_tail,
          List.length_singleton]
        simp only [maxCacheSize] at *
        omega
      · rw [ids]
        simp only [List.mem_append, List.mem_singleton, reduceCtorEq, or_false]
        intro mem
        exact kept.identified (tail.subset mem)
      · rw [ids, List.nodup_append]
        refine ⟨kept.nodup.sublist tail, List.nodup_singleton _, ?_⟩
        rintro id mem _ last rfl
        rw [List.mem_singleton] at last
        subst last
        exact present (tail.subset mem)
    · refine ⟨?_, ?_, ?_⟩
      · rw [← List.length_map entryId, ids, List.length_append, List.length_singleton]
        omega
      · rw [ids]
        simp only [List.mem_append, List.mem_singleton, reduceCtorEq, or_false]
        exact kept.identified
      · rw [ids, List.nodup_append]
        refine ⟨kept.nodup, List.nodup_singleton _, ?_⟩
        rintro id mem _ last rfl
        rw [List.mem_singleton] at last
        subst last
        exact present mem

/-- Every step of either thread keeps the file in order, also those of the destructor. -/
theorem WellKept.keeps (env : Environment) :
    Keeps (Taken (storingStep env) fun state move => stores env state move)
      fun state => WellKept env state.2 := by
  rintro state final kept ⟨move, met, taken⟩
  rcases storedEntries_of_step met taken with ⟨-, entries, -⟩
  cases status_eq : state.1.persisted env move.1 with
  | none =>
      rw [status_eq, Option.elim_none] at entries
      exact ⟨entries ▸ kept.bounded, entries ▸ kept.identified, entries ▸ kept.nodup⟩
  | some status =>
      rw [status_eq, Option.elim_some] at entries
      exact kept.of_putEntry entries

theorem Recorded.wellKept (persists : env.usePersistedCache) {file : Option ByteString}
    (recorded : Recorded env file) : WellKept env file := by
  induction recorded with
  | unused empty =>
      rw [persistedStatuses_eq persists, List.map_eq_nil_iff] at empty
      have none_eq : storedEntries env _ = [] := empty
      constructor <;> simp [none_eq]
  | session recorded run ih =>
      -- The process identifier has nothing to do with the file.
      have kept := (WellKept.keeps _).run ⟨ih.bounded, ih.identified, ih.nodup⟩ run
      exact ⟨kept.bounded, kept.identified, kept.nodup⟩

end Histories

section Loading

/-- What has been loaded of commands with the given identifiers. -/
structure Loads (state : Runner) (loaded : List ByteString) (failed : Bool) : Prop where
  keys : ∀ id, id ∈ state.commandMap ↔ id ≠ [] ∧ id ∈ loaded
  mapped : ∀ (id : ByteString) ref, state.commandMap[id]? = some ref → ref < state.next ∧
    state.idOf ref = id ∧ (state.object ref).arguments = [] ∧ (state.object ref).replaceEol = true
  bounded : state.cacheBuffer.length ≤ loaded.length
  failed_eq : failed = decide ([] ∈ loaded)
  commandQueue : state.commandQueue = []
  history : state.history = []
  lastPayloadHash : state.lastPayloadHash = 0

/-- How far the constructor has got with the entries of the given identifiers. -/
def Constructing (ids : List ByteString) (state : Runner) : Prop :=
  match state.client with
  | .loading statuses failed | .evicting (.load statuses failed) _ =>
      state.worker = .notStarted ∧
        ∃ loaded, ids = loaded ++ statuses.map Status.id ∧ Loads state loaded failed
  | .idle =>
      state.worker = .fronting none ∧ Loads state ids (decide ([] ∈ ids)) ∧
        state.commandIdLoadedFromDisk =
          if [] ∈ ids then [] else state.commandMap.keys.getLast?.getD []
  | _ => False

namespace Constructing

variable {ids : List ByteString}

theorem load_nil {failed : Bool} (client_eq : state.client = .loading [] failed)
    (constructing : Constructing ids state) :
    Constructing ids (state.load env [] failed) := by
  simp only [Constructing, client_eq, List.map_nil, List.append_nil] at constructing
  rcases constructing with ⟨-, _, rfl, loads⟩
  have failed_eq := loads.failed_eq
  subst failed_eq
  refine ⟨rfl, ⟨loads.keys, loads.mapped, loads.bounded, rfl, loads.commandQueue, loads.history,
    loads.lastPayloadHash⟩, ?_⟩
  simp [Runner.load]

/-- The next status is cached, unless its identifier is empty. -/
theorem load_cons {status : Status} {rest : List Status} {failed : Bool} (nodup : ids.Nodup)
    (client_eq : state.client = .loading (status :: rest) failed)
    (constructing : Constructing ids state) :
    Constructing ids (state.load env (status :: rest) failed) ∧
      ((state.load env (status :: rest) failed).client = .loading rest true ∨
        ∃ ref, (state.load env (status :: rest) failed).client =
          .evicting (.load rest failed) ref) := by
  simp only [Constructing, client_eq, List.map_cons] at constructing
  rcases constructing with ⟨notStarted, loaded, ids_eq, loads⟩
  have ids_eq' : ids = (loaded ++ [status.id]) ++ rest.map Status.id := by
    rw [ids_eq, List.append_assoc, List.singleton_append]
  have newId : (state.construct env .command [] 0 true status).idOf state.next = status.id := by
    simp [Runner.idOf, Runner.construct, Command.id]
  have object : ∀ ref, ref < state.next →
      (state.construct env .command [] 0 true status).object ref = state.object ref := by
    intro ref below
    exact Function.update_of_ne (Nat.ne_of_lt below) _ _
  by_cases empty : status.id = []
  · have refused : state.load env (status :: rest) failed =
        (state.construct env .command [] 0 true status).refuse (.load rest failed) state.next := by
      simp only [Runner.load, Runner.cacheCommand, newId, empty, ne_eq, not_true_eq_false,
        if_false]
    rw [refused]
    refine ⟨⟨notStarted, loaded ++ [status.id], ids_eq', ?_⟩, .inl rfl⟩
    refine ⟨?_, ?_, ?_, ?_, loads.commandQueue, loads.history, loads.lastPayloadHash⟩
    · intro id
      rw [List.mem_append, List.mem_singleton, empty]
      change id ∈ state.commandMap ↔ _
      rw [loads.keys]
      constructor
      · rintro ⟨nonempty, mem⟩
        exact ⟨nonempty, .inl mem⟩
      · rintro ⟨nonempty, mem | rfl⟩
        · exact ⟨nonempty, mem⟩
        · exact absurd rfl nonempty
    · intro id ref found
      rcases loads.mapped id ref found with ⟨below, id_eq, arguments, replaceEol⟩
      change ref < state.next + 1 ∧
        ((state.construct env .command [] 0 true status).object ref).id = id ∧
        ((state.construct env .command [] 0 true status).object ref).arguments = [] ∧
        ((state.construct env .command [] 0 true status).object ref).replaceEol = true
      rw [object ref below]
      exact ⟨Nat.lt_succ_of_lt below, id_eq, arguments, replaceEol⟩
    · have bounded := loads.bounded
      rw [List.length_append]
      exact Nat.le_add_right_of_le bounded
    · simp [empty]
  · have absent : status.id ∉ state.commandMap := by
      rw [loads.keys]
      rintro ⟨-, mem⟩
      rw [ids_eq, List.nodup_append] at nodup
      exact nodup.2.2 _ mem _ List.mem_cons_self rfl
    have accepted : state.load env (status :: rest) failed =
        { state.construct env .command [] 0 true status with
          commandMap := state.commandMap.insert status.id state.next
          cacheBuffer := state.next :: state.cacheBuffer
          reportedStatusId := status.id
          client := .evicting (.load rest failed) state.next } := by
      have absent' : status.id ∉ (state.construct env .command [] 0 true status).commandMap := absent
      simp only [Runner.load, Runner.cacheCommand, newId, ne_eq, empty, not_false_eq_true, if_true,
        absent']
      rfl
    rw [accepted]
    refine ⟨⟨notStarted, loaded ++ [status.id], ids_eq', ?_⟩, .inr ⟨_, rfl⟩⟩
    refine ⟨?_, ?_, ?_, ?_, loads.commandQueue, loads.history, loads.lastPayloadHash⟩
    · intro id
      rw [List.mem_append, List.mem_singleton]
      change id ∈ state.commandMap.insert status.id state.next ↔ _
      rw [Std.ExtTreeMap.mem_insert, Std.compare_eq_iff_eq, loads.keys]
      constructor
      · rintro (rfl | ⟨nonempty, mem⟩)
        · exact ⟨empty, .inr rfl⟩
        · exact ⟨nonempty, .inl mem⟩
      · rintro ⟨nonempty, mem | rfl⟩
        · exact .inr ⟨nonempty, mem⟩
        · exact .inl rfl
    · intro id ref found
      change ref < state.next + 1 ∧
        ((state.construct env .command [] 0 true status).object ref).id = id ∧
        ((state.construct env .command [] 0 true status).object ref).arguments = [] ∧
        ((state.construct env .command [] 0 true status).object ref).replaceEol = true
      change (state.commandMap.insert status.id state.next)[id]? = some ref at found
      rw [Std.ExtTreeMap.getElem?_insert] at found
      split at found
      · rename_i equal
        cases found
        refine ⟨Nat.lt_succ_self _, ?_, ?_, ?_⟩
        · exact newId.trans (by simpa using equal)
        · simp [Runner.construct]
        · simp [Runner.construct]
      · rcases loads.mapped id ref found with ⟨below, id_eq, arguments, replaceEol⟩
        rw [object ref below]
        exact ⟨Nat.lt_succ_of_lt below, id_eq, arguments, replaceEol⟩
    · have bounded := loads.bounded
      simp only [List.length_append, List.length_cons, List.length_nil, Nat.zero_add]
      exact Nat.succ_le_succ bounded
    · simp [loads.failed_eq, Ne.symm empty]

/-- At most ten commands are loaded, so that none is evicted. -/
theorem evict {rest : List Status} {failed : Bool} (bounded : ids.length ≤ maxCacheSize)
    (client_eq : state.client = .evicting (.load rest failed) ref)
    (constructing : Constructing ids state) :
    Constructing ids (state.evict (.load rest failed) ref) ∧
      (state.evict (.load rest failed) ref).client = .loading rest failed := by
  simp only [Constructing, client_eq] at constructing
  rcases constructing with ⟨notStarted, loaded, ids_eq, loads⟩
  have fits : ¬ maxCacheSize < state.cacheBuffer.length := by
    have length_eq := congrArg List.length ids_eq
    rw [List.length_append] at length_eq
    have cached := loads.bounded
    omega
  rw [Runner.evict, if_neg fits]
  refine ⟨⟨notStarted, loaded, ids_eq, ?_⟩, rfl⟩
  exact ⟨loads.keys, loads.mapped, loads.bounded, loads.failed_eq, loads.commandQueue,
    loads.history, loads.lastPayloadHash⟩

theorem step (nodup : ids.Nodup) (bounded : ids.length ≤ maxCacheSize)
    (constructing : Constructing ids state) {move : Move} (calling : state.calling)
    (taken : step env state move = some state') : Constructing ids state' := by
  cases client_eq : state.client with
  | loading statuses failed =>
      cases move with
      | tick time =>
          cases taken
          simp only [Constructing, client_eq] at constructing ⊢
          rcases constructing with ⟨notStarted, loaded, ids_eq, loads⟩
          exact ⟨notStarted, loaded, ids_eq, ⟨loads.keys, loads.mapped, loads.bounded,
            loads.failed_eq, loads.commandQueue, loads.history, loads.lastPayloadHash⟩⟩
      | set componentName objectName payload => simp [CommandRunner.step, client_eq] at taken
      | close => simp [CommandRunner.step, client_eq] at taken
      | worker outcome =>
          simp only [Constructing, client_eq] at constructing
          simp [CommandRunner.step, Runner.workerStep, constructing.1] at taken
      | client input =>
          simp only [CommandRunner.step, Runner.clientStep, client_eq, Option.some.injEq] at taken
          subst taken
          cases statuses with
          | nil => exact load_nil client_eq constructing
          | cons status rest => exact (load_cons nodup client_eq constructing).1
  | evicting caller ref =>
      cases caller with
      | schedule => simp [Constructing, client_eq] at constructing
      | load statuses failed =>
          cases move with
          | tick time =>
              cases taken
              simp only [Constructing, client_eq] at constructing ⊢
              rcases constructing with ⟨notStarted, loaded, ids_eq, loads⟩
              exact ⟨notStarted, loaded, ids_eq, ⟨loads.keys, loads.mapped, loads.bounded,
                loads.failed_eq, loads.commandQueue, loads.history, loads.lastPayloadHash⟩⟩
          | set componentName objectName payload => simp [CommandRunner.step, client_eq] at taken
          | close => simp [CommandRunner.step, client_eq] at taken
          | worker outcome =>
              simp only [Constructing, client_eq] at constructing
              simp [CommandRunner.step, Runner.workerStep, constructing.1] at taken
          | client input =>
              simp only [CommandRunner.step, Runner.clientStep, client_eq, Option.some.injEq]
                at taken
              subst taken
              exact (evict bounded client_eq constructing).1
  | idle => simp [Runner.calling, client_eq] at calling
  | _ => simp [Constructing, client_eq] at constructing

theorem exists_idle (nodup : ids.Nodup) (bounded : ids.length ≤ maxCacheSize)
    {statuses : List Status} {failed : Bool} (client_eq : state.client = .loading statuses failed)
    (constructing : Constructing ids state) :
    ∃ final, Run (Taken (CommandRunner.step env) fun state _ => state.calling) state final ∧
      final.client = .idle := by
  induction statuses generalizing state failed with
  | nil =>
      refine ⟨state.load env [] failed, .single ⟨clientGoesOn, ?_, ?_⟩, rfl⟩
      · simp [Runner.calling, client_eq]
      · simp [CommandRunner.step, clientGoesOn, Runner.clientStep, client_eq]
  | cons status rest ih =>
      have first : Taken (CommandRunner.step env) (fun state _ => state.calling) state
          (state.load env (status :: rest) failed) := by
        refine ⟨clientGoesOn, ?_, ?_⟩
        · simp [Runner.calling, client_eq]
        · simp [CommandRunner.step, clientGoesOn, Runner.clientStep, client_eq]
      rcases load_cons nodup client_eq constructing with ⟨constructing', refused | ⟨ref, cached⟩⟩
      · rcases ih refused constructing' with ⟨final, run, idle⟩
        exact ⟨final, .head first run, idle⟩
      · rcases evict bounded cached constructing' with ⟨constructing'', evicted⟩
        rcases ih evicted constructing'' with ⟨final, run, idle⟩
        refine ⟨final, .head first (.head ⟨clientGoesOn, ?_, ?_⟩ run), idle⟩
        · simp [Runner.calling, cached]
        · simp only [CommandRunner.step, clientGoesOn, Runner.clientStep, cached]

end Constructing

end Loading

/-- The identifiers of the entries that a file has for the client. -/
def storedIds (env : Environment) (file : Option ByteString) : List ByteString :=
  (storedEntries env file).filterMap entryId

theorem persistedStatuses_loadable {file : Option ByteString}
    (nonempty : (persistedStatuses env file).1 ≠ []) : (persistedStatuses env file).2 = false := by
  revert nonempty
  simp only [persistedStatuses]
  repeat' split
  all_goals simp

theorem WellKept.map_entryId {file : Option ByteString} (kept : WellKept env file) :
    (storedEntries env file).map entryId = (storedIds env file).map some := by
  have identified := kept.identified
  rw [storedIds]
  generalize storedEntries env file = entries at identified
  induction entries with
  | nil => rfl
  | cons entry rest ih =>
      rw [List.map_cons, List.mem_cons, not_or] at identified
      rcases Option.ne_none_iff_exists'.mp (Ne.symm identified.1) with ⟨id, id_eq⟩
      rw [List.filterMap_cons, id_eq, List.map_cons, List.map_cons, id_eq, ih identified.2]

theorem Constructing.start (persists : env.usePersistedCache) {file : Option ByteString}
    (kept : WellKept env file) (clock : ℕ) (files : List ByteString)
    (loadable : (persistedStatuses env file).2 = false) :
    Constructing (storedIds env file) (start env clock files file) := by
  refine ⟨rfl, [], ?_, ?_⟩
  · rw [List.nil_append, persistedStatuses_eq persists, List.map_map]
    have ids := kept.map_entryId
    apply List.map_injective_iff.mpr (Option.some_injective _)
    rw [← ids, List.map_map]
    apply List.map_congr_left
    intro entry mem
    have some_eq : entryId entry ≠ none := by
      intro none_eq
      exact kept.identified (List.mem_map.mpr ⟨entry, mem, none_eq⟩)
    rcases Option.ne_none_iff_exists'.mp some_eq with ⟨id, id_eq⟩
    rw [id_eq]
    rw [entryId] at id_eq
    simp only [Function.comp_apply, Status.deserialize, id_eq]
  · rw [loadable]
    refine ⟨?_, ?_, ?_, rfl, rfl, rfl, rfl⟩ <;> simp [CommandRunner.start]

theorem getLast?_keys_eq_some_iff {commandMap : Std.ExtTreeMap ByteString Ref} {key : ByteString}
    (present : key ∈ commandMap) :
    commandMap.keys.getLast? = some key ↔ ∀ other ∈ commandMap, (compare other key).isLE := by
  have ordered : commandMap.keys.Pairwise fun left right => compare left right = .lt :=
    Std.ExtTreeMap.ordered_keys
  have mem := Std.ExtTreeMap.mem_keys.mpr present
  have mem_iff : ∀ other, other ∈ commandMap ↔ other ∈ commandMap.keys :=
    fun other => Std.ExtTreeMap.mem_keys.symm
  simp only [mem_iff]
  generalize commandMap.keys = keys at ordered mem
  rcases List.eq_nil_or_concat keys with rfl | ⟨front, last, rfl⟩
  · cases mem
  · rw [List.concat_eq_append] at ordered mem ⊢
    rw [List.pairwise_append] at ordered
    have before : ∀ other ∈ front, compare other last = .lt := by
      intro other other_mem
      exact ordered.2.2 other other_mem last (List.mem_singleton_self last)
    rw [List.getLast?_append, List.getLast?_singleton, Option.some_or, Option.some.injEq]
    constructor
    · rintro rfl other other_mem
      rcases List.mem_append.mp other_mem with earlier | same
      · rw [before other earlier]
        rfl
      · rw [List.mem_singleton.mp same, Std.compare_self]
        rfl
    · intro greatest
      rcases List.mem_append.mp mem with earlier | same
      · have least := greatest last (by simp)
        rw [Std.OrientedOrd.eq_swap, before key earlier] at least
        cases least
      · exact (List.mem_singleton.mp same).symm

/-- A `RunCommand` never asks for what was loaded from disk. -/
theorem Arguments.deserialize_arguments_nil {document : Json}
    (nil : (deserialize document).arguments = []) :
    (deserialize document).singleLineTextResult = false := by
  rw [deserialize] at nil ⊢
  split
  · rfl
  · rename_i actionValue action_eq
    simp only [action_eq] at nil ⊢
    split
    · rfl
    · rename_i id id_eq
      simp only [id_eq] at nil ⊢
      split
      · rfl
      · rename_i arguments arguments_eq
        simp only [arguments_eq] at nil ⊢
        split at nil
        · rename_i complete
          exact absurd nil complete.2.2
        · rename_i incomplete
          rw [if_neg incomplete]

section Resending

theorem Runner.dispatch_runCommand {created : Bool} {payloadHash : BitVec 64}
    {arguments : Arguments} (new : ¬ state.lastPayloadHash = payloadHash)
    (action : arguments.action = .runCommand) :
    state.dispatch env created payloadHash arguments =
      { state with lastPayloadHash := payloadHash }.schedule env .command arguments.id
        arguments.arguments arguments.timeout arguments.singleLineTextResult := by
  rw [Runner.dispatch, if_pos new, action]

/-- A command that is cached under the identifier, but is not the one that is asked for. -/
theorem Runner.schedule_of_different {kind : Kind} {id arguments : ByteString}
    {timeout : BitVec 32} {replaceEol : Bool} {cached : Ref}
    (found : state.commandMap[id]? = some cached) (below : cached < state.next)
    (different : (state.object cached).arguments = arguments →
      (state.object cached).replaceEol = replaceEol → False) :
    state.schedule env kind id arguments timeout replaceEol =
      ((state.construct env kind arguments timeout replaceEol ⟨id, 0, [], .unknown⟩).reply
        einval).release state.next := by
  have found' : (state.construct env kind arguments timeout replaceEol
      ⟨id, 0, [], .unknown⟩).commandMap[id]? = some cached := found
  have object : (state.construct env kind arguments timeout replaceEol
      ⟨id, 0, [], .unknown⟩).object cached = state.object cached :=
    Function.update_of_ne (Nat.ne_of_lt below) _ _
  have same : (state.object cached).same ((state.construct env kind arguments timeout replaceEol
      ⟨id, 0, [], .unknown⟩).object state.next) = false := by
    rw [← Bool.not_eq_true]
    intro same
    simp only [Command.same, Runner.construct, Function.update_self, Bool.and_eq_true,
      decide_eq_true_eq] at same
    exact different same.1.1.2 same.2
  simp only [Runner.schedule, found', object, same, Bool.false_eq_true, if_false]

variable {payloadHash : BitVec 64} {arguments : Arguments}

/-- The request is answered with success and nothing is done. -/
def Suppressed (payloadHash : BitVec 64) (arguments : Arguments) (state : Runner) : Prop :=
  (state.commandQueue = [] ∧ state.history = [] ∧ state.worker = .fronting none) ∧
    (state.client = .dispatching payloadHash arguments ∧
        (state.lastPayloadHash = payloadHash ∨
          ∃ cached, state.commandMap[arguments.id]? = some cached ∧ cached < state.next ∧
            state.idOf cached = arguments.id ∧
            (state.object cached).arguments = arguments.arguments ∧
            (state.object cached).timeout = arguments.timeout ∧
            (state.object cached).replaceEol = arguments.singleLineTextResult) ∨
      state.client = .idle ∧ state.status = 0)

theorem Suppressed.dispatch (action : arguments.action = .runCommand) {created : Bool}
    (suppressed : Suppressed payloadHash arguments state)
    (client_eq : state.client = .dispatching payloadHash arguments) :
    Suppressed payloadHash arguments (state.dispatch env created payloadHash arguments) ∧
      (state.dispatch env created payloadHash arguments).client = .idle := by
  rcases suppressed with ⟨rests, ⟨-, answered⟩ | ⟨idle, -⟩⟩
  · by_cases last : state.lastPayloadHash = payloadHash
    · rw [Runner.dispatch_eq_reply last]
      exact ⟨⟨rests, .inr ⟨rfl, rfl⟩⟩, rfl⟩
    · rcases answered with last' | ⟨cached, found, below, id, text, timeout, replaceEol⟩
      · exact absurd last' last
      · have object : (({ state with lastPayloadHash := payloadHash }.construct env .command
            arguments.arguments arguments.timeout arguments.singleLineTextResult
            ⟨arguments.id, 0, [], .unknown⟩).object cached) = state.object cached :=
          Function.update_of_ne (Nat.ne_of_lt below) _ _
        have same : (state.object cached).same
            (({ state with lastPayloadHash := payloadHash }.construct env .command
              arguments.arguments arguments.timeout arguments.singleLineTextResult
              ⟨arguments.id, 0, [], .unknown⟩).object state.next) = true := by
          rw [Runner.idOf, Command.id] at id
          simp [Command.same, Runner.construct, id, text, timeout, replaceEol, Command.id]
        have answer : state.dispatch env created payloadHash arguments =
            (({ state with lastPayloadHash := payloadHash }.construct env .command
              arguments.arguments arguments.timeout arguments.singleLineTextResult
              ⟨arguments.id, 0, [], .unknown⟩).reply 0).release state.next := by
          rw [Runner.dispatch_runCommand last action]
          have found' : ({ state with lastPayloadHash := payloadHash }.construct env .command
              arguments.arguments arguments.timeout arguments.singleLineTextResult
              ⟨arguments.id, 0, [], .unknown⟩).commandMap[arguments.id]? = some cached := found
          simp only [Runner.schedule, found', object, same, if_true]
        rw [answer]
        exact ⟨⟨rests, .inr ⟨rfl, rfl⟩⟩, rfl⟩
  · rw [client_eq] at idle
    cases idle

theorem Suppressed.step (action : arguments.action = .runCommand)
    (suppressed : Suppressed payloadHash arguments state) {move : Move} (calling : state.calling)
    (taken : step env state move = some state') : Suppressed payloadHash arguments state' := by
  have client_eq : state.client = .dispatching payloadHash arguments := by
    rcases suppressed.2 with ⟨client_eq, -⟩ | ⟨idle, -⟩
    · exact client_eq
    · simp [Runner.calling, idle] at calling
  cases move with
  | tick time =>
      cases taken
      exact suppressed
  | set componentName objectName payload => simp [CommandRunner.step, client_eq] at taken
  | close => simp [CommandRunner.step, client_eq] at taken
  | worker outcome =>
      rcases suppressed.1 with ⟨empty, -, fronting⟩
      simp [CommandRunner.step, Runner.workerStep, fronting, empty] at taken
  | client input =>
      simp only [CommandRunner.step, Runner.clientStep, client_eq, Option.some.injEq] at taken
      subst taken
      exact (suppressed.dispatch action client_eq).1

variable {ids : List ByteString} {componentName objectName payload : ByteString}

theorem Suppressed.returns (action : arguments.action = .runCommand) (idle : state.client = .idle)
    (some_eq : requested env componentName objectName payload = some arguments)
    (suppressed : Suppressed (hashString payload) arguments
      ((state.updateLoaded env arguments).goTo (.dispatching (hashString payload) arguments))) :
    (∃ final, Returns env componentName objectName payload state final) ∧
      ∀ final, Returns env componentName objectName payload state final →
        final.status = 0 ∧ final.commandQueue = [] ∧ final.history = [] := by
  have begins : CommandRunner.step env state (.set componentName objectName payload) =
      some ((state.updateLoaded env arguments).goTo
        (.dispatching (hashString payload) arguments)) := by
    simp only [CommandRunner.step, idle, Runner.set_eq_goTo some_eq]
  constructor
  · refine ⟨_, _, begins, .single ⟨clientGoesOn, rfl, rfl⟩, ?_⟩
    exact (suppressed.dispatch action rfl).2
  · rintro final ⟨called, begins', run, finalIdle⟩
    rw [begins] at begins'
    cases begins'
    have keeps : Keeps (Taken (CommandRunner.step env) fun state _ => state.calling)
        (Suppressed (hashString payload) arguments) := by
      rintro state state' suppressed ⟨move, calling, taken⟩
      exact suppressed.step action calling taken
    rcases keeps.run suppressed run with ⟨⟨queue, history, -⟩, ⟨client_eq, -⟩ | ⟨-, status⟩⟩
    · rw [finalIdle] at client_eq
      cases client_eq
    · exact ⟨status, queue, history⟩

/-- The request of the greatest identifier finds a command that has been completed. -/
theorem Constructing.suppressed (persists : env.usePersistedCache)
    (constructing : Constructing ids state) (idle : state.client = .idle)
    (mem : arguments.id ∈ ids)
    (answered : hashString payload = 0 ∨
      ∀ other ∈ ids, other ≠ [] ∧ (compare other arguments.id).isLE) :
    Suppressed (hashString payload) arguments
      ((state.updateLoaded env arguments).goTo (.dispatching (hashString payload) arguments)) := by
  simp only [Constructing, idle] at constructing
  rcases constructing with ⟨fronting, loads, loadedFromDisk⟩
  have extended : state.Extends (state.updateLoaded env arguments) := .updateLoaded arguments state
  rcases state.updateLoaded_keeps env arguments with ⟨last, history, -⟩
  refine ⟨⟨extended.commandQueue.trans loads.commandQueue, history.trans loads.history,
    extended.worker.trans fronting⟩, .inl ⟨rfl, ?_⟩⟩
  rcases answered with zero | greatest
  · left
    change (state.updateLoaded env arguments).lastPayloadHash = _
    rw [last, loads.lastPayloadHash, zero]
  · right
    have nonempty : [] ∉ ids := fun nil => (greatest [] nil).1 rfl
    have present : arguments.id ∈ state.commandMap :=
      (loads.keys arguments.id).mpr ⟨(greatest _ mem).1, mem⟩
    have lastKey : state.commandMap.keys.getLast? = some arguments.id := by
      rw [getLast?_keys_eq_some_iff present]
      intro other other_mem
      exact (greatest other ((loads.keys other).mp other_mem).2).2
    rw [if_neg nonempty, lastKey, Option.getD_some] at loadedFromDisk
    have found := present
    rw [Std.ExtTreeMap.mem_iff_isSome_getElem?, Option.isSome_iff_exists] at found
    rcases found with ⟨loaded, found⟩
    have loaded_eq : state.partialCommand env arguments.id = some loaded := by
      rw [Runner.partialCommand, if_pos persists, found, Option.filter_some, if_pos]
      simp [(loads.mapped _ loaded found).2.1, loadedFromDisk]
    have object : ((state.updateLoaded env arguments).object state.next).arguments =
          arguments.arguments ∧
        ((state.updateLoaded env arguments).object state.next).timeout = arguments.timeout ∧
        ((state.updateLoaded env arguments).object state.next).replaceEol =
          arguments.singleLineTextResult ∧
        (state.updateLoaded env arguments).idOf state.next = arguments.id := by
      simp [Runner.updateLoaded, loaded_eq, Runner.construct, Runner.release, Runner.idOf, Command.id]
    refine ⟨state.next, ?_, ?_, object.2.2.2, object.1, object.2.1, object.2.2.1⟩
    · change (state.updateLoaded env arguments).commandMap[arguments.id]? = _
      simp [Runner.updateLoaded, loaded_eq, Runner.release]
    · change state.next < (state.updateLoaded env arguments).next
      simp [Runner.updateLoaded, loaded_eq, Runner.release, Runner.construct]

/-- Any other request is refused, since its command differs from the one that was loaded. -/
theorem Constructing.refused (constructing : Constructing ids state) (idle : state.client = .idle)
    (some_eq : requested env componentName objectName payload = some arguments)
    (action : arguments.action = .runCommand) (mem : arguments.id ∈ ids)
    (new : hashString payload ≠ 0)
    (other : ¬ ∀ other ∈ ids, other ≠ [] ∧ (compare other arguments.id).isLE) :
    ∃ final, Returns env componentName objectName payload state final ∧ final.status = einval := by
  simp only [Constructing, idle] at constructing
  rcases constructing with ⟨-, loads, loadedFromDisk⟩
  -- `Set` does not complete the command.
  have unloaded : state.partialCommand env arguments.id = none := by
    rw [Runner.partialCommand]
    split
    · rw [Option.filter_eq_none_iff]
      intro loaded found equal
      have present : arguments.id ∈ state.commandMap := by
        rw [Std.ExtTreeMap.mem_iff_isSome_getElem?, found]
        rfl
      rw [decide_eq_true_eq, (loads.mapped _ loaded found).2.1, loadedFromDisk] at equal
      split at equal
      · exact ((loads.keys _).mp present).1 equal
      · rename_i nonempty
        apply other
        have lastKey : state.commandMap.keys.getLast? = some arguments.id := by
          cases last : state.commandMap.keys.getLast? with
          | none =>
              rw [last, Option.getD_none] at equal
              exact absurd equal ((loads.keys _).mp present).1
          | some key =>
              rw [last, Option.getD_some] at equal
              rw [equal]
        rw [getLast?_keys_eq_some_iff present] at lastKey
        intro id id_mem
        have id_nonempty : id ≠ [] := by
          rintro rfl
          exact nonempty id_mem
        exact ⟨id_nonempty, lastKey id ((loads.keys id).mpr ⟨id_nonempty, id_mem⟩)⟩
    · rfl
  have unchanged : state.updateLoaded env arguments = state := by
    simp only [Runner.updateLoaded, unloaded]
  have begins : CommandRunner.step env state (.set componentName objectName payload) =
      some (state.goTo (.dispatching (hashString payload) arguments)) := by
    simp only [CommandRunner.step, idle, Runner.set_eq_goTo some_eq, unchanged]
  have different : ¬ (state.goTo (.dispatching (hashString payload) arguments)).lastPayloadHash =
      hashString payload := by
    change ¬ state.lastPayloadHash = _
    rw [loads.lastPayloadHash]
    exact Ne.symm new
  have first : ∀ after, Runner.schedule env .command arguments.id arguments.arguments
      arguments.timeout arguments.singleLineTextResult
      { state with
        lastPayloadHash := hashString payload
        client := .dispatching (hashString payload) arguments } = after →
      Taken (CommandRunner.step env) (fun state _ => state.calling)
        (state.goTo (.dispatching (hashString payload) arguments)) after := by
    rintro after rfl
    refine ⟨clientGoesOn, rfl, ?_⟩
    exact congrArg some (Runner.dispatch_runCommand different action)
  cases found : state.commandMap[arguments.id]? with
  | some cached =>
      rcases loads.mapped _ cached found with ⟨below, -, text, replaceEol⟩
      refine ⟨_, ⟨_, begins, .single (first _ (Runner.schedule_of_different found below ?_)), rfl⟩,
        rfl⟩
      rcases exists_of_requested some_eq with ⟨document, rfl⟩
      rw [text, replaceEol]
      rintro nil equal
      rw [Arguments.deserialize_arguments_nil nil.symm] at equal
      cases equal
  | none =>
      have empty : arguments.id = [] := by
        by_contra nonempty
        have present := (loads.keys arguments.id).mpr ⟨nonempty, mem⟩
        rw [Std.ExtTreeMap.mem_iff_isSome_getElem?, found] at present
        cases present
      obtain ⟨persisting, scheduled, client_eq, id_eq⟩ : ∃ persisting, Runner.schedule env .command
          arguments.id arguments.arguments arguments.timeout arguments.singleLineTextResult
          { state with
            lastPayloadHash := hashString payload
            client := .dispatching (hashString payload) arguments } = persisting ∧
          persisting.client = .persisting state.next ∧ persisting.idOf state.next = [] := by
        refine ⟨_, rfl, ?_, ?_⟩
        · simp only [Runner.schedule, Runner.construct, found, Runner.goTo]
        · simp only [Runner.schedule, Runner.construct, found, Runner.goTo, Runner.idOf,
            Function.update_self, Command.id]
          exact empty
      -- The status has been persisted, and then the command is not cached.
      refine ⟨persisting.refuse .schedule state.next,
        ⟨_, begins, .head (first _ scheduled) (.single ⟨clientGoesOn, ?_, ?_⟩), rfl⟩, rfl⟩
      · simp [Runner.calling, client_eq]
      · simp [CommandRunner.step, clientGoesOn, Runner.clientStep, client_eq, Runner.cacheCommand,
          id_eq]

end Resending

/-- A new session of the client starts. Then a `RunCommand` whose identifier has an entry in the
persisted cache is answered with success, and nothing is executed, if and only if its identifier is
the greatest and no entry has an empty one, or the hash of its payload is zero. -/
theorem resent_suppressed_iff {env : Environment} (persists : env.usePersistedCache)
    {file : Option ByteString} (recorded : Recorded env file) (pid clock : ℕ)
    (files : List ByteString) {componentName objectName payload : ByteString}
    {arguments : Arguments}
    (some_eq : requested env componentName objectName payload = some arguments)
    (action : arguments.action = .runCommand) (stored : arguments.id ∈ storedIds env file) :
    (∃ loaded, Run (Taken (step { env with pid }) fun state _ => state.calling)
        (start { env with pid } clock files file) loaded ∧ loaded.client = .idle) ∧
    ∀ loaded, Run (Taken (step { env with pid }) fun state _ => state.calling)
        (start { env with pid } clock files file) loaded → loaded.client = .idle →
      (((∃ final, Returns { env with pid } componentName objectName payload loaded final) ∧
        ∀ final, Returns { env with pid } componentName objectName payload loaded final →
          final.status = 0 ∧ final.commandQueue = [] ∧ final.history = []) ↔
        hashString payload = 0 ∨
          ∀ other ∈ storedIds env file, other ≠ [] ∧ (compare other arguments.id).isLE) := by
  have kept := recorded.wellKept persists
  have nodup : (storedIds env file).Nodup := by
    have nodup := kept.nodup
    rw [kept.map_entryId] at nodup
    exact List.Nodup.of_map _ nodup
  have bounded : (storedIds env file).length ≤ maxCacheSize := by
    rw [← List.length_map some, ← kept.map_entryId, List.length_map]
    exact kept.bounded
  have begins : Constructing (storedIds { env with pid } file)
      (start { env with pid } clock files file) := by
    refine .start persists ⟨kept.bounded, kept.identified, kept.nodup⟩ clock files ?_
    apply persistedStatuses_loadable
    rw [persistedStatuses_eq persists]
    intro nil
    rw [List.map_eq_nil_iff] at nil
    rw [storedIds, storedEntries, nil] at stored
    cases stored
  refine ⟨begins.exists_idle nodup bounded rfl, ?_⟩
  intro loaded run idle
  have keeps : Keeps (Taken (step { env with pid }) fun state _ => state.calling)
      (Constructing (storedIds env file)) := by
    rintro state state' constructing ⟨move, calling, taken⟩
    exact constructing.step nodup bounded calling taken
  have constructing : Constructing (storedIds env file) loaded := keeps.run begins run
  have some_eq' : requested { env with pid } componentName objectName payload = some arguments :=
    some_eq
  constructor
  · rintro ⟨-, succeeds⟩
    by_contra neither
    rw [not_or] at neither
    rcases constructing.refused idle some_eq' action stored neither.1 neither.2 with
      ⟨final, returns, status⟩
    rw [(succeeds final returns).1] at status
    cases status
  · intro answered
    exact Suppressed.returns action idle some_eq'
      (constructing.suppressed persists idle stored answered)

/-- A session executes one command, and in the next session the request comes again. -/
theorem resent_suppressed_iff_one :
    ∃ file, Recorded oneWrittenEnvironment file ∧
      storedIds oneWrittenEnvironment file = [bytes "1"] ∧
      ∀ loaded, Run (Taken (step { oneWrittenEnvironment with pid := 1001 }) fun state _ =>
          state.calling)
          (start { oneWrittenEnvironment with pid := 1001 } 9 [] file) loaded →
        loaded.client = .idle →
        (∃ final, Returns { oneWrittenEnvironment with pid := 1001 } (bytes "CommandRunner")
          (bytes "commandArguments") sleepRequest.1 loaded final) ∧
        ∀ final, Returns { oneWrittenEnvironment with pid := 1001 } (bytes "CommandRunner")
          (bytes "commandArguments") sleepRequest.1 loaded final →
          final.status = 0 ∧ final.commandQueue = [] ∧ final.history = [] := by
  have reached : ∃ final : Runner × Option ByteString,
      Run (Taken (storingStep { oneWrittenEnvironment with pid := 1000 }) fun state move =>
          stores { oneWrittenEnvironment with pid := 1000 } state move)
        (start { oneWrittenEnvironment with pid := 1000 } 0 [] none, none) final ∧
      decide (storedIds oneWrittenEnvironment final.2 = [bytes "1"]) = true :=
    exists_run_of_follow (silently [clientGoesOn] ++
      storingRequest sleepRequest (cacheSample [(bytes "1", 0)]) ++
      silently [clientGoesOn, clientGoesOn] ++ storingWorker (cacheSample [(bytes "1", 2)]) ++
      silently ([workerGoesOn 0, .close] ++ List.replicate 2 clientGoesOn ++ [workerGoesOn 0] ++
        [clientGoesOn])) (by decide +kernel)
  rcases reached with ⟨final, run, ids⟩
  rw [decide_eq_true_eq] at ids
  have recorded : Recorded oneWrittenEnvironment final.2 := .session (.unused rfl) run
  refine ⟨final.2, recorded, ids, ?_⟩
  intro loaded loads idle
  have some_eq : requested oneWrittenEnvironment (bytes "CommandRunner") (bytes "commandArguments")
      sleepRequest.1 = some ⟨bytes "1", bytes "sleep 10s", .runCommand, 0, true⟩ := by
    decide
  refine ((resent_suppressed_iff rfl recorded 1001 9 [] some_eq rfl (by simp [ids])).2 loaded loads
    idle).mpr (.inr ?_)
  rw [ids]
  decide

/-- The environment of two requests and of the cache files that are written for them. -/
def twoWrittenEnvironment : Environment :=
  sampleEnvironment (sleepRequest :: echoRequest ::
    cacheSamples [(bytes "1", 0), (bytes "1", 2), (bytes "2", 0), (bytes "2", 2)])

/-- A session executes two commands and is closed. In the next session the request of the first
one is refused. -/
theorem resent_refused_two :
    ∃ file loaded final, Recorded twoWrittenEnvironment file ∧
      storedEntries twoWrittenEnvironment file =
        [Status.toJson ⟨bytes "1", 0, [], .succeeded⟩ false,
          Status.toJson ⟨bytes "2", 0, [], .succeeded⟩ false] ∧
      (Run (Taken (step { twoWrittenEnvironment with pid := 1001 }) fun state _ => state.calling)
        (start { twoWrittenEnvironment with pid := 1001 } 9 [] file) loaded ∧
        loaded.client = .idle) ∧
      Returns { twoWrittenEnvironment with pid := 1001 } (bytes "CommandRunner")
        (bytes "commandArguments") sleepRequest.1 loaded final ∧
      final.status = einval := by
  have reached : ∃ final : Runner × Option ByteString,
      Run (Taken (storingStep { twoWrittenEnvironment with pid := 1000 }) fun state move =>
          stores { twoWrittenEnvironment with pid := 1000 } state move)
        (start { twoWrittenEnvironment with pid := 1000 } 0 [] none, none) final ∧
      decide (storedEntries twoWrittenEnvironment final.2 =
        [Status.toJson ⟨bytes "1", 0, [], .succeeded⟩ false,
          Status.toJson ⟨bytes "2", 0, [], .succeeded⟩ false] ∧
        (follow (step { twoWrittenEnvironment with pid := 1001 }) (fun state _ => state.calling)
          (start { twoWrittenEnvironment with pid := 1001 } 9 [] final.2)
          (List.replicate 5 clientGoesOn)).any fun loaded =>
            loaded.client = .idle ∧
              ((step { twoWrittenEnvironment with pid := 1001 } loaded (send sleepRequest)).bind
                fun called => follow (step { twoWrittenEnvironment with pid := 1001 })
                  (fun state _ => state.calling) called [clientGoesOn]).any fun final =>
                    final.client = .idle ∧ decide (final.status = einval)) = true :=
    exists_run_of_follow (silently [clientGoesOn] ++
      storingRequest sleepRequest (cacheSample [(bytes "1", 0)]) ++
      silently [clientGoesOn, clientGoesOn] ++ storingWorker (cacheSample [(bytes "1", 2)]) ++
      silently [workerGoesOn 0] ++
      storingRequest echoRequest (cacheSample [(bytes "1", 2), (bytes "2", 0)]) ++
      silently [clientGoesOn, clientGoesOn] ++
      storingWorker (cacheSample [(bytes "1", 2), (bytes "2", 2)]) ++
      silently ([workerGoesOn 0, .close] ++ List.replicate 2 clientGoesOn ++ [workerGoesOn 0] ++
        [clientGoesOn])) (by decide +kernel)
  rcases reached with ⟨closed, run, passed⟩
  rw [decide_eq_true_eq] at passed
  rcases passed with ⟨entries, restarted⟩
  rcases exists_run_of_follow _ restarted with ⟨loaded, loads, resent⟩
  rw [decide_eq_true_eq] at resent
  rcases resent with ⟨idle, answered⟩
  rcases Returns.exists_of_follow [clientGoesOn] answered with ⟨final, returns, status⟩
  rw [decide_eq_true_eq] at status
  exact ⟨closed.2, loaded, final, .session (.unused rfl) run, entries, ⟨loads, idle⟩, returns,
    status⟩

end OsConfig.CommandRunner
