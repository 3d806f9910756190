import OsConfig.Platform.ModulesManager
import Mathlib.Data.List.Perm.Basic

/-!
# The registry of sessions

Over any run of calls the sessions in the list are those that have been opened
and not yet closed, each with the module handles that its opening has obtained.
A session that is closed gives all of them back, and no call reaches a handle of
another session.
-/

namespace OsConfig.ModulesManager

variable {M H σ : Type}

/-- The calls of clients that concern sessions. -/
inductive Call where
  | open (uuid client : ByteString) (maxPayloadSizeBytes : BitVec 32)
  | close (handle : Option ByteString)
  | set (handle : Option ByteString) (component object payload : ByteString)
      (payloadSizeBytes : BitVec 32)
  | get (handle : Option ByteString) (component object : ByteString)

/-- What a call does: the calls of modules that it makes, and the state it leaves. -/
def perform (mmi : Mmi M H σ) (loaded : List M) (platform : Platform M H σ) :
    Call → List (ModuleCall M H) × Platform M H σ
  | .open uuid client maxPayloadSizeBytes =>
      (mpiOpen mmi loaded uuid client maxPayloadSizeBytes platform).2
  | .close handle => mpiClose mmi handle platform
  | .set handle component object payload payloadSizeBytes =>
      (mpiSet mmi handle component object payload payloadSizeBytes platform).2
  | .get handle component object => (mpiGet mmi handle component object platform).2

/-- The uuid of a new session is not that of a session that is still open. -/
def Fresh (platform : Platform M H σ) : Call → Prop
  | .open uuid _ _ => ∀ session ∈ platform.sessions, session.uuid ≠ uuid
  | _ => True

/-- What has happened so far: the calls, each with the calls of modules that it has made. -/
abbrev History (M H : Type) := List (Call × List (ModuleCall M H))

/-- The runs of the manager. -/
inductive Run (mmi : Mmi M H σ) (loaded : List M) : History M H → Platform M H σ → Prop
  | start (world : σ) : Run mmi loaded [] ⟨[], world⟩
  | call {history : History M H} {platform : Platform M H σ} {call : Call}
      (before : Run mmi loaded history platform) (fresh : Fresh platform call) :
      Run mmi loaded (history ++ [(call, (perform mmi loaded platform call).1)])
        (perform mmi loaded platform call).2

def openedBy (calls : List (ModuleCall M H)) : List (ModuleSession M H) :=
  calls.filterMap fun
    | .open opened => some opened
    | _ => none

def openSessions (loaded : List M) (history : History M H) :
    ByteString → Option (ByteString × List (ModuleSession M H)) :=
  history.foldl (fun registry event =>
    match event with
    | (.open uuid client _, calls) =>
        if loaded.isEmpty then registry
        else Function.update registry uuid (some (client, openedBy calls))
    | (.close (some uuid), _) => Function.update registry uuid none
    | _ => registry) fun _ => none

/-- A session holds these module sessions, the last one opened in front. -/
def Session.holds (session : Session M H) : ByteString × List (ModuleSession M H) :=
  (session.client, session.modules.reverse)

section Modules

variable {mmi : Mmi M H σ} {loaded : List M} {client : ByteString} {maxPayloadSizeBytes : BitVec 32}

variable (mmi loaded client maxPayloadSizeBytes) in
/-- Every loaded module is opened once, in order. -/
theorem openModules_spec (opened : List (ModuleSession M H)) (world : σ) :
    ∃ fresh : List (ModuleSession M H),
      fresh.map ModuleSession.module = loaded ∧
        (openModules mmi client maxPayloadSizeBytes loaded opened world).1 =
          fresh.reverse ++ opened ∧
        (openModules mmi client maxPayloadSizeBytes loaded opened world).2.1 =
          fresh.map ModuleCall.open := by
  induction loaded generalizing opened world with
  | nil => exact ⟨[], rfl, rfl, rfl⟩
  | cons module rest ih =>
      rcases ih (⟨module, (mmi.mmiOpen module client maxPayloadSizeBytes world).1⟩ :: opened)
        (mmi.mmiOpen module client maxPayloadSizeBytes world).2 with ⟨fresh, modules, all, calls⟩
      refine ⟨⟨module, (mmi.mmiOpen module client maxPayloadSizeBytes world).1⟩ :: fresh, ?_, ?_, ?_⟩
      · rw [List.map_cons, modules]
      · rw [openModules]
        simp [all]
      · rw [openModules]
        simp [calls]

theorem closeModules_calls (modules : List (ModuleSession M H)) (world : σ) :
    (closeModules mmi modules world).1 = modules.map ModuleCall.close := by
  induction modules generalizing world with
  | nil => rfl
  | cons moduleSession rest ih => simp [closeModules, ih]

theorem openedBy_map (opened : List (ModuleSession M H)) :
    openedBy (opened.map ModuleCall.open) = opened := by
  induction opened with
  | nil => rfl
  | cons first rest ih =>
      rw [List.map_cons, openedBy, List.filterMap_cons]
      exact congrArg (first :: ·) ih

end Modules

section Lookup

variable {sessions : List (Session M H)} {uuid other : ByteString}

/-- The session that is closed cannot be found any more, all others can. -/
theorem findSession_eraseP (distinct : (sessions.map Session.uuid).Nodup) :
    findSession other (sessions.eraseP fun session => session.uuid = uuid) =
      if other = uuid then none else findSession other sessions := by
  induction sessions with
  | nil => simp [findSession]
  | cons first rest ih =>
      rw [List.map_cons, List.nodup_cons] at distinct
      by_cases here : first.uuid = uuid
      · rw [List.eraseP_cons_of_pos (by simpa using here)]
        split
        next same =>
          subst same
          rw [findSession, List.find?_eq_none]
          intro session mem
          have differs : session.uuid ≠ other := by
            rintro rfl
            apply distinct.1
            rw [here]
            exact List.mem_map_of_mem mem
          simpa using differs
        next differs =>
          have skipped : first.uuid ≠ other := fun same => differs (same.symm.trans here)
          simp [findSession, skipped]
      · rw [List.eraseP_cons_of_neg (by simpa using here)]
        have later := ih distinct.2
        by_cases first_other : first.uuid = other
        · have differs : other ≠ uuid := fun same => here (first_other.trans same)
          simp [findSession, first_other, differs]
        · simpa [findSession, first_other] using later

theorem nodup_eraseP (distinct : (sessions.map Session.uuid).Nodup) :
    ((sessions.eraseP fun session => session.uuid = uuid).map Session.uuid).Nodup :=
  distinct.sublist (List.Sublist.map _ List.eraseP_sublist)

end Lookup

/-- The list of sessions says what the history says, and every session has one module session for
each loaded module. -/
structure Registered (loaded : List M) (history : History M H) (platform : Platform M H σ) :
    Prop where
  distinct : (platform.sessions.map Session.uuid).Nodup
  registered : ∀ uuid, (findSession uuid platform.sessions).map Session.holds =
    openSessions loaded history uuid
  complete : ∀ session ∈ platform.sessions,
    session.modules.reverse.map ModuleSession.module = loaded

/-- What a call may do to the modules in this state. -/
structure Confined (mmi : Mmi M H σ) (platform : Platform M H σ) : Prop where
  closes : ∀ uuid session, findSession uuid platform.sessions = some session →
    (mpiClose mmi (some uuid) platform).1 = session.modules.map ModuleCall.close ∧
      ∀ other, findSession other (mpiClose mmi (some uuid) platform).2.sessions =
        if other = uuid then none else findSession other platform.sessions
  ignores : ∀ handle : Option ByteString, (handle.bind fun uuid => findSession uuid platform.sessions) = none →
    mpiClose mmi handle platform = ([], platform)
  sets : ∀ (handle : Option ByteString) component object payload payloadSizeBytes,
    match handle.bind fun uuid => findSession uuid platform.sessions with
    | none => mpiSet mmi handle component object payload payloadSizeBytes platform =
        (invalid, [], platform)
    | some session =>
        let (_, calls, after) :=
          mpiSet mmi handle component object payload payloadSizeBytes platform
        (∀ call ∈ calls, ∃ on ∈ session.modules, call = .set on component object payload) ∧
          after.sessions = platform.sessions
  gets : ∀ (handle : Option ByteString) component object,
    match handle.bind fun uuid => findSession uuid platform.sessions with
    | none => mpiGet mmi handle component object platform = ((invalid, none, 0), [], platform)
    | some session =>
        let (_, calls, after) := mpiGet mmi handle component object platform
        (∀ call ∈ calls, ∃ on ∈ session.modules, call = .get on component object) ∧
          after.sessions = platform.sessions

section Runs

variable {mmi : Mmi M H σ} {loaded : List M} {history : History M H} {platform : Platform M H σ}

theorem openSessions_concat (call : Call) (calls : List (ModuleCall M H)) :
    openSessions loaded (history ++ [(call, calls)]) =
      match call with
      | .open uuid client _ =>
          if loaded.isEmpty then openSessions loaded history
          else Function.update (openSessions loaded history) uuid (some (client, openedBy calls))
      | .close (some uuid) => Function.update (openSessions loaded history) uuid none
      | _ => openSessions loaded history := by
  rw [openSessions, List.foldl_append]
  cases call with
  | close handle => cases handle <;> rfl
  | _ => rfl

theorem registered_open (registered : Registered loaded history platform) {uuid client : ByteString}
    {maxPayloadSizeBytes : BitVec 32}
    (fresh : ∀ session ∈ platform.sessions, session.uuid ≠ uuid) :
    Registered loaded
      (history ++ [(.open uuid client maxPayloadSizeBytes,
        (mpiOpen mmi loaded uuid client maxPayloadSizeBytes platform).2.1)])
      (mpiOpen mmi loaded uuid client maxPayloadSizeBytes platform).2.2 := by
  by_cases unloaded : loaded.isEmpty = true
  · have nothing : mpiOpen mmi loaded uuid client maxPayloadSizeBytes platform =
        (none, [], platform) := by
      rw [mpiOpen, if_pos unloaded]
    refine ⟨?_, ?_, ?_⟩
    · rw [nothing]
      exact registered.distinct
    · intro other
      rw [openSessions_concat, nothing]
      simp only [unloaded, if_true]
      exact registered.registered other
    · rw [nothing]
      exact registered.complete
  · rcases openModules_spec mmi loaded client maxPayloadSizeBytes [] platform.world with
      ⟨modules, all, opened, calls⟩
    have outcome : mpiOpen mmi loaded uuid client maxPayloadSizeBytes platform =
        (some uuid, modules.map ModuleCall.open,
          ⟨⟨uuid, client, modules.reverse⟩ :: platform.sessions,
            (openModules mmi client maxPayloadSizeBytes loaded [] platform.world).2.2⟩) := by
      rw [mpiOpen, if_neg unloaded]
      simp [opened, calls]
    refine ⟨?_, ?_, ?_⟩
    · rw [outcome]
      apply List.nodup_cons.mpr
      refine ⟨?_, registered.distinct⟩
      intro mem
      rcases List.mem_map.mp mem with ⟨session, there, same⟩
      exact fresh session there same
    · intro other
      rw [openSessions_concat, outcome]
      simp only [unloaded, Bool.false_eq_true, if_false, openedBy_map]
      by_cases here : other = uuid
      · subst here
        simp [findSession, Session.holds]
      · have differs : uuid ≠ other := fun same => here same.symm
        have old := registered.registered other
        rw [Function.update_of_ne here]
        simpa [findSession, differs] using old
    · rw [outcome]
      intro session mem
      rcases List.mem_cons.mp mem with rfl | old
      · simpa using all
      · exact registered.complete session old

theorem registered_close (registered : Registered loaded history platform)
    (handle : Option ByteString) :
    Registered loaded (history ++ [(.close handle, (mpiClose mmi handle platform).1)])
      (mpiClose mmi handle platform).2 := by
  cases handle with
  | none =>
      refine ⟨registered.distinct, ?_, registered.complete⟩
      intro other
      rw [openSessions_concat]
      exact registered.registered other
  | some uuid =>
      cases found : findSession uuid platform.sessions with
      | none =>
          have nothing : mpiClose mmi (some uuid) platform = ([], platform) := by
            simp [mpiClose, found]
          rw [nothing]
          refine ⟨registered.distinct, ?_, registered.complete⟩
          intro other
          rw [openSessions_concat]
          by_cases here : other = uuid
          · subst here
            simp [found]
          · dsimp only
            rw [Function.update_of_ne here]
            exact registered.registered other
      | some session =>
          have sessions : (mpiClose mmi (some uuid) platform).2.sessions =
              platform.sessions.eraseP fun session => session.uuid = uuid := by
            simp [mpiClose, found]
          refine ⟨?_, ?_, ?_⟩
          · rw [sessions]
            exact nodup_eraseP registered.distinct
          · intro other
            rw [openSessions_concat, sessions, findSession_eraseP registered.distinct]
            dsimp only
            by_cases here : other = uuid
            · subst here
              simp
            · rw [if_neg here, Function.update_of_ne here]
              exact registered.registered other
          · rw [sessions]
            exact fun other mem => registered.complete other (List.mem_of_mem_eraseP mem)

/-- Nothing that the sessions say changes with the world. -/
theorem Registered.of_sessions (registered : Registered loaded history platform)
    {after : Platform M H σ} (same : after.sessions = platform.sessions) {event : Call × _}
    (quiet : openSessions loaded (history ++ [event]) = openSessions loaded history) :
    Registered loaded (history ++ [event]) after := by
  refine ⟨?_, ?_, ?_⟩
  · rw [same]
    exact registered.distinct
  · intro uuid
    rw [same, quiet]
    exact registered.registered uuid
  · rw [same]
    exact registered.complete

theorem mpiSet_sessions (handle : Option ByteString) (component object payload : ByteString)
    (payloadSizeBytes : BitVec 32) :
    (mpiSet mmi handle component object payload payloadSizeBytes platform).2.2.sessions =
      platform.sessions := by
  unfold mpiSet
  split
  · rfl
  · split <;> rfl

theorem mpiGet_sessions (handle : Option ByteString) (component object : ByteString) :
    (mpiGet mmi handle component object platform).2.2.sessions = platform.sessions := by
  unfold mpiGet
  split
  · rfl
  · split <;> rfl

theorem registered_run (run : Run mmi loaded history platform) :
    Registered loaded history platform := by
  induction run with
  | start world =>
      refine ⟨List.nodup_nil, fun uuid => rfl, ?_⟩
      intro session mem
      cases mem
  | @call history platform call before fresh ih =>
      cases call with
      | «open» uuid client maxPayloadSizeBytes => exact registered_open ih fresh
      | close handle => exact registered_close ih handle
      | set handle component object payload payloadSizeBytes =>
          exact ih.of_sessions (mpiSet_sessions ..) (openSessions_concat ..)
      | get handle component object =>
          exact ih.of_sessions (mpiGet_sessions ..) (openSessions_concat ..)

theorem confined (distinct : (platform.sessions.map Session.uuid).Nodup) :
    Confined mmi platform := by
  refine ⟨?_, ?_, ?_, ?_⟩
  · intro uuid session found
    constructor
    · simp [mpiClose, found, closeModules_calls]
    · intro other
      rw [← findSession_eraseP distinct]
      simp [mpiClose, found]
  · intro handle unknown
    cases handle with
    | none => rfl
    | some uuid =>
        rw [Option.bind_some] at unknown
        simp [mpiClose, unknown]
  · intro handle component object payload payloadSizeBytes
    split
    next unknown => simp [mpiSet, unknown]
    next session found =>
      refine ⟨?_, mpiSet_sessions ..⟩
      intro call mem
      simp only [found] at mem
      split at mem
      · cases mem
      next on here =>
        rw [List.mem_singleton.mp mem]
        exact ⟨on, List.mem_of_find?_eq_some here, rfl⟩
  · intro handle component object
    split
    next unknown => simp [mpiGet, unknown]
    next session found =>
      refine ⟨?_, mpiGet_sessions ..⟩
      intro call mem
      simp only [found] at mem
      split at mem
      · cases mem
      next on here =>
        rw [List.mem_singleton.mp mem]
        exact ⟨on, List.mem_of_find?_eq_some here, rfl⟩

/-- In every state that a run reaches, the sessions are those that its history has left open, and
every further call keeps to the session that it names. -/
theorem session_registry (run : Run mmi loaded history platform) :
    Registered loaded history platform ∧ Confined mmi platform :=
  ⟨registered_run run, confined (registered_run run).distinct⟩

/-- Two modules that number their handles. -/
def numbering : Mmi Bool ℕ ℕ where
  components module := [if module then bytes "Tpm" else bytes "Firewall"]
  mmiOpen _ _ _ next := (next, next + 1)
  mmiClose _ _ next := next
  mmiSet _ _ _ _ _ _ next := (0, next)
  mmiGet _ _ _ _ next := ((0, none, 0), next)

theorem session_registry_numbering :
    let opened : Call := .open (bytes "A") (bytes "client") 0
    let closed : Call := .close (some (bytes "A"))
    let first := perform numbering [true, false] ⟨[], 7⟩ opened
    let second := perform numbering [true, false] first.2 closed
    Registered [true, false] [(opened, first.1), (closed, second.1)] second.2 ∧
      Confined numbering second.2 :=
  session_registry (.call (.call (.start 7) fun _ mem => nomatch mem) trivial)

end Runs

end OsConfig.ModulesManager
