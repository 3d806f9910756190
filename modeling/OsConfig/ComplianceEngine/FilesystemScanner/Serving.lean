import OsConfig.ComplianceEngine.FilesystemScanner.RoundTrip
import OsConfig.Library.Transitions

/-!
# Serving the filesystem cache

`GetFullFilesystem` answers from memory, from the cache file or not at all, and
starts scans in child processes that replace the file when they are done. A call
reads the clock several times, and the file may be replaced between any two of
its steps. The model takes these steps one by one, together with those of the
clock and of the child that holds the lock.

The age of a cache without a positive end time is taken to be zero, so such a
cache is served for ever. A cache that is served is below the hard timeout if
the clock, the cache in memory and the header of the file are past the epoch,
which all later scans keep so, and if the hard timeout is positive, which the
constructor does not ask for.
-/

namespace OsConfig.ComplianceEngine.FilesystemScanner

open ByteString Transitions

/-- The timeouts that the constructor accepts. -/
structure Config where
  softTimeout : ℤ
  hardTimeout : ℤ
  waitTimeout : ℤ
  accepted : ¬ (hardTimeout = 0 ∨ softTimeout = 0 ∨ hardTimeout < softTimeout)

/-- The child that holds the lock: it scans, has written the temporary file, or has removed
the cache file to rename the temporary one. -/
inductive Scan where
  | scanning (start : BitVec 64)
  | written (contents : ByteString)
  | unlinked (contents : ByteString)

/-- From where `LoadCache` is called. -/
inductive Caller where
  | first
  | initialWait (startWait : ℤ)
  | expiredWait (startWait : ℤ)

/-- What a call of `GetFullFilesystem` does next. -/
inductive Position where
  | idle
  | called
  | opening (caller : Caller)
  | opened (caller : Caller) (file : Option ByteString)
  | waitStart (expired : Bool)
  | waitTest (expired : Bool) (startWait : ℤ)
  | initialDone
  | readNow
  | recheck (startWait : ℤ)
  | expiredDone

/-- What a call returned, with the clock readings it took. -/
structure Answer where
  cache : Option FSCache
  readings : List ℤ

structure State where
  clock : ℤ
  file : Option ByteString
  memory : Option FSCache
  children : ℕ := 0
  scan : Option Scan := none
  position : Position := .idle
  readings : List ℤ := []
  answers : List Answer := []

namespace State

def goTo (state : State) (position : Position) : State :=
  { state with position }

/-- `::time(nullptr)`. -/
def readClock (state : State) : State :=
  { state with readings := state.clock :: state.readings }

/-- `BackgroundScan` in the parent. -/
def fork (state : State) : State :=
  { state with children := state.children + 1 }

def store (state : State) (cache : FSCache) : State :=
  { state with memory := some cache }

def answer (state : State) (cache : Option FSCache) : State :=
  { state with position := .idle, answers := ⟨cache, state.readings⟩ :: state.answers }

end State

def headerTimes (file : Option ByteString) : Option (BitVec 64 × BitVec 64) := do
  let text ← file
  match getLines text with
  | [] => none
  | header :: _ => readHeader header

/-- The age `GetFullFilesystem` computes. -/
def age (now : ℤ) (cache : FSCache) : ℤ :=
  if 0 < cache.scanEndTime.toInt then now - cache.scanEndTime.toInt else 0

/-- What the caller of `LoadCache` does with the cache that was loaded, if any. -/
def afterLoad (config : Config) (caller : Caller) (loaded : Option FSCache) (state : State) :
    State :=
  match loaded, caller with
  | some cache, .first => (state.store cache).goTo .readNow
  | some cache, .initialWait _ => (state.store cache).goTo .initialDone
  | some cache, .expiredWait startWait => (state.store cache).goTo (.recheck startWait)
  | none, .first =>
      state.fork.goTo (if 0 < config.waitTimeout then .waitStart false else .initialDone)
  | none, .initialWait startWait => state.goTo (.waitTest false startWait)
  | none, .expiredWait startWait => state.goTo (.waitTest true startWait)

/-- The rest of `LoadCache` once the file is open. The clock is read if there is a header to
compare it with. -/
def finishLoad (config : Config) (caller : Caller) (file : Option ByteString) (state : State) :
    State :=
  afterLoad config caller (loadCache config.hardTimeout state.clock file)
    (if 0 < config.hardTimeout ∧ (headerTimes file).isSome then state.readClock else state)

/-- The part of `GetFullFilesystem` after a cache has been found. -/
def judge (config : Config) (cache : FSCache) (state : State) : State :=
  let now := state.clock
  let state := state.readClock
  if 0 < config.hardTimeout ∧ config.hardTimeout ≤ age now cache then
    state.fork.goTo (if 0 < config.waitTimeout then .waitStart true else .expiredDone)
  else if 0 < config.softTimeout ∧ config.softTimeout ≤ age now cache then
    state.fork.answer (some cache)
  else
    state.answer (some cache)

def callStep (config : Config) (state : State) : State :=
  match state.position with
  | .idle => state
  | .called =>
      match state.memory with
      | some _ => state.goTo .readNow
      | none => state.goTo (.opening .first)
  | .opening caller => state.goTo (.opened caller state.file)
  | .opened caller file => finishLoad config caller file state
  | .waitStart expired => state.readClock.goTo (.waitTest expired state.clock)
  | .waitTest expired startWait =>
      let state := state.readClock
      if state.clock - startWait < config.waitTimeout then
        state.goTo (.opening (if expired then .expiredWait startWait else .initialWait startWait))
      else
        state.goTo (if expired then .expiredDone else .initialDone)
  | .initialDone =>
      match state.memory with
      | none => state.answer none
      | some _ => state.goTo .readNow
  | .readNow =>
      match state.memory with
      | none => state
      | some cache => judge config cache state
  | .recheck startWait =>
      match state.memory with
      | none => state
      | some cache =>
          let state := state.readClock
          if state.clock - cache.scanEndTime.toInt < config.hardTimeout then
            state.answer (some cache)
          else
            state.goTo (.waitTest true startWait)
  | .expiredDone => { state with memory := none }.answer none

/-- The steps of the system: the clock goes on, a call starts or takes a step, and the children
take theirs. A child that does not get the lock exits, and the one that has it may die. -/
inductive Step (config : Config) : State → State → Prop where
  | tick {state : State} {later : ℤ} (forward : state.clock ≤ later) (inRange : later < 2 ^ 63) :
      Step config state { state with clock := later }
  | call {state : State} (idle : state.position = .idle) :
      Step config state { state with position := .called, readings := [] }
  | run {state : State} (busy : state.position ≠ .idle) :
      Step config state (callStep config state)
  | childLocks {state : State} {others : ℕ} (forked : state.children = others + 1)
      (free : state.scan = none) :
      Step config state { state with
        children := others
        scan := some (.scanning (BitVec.ofInt 64 state.clock)) }
  | childExits {state : State} {others : ℕ} (forked : state.children = others + 1) :
      Step config state { state with children := others }
  | scanned {state : State} {start : BitVec 64} (holds : state.scan = some (.scanning start))
      (entries : Std.ExtTreeMap ByteString FSEntry) :
      Step config state { state with
        scan := some (.written (cacheFile
          { scanStartTime := start, scanEndTime := BitVec.ofInt 64 state.clock, entries })) }
  | unlinks {state : State} {contents : ByteString}
      (holds : state.scan = some (.written contents)) :
      Step config state { state with file := none, scan := some (.unlinked contents) }
  | renames {state : State} {contents : ByteString}
      (holds : state.scan = some (.unlinked contents)) :
      Step config state { state with file := some contents, scan := none }
  | childDies {state : State} : Step config state { state with scan := none }

/-- A cache that was returned is below the hard timeout at a clock reading of its call. -/
def Answer.Fresh (config : Config) (answer : Answer) : Prop :=
  ∀ cache, answer.cache = some cache →
    ∃ now ∈ answer.readings, now - cache.scanEndTime.toInt < config.hardTimeout

def EndsAfterEpoch (file : Option ByteString) : Prop :=
  ∀ start finish, headerTimes file = some (start, finish) → 0 < finish.toInt

theorem headerTimes_of_loadCache {hardTimeout now : ℤ} {file : Option ByteString} {cache : FSCache}
    (loaded : loadCache hardTimeout now file = some cache) :
    headerTimes file = some (cache.scanStartTime, cache.scanEndTime) := by
  cases file with
  | none => simp [loadCache] at loaded
  | some text =>
      simp only [loadCache, Option.bind_eq_bind, Option.bind_some] at loaded
      simp only [headerTimes, Option.bind_eq_bind, Option.bind_some]
      cases lines : getLines text with
      | nil => simp [lines] at loaded
      | cons header rest =>
          simp only [lines, Option.bind_eq_some_iff] at loaded
          rcases loaded with ⟨⟨start, finish⟩, header_eq, loaded⟩
          split at loaded
          · cases loaded
          · split at loaded
            · cases loaded
            · rw [Option.some.injEq] at loaded
              simp only [header_eq, ← loaded]

theorem headerTimes_cacheFile (cache : FSCache) :
    headerTimes (some (cacheFile cache)) = some (cache.scanStartTime, cache.scanEndTime) := by
  have lines : getLines (cacheFile cache) =
      headerLine cache.scanStartTime cache.scanEndTime ::
        getLines ((cache.entries.toList.map fun kv => entryLine kv.1 kv.2).flatMap
          fun line => line ++ [10]) := by
    rw [cacheFile, cacheLines, List.flatMap_cons, List.append_assoc, List.singleton_append,
      getLines_cons _ (newline_not_mem_headerLine _ _)]
  simp only [headerTimes, Option.bind_eq_bind, Option.bind_some, lines]
  exact readHeader_headerLine _ _

/-- Everything that may be served later is past the epoch, and what has been served was fresh. -/
structure Serving (config : Config) (state : State) : Prop where
  clock_pos : 0 < state.clock
  clock_lt : state.clock < 2 ^ 63
  file : EndsAfterEpoch state.file
  opened : ∀ caller file, state.position = .opened caller file → EndsAfterEpoch file
  memory : ∀ cache, state.memory = some cache → 0 < cache.scanEndTime.toInt
  scan : ∀ contents, state.scan = some (.written contents) ∨ state.scan = some (.unlinked contents) →
    EndsAfterEpoch (some contents)
  answers : ∀ answer ∈ state.answers, answer.Fresh config

namespace Serving

variable {config : Config} {state : State}

theorem goTo (serving : Serving config state) {position : Position}
    (unopened : ∀ caller file, position = .opened caller file → EndsAfterEpoch file) :
    Serving config (state.goTo position) :=
  { serving with opened := unopened }

theorem readClock (serving : Serving config state) : Serving config state.readClock :=
  { serving with }

theorem fork (serving : Serving config state) : Serving config state.fork :=
  { serving with }

theorem store (serving : Serving config state) {cache : FSCache}
    (positive : 0 < cache.scanEndTime.toInt) : Serving config (state.store cache) := by
  refine { serving with memory := ?_ }
  intro other other_eq
  rwa [← Option.some.inj other_eq]

theorem answer (serving : Serving config state) {cache : Option FSCache}
    (fresh : Answer.Fresh config ⟨cache, state.readings⟩) :
    Serving config (state.answer cache) := by
  refine { serving with opened := ?_, answers := ?_ }
  · intro caller file position_eq
    cases position_eq
  · intro other other_mem
    rcases List.mem_cons.mp other_mem with rfl | earlier
    · exact fresh
    · exact serving.answers other earlier

theorem finishLoad (serving : Serving config state) {caller : Caller} {file : Option ByteString}
    (past : EndsAfterEpoch file) :
    Serving config (FilesystemScanner.finishLoad config caller file state) := by
  have read : Serving config (if 0 < config.hardTimeout ∧ (headerTimes file).isSome then
      state.readClock else state) := by
    split
    · exact serving.readClock
    · exact serving
  rw [FilesystemScanner.finishLoad]
  cases loaded : loadCache config.hardTimeout state.clock file with
  | some cache =>
      have stored := read.store (past _ _ (headerTimes_of_loadCache loaded))
      cases caller with
      | first => exact stored.goTo (by simp)
      | initialWait startWait => exact stored.goTo (by simp)
      | expiredWait startWait => exact stored.goTo (by simp)
  | none =>
      cases caller with
      | first => exact read.fork.goTo (by split <;> simp)
      | initialWait startWait => exact read.goTo (by simp)
      | expiredWait startWait => exact read.goTo (by simp)

theorem judge (positive : 0 < config.hardTimeout) (serving : Serving config state)
    {cache : FSCache} (past : 0 < cache.scanEndTime.toInt) :
    Serving config (FilesystemScanner.judge config cache state) := by
  have age_eq : age state.clock cache = state.clock - cache.scanEndTime.toInt := by
    rw [age, if_pos past]
  rw [FilesystemScanner.judge]
  split
  · exact serving.readClock.fork.goTo (by split <;> simp)
  · rename_i unexpired
    have fresh : Answer.Fresh config ⟨some cache, state.readClock.readings⟩ := by
      intro served served_eq
      rw [← Option.some.inj served_eq]
      refine ⟨state.clock, by simp [State.readClock], ?_⟩
      rw [age_eq] at unexpired
      omega
    split
    · exact serving.readClock.fork.answer fresh
    · exact serving.readClock.answer fresh

theorem callStep (positive : 0 < config.hardTimeout) (serving : Serving config state) :
    Serving config (FilesystemScanner.callStep config state) := by
  have unavailable : ∀ readings, Answer.Fresh config ⟨none, readings⟩ := by
    intro readings cache cache_eq
    cases cache_eq
  rw [FilesystemScanner.callStep]
  cases position_eq : state.position with
  | idle => exact serving
  | called =>
      cases state.memory with
      | none => exact serving.goTo (by simp)
      | some cache => exact serving.goTo (by simp)
  | opening caller =>
      apply serving.goTo
      rintro _ _ ⟨⟩
      exact serving.file
  | opened caller file => exact serving.finishLoad (serving.opened caller file position_eq)
  | waitStart expired => exact serving.readClock.goTo (by simp)
  | waitTest expired startWait =>
      simp only
      split
      · exact serving.readClock.goTo (by simp)
      · exact serving.readClock.goTo (by split <;> simp)
  | initialDone =>
      cases state.memory with
      | none => exact serving.answer (unavailable _)
      | some cache => exact serving.goTo (by simp)
  | readNow =>
      cases memory_eq : state.memory with
      | none => exact serving
      | some cache => exact serving.judge positive (serving.memory cache memory_eq)
  | recheck startWait =>
      cases memory_eq : state.memory with
      | none => exact serving
      | some cache =>
          simp only
          split
          · rename_i below
            apply serving.readClock.answer
            intro served served_eq
            rw [← Option.some.inj served_eq]
            exact ⟨state.clock, by simp [State.readClock], below⟩
          · exact serving.readClock.goTo (by simp)
  | expiredDone =>
      have reset : Serving config { state with memory := none } :=
        { serving with memory := by simp }
      exact reset.answer (unavailable _)

theorem keeps (positive : 0 < config.hardTimeout) : Keeps (Step config) (Serving config) := by
  intro state state' serving step
  cases step with
  | tick forward inRange =>
      exact { serving with clock_pos := by have := serving.clock_pos; simp only; omega
                           clock_lt := inRange }
  | call idle => exact { serving with opened := by simp }
  | run busy => exact serving.callStep positive
  | childLocks forked free => exact { serving with scan := by simp }
  | childExits forked => exact { serving with }
  | scanned holds entries =>
      refine { serving with scan := ?_ }
      intro contents contents_eq
      simp only [Option.some.injEq, Scan.written.injEq, reduceCtorEq, or_false] at contents_eq
      rw [← contents_eq]
      intro start finish times_eq
      rw [headerTimes_cacheFile, Option.some.injEq, Prod.mk.injEq] at times_eq
      rw [← times_eq.2, BitVec.toInt_ofInt_eq_self (by omega) (by have := serving.clock_pos; omega)
        serving.clock_lt]
      exact serving.clock_pos
  | unlinks holds =>
      refine { serving with file := ?_, scan := ?_ }
      · intro start finish times_eq
        cases times_eq
      · intro contents contents_eq
        apply serving.scan contents
        left
        simpa [holds] using contents_eq
  | renames holds =>
      refine { serving with file := serving.scan _ (.inr holds), scan := by simp }
  | childDies => exact { serving with scan := by simp }

end Serving

/-- From a clock, a cache file and a cache in memory that are past the epoch, and with a positive
hard timeout, every cache that is ever served is below the hard timeout at a clock reading of the
call that serves it. -/
theorem served_fresh {config : Config} {start final : State}
    (positive : 0 < config.hardTimeout)
    (fresh : start.position = .idle ∧ start.scan = none ∧ start.answers = [])
    (clock : 0 < start.clock ∧ start.clock < 2 ^ 63) (file : EndsAfterEpoch start.file)
    (memory : ∀ cache, start.memory = some cache → 0 < cache.scanEndTime.toInt)
    (run : Run (Step config) start final) :
    ∀ answer ∈ final.answers, answer.Fresh config := by
  rcases fresh with ⟨idle, noScan, noAnswers⟩
  have initially : Serving config start :=
    { clock_pos := clock.1
      clock_lt := clock.2
      file := file
      opened := by simp [idle]
      memory := memory
      scan := by simp [noScan]
      answers := by simp [noAnswers] }
  exact ((Serving.keeps positive).run initially run).answers

theorem step_callStep {config : Config} {state state' : State} (busy : state.position ≠ .idle)
    (taken : callStep config state = state') : Step config state state' :=
  taken ▸ Step.run busy

/-- A call that finds no cache in memory serves the one in the file, unless it is beyond the hard
timeout. When the clock stands still, all its readings are the same. -/
theorem serves_loaded {config : Config} {state : State} {cache : FSCache}
    (idle : state.position = .idle) (empty : state.memory = none)
    (loaded : loadCache config.hardTimeout state.clock state.file = some cache)
    (young : ¬ (0 < config.hardTimeout ∧ config.hardTimeout ≤ age state.clock cache)) :
    ∃ final readings, Run (Step config) state final ∧
      ⟨some cache, readings⟩ ∈ final.answers ∧ ∀ now ∈ readings, now = state.clock := by
  let entered : State := { state with position := .called, readings := [] }
  let opening := entered.goTo (.opening .first)
  let opened := entered.goTo (.opened .first state.file)
  let read := if 0 < config.hardTimeout ∧ (headerTimes state.file).isSome then
    opened.readClock else opened
  let found := (read.store cache).goTo .readNow
  have read_clock : read.clock = state.clock := by
    simp only [read]
    split <;> rfl
  have readings_eq : ∀ now ∈ read.readings, now = state.clock := by
    simp only [read]
    split <;> simp [State.readClock, opened, entered, State.goTo]
  have opens : callStep config entered = opening := by
    simp only [callStep, entered, empty, opening]
  have snaps : callStep config opening = opened := rfl
  have loads : callStep config opened = found := by
    have reading : loadCache config.hardTimeout opened.clock state.file = some cache := loaded
    change finishLoad config .first state.file opened = found
    rw [finishLoad, reading]
    rfl
  have reaches : Run (Step config) state (judge config cache found) := by
    refine .head (.call idle) (.head (step_callStep ?_ opens) (.head (step_callStep ?_ snaps)
      (.head (step_callStep ?_ loads) (.head (step_callStep ?_ rfl) .refl))))
    · simp
    · simp [opening, State.goTo]
    · simp [opened, State.goTo]
    · simp [found, State.goTo]
  refine ⟨judge config cache found, state.clock :: read.readings, reaches, ?_, ?_⟩
  · have found_clock : found.clock = state.clock := read_clock
    have readings_found : found.readClock.readings = state.clock :: read.readings := by
      simp [State.readClock, found, State.goTo, State.store, read_clock]
    rw [judge, found_clock, if_neg young, ← readings_found]
    split <;> simp [State.answer, State.fork]
  · intro now now_mem
    rcases List.mem_cons.mp now_mem with rfl | later
    · rfl
    · exact readings_eq now later

/-- The timeouts of the test context, and a machine whose cache file was written at the given
time. -/
def testConfig : Config where
  softTimeout := 60
  hardTimeout := 120
  waitTimeout := 10
  accepted := by decide

def cachedAt (finish : BitVec 64) : FSCache :=
  { worldWritableAt (bytes "/tmp/shared") with scanStartTime := finish, scanEndTime := finish }

def cachedState (finish : BitVec 64) : State where
  clock := 1700000100
  file := some (cacheFile (cachedAt finish))
  memory := none

theorem loadCache_cachedAt {finish : BitVec 64}
    (unexpired : ¬ hardExpired testConfig.hardTimeout 1700000100 finish) :
    loadCache testConfig.hardTimeout 1700000100 (some (cacheFile (cachedAt finish))) =
      some (cachedAt finish) := by
  have representable : ∀ path st, (cachedAt finish).entries[path]? = some st →
      Representable path st := by
    intro path st found
    simp only [cachedAt, worldWritableAt, Std.ExtTreeMap.getElem?_insert] at found
    split at found
    · rename_i same
      cases found
      rw [← Std.LawfulEqCmp.eq_of_compare same]
      decide +kernel
    · simp at found
  have nonempty : ¬ (cachedAt finish).entries.isEmpty := by
    simp [cachedAt, worldWritableAt]
  rw [(loadCache_cacheFile_iff (cachedAt finish) _ _ unexpired).mpr representable,
    if_neg nonempty]

/-- A cache that is 40 seconds old is served, and fresh. -/
theorem served_fresh_recent :
    ∃ final readings, Run (Step testConfig) (cachedState 1700000060) final ∧
      ⟨some (cachedAt 1700000060), readings⟩ ∈ final.answers ∧
      Answer.Fresh testConfig ⟨some (cachedAt 1700000060), readings⟩ := by
  have loaded : loadCache testConfig.hardTimeout (cachedState 1700000060).clock
      (cachedState 1700000060).file = some (cachedAt 1700000060) :=
    loadCache_cachedAt (by decide)
  have file : EndsAfterEpoch (cachedState 1700000060).file := by
    intro start finish times_eq
    rw [cachedState, headerTimes_cacheFile, Option.some.injEq, Prod.mk.injEq] at times_eq
    rw [← times_eq.2]
    decide
  rcases serves_loaded rfl rfl loaded (by decide) with ⟨final, readings, run, mem, -⟩
  exact ⟨final, readings, run, mem, served_fresh (by decide) ⟨rfl, rfl, rfl⟩ (by decide) file
    (by simp [cachedState]) run _ mem⟩

/-- A cache whose header says that its scan ended at the epoch is served more than fifty years
later. -/
theorem epoch_cache_served :
    ∃ final answer, Run (Step testConfig) (cachedState 0) final ∧ answer ∈ final.answers ∧
      ¬ answer.Fresh testConfig := by
  have loaded : loadCache testConfig.hardTimeout (cachedState 0).clock (cachedState 0).file =
      some (cachedAt 0) :=
    loadCache_cachedAt (by decide)
  rcases serves_loaded rfl rfl loaded (by decide) with
    ⟨final, readings, run, mem, readings_eq⟩
  refine ⟨final, _, run, mem, ?_⟩
  intro fresh
  rcases fresh _ rfl with ⟨now, now_mem, below⟩
  rw [readings_eq now now_mem] at below
  exact absurd below (by decide)

end OsConfig.ComplianceEngine.FilesystemScanner
