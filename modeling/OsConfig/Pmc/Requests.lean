import OsConfig.Pmc.Documents
import OsConfig.Pmc.Phases

/-!
# The answer to a request

`Set` should succeed exactly if the payload is well formed and every step of it succeeded, and no
step should follow one of an earlier phase that failed. It does so unless a failure is overwritten by
an item that comes after it in the same loop.
-/

namespace OsConfig.Pmc

variable (libraries : Libraries) (machine : Machine)

/-- The package line that the pattern matches. -/
def isPackagesLine (packagesLine : ByteString) : Bool :=
  (libraries.regexMatch regexPackages packagesLine).isSome

def isWellFormed (document : JsonObject) : Bool :=
  isStringMap (document.getValue gpgKeysName) && isStringMap (document.getValue sourcesName) &&
    isStringArray (document.getValue packagesName) &&
    (sectionPackages (document.getValue packagesName)).all (isPackagesLine libraries)

/-- The desired state of a payload that is well formed. -/
def desiredStateOf (request : Request) : Option DesiredState :=
  match libraries.parse request.payload request.payloadSizeBytes with
  | some (.object document) =>
      if isWellFormed libraries document then some (readDesiredState document) else none
  | _ => none

def plannedSteps (desiredState : DesiredState) : List Step :=
  (desiredState.gpgKeys.map fun entry => Step.gpgKey entry.1) ++
    (desiredState.sources.map fun entry => Step.source entry.1) ++
    .updatePackageLists :: desiredState.packages.map Step.installPackages

/-- No step follows a step of an earlier phase that failed. -/
def StopsAtFailures (steps : List (Step × Bool)) : Prop :=
  steps.Pairwise fun earlier later => earlier.2 = false → later.1.phase ≤ earlier.1.phase

/-- The answer is right about the request. Reading the payload is the first phase. -/
structure TellsTheTruth (desired : Option DesiredState) (outcome : PmcBase.Outcome) : Prop where
  status : outcome.status = mmiOk ↔
    ∃ desiredState, desired = some desiredState ∧
      outcome.steps = (plannedSteps desiredState).map fun step => (step, true)
  stops : StopsAtFailures outcome.steps
  reads_first : desired = none → outcome.steps = []

section Records

variable {steps tail : List (Step × Bool)}

theorem stopsAtFailures_of_phase {phase : ℕ} (same : ∀ record ∈ steps, record.1.phase = phase) :
    StopsAtFailures steps := by
  apply List.pairwise_of_forall_mem_list
  intro earlier earlier_mem later later_mem _
  rw [same earlier earlier_mem, same later later_mem]

theorem stopsAtFailures_append (succeeded : ∀ record ∈ steps, record.2 = true) :
    StopsAtFailures (steps ++ tail) ↔ StopsAtFailures tail := by
  rw [StopsAtFailures, List.pairwise_append]
  constructor
  · intro both
    exact both.2.1
  · intro stops
    refine ⟨?_, stops, ?_⟩
    · apply List.pairwise_of_forall_mem_list
      intro earlier mem later _ failed
      rw [succeeded earlier mem] at failed
      cases failed
    · intro earlier mem later _ failed
      rw [succeeded earlier mem] at failed
      cases failed

theorem not_stopsAtFailures {failed later : Step × Bool} (failed_mem : failed ∈ steps)
    (unsuccessful : failed.2 = false) (later_mem : later ∈ tail)
    (later_phase : failed.1.phase < later.1.phase) : ¬StopsAtFailures (steps ++ tail) := by
  intro stops
  rw [StopsAtFailures, List.pairwise_append] at stops
  have phase := stops.2.2 failed failed_mem later later_mem unsuccessful
  omega

theorem ne_planned_of_failed {planned : List Step} {failed : Step × Bool}
    (mem : failed ∈ steps) (unsuccessful : failed.2 = false) :
    steps ≠ planned.map fun step => (step, true) := by
  rintro rfl
  rcases List.mem_map.mp mem with ⟨step, -, rfl⟩
  cases unsuccessful

variable {α : Type*} (step : α → Step) (holds : ℕ → α → Bool) (number : ℕ) (list : List α)

theorem map_snd_records :
    ((list.map step).zip (trial holds number list)).map Prod.snd = trial holds number list :=
  List.map_snd_zip (by simp)

theorem exists_failed_record :
    (∃ record ∈ (list.map step).zip (trial holds number list), record.2 = false) ↔
      false ∈ trial holds number list := by
  have successes := map_snd_records step holds number list
  constructor
  · rintro ⟨record, mem, failed⟩
    rw [← successes, ← failed]
    exact List.mem_map_of_mem mem
  · intro mem
    rw [← successes] at mem
    rcases List.mem_map.mp mem with ⟨record, record_mem, failed⟩
    exact ⟨record, record_mem, failed⟩

theorem record_succeeded (succeeded : false ∉ trial holds number list) :
    ∀ record ∈ (list.map step).zip (trial holds number list), record.2 = true := by
  intro record mem
  by_contra failed
  apply succeeded
  rw [← exists_failed_record step]
  exact ⟨record, mem, by simpa using failed⟩

theorem records_of_succeeded (succeeded : false ∉ trial holds number list) :
    (list.map step).zip (trial holds number list) =
      (list.map step).map fun step => (step, true) := by
  induction list generalizing number with
  | nil => rfl
  | cons first rest ih =>
      rw [trial, List.mem_cons, not_or] at succeeded
      have first_succeeded : holds number first = true := by simpa using succeeded.1
      rw [trial, List.map_cons, List.zip_cons_cons, ih (number + 1) succeeded.2, first_succeeded]
      rfl

end Records

section CarryingOut

variable (pmc : PmcBase)

theorem validateAndGetPackagesNames_spec (packages : List ByteString) (progress : Progress)
    (successful : progress.isSuccessful = true) :
    let validated := validateAndGetPackagesNames libraries packages progress
    validated.2.steps = progress.steps ∧
      validated.2.isSuccessful = packages.all (isPackagesLine libraries) ∧
      (validated.2.isSuccessful = false → validated.1 ≠ 0) := by
  induction packages generalizing progress with
  | nil => simp [validateAndGetPackagesNames, successful]
  | cons packagesLine rest ih =>
      rw [validateAndGetPackagesNames, List.all_cons, isPackagesLine]
      cases (libraries.regexMatch regexPackages packagesLine).isSome with
      | true =>
          exact ih (progress.setExecutionState .running .deserializingPackages packagesLine) rfl
      | false => exact ⟨rfl, rfl, fun _ => (by decide : einval ≠ 0)⟩

/-- The end of a request after the sources. -/
structure Finishes (desiredState : DesiredState) (result : ℤ × Progress)
    (before tail : List (Step × Bool)) : Prop where
  steps : result.2.steps = before ++ tail
  phase : ∀ record ∈ tail, 2 ≤ record.1.phase
  stops : StopsAtFailures tail
  ended : result.2.isSuccessful = true ∧
      result.2.executionState = ⟨.succeeded, .none, []⟩ ∧
      tail = (.updatePackageLists :: desiredState.packages.map Step.installPackages).map
        (fun step => (step, true)) ∨
    result.2.isSuccessful = false ∧ result.1 ≠ 0 ∧ ∃ record ∈ tail, record.2 = false

theorem Finishes.ne_nil {desiredState : DesiredState} {result : ℤ × Progress}
    {before tail : List (Step × Bool)} (finishes : Finishes desiredState result before tail) :
    tail ≠ [] := by
  rintro rfl
  rcases finishes.ended with ⟨-, -, planned⟩ | ⟨-, -, record, mem, -⟩
  · cases planned
  · cases mem

variable {libraries machine pmc} {desiredState : DesiredState} {progress : Progress}

/-- The successes of the keys. -/
def keyTrial (libraries : Libraries) (machine : Machine) (desiredState : DesiredState)
    (number : ℕ) : List Bool :=
  trial (keySucceeds libraries machine) number desiredState.gpgKeys

/-- The sources that end the phase. -/
def stopTrial (libraries : Libraries) (machine : Machine) (pmc : PmcBase)
    (desiredState : DesiredState) (number : ℕ) : List Bool :=
  trial (sourceStops libraries machine pmc.sourcesConfigurationDirectory desiredState.gpgKeys)
    number desiredState.sources

/-- The sources that are written. -/
def writeTrial (libraries : Libraries) (machine : Machine) (pmc : PmcBase)
    (desiredState : DesiredState) (number : ℕ) : List Bool :=
  trial (sourceWritten libraries machine pmc.sourcesConfigurationDirectory desiredState.gpgKeys)
    number desiredState.sources

/-- Where the steps of the sources begin. -/
def sourceNumber (desiredState : DesiredState) (progress : Progress) : ℕ :=
  progress.steps.length + desiredState.gpgKeys.length

theorem carryOut_of_last_key_failed
    (failed : (keyTrial libraries machine desiredState progress.steps.length).getLast? =
      some false) :
    let result := pmc.carryOut libraries machine desiredState progress
    result.2.isSuccessful = false ∧ result.1 ≠ 0 ∧
      result.2.steps = progress.steps ++
        keyRecords libraries machine progress.steps.length desiredState.gpgKeys := by
  rcases downloadGpgKeys_spec libraries machine desiredState.gpgKeys 0 progress with
    ⟨steps, successful, nonzero⟩
  rw [keyTrial] at failed
  rw [failed] at successful
  rw [PmcBase.carryOut]
  simp only [successful, Option.getD_some, Bool.false_eq_true, if_false]
  exact ⟨trivial, nonzero failed, steps⟩

theorem downloadGpgKeys_goes_on (successful : progress.isSuccessful = true)
    (goes_on : (keyTrial libraries machine desiredState progress.steps.length).getLast? ≠
      some false) :
    ∃ status progress',
      downloadGpgKeys libraries machine desiredState.gpgKeys 0 progress = (status, progress') ∧
      progress'.isSuccessful = true ∧
      progress'.steps = progress.steps ++
        keyRecords libraries machine progress.steps.length desiredState.gpgKeys ∧
      progress'.steps.length = sourceNumber desiredState progress := by
  rcases downloadGpgKeys_spec libraries machine desiredState.gpgKeys 0 progress with
    ⟨steps, kept, -⟩
  refine ⟨_, _, rfl, ?_, steps, ?_⟩
  · rw [kept]
    rw [keyTrial] at goes_on
    cases last : (trial (keySucceeds libraries machine) progress.steps.length
        desiredState.gpgKeys).getLast? with
    | none => exact successful
    | some succeeded =>
        cases succeeded with
        | true => rfl
        | false => exact absurd last goes_on
  · simp [steps, keyRecords, sourceNumber]

theorem carryOut_of_source_stops (successful : progress.isSuccessful = true)
    (goes_on : (keyTrial libraries machine desiredState progress.steps.length).getLast? ≠
      some false)
    (stops : true ∈ stopTrial libraries machine pmc desiredState
      (sourceNumber desiredState progress)) :
    let result := pmc.carryOut libraries machine desiredState progress
    result.2.isSuccessful = false ∧ result.1 ≠ 0 ∧ ∃ tried,
      result.2.steps = progress.steps ++
        (keyRecords libraries machine progress.steps.length desiredState.gpgKeys ++ tried) ∧
      (∀ record ∈ tried, record.1.phase = 1) ∧ ∃ record ∈ tried, record.2 = false := by
  rcases downloadGpgKeys_goes_on successful goes_on with
    ⟨status, downloaded, keys, downloaded_successful, steps, number⟩
  rw [stopTrial, ← number] at stops
  rcases modifySources_of_stops libraries machine _ _ stops with
    ⟨source_status, stopped, tried, sources, nonzero, failed, source_steps, phase, record⟩
  have configured : configureSources libraries machine pmc.sourcesConfigurationDirectory
      desiredState.sources desiredState.gpgKeys downloaded = (source_status, stopped) := by
    rw [configureSources, sources]
  rw [PmcBase.carryOut, keys]
  simp only [downloaded_successful, if_true, configured, failed, Bool.false_eq_true, if_false]
  refine ⟨trivial, nonzero, tried, ?_, phase, record⟩
  rw [source_steps, steps, List.append_assoc]

section Update

variable {directory : ByteString} {sources gpgKeys : StringMap} {modified : Progress}

theorem configureSources_of_updated
    (goes_on : modifySources libraries machine directory gpgKeys sources progress =
      (none, modified))
    (updated : machine.runCommand modified.steps.length commandAptUpdate true = 0) :
    ∃ progress',
      configureSources libraries machine directory sources gpgKeys progress = (0, progress') ∧
      progress'.isSuccessful = true ∧
      progress'.steps = modified.steps ++ [(.updatePackageLists, true)] := by
  rw [configureSources, goes_on]
  simp only [steps_setExecutionState, updated, ne_eq, not_true, if_false]
  exact ⟨_, rfl, rfl, rfl⟩

theorem configureSources_of_not_updated
    (goes_on : modifySources libraries machine directory gpgKeys sources progress =
      (none, modified))
    (failed : machine.runCommand modified.steps.length commandAptUpdate true ≠ 0) :
    ∃ status progress',
      configureSources libraries machine directory sources gpgKeys progress =
        (status, progress') ∧ status ≠ 0 ∧
      progress'.isSuccessful = false ∧
      progress'.steps = modified.steps ++ [(.updatePackageLists, false)] := by
  rw [configureSources, goes_on]
  simp only [steps_setExecutionState, ne_eq, failed, not_false_iff, if_true]
  exact ⟨_, _, rfl, failed, isSuccessful_commandFailed _ _ _ _, rfl⟩

end Update

theorem carryOut_finishes (successful : progress.isSuccessful = true)
    (goes_on : (keyTrial libraries machine desiredState progress.steps.length).getLast? ≠
      some false)
    (unstopped : true ∉ stopTrial libraries machine pmc desiredState
      (sourceNumber desiredState progress)) :
    ∃ tail, Finishes desiredState (pmc.carryOut libraries machine desiredState progress)
      (progress.steps ++
        (keyRecords libraries machine progress.steps.length desiredState.gpgKeys ++
          sourceRecords libraries machine pmc.sourcesConfigurationDirectory desiredState.gpgKeys
            (sourceNumber desiredState progress) desiredState.sources)) tail := by
  rcases downloadGpgKeys_goes_on successful goes_on with
    ⟨status, downloaded, keys, downloaded_successful, steps, number⟩
  rw [stopTrial, ← number] at unstopped
  rcases modifySources_of_goes_on libraries machine _ _ unstopped downloaded_successful with
    ⟨modified, sources, modified_successful, source_steps⟩
  rw [PmcBase.carryOut, keys]
  simp only [downloaded_successful, if_true]
  have before : modified.steps = progress.steps ++
      (keyRecords libraries machine progress.steps.length desiredState.gpgKeys ++
        sourceRecords libraries machine pmc.sourcesConfigurationDirectory desiredState.gpgKeys
          (sourceNumber desiredState progress) desiredState.sources) := by
    rw [source_steps, number, steps, List.append_assoc]
  rw [← before]
  by_cases updated : machine.runCommand modified.steps.length commandAptUpdate true = 0
  · rcases configureSources_of_updated sources updated with
      ⟨updating, configured, updating_successful, update_steps⟩
    rw [configured]
    simp only [updating_successful, if_true]
    rcases executeUpdates_spec libraries machine desiredState.packages updating with
      ⟨tried, executed, phase, ended⟩
    refine ⟨(.updatePackageLists, true) :: tried, ?_, ?_, ?_, ?_⟩
    · rw [executed, update_steps, List.append_assoc]
      rfl
    · intro record mem
      rcases List.mem_cons.mp mem with rfl | later
      · exact le_refl 2
      · rw [phase record later]
        omega
    · have stops : StopsAtFailures ([(.updatePackageLists, true)] ++ tried) ↔
          StopsAtFailures tried := stopsAtFailures_append (by simp)
      exact stops.mpr (stopsAtFailures_of_phase phase)
    · rcases ended with ⟨done, state, rfl⟩ | ⟨failed, nonzero, record, mem, unsuccessful⟩
      · left
        refine ⟨done, state, ?_⟩
        simp
      · right
        exact ⟨failed, nonzero, record, List.mem_cons_of_mem _ mem, unsuccessful⟩
  · rcases configureSources_of_not_updated sources updated with
      ⟨update_status, updating, configured, nonzero, failed, update_steps⟩
    rw [configured]
    simp only [failed, Bool.false_eq_true, if_false]
    refine ⟨[(.updatePackageLists, false)], update_steps, by simp [Step.phase],
      List.pairwise_singleton _ _, .inr ⟨failed, nonzero, _, List.mem_cons_self, rfl⟩⟩

end CarryingOut

section Truth

variable {libraries machine} {desiredState : DesiredState} {outcome : PmcBase.Outcome}

/-- An error after which nothing was carried out. -/
theorem tellsTheTruth_of_refused {desired : Option DesiredState} (refused : outcome.status ≠ mmiOk)
    (idle : outcome.steps = []) : TellsTheTruth desired outcome := by
  refine ⟨?_, ?_, fun _ => idle⟩
  · simp only [refused, idle, false_iff, not_exists, not_and]
    intro desiredState _ planned
    simp [plannedSteps] at planned
  · rw [idle]
    exact List.Pairwise.nil

theorem tellsTheTruth_of_failed (error : outcome.status ≠ mmiOk)
    (stops : StopsAtFailures outcome.steps) {failed : Step × Bool}
    (mem : failed ∈ outcome.steps) (unsuccessful : failed.2 = false) :
    TellsTheTruth (some desiredState) outcome := by
  refine ⟨?_, stops, fun none => nomatch none⟩
  simp only [error, false_iff, not_exists, not_and]
  intro _ _
  exact ne_planned_of_failed mem unsuccessful

/-- A step that fails is noticed before a later phase begins: if a key fails, so does the last one,
and if a source cannot be written, another one ends the phase. -/
structure NoticesFailures (libraries : Libraries) (machine : Machine) (pmc : PmcBase)
    (desiredState : DesiredState) : Prop where
  keys : false ∈ keyTrial libraries machine desiredState 0 →
    (keyTrial libraries machine desiredState 0).getLast? = some false
  sources : false ∉ keyTrial libraries machine desiredState 0 →
    false ∈ writeTrial libraries machine pmc desiredState desiredState.gpgKeys.length →
      true ∈ stopTrial libraries machine pmc desiredState desiredState.gpgKeys.length

variable {pmc : PmcBase} {progress : Progress}

theorem keyRecords_phase (keys : StringMap) (number : ℕ) :
    ∀ record ∈ keyRecords libraries machine number keys, record.1.phase = 0 := by
  rintro ⟨step, succeeded⟩ mem
  rcases List.mem_map.mp (List.of_mem_zip mem).1 with ⟨entry, -, rfl⟩
  rfl

theorem sourceRecords_phase (directory : ByteString) (gpgKeys : StringMap) (sources : StringMap)
    (number : ℕ) : ∀ record ∈ sourceRecords libraries machine directory gpgKeys number sources,
      record.1.phase = 1 := by
  rintro ⟨step, succeeded⟩ mem
  rcases List.mem_map.mp (List.of_mem_zip mem).1 with ⟨entry, -, rfl⟩
  rfl

theorem exists_step_after_keys (successful : progress.isSuccessful = true)
    (goes_on : (keyTrial libraries machine desiredState progress.steps.length).getLast? ≠
      some false) :
    ∃ tail, (pmc.carryOut libraries machine desiredState progress).2.steps = progress.steps ++
        (keyRecords libraries machine progress.steps.length desiredState.gpgKeys ++ tail) ∧
      ∃ record ∈ tail, 0 < record.1.phase := by
  by_cases stops : true ∈ stopTrial libraries machine pmc desiredState
      (sourceNumber desiredState progress)
  · rcases carryOut_of_source_stops successful goes_on stops with
      ⟨-, -, tried, steps, phase, record, mem, -⟩
    refine ⟨tried, steps, record, mem, ?_⟩
    rw [phase record mem]
    omega
  · rcases carryOut_finishes successful goes_on stops with ⟨tail, finishes⟩
    rcases List.exists_mem_of_ne_nil tail finishes.ne_nil with ⟨record, mem⟩
    refine ⟨sourceRecords libraries machine pmc.sourcesConfigurationDirectory
      desiredState.gpgKeys (sourceNumber desiredState progress) desiredState.sources ++ tail, ?_,
      record, List.mem_append_right _ mem, ?_⟩
    · rw [finishes.steps, List.append_assoc, List.append_assoc]
    · have phase := finishes.phase record mem
      omega

/-- A document that is let through has consequences. -/
theorem carryOut_steps_ne_nil (successful : progress.isSuccessful = true) :
    (pmc.carryOut libraries machine desiredState progress).2.steps ≠ [] := by
  by_cases failed : (keyTrial libraries machine desiredState progress.steps.length).getLast? =
      some false
  · rw [(carryOut_of_last_key_failed failed).2.2]
    rcases (exists_failed_record (fun entry => Step.gpgKey entry.1) _ _ _).mpr
      (List.mem_of_getLast? failed) with ⟨record, mem, -⟩
    exact List.append_ne_nil_of_right_ne_nil _ (List.ne_nil_of_mem mem)
  · rcases exists_step_after_keys successful failed with ⟨tail, steps, record, mem, -⟩
    rw [steps]
    simp [List.ne_nil_of_mem mem]

theorem tellsTheTruth_carryOut_iff (successful : progress.isSuccessful = true)
    (start : progress.steps = [])
    (status : outcome.status =
      if (pmc.carryOut libraries machine desiredState progress).2.isSuccessful then mmiOk
      else (pmc.carryOut libraries machine desiredState progress).1)
    (steps : outcome.steps = (pmc.carryOut libraries machine desiredState progress).2.steps) :
    TellsTheTruth (some desiredState) outcome ↔
      NoticesFailures libraries machine pmc desiredState := by
  have number : progress.steps.length = 0 := by simp [start]
  have source_number : sourceNumber desiredState progress = desiredState.gpgKeys.length := by
    simp [sourceNumber, start]
  by_cases last : (keyTrial libraries machine desiredState 0).getLast? = some false
  · have key := List.mem_of_getLast? last
    rcases @carryOut_of_last_key_failed libraries machine pmc _ _ (by rwa [number]) with
      ⟨failed, nonzero, carried_out⟩
    rw [number, start, List.nil_append] at carried_out
    rcases (exists_failed_record (fun entry => Step.gpgKey entry.1) _ 0 _).mpr key with
      ⟨record, mem, unsuccessful⟩
    apply iff_of_true
    · refine tellsTheTruth_of_failed ?_ ?_ (by rw [steps, carried_out]; exact mem) unsuccessful
      · rw [status, failed]
        exact nonzero
      · rw [steps, carried_out]
        exact stopsAtFailures_of_phase (keyRecords_phase _ _)
    · exact ⟨fun _ => last, fun none => absurd key none⟩
  have goes_on : (keyTrial libraries machine desiredState progress.steps.length).getLast? ≠
      some false := by rwa [number]
  by_cases key : false ∈ keyTrial libraries machine desiredState 0
  · -- A key failed, the last one did not, and the next phase begins.
    apply iff_of_false
    · intro truth
      rcases @exists_step_after_keys _ _ _ pmc _ successful goes_on with
        ⟨tail, carried_out, later, later_mem, later_phase⟩
      rw [number, start, List.nil_append] at carried_out
      rcases (exists_failed_record (fun entry => Step.gpgKey entry.1) _ 0 _).mpr key with
        ⟨record, mem, unsuccessful⟩
      have phase := keyRecords_phase desiredState.gpgKeys 0 record mem
      have in_order := truth.stops
      rw [steps, carried_out] at in_order
      exact not_stopsAtFailures mem unsuccessful later_mem (by omega) in_order
    · intro notices
      exact last (notices.keys key)
  have keys_succeeded := record_succeeded (fun entry => Step.gpgKey entry.1)
    (keySucceeds libraries machine) 0 desiredState.gpgKeys key
  by_cases stops : true ∈ stopTrial libraries machine pmc desiredState desiredState.gpgKeys.length
  · rcases carryOut_of_source_stops successful goes_on (by rwa [source_number]) with
      ⟨failed, nonzero, tried, carried_out, phase, record, mem, unsuccessful⟩
    rw [number, start, List.nil_append] at carried_out
    apply iff_of_true
    · refine tellsTheTruth_of_failed ?_ ?_ (by
        rw [steps, carried_out]
        exact List.mem_append_right _ mem) unsuccessful
      · rw [status, failed]
        exact nonzero
      · rw [steps, carried_out]
        exact (stopsAtFailures_append keys_succeeded).mpr (stopsAtFailures_of_phase phase)
    · exact ⟨fun failed => absurd failed key, fun _ _ => stops⟩
  · rcases carryOut_finishes successful goes_on (by rwa [source_number]) with ⟨tail, finishes⟩
    have carried_out := finishes.steps
    rw [number, source_number, start, List.nil_append] at carried_out
    by_cases write : false ∈ writeTrial libraries machine pmc desiredState
        desiredState.gpgKeys.length
    · -- A source was not written, and the package lists are updated.
      apply iff_of_false
      · intro truth
        rcases (exists_failed_record (fun entry => Step.source entry.1) _ _ _).mpr write with
          ⟨record, mem, unsuccessful⟩
        rcases List.exists_mem_of_ne_nil tail finishes.ne_nil with ⟨later, later_mem⟩
        have phase := sourceRecords_phase _ _ _ _ record mem
        have later_phase := finishes.phase later later_mem
        have in_order := truth.stops
        rw [steps, carried_out] at in_order
        exact not_stopsAtFailures (List.mem_append_right _ mem) unsuccessful later_mem (by omega)
          in_order
      · intro notices
        exact stops (notices.sources key write)
    · have sources_succeeded := record_succeeded (fun entry => Step.source entry.1) _ _ _ write
      have before_succeeded := List.forall_mem_append.mpr ⟨keys_succeeded, sources_succeeded⟩
      apply iff_of_true
      · have order := (stopsAtFailures_append before_succeeded).mpr finishes.stops
        rcases finishes.ended with ⟨done, -, planned⟩ | ⟨failed, nonzero, record, mem, unsuccessful⟩
        · refine ⟨iff_of_true (by rw [status, if_pos done]) ⟨desiredState, rfl, ?_⟩, ?_,
            fun none => nomatch none⟩
          · rw [steps, carried_out, planned, keyRecords, sourceRecords,
              records_of_succeeded _ _ _ _ key, records_of_succeeded _ _ _ _ write]
            simp [plannedSteps]
          · rw [steps, carried_out]
            exact order
        · refine tellsTheTruth_of_failed ?_ ?_ (by
            rw [steps, carried_out]
            exact List.mem_append_right _ mem) unsuccessful
          · rw [status, failed]
            exact nonzero
          · rw [steps, carried_out]
            exact order
      · exact ⟨fun failed => absurd failed key, fun _ failed => absurd failed write⟩

end Truth

section Payloads

/-- A document that is not well formed although it is let through, and the packages that are left
of it match the pattern. -/
def isOverlooked (document : JsonObject) : Bool :=
  isAccepted document && !isWellFormed libraries document &&
    (readDesiredState document).packages.all (isPackagesLine libraries)

/-- No failure of a request is overwritten: if the request is carried out at all, a document that
is not well formed is not overlooked, and the steps that fail are noticed. -/
def FailuresNoticed (pmc : PmcBase) (request : Request) : Prop :=
  machine.canRunOnThisPlatform = true → pmc.isTooLarge request = false →
    ∀ document,
      libraries.parse request.payload request.payloadSizeBytes = some (.object document) →
      isOverlooked libraries document = false ∧
        (isWellFormed libraries document = true →
          NoticesFailures libraries machine pmc (readDesiredState document))

variable {libraries machine}

/-- A document that is well formed is let through unless it has no section at all. -/
theorem readDesiredState_of_not_isAccepted {document : JsonObject}
    (well_formed : isWellFormed libraries document = true)
    (refused : isAccepted document = false) : readDesiredState document = ⟨[], [], []⟩ := by
  simp only [isWellFormed, Bool.and_eq_true] at well_formed
  have sources := endsWithEntry_of_isStringMap well_formed.1.1.2
  have packages := endsWithString_of_isStringArray well_formed.1.2
  simp only [isAccepted, well_formed.1.1.1, sources, packages, Bool.or_true, Bool.and_true,
    Bool.or_eq_false_iff, Option.isSome_eq_false_iff, Option.isNone_iff_eq_none] at refused
  simp [readDesiredState, refused, sectionMap, sectionPackages]

theorem packages_of_isWellFormed {document : JsonObject}
    (well_formed : isWellFormed libraries document = true) :
    (readDesiredState document).packages.all (isPackagesLine libraries) = true := by
  simp only [isWellFormed, Bool.and_eq_true] at well_formed
  simp only [readDesiredState, well_formed.1.1.2, if_true, well_formed.2]

/-- What a document that is processed amounts to. -/
theorem bringAbout_spec (pmc : PmcBase) (document : JsonObject) (progress : Progress) :
    let brought := pmc.bringAbout libraries machine document progress
    (isAccepted document && (readDesiredState document).packages.all
        (isPackagesLine libraries)) = false ∧
      brought.2.isSuccessful = false ∧ brought.1 ≠ 0 ∧ brought.2.steps = progress.steps ∨
    (isAccepted document && (readDesiredState document).packages.all
        (isPackagesLine libraries)) = true ∧
      ∃ validated, brought = pmc.carryOut libraries machine (readDesiredState document) validated ∧
        validated.isSuccessful = true ∧ validated.steps = progress.steps := by
  rcases @deserializeDesiredState_spec document
    (progress.setExecutionState .running .deserializingDesiredState []) rfl with
    ⟨steps, successful, read⟩
  rw [PmcBase.bringAbout]
  cases accepted : isAccepted document with
  | false =>
      simp only [successful, accepted, Bool.false_eq_true, if_false]
      exact .inl ⟨rfl, rfl, (by decide : einval ≠ 0), steps⟩
  | true =>
      rw [accepted] at successful
      rcases validateAndGetPackagesNames_spec libraries (readDesiredState document).packages _
        successful with ⟨validated_steps, valid, failed⟩
      simp only [successful, if_true, read accepted, Bool.true_and]
      cases packages : (readDesiredState document).packages.all (isPackagesLine libraries) with
      | false =>
          rw [packages] at valid
          simp only [valid, Bool.false_eq_true, if_false]
          exact .inl ⟨trivial, trivial, failed valid, validated_steps.trans steps⟩
      | true =>
          rw [packages] at valid
          simp only [valid, if_true]
          exact .inr ⟨trivial, _, rfl, valid, validated_steps.trans steps⟩

theorem process_of_not_object {pmc : PmcBase} {request : Request} {progress : Progress}
    (other : ∀ document, libraries.parse request.payload request.payloadSizeBytes ≠
      some (.object document)) :
    let processed := pmc.process libraries machine request progress
    processed.2.isSuccessful = false ∧ processed.1 ≠ 0 ∧ processed.2.steps = progress.steps := by
  have refused : ∀ substate, (progress.setExecutionState .failed substate []).isSuccessful = false :=
    fun _ => rfl
  rw [PmcBase.process]
  cases parsed : libraries.parse request.payload request.payloadSizeBytes with
  | none => exact ⟨rfl, (by decide : einval ≠ 0), rfl⟩
  | some value =>
      dsimp only
      split
      · exact ⟨rfl, (by decide : einval ≠ 0), rfl⟩
      · split
        · exact ⟨rfl, (by decide : einval ≠ 0), rfl⟩
        · cases value with
          | object document => exact absurd parsed (other document)
          | _ => exact ⟨rfl, (by decide : einval ≠ 0), rfl⟩

/-- The answer to a document that is processed. -/
theorem tellsTheTruth_bringAbout_iff {outcome : PmcBase.Outcome} {pmc : PmcBase}
    {document : JsonObject} {progress : Progress} (start : progress.steps = [])
    (status : outcome.status =
      if (pmc.bringAbout libraries machine document progress).2.isSuccessful then mmiOk
      else (pmc.bringAbout libraries machine document progress).1)
    (steps : outcome.steps = (pmc.bringAbout libraries machine document progress).2.steps) :
    TellsTheTruth
        (if isWellFormed libraries document then some (readDesiredState document) else none)
        outcome ↔
      isOverlooked libraries document = false ∧
        (isWellFormed libraries document = true →
          NoticesFailures libraries machine pmc (readDesiredState document)) := by
  rcases @bringAbout_spec libraries machine pmc document progress with
    ⟨refused, failed, nonzero, idle⟩ | ⟨accepted, validated, brought, successful, same⟩
  · apply iff_of_true
    · apply tellsTheTruth_of_refused
      · rw [status, failed]
        exact nonzero
      · rw [steps, idle, start]
    · constructor
      · rw [isOverlooked, Bool.and_right_comm, refused, Bool.false_and]
      · intro well_formed
        rw [packages_of_isWellFormed well_formed, Bool.and_true] at refused
        rw [readDesiredState_of_not_isAccepted well_formed refused]
        exact ⟨(nomatch ·), fun _ => (nomatch ·)⟩
  · rw [brought] at status steps
    rw [isOverlooked, Bool.and_right_comm, accepted, Bool.true_and]
    cases well_formed : isWellFormed libraries document with
    | false =>
        apply iff_of_false
        · intro truth
          apply carryOut_steps_ne_nil successful
          rw [← steps]
          exact truth.reads_first rfl
        · intro noticed
          cases noticed.1
    | true =>
        have truth := tellsTheTruth_carryOut_iff successful (same.trans start) status steps
        simpa using truth

/-- On a payload for the desired state that is not the one reached last, the answer is right exactly
if no failure is overwritten. -/
theorem set_tellsTheTruth_iff (libraries : Libraries) (machine : Machine) (pmc : PmcBase)
    (request : Request) (component : request.componentName = componentName)
    (object : request.objectName = desiredObjectName)
    (fresh : hashString request.payload ≠ pmc.lastReachedStateHash) :
    TellsTheTruth (desiredStateOf libraries request) (pmc.set libraries machine request) ↔
      FailuresNoticed libraries machine pmc request := by
  rw [FailuresNoticed, PmcBase.set]
  cases runs : machine.canRunOnThisPlatform with
  | false =>
      apply iff_of_true
      · exact tellsTheTruth_of_refused (by decide : enodev ≠ mmiOk) rfl
      · intro absent
        cases absent
  | true =>
      rw [if_neg (by simp), if_neg (Ne.symm fresh)]
      cases large : pmc.isTooLarge request with
      | true =>
          rw [if_pos rfl]
          apply iff_of_true
          · exact tellsTheTruth_of_refused (by decide : e2big ≠ mmiOk) rfl
          · intro _ absent
            cases absent
      | false =>
          rw [if_neg Bool.false_ne_true]
          simp only [forall_const]
          by_cases parsed : ∃ document,
              libraries.parse request.payload request.payloadSizeBytes = some (.object document)
          · rcases parsed with ⟨document, parsed⟩
            have processed : pmc.process libraries machine request
                ⟨⟨.running, .deserializingJsonPayload, []⟩, []⟩ =
                  pmc.bringAbout libraries machine document
                    ⟨⟨.running, .deserializingJsonPayload, []⟩, []⟩ := by
              rw [PmcBase.process, parsed]
              simp only [component, object, ne_eq, not_true, if_false]
            have desired : desiredStateOf libraries request =
                if isWellFormed libraries document then some (readDesiredState document)
                else none := by
              rw [desiredStateOf, parsed]
            rw [desired, processed]
            refine Iff.trans (@tellsTheTruth_bringAbout_iff libraries machine _ pmc document
              ⟨⟨.running, .deserializingJsonPayload, []⟩, []⟩ rfl rfl rfl) ?_
            constructor
            · intro noticed other other_parsed
              rw [parsed] at other_parsed
              cases other_parsed
              exact noticed
            · intro noticed
              exact noticed document parsed
          · have other := not_exists.mp parsed
            rcases @process_of_not_object _ machine pmc request
              ⟨⟨.running, .deserializingJsonPayload, []⟩, []⟩ other with ⟨failed, nonzero, idle⟩
            apply iff_of_true
            · apply tellsTheTruth_of_refused _ idle
              simp only [failed, Bool.false_eq_true, if_false]
              exact nonzero
            · intro document object_parsed
              exact absurd object_parsed (other document)

/-- Libraries that know one payload, whose patterns are names with an escaped dollar sign. -/
def librariesFor (payload : ByteString) (document : JsonObject) : Libraries where
  parse := fun text size =>
    if text = payload ∧ size.toNat = payload.length then some (.object document) else none
  regexMatch := fun _ _ => none
  regexReplace := fun text pattern format =>
    match Substrings.search (pattern.drop 1) text with
    | none => text
    | some found =>
        text.take (text.length - found.length) ++ format ++ found.drop (pattern.length - 1)

/-- A machine without files on which the command of a step ends with a status. -/
def machineWith (statuses : ℕ → ℤ) : Machine where
  canRunOnThisPlatform := true
  fileExists := fun _ _ => false
  remove := fun _ _ => none
  create := fun _ _ => none
  write := fun _ _ _ => true
  runCommand := fun number _ _ => statuses number

set_option maxRecDepth 10000 in
/-- A key and no failure. -/
theorem set_tellsTheTruth_iff_key :
    let payload := bytes "\x7b\"gpgKeys\":\x7b\"a\":\"http://u\"\x7d\x7d"
    let document := [(gpgKeysName, JsonValue.object [(bytes "a", .string (bytes "http://u"))])]
    let request : Request := ⟨componentName, desiredObjectName, payload, 28⟩
    TellsTheTruth (desiredStateOf (librariesFor payload document) request)
      ((⟨0, [], .initial, 0⟩ : PmcBase).set (librariesFor payload document)
        (machineWith fun _ => 0) request) := by
  intro payload document request
  apply (set_tellsTheTruth_iff (librariesFor payload document) (machineWith fun _ => 0)
    ⟨0, [], .initial, 0⟩ request rfl rfl (by decide)).mpr
  intro _ _ other parsed
  have known : other = document := by
    have same : (librariesFor payload document).parse request.payload request.payloadSizeBytes =
        some (.object document) := by
      simp only [librariesFor]
      exact if_pos ⟨rfl, by decide⟩
    rw [same] at parsed
    cases parsed
    rfl
  subst known
  exact ⟨by decide, fun _ => ⟨fun mem => absurd mem (by decide), fun _ mem => absurd mem (by decide)⟩⟩

set_option maxRecDepth 10000 in
/-- The first of two keys cannot be downloaded, and the answer is `MMI_OK`. -/
theorem failed_key_overwritten :
    let payload := bytes
      "\x7b\"gpgKeys\":\x7b\"a\":\"http://u\",\"b\":\"http://v\"\x7d\x7d"
    let document := [(gpgKeysName, JsonValue.object
      [(bytes "a", .string (bytes "http://u")), (bytes "b", .string (bytes "http://v"))])]
    let request : Request := ⟨componentName, desiredObjectName, payload, 43⟩
    ¬TellsTheTruth (desiredStateOf (librariesFor payload document) request)
      ((⟨0, [], .initial, 0⟩ : PmcBase).set (librariesFor payload document)
        (machineWith fun number => if number = 0 then 6 else 0) request) := by
  intro payload document request truth
  rcases truth.status.mp (by decide) with ⟨desiredState, -, planned⟩
  exact @ne_planned_of_failed _ _ (Step.gpgKey (bytes "a"), false) (by decide) rfl planned

end Payloads

end OsConfig.Pmc
