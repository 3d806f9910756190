import OsConfig.Pmc

/-!
# Phases of a request

What each phase carries out and when the execution state lets the next one begin. A phase that
stops at a failure leaves no doubt about it. The keys are all tried, so only the last one decides,
and a source file that could not be written is not noticed.
-/

namespace OsConfig.Pmc

open ExecutionState (StateComponent SubstateComponent)

/-- The phases in their order. -/
def Step.phase : Step → ℕ
  | .gpgKey _ => 0
  | .source _ => 1
  | .updatePackageLists => 2
  | .installPackages _ => 3

/-- Whether something holds of the elements of a list, which are numbered from a first number
on. -/
def trial {α : Type*} (holds : ℕ → α → Bool) (number : ℕ) : List α → List Bool
  | [] => []
  | first :: rest => holds number first :: trial holds (number + 1) rest

@[simp]
theorem length_trial {α : Type*} (holds : ℕ → α → Bool) (number : ℕ) (list : List α) :
    (trial holds number list).length = list.length := by
  induction list generalizing number with
  | nil => rfl
  | cons first rest ih => simp [trial, ih]

section Progress

variable (progress : Progress) (stateComponent : StateComponent)
  (substateComponent : SubstateComponent) (argument : ByteString) (step : Step) (succeeded : Bool)

@[simp]
theorem steps_setExecutionState :
    (progress.setExecutionState stateComponent substateComponent argument).steps =
      progress.steps :=
  rfl

@[simp]
theorem isSuccessful_setExecutionState :
    (progress.setExecutionState stateComponent substateComponent argument).isSuccessful =
      (stateComponent ≠ .failed && stateComponent ≠ .timedOut : Bool) :=
  rfl

theorem isSuccessful_commandFailed (status : ℤ) :
    (progress.setExecutionState (if status = etime then .timedOut else .failed)
      substateComponent argument).isSuccessful = false := by
  rw [isSuccessful_setExecutionState]
  split <;> rfl

@[simp]
theorem steps_carriedOut :
    (progress.carriedOut step succeeded).steps = progress.steps ++ [(step, succeeded)] :=
  rfl

@[simp]
theorem isSuccessful_carriedOut :
    (progress.carriedOut step succeeded).isSuccessful = progress.isSuccessful :=
  rfl

end Progress

variable (libraries : Libraries) (machine : Machine)

section Keys

/-- Whether the step of a key succeeds. -/
def keySucceeds (number : ℕ) (entry : ByteString × ByteString) : Bool :=
  let keyFilePath := generateGpgKeyPath entry.1
  if entry.2 = [] then
    !machine.fileExists number keyFilePath || (machine.remove number keyFilePath).isNone
  else machine.runCommand number (downloadCommand libraries entry.2 keyFilePath) false = 0

/-- A key leaves its own success behind, whatever came before. -/
theorem downloadGpgKeys_cons (entry : ByteString × ByteString) (rest : StringMap) (status : ℤ)
    (progress : Progress) :
    ∃ status' progress',
      downloadGpgKeys libraries machine (entry :: rest) status progress =
        downloadGpgKeys libraries machine rest status' progress' ∧
      progress'.steps = progress.steps ++
        [(.gpgKey entry.1, keySucceeds libraries machine progress.steps.length entry)] ∧
      progress'.isSuccessful = keySucceeds libraries machine progress.steps.length entry ∧
      (keySucceeds libraries machine progress.steps.length entry = false → status' ≠ 0) := by
  rcases entry with ⟨key, sourceUrl⟩
  rw [downloadGpgKeys, keySucceeds]
  by_cases url : sourceUrl = []
  · simp only [if_pos url]
    cases file : machine.fileExists progress.steps.length (generateGpgKeyPath key) with
    | false => exact ⟨_, _, rfl, rfl, rfl, fun failed => by cases failed⟩
    | true =>
        simp only [if_true]
        cases machine.remove progress.steps.length (generateGpgKeyPath key) with
        | none => exact ⟨_, _, rfl, rfl, rfl, fun failed => by cases failed⟩
        | some errno => exact ⟨_, _, rfl, rfl, rfl, fun _ => errno.nonzero⟩
  · simp only [if_neg url]
    split
    next failed =>
      simp only [failed, decide_false]
      exact ⟨_, _, rfl, rfl, rfl, fun _ => failed⟩
    next succeeded =>
      rw [not_not] at succeeded
      simp only [succeeded, decide_true]
      exact ⟨_, _, rfl, rfl, rfl, fun failed => by cases failed⟩

def keyRecords (number : ℕ) (keys : StringMap) : List (Step × Bool) :=
  (keys.map fun entry => Step.gpgKey entry.1).zip
    (trial (keySucceeds libraries machine) number keys)

theorem downloadGpgKeys_spec (keys : StringMap) (status : ℤ) (progress : Progress) :
    let downloaded := downloadGpgKeys libraries machine keys status progress
    let successes := trial (keySucceeds libraries machine) progress.steps.length keys
    downloaded.2.steps =
        progress.steps ++ keyRecords libraries machine progress.steps.length keys ∧
      downloaded.2.isSuccessful = successes.getLast?.getD progress.isSuccessful ∧
      (successes.getLast? = some false → downloaded.1 ≠ 0) := by
  induction keys generalizing status progress with
  | nil => simp [downloadGpgKeys, trial, keyRecords]
  | cons entry rest ih =>
      rcases downloadGpgKeys_cons libraries machine entry rest status progress with
        ⟨status', progress', next, steps, successful, failed⟩
      have number : progress'.steps.length = progress.steps.length + 1 := by simp [steps]
      rcases ih status' progress' with ⟨later_steps, later_successful, later_failed⟩
      rw [number] at later_steps later_successful later_failed
      simp only [next, trial, List.getLast?_cons]
      refine ⟨?_, ?_, ?_⟩
      · simp [later_steps, steps, keyRecords, trial]
      · simp [later_successful, successful]
      · intro last
        cases rest with
        | nil => exact failed (by simpa [trial] using last)
        | cons second others =>
            apply later_failed
            rw [trial] at last ⊢
            simpa [List.getLast?_cons] using last

end Keys

section Sources

variable (directory : ByteString) (gpgKeys : StringMap)

/-- Whether the step of a source fails in a way that ends the phase: the file cannot be removed or
created, or the source is not valid. -/
def sourceStops (number : ℕ) (entry : ByteString × ByteString) : Bool :=
  let sourcesFilePath := directory ++ (entry.1 ++ bytes ".list")
  if entry.2 = [] then
    machine.fileExists number sourcesFilePath && (machine.remove number sourcesFilePath).isSome
  else
    (machine.create number sourcesFilePath).isSome ||
      (validateAndUpdatePackageSource libraries entry.2 gpgKeys).isNone

/-- Whether the text of a source is written, if there is one. -/
def sourceWritten (number : ℕ) (entry : ByteString × ByteString) : Bool :=
  let sourcesFilePath := directory ++ (entry.1 ++ bytes ".list")
  if entry.2 = [] then true
  else
    ((validateAndUpdatePackageSource libraries entry.2 gpgKeys).map fun updated =>
      machine.write number sourcesFilePath (updated ++ [10])).getD true

theorem modifySources_cons_of_stops {entry : ByteString × ByteString} {progress : Progress}
    (stops : sourceStops libraries machine directory gpgKeys progress.steps.length entry = true)
    (rest : StringMap) :
    ∃ status progress',
      modifySources libraries machine directory gpgKeys (entry :: rest) progress =
        (some status, progress') ∧ status ≠ 0 ∧
      progress'.steps = progress.steps ++ [(.source entry.1, false)] ∧
      progress'.isSuccessful = false := by
  rcases entry with ⟨name, packageSource⟩
  rw [modifySources]
  rw [sourceStops] at stops
  by_cases text : packageSource = []
  · simp only [if_pos text, Bool.and_eq_true] at stops ⊢
    obtain ⟨errno, removed⟩ := Option.isSome_iff_exists.mp stops.2
    simp only [if_pos stops.1, removed]
    exact ⟨_, _, rfl, errno.nonzero, rfl, rfl⟩
  · simp only [if_neg text] at stops ⊢
    cases created : machine.create progress.steps.length (directory ++ (name ++ bytes ".list")) with
    | some errno => exact ⟨_, _, rfl, errno.nonzero, rfl, rfl⟩
    | none =>
        rw [created, Option.isSome_none, Bool.false_or, Option.isNone_iff_eq_none] at stops
        simp only [stops]
        exact ⟨_, _, rfl, by decide, rfl, rfl⟩

theorem modifySources_cons_of_goes_on {entry : ByteString × ByteString} {progress : Progress}
    (goes_on : sourceStops libraries machine directory gpgKeys progress.steps.length entry = false)
    (rest : StringMap) :
    ∃ progress',
      modifySources libraries machine directory gpgKeys (entry :: rest) progress =
        modifySources libraries machine directory gpgKeys rest progress' ∧
      progress'.steps = progress.steps ++ [(.source entry.1,
        sourceWritten libraries machine directory gpgKeys progress.steps.length entry)] ∧
      progress'.isSuccessful = true := by
  rcases entry with ⟨name, packageSource⟩
  rw [modifySources, sourceWritten]
  rw [sourceStops] at goes_on
  by_cases text : packageSource = []
  · simp only [if_pos text, Bool.and_eq_false_iff] at goes_on ⊢
    cases file : machine.fileExists progress.steps.length
        (directory ++ (name ++ bytes ".list")) with
    | false => exact ⟨_, rfl, rfl, rfl⟩
    | true =>
        have removed : machine.remove progress.steps.length
            (directory ++ (name ++ bytes ".list")) = none := by
          rw [file] at goes_on
          simpa using goes_on
        simp only [if_true, removed]
        exact ⟨_, rfl, rfl, rfl⟩
  · simp only [if_neg text, Bool.or_eq_false_iff, Option.isSome_eq_false_iff,
      Option.isNone_iff_eq_none, Option.isNone_eq_false_iff] at goes_on ⊢
    obtain ⟨updated, valid⟩ := Option.isSome_iff_exists.mp goes_on.2
    simp only [goes_on.1, valid]
    exact ⟨_, rfl, rfl, rfl⟩

/-- The steps of the sources, if none of them ends the phase. -/
def sourceRecords (number : ℕ) (sources : StringMap) : List (Step × Bool) :=
  (sources.map fun entry => Step.source entry.1).zip
    (trial (sourceWritten libraries machine directory gpgKeys) number sources)

theorem modifySources_of_stops {sources : StringMap} {progress : Progress}
    (stops : true ∈ trial (sourceStops libraries machine directory gpgKeys)
      progress.steps.length sources) :
    ∃ status progress' tried,
      modifySources libraries machine directory gpgKeys sources progress =
        (some status, progress') ∧ status ≠ 0 ∧ progress'.isSuccessful = false ∧
      progress'.steps = progress.steps ++ tried ∧ (∀ record ∈ tried, record.1.phase = 1) ∧
      ∃ record ∈ tried, record.2 = false := by
  induction sources generalizing progress with
  | nil => cases stops
  | cons entry rest ih =>
      cases first : sourceStops libraries machine directory gpgKeys progress.steps.length entry with
      | true =>
          rcases modifySources_cons_of_stops libraries machine directory gpgKeys first rest with
            ⟨status, progress', stopped, nonzero, steps, failed⟩
          exact ⟨status, progress', [(.source entry.1, false)], stopped, nonzero, failed, steps,
            by simp [Step.phase], by simp⟩
      | false =>
          rcases modifySources_cons_of_goes_on libraries machine directory gpgKeys first rest with
            ⟨progress', next, steps, -⟩
          have number : progress'.steps.length = progress.steps.length + 1 := by simp [steps]
          rw [trial, first, List.mem_cons, or_iff_right (by simp), ← number] at stops
          rcases ih stops with
            ⟨status, final, tried, stopped, nonzero, failed, later_steps, phase, record⟩
          refine ⟨status, final, (Step.source entry.1, sourceWritten libraries machine directory
            gpgKeys progress.steps.length entry) :: tried, next.trans stopped, nonzero, failed,
            ?_, ?_, ?_⟩
          · rw [later_steps, steps, List.append_assoc]
            rfl
          · simpa [Step.phase] using phase
          · rcases record with ⟨last, mem, unsuccessful⟩
            exact ⟨last, List.mem_cons_of_mem _ mem, unsuccessful⟩

theorem modifySources_of_goes_on {sources : StringMap} {progress : Progress}
    (goes_on : true ∉ trial (sourceStops libraries machine directory gpgKeys)
      progress.steps.length sources) (successful : progress.isSuccessful = true) :
    ∃ progress',
      modifySources libraries machine directory gpgKeys sources progress = (none, progress') ∧
      progress'.isSuccessful = true ∧
      progress'.steps = progress.steps ++
        sourceRecords libraries machine directory gpgKeys progress.steps.length sources := by
  induction sources generalizing progress with
  | nil => exact ⟨progress, rfl, successful, by simp [sourceRecords, trial]⟩
  | cons entry rest ih =>
      rw [trial, List.mem_cons, not_or] at goes_on
      have first : sourceStops libraries machine directory gpgKeys progress.steps.length entry =
          false := by simpa using goes_on.1
      rcases modifySources_cons_of_goes_on libraries machine directory gpgKeys first rest with
        ⟨progress', next, steps, next_successful⟩
      have number : progress'.steps.length = progress.steps.length + 1 := by simp [steps]
      rw [← number] at goes_on
      rcases ih goes_on.2 next_successful with ⟨final, gone, final_successful, later_steps⟩
      refine ⟨final, next.trans gone, final_successful, ?_⟩
      rw [later_steps, number, steps]
      simp [sourceRecords, trial]

end Sources

section Packages

theorem executeUpdates_spec (packages : List ByteString) (progress : Progress) :
    let executed := executeUpdates libraries machine packages progress
    ∃ tried, executed.2.steps = progress.steps ++ tried ∧
      (∀ record ∈ tried, record.1.phase = 3) ∧
      (executed.2.isSuccessful = true ∧
          executed.2.executionState = ⟨.succeeded, .none, []⟩ ∧
          tried = packages.map (fun package => (Step.installPackages package, true)) ∨
        executed.2.isSuccessful = false ∧ executed.1 ≠ 0 ∧ ∃ record ∈ tried, record.2 = false) := by
  induction packages generalizing progress with
  | nil => exact ⟨[], by simp [executeUpdates], by simp, .inl ⟨rfl, rfl, rfl⟩⟩
  | cons package rest ih =>
      simp only [executeUpdates]
      split
      next failed =>
        exact ⟨[(.installPackages package, false)], rfl, by simp [Step.phase],
          .inr ⟨isSuccessful_commandFailed _ _ _ _, failed, _, List.mem_cons_self, rfl⟩⟩
      next installed =>
        rcases ih ((progress.setExecutionState .running .installingPackages package).carriedOut
          (.installPackages package) true) with ⟨tried, steps, phase, ended⟩
        refine ⟨(.installPackages package, true) :: tried, ?_, ?_, ?_⟩
        · rw [steps]
          simp
        · simpa [Step.phase] using phase
        · rcases ended with ⟨successful, state, rfl⟩ | ⟨unsuccessful, nonzero, record, mem, failed⟩
          · exact .inl ⟨successful, state, rfl⟩
          · exact .inr ⟨unsuccessful, nonzero, record, List.mem_cons_of_mem _ mem, failed⟩

end Packages

end OsConfig.Pmc
