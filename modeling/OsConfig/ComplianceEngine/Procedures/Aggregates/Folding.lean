import OsConfig.ComplianceEngine.Procedures.Aggregates.Stack

/-!
# How the aggregating remediations fold their results

A remediation of many files should return `Compliant` only if every call of
the permission procedure did, and should not read the value of a result that
holds an error. The remediations of dot files and of log files do so. The
remediation of home directories looks at errors only, and reads the value in
any case.
-/

namespace OsConfig.ComplianceEngine

open OsConfig Logged

namespace Mark

/-- `Value()` was called on a result that holds an error. -/
def isValueOfError : Mark → Bool
  | .valueOfError _ => true
  | _ => false

/-- A permission procedure returned anything but `Compliant`. -/
def isBadAnswer : Mark → Bool
  | .permissions (.ok .compliant) => false
  | .permissions _ => true
  | _ => false

/-- A call to the system failed. -/
def isRefusal : Mark → Bool
  | .refused _ => true
  | _ => false

/-- Every call of a permission procedure returned `Compliant`. -/
def AllCompliant (log : List Mark) : Prop :=
  Free (fun mark => isBadAnswer mark = true) log

/-- No value was read from a result that holds an error. -/
def ValuesChecked (log : List Mark) : Prop :=
  Free (fun mark => isValueOfError mark = true) log

/-- No call of a permission procedure or to the system failed. -/
def Undisturbed (log : List Mark) : Prop :=
  Free (fun mark => isFailure mark = true ∨ isRefusal mark = true) log

end Mark

/-- A run returns `Compliant` only if every call did, and reads no value that is not there. -/
structure Folds {σ : Type} (ran : Ran Mark σ (Except Leaving Status)) : Prop where
  compliant : ran.ending = .ok .compliant → Mark.AllCompliant ran.log
  checked : Mark.ValuesChecked ran.log

theorem indifferent_free {entries : Mark → Prop} (plain : ∀ mark, mark.Plain → ¬entries mark) :
    Indifferent (Free entries) where
  closed := closed_free entries
  plain mark isPlain := by simpa [Free] using plain mark isPlain

theorem indifferent_allCompliant : Indifferent Mark.AllCompliant := by
  refine indifferent_free fun mark plain => ?_
  cases mark with
  | op write => simp [Mark.isBadAnswer]
  | permissions result => exact plain.elim
  | refused failure => simp [Mark.isBadAnswer]
  | valueOfError failure => exact plain.elim

theorem indifferent_valuesChecked : Indifferent Mark.ValuesChecked := by
  refine indifferent_free fun mark plain => ?_
  cases mark with
  | op write => simp [Mark.isValueOfError]
  | permissions result => simp [Mark.isValueOfError]
  | refused failure => simp [Mark.isValueOfError]
  | valueOfError failure => exact plain.elim

section Calls

variable {σ : Type} {surroundings : Surroundings σ}

theorem valuesChecked_called (node : HandlerNode) (report : Report σ) :
    Mark.ValuesChecked (called node report) := by
  intro mark mem
  simp only [called, List.mem_cons, List.mem_append, List.mem_map, List.not_mem_nil,
    or_false] at mem
  rcases mem with rfl | ⟨indicator, -, rfl⟩ | rfl
  · simp [Mark.isValueOfError]
  · simp [Mark.isValueOfError]
  · simp [Mark.isValueOfError]

theorem allCompliant_called {node : HandlerNode} {report : Report σ}
    (answered : report.result = .ok .compliant) : Mark.AllCompliant (called node report) := by
  intro mark mem
  simp only [called, List.mem_cons, List.mem_append, List.mem_map, List.not_mem_nil,
    or_false] at mem
  rcases mem with rfl | ⟨indicator, -, rfl⟩ | rfl
  · simp [Mark.isBadAnswer]
  · simp [Mark.isBadAnswer]
  · simp [Mark.isBadAnswer, answered]

theorem underNode_folds (action : Action) (node : HandlerNode)
    (params : FilePermissionsParams) :
    (Task.underNode surroundings action node params).Ensures
      (Reports Mark.ValuesChecked Mark.AllCompliant True (Ends (.ok .compliant))) := by
  intro state
  rcases underNode_run action node params state with ⟨ended, logged⟩
  rw [ended, logged]
  have called_checked := valuesChecked_called node (surroundings.permissions action params state)
  cases answer : (surroundings.permissions action params state).result with
  | error failure =>
      refine ⟨indifferent_valuesChecked.closed.append called_checked (by simp [Mark.ValuesChecked,
        Free]), fun ends => ?_⟩
      simp [Ends] at ends
  | ok verdict =>
      refine ⟨indifferent_valuesChecked.closed.append called_checked (by simp [Mark.ValuesChecked,
        Free, Mark.isValueOfError]), fun ends => ⟨trivial, ?_⟩⟩
      have compliant : verdict = .compliant := by simpa [Ends] using ends
      rw [compliant] at answer
      exact indifferent_allCompliant.closed.append (allCompliant_called answer)
        (by simp [Mark.AllCompliant, Free, Mark.isBadAnswer])

/-- The remediations of dot files and log files fold as they should. -/
theorem Aggregate.task_folds (aggregate : Aggregate) (action : Action)
    (other : aggregate ≠ .userHomeDirectoryPermissions) (state : σ) :
    Folds (aggregate.task surroundings action state) := by
  have reports : (aggregate.task surroundings action).Ensures
      (Reports Mark.ValuesChecked Mark.AllCompliant True (Ends .compliant)) :=
    aggregate.task_reports indifferent_valuesChecked indifferent_allCompliant underNode_folds
      action fun home => absurd home other
  have reported := reports state
  exact ⟨fun ends => (reported.2 ends).2, reported.1⟩

end Calls

section Homes

open UserHomeDirectoryPermissions

variable {σ α : Type} {surroundings : Surroundings σ}

/-- A run ends with a value exactly if no call failed on its way. -/
def Candid (task : Task σ α) : Prop :=
  task.Shows fun mark => Mark.isFailure mark = true ∨ Mark.isRefusal mark = true

theorem refuse_candid (failure : Error) : Candid (Task.refuse failure : Task σ α) := by
  intro state
  simp [Task.refuse, Task.fail, emit, leave, Bind.bind, Logged.bind, Free, Mark.isRefusal]

theorem makePattern_candid (text : ByteString) :
    Candid (Task.makePattern surroundings text) := by
  unfold Task.makePattern
  split
  · exact .pure _ _
  · exact refuse_candid _

theorem homeParams_candid (user : Passwd) : Candid (homeParams surroundings user) := by
  refine Shows.bind (.ask _ _) fun groupFound => ?_
  cases groupFound with
  | false => exact Shows.bind (.ask _ _) fun errno => refuse_candid _
  | true =>
      refine Shows.bind (makePattern_candid _) fun pwdPattern => ?_
      refine Shows.bind (.ask _ _) fun groupName => ?_
      exact Shows.bind (makePattern_candid _) fun _ => .pure _ _

theorem ensureHome_candid (user : Passwd) : Candid (ensureHome surroundings user) := by
  refine Shows.bind (.ask _ _) fun answer => ?_
  cases answer with
  | none => exact .pure _ _
  | some errno =>
      dsimp only
      split
      · refine Shows.bind (.ask _ _) fun answer => ?_
        cases answer with
        | none => exact .pure _ _
        | some errno => exact refuse_candid _
      · exact refuse_candid _

theorem undisturbed_called (node : HandlerNode) {report : Report σ} {verdict : Verdict}
    (answered : report.result = .ok verdict) : Mark.Undisturbed (called node report) := by
  intro mark mem
  simp only [called, List.mem_cons, List.mem_append, List.mem_map, List.not_mem_nil,
    or_false] at mem
  rcases mem with rfl | ⟨indicator, -, rfl⟩ | rfl
  · simp [Mark.isFailure, Mark.isRefusal]
  · simp [Mark.isFailure, Mark.isRefusal]
  · simp [Mark.isFailure, Mark.isRefusal, answered]

theorem remediateHome_candid (params : FilePermissionsParams) (status : Status) :
    Candid (remediateHome surroundings params status) := by
  intro state
  rcases remediateHome_run params status state with ⟨logged, ended⟩
  rw [logged, ended]
  cases answer : (surroundings.permissions .remediate params state).result with
  | error failure =>
      have disturbed : ¬Mark.Undisturbed (called .ensureFilePermissions
          (surroundings.permissions .remediate params state) ++ [.valueOfError failure]) := by
        intro undisturbed
        have clean := undisturbed (.permissions (.error failure)) (by simp [called, answer])
        simp [Mark.isFailure] at clean
      constructor
      · rintro ⟨value, ended⟩
        cases ended
      · exact fun undisturbed => absurd undisturbed disturbed
  | ok verdict =>
      have closes : Mark.Undisturbed [.op (.close verdict.status)] := by
        simp [Mark.Undisturbed, Free, Mark.isFailure, Mark.isRefusal]
      have undisturbed :=
        (closed_free _).append (undisturbed_called .ensureFilePermissions answer) closes
      exact ⟨fun _ => undisturbed, fun _ => ⟨status, rfl⟩⟩

/-- A run returns the status it was given if no call fails, and none otherwise. -/
def Returning (status : Status) (ending : Except Leaving Status) (log : List Mark) : Prop :=
  (∀ value, ending = .ok value → value = status) ∧
    ((∃ value, ending = .ok value) ↔ Mark.Undisturbed log)

theorem Returning.append {first : List Mark} {status : Status}
    {ending : Except Leaving Status} {rest : List Mark} (clean : Mark.Undisturbed first)
    (returning : Returning status ending rest) : Returning status ending (first ++ rest) := by
  refine ⟨returning.1, ?_⟩
  rw [returning.2]
  constructor
  · exact fun restClean => free_append.mpr ⟨clean, restClean⟩
  · exact fun wholeClean => (free_append.mp wholeClean).2

theorem Candid.returning {first : Task σ α} {next : α → Task σ Status} {status : Status}
    (candid : Candid first) (rest : ∀ value, (next value).Ensures (Returning status)) :
    (first >>= next).Ensures (Returning status) := by
  have shows : first.Ensures fun ending log =>
      (∃ value, ending = .ok value) ↔ Mark.Undisturbed log := candid
  refine Ensures.bind shows ?_ ?_
  · intro reason log shown
    constructor
    · intro value ended
      cases ended
    · simpa using shown
  · intro value log shown
    have clean : Mark.Undisturbed log := shown.mp ⟨value, rfl⟩
    exact (rest value).mono fun ending later returning => returning.append clean

/-- The remediation of home directories returns `Compliant` if no call fails, and no status
otherwise. -/
theorem remediateHomes_returning :
    (remediate surroundings).Ensures (Returning .compliant) := by
  have shellsCandid : Candid (listValidShells surroundings) := by
    refine Shows.bind (.ask _ _) fun answer => ?_
    cases answer with
    | none => exact refuse_candid _
    | some text => exact .pure _ _
  have usersCandid : Candid (usersRange surroundings) := by
    refine Shows.bind (.ask _ _) fun answer => ?_
    cases answer with
    | error errno => exact refuse_candid _
    | ok range => exact .pure _ _
  refine shellsCandid.returning fun shells => ?_
  refine usersCandid.returning fun range => ?_
  refine forUsers_ensures ?_ ?_ ?_ ?_ shells range.failure range.entries .compliant
  · intro user status
    refine (ensureHome_candid user).returning fun _ => ?_
    refine (homeParams_candid user).returning fun params => ?_
    intro state
    refine ⟨fun value ended => ?_, remediateHome_candid params status state⟩
    rw [(remediateHome_run params status state).2] at ended
    split at ended
    · cases ended
    · cases ended
      rfl
  · intro status
    constructor
    · intro value ended
      cases ended
      rfl
    · simp [Mark.Undisturbed, Free]
  · intro status failure what
    constructor
    · intro value ended
      cases ended
    · simp [Mark.Undisturbed, Free, Mark.isRefusal]
  · intro status middle ending log rest first second
    have clean : Mark.Undisturbed log := first.2.mp ⟨middle, rfl⟩
    rw [first.1 middle rfl] at second
    exact second.append clean

/-- Every error of a permission procedure is followed by a read of the missing value. -/
def Unchecked (log : List Mark) : Prop :=
  Mark.ValuesChecked log ↔ Mark.NoFailures log

theorem indifferent_unchecked : Indifferent Unchecked where
  closed :=
    { nil := by simp [Unchecked, Mark.ValuesChecked, Mark.NoFailures, Free]
      append := by
        intro first second left right
        unfold Unchecked Mark.ValuesChecked Mark.NoFailures at left right ⊢
        rw [free_append, free_append, left, right] }
  plain := by
    intro mark plain
    cases mark with
    | op write =>
        simp [Unchecked, Mark.ValuesChecked, Mark.NoFailures, Free, Mark.isValueOfError,
          Mark.isFailure]
    | permissions result => exact plain.elim
    | refused failure =>
        simp [Unchecked, Mark.ValuesChecked, Mark.NoFailures, Free, Mark.isValueOfError,
          Mark.isFailure]
    | valueOfError failure => exact plain.elim

theorem remediateHome_unchecked (params : FilePermissionsParams) (status : Status) :
    (remediateHome surroundings params status).Keeps Unchecked := by
  intro state
  rw [(remediateHome_run params status state).1]
  unfold Unchecked
  rw [← Mark.failures_eq_zero_iff, Mark.failures_append, failures_called]
  have calledChecked := valuesChecked_called .ensureFilePermissions
    (surroundings.permissions .remediate params state)
  cases answer : (surroundings.permissions .remediate params state).result with
  | error failure =>
      have read : ¬Mark.ValuesChecked (called .ensureFilePermissions
          (surroundings.permissions .remediate params state) ++ [.valueOfError failure]) := by
        intro checked
        have clean := checked (.valueOfError failure) (by simp)
        simp [Mark.isValueOfError] at clean
      simp [read, Mark.failures, Mark.isFailure]
  | ok verdict =>
      have closeChecked : Mark.ValuesChecked [.op (.close verdict.status)] := by
        simp [Mark.ValuesChecked, Free, Mark.isValueOfError]
      have checked := indifferent_valuesChecked.closed.append calledChecked closeChecked
      simp [checked, Mark.failures, Mark.isFailure]

theorem remediateHomes_unchecked : (remediate surroundings).Keeps Unchecked := by
  refine Ensures.mono (remediate_reports indifferent_unchecked indifferent_true ?_)
    fun ending log reported => reported.1
  intro params status state
  refine ⟨remediateHome_unchecked params status state, fun ends => ⟨?_, trivial⟩⟩
  rw [Ends, (remediateHome_run params status state).2] at ends
  split at ends
  · cases ends
  · cases ends
    rfl

theorem remediateHomes_folds_iff (state : σ) :
    Folds (remediate surroundings state) ↔
      Mark.NoFailures (remediate surroundings state).log ∧
      (Mark.AllCompliant (remediate surroundings state).log ∨
        ∃ failure, .refused failure ∈ (remediate surroundings state).log) := by
  have unchecked : Unchecked (remediate surroundings state).log :=
    remediateHomes_unchecked state
  obtain ⟨returned, ends_iff⟩ : Returning .compliant (remediate surroundings state).ending
      (remediate surroundings state).log := remediateHomes_returning state
  constructor
  · rintro ⟨compliant, checked⟩
    have clean := unchecked.mp checked
    refine ⟨clean, ?_⟩
    by_cases undisturbed : Mark.Undisturbed (remediate surroundings state).log
    · rcases ends_iff.mpr undisturbed with ⟨value, ended⟩
      rw [returned value ended] at ended
      exact Or.inl (compliant ended)
    · right
      simp only [Mark.Undisturbed, Free, not_forall, not_not] at undisturbed
      rcases undisturbed with ⟨mark, mem, failed | refused⟩
      · exact absurd failed (clean mark mem)
      · cases mark with
        | refused failure => exact ⟨failure, mem⟩
        | op write => simp [Mark.isRefusal] at refused
        | permissions result => simp [Mark.isRefusal] at refused
        | valueOfError failure => simp [Mark.isRefusal] at refused
  · rintro ⟨clean, good⟩
    refine ⟨fun ended => ?_, unchecked.mpr clean⟩
    rcases good with all | ⟨failure, mem⟩
    · exact all
    · have undisturbed := ends_iff.mp ⟨_, ended⟩
      have kept := undisturbed (.refused failure) mem
      simp [Mark.isRefusal] at kept

end Homes

/-- The remediation of home directories folds as it should exactly if no call of the permission
procedure returns an error, and either all of them return `Compliant` or a call to the system
ends the run; the other two always do. -/
theorem Aggregate.remediation_folds_iff {σ : Type} (surroundings : Surroundings σ)
    (aggregate : Aggregate) (state : σ) :
    Folds (aggregate.task surroundings .remediate state) ↔
      (aggregate = .userHomeDirectoryPermissions →
        Mark.NoFailures (aggregate.task surroundings .remediate state).log ∧
        (Mark.AllCompliant (aggregate.task surroundings .remediate state).log ∨
          ∃ failure, .refused failure ∈ (aggregate.task surroundings .remediate state).log)) := by
  by_cases home : aggregate = .userHomeDirectoryPermissions
  · subst home
    constructor
    · exact fun folds _ => (remediateHomes_folds_iff state).mp folds
    · exact fun condition => (remediateHomes_folds_iff state).mpr (condition rfl)
  · constructor
    · exact fun _ isHome => absurd isHome home
    · exact fun _ => aggregate.task_folds .remediate home state

section HomeDirectory

/-- A user whose home directory exists, and whose name `getpwnam` may not find. -/
def oneHome (name : ByteString) : Surroundings FileSystem :=
  { oneDotFile with
    users := fun files =>
      (.ok { entries := [{ name, uid := 0, gid := 0, dir := bytes "/root",
                           shell := bytes "/bin/sh" }] }, files) }

/-- A name that is not found makes the call `NonCompliant` and the procedure `Compliant`; a
`chown` that fails makes the procedure throw. -/
theorem home_swallows_failures :
    ((Aggregate.userHomeDirectoryPermissions.task (oneHome (bytes "nobody")) .remediate
        (dotFile none)).ending = .ok .compliant ∧
      ¬Folds (Aggregate.userHomeDirectoryPermissions.task (oneHome (bytes "nobody")) .remediate
        (dotFile none))) ∧
    ((Aggregate.userHomeDirectoryPermissions.task (oneHome (bytes "root")) .remediate
        (dotFile (some Errno.EPERM))).ending =
        .error (.thrown (bytes "Result: unchecked access to Value")) ∧
      ¬Folds (Aggregate.userHomeDirectoryPermissions.task (oneHome (bytes "root")) .remediate
        (dotFile (some Errno.EPERM)))) := by
  refine ⟨⟨by decide, ?_⟩, by decide, ?_⟩
  · rintro ⟨compliant, -⟩
    have clean := compliant (by decide) (.permissions (.ok .nonCompliant))
      (by decide)
    simp [Mark.isBadAnswer] at clean
  · rintro ⟨-, checked⟩
    have clean := checked (.valueOfError { message := bytes "Chown error: error", code := 1 })
      (by decide)
    simp [Mark.isValueOfError] at clean

end HomeDirectory

end OsConfig.ComplianceEngine
