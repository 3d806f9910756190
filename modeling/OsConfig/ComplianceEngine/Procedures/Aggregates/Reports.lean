import OsConfig.ComplianceEngine.Procedures.Aggregates

/-!
# What the logs of the aggregating procedures are made of

A run of an aggregating procedure is put together from steps that only add
indicators or report failed calls, and from calls of the permission procedures
under a node. `Reports` states what such a run guarantees: a property of its
whole log, and a second property of the log in case the run ends well. It is
proved once for all procedures, from what the two kinds of steps guarantee.
-/

namespace OsConfig.ComplianceEngine

open OsConfig Logged

/-- Entries that come from anything but a call of a permission procedure. -/
def Mark.Plain : Mark → Prop
  | .op (.addIndicator _ _) => True
  | .refused _ => True
  | _ => False

/-- All entries are plain. -/
def PlainLog (log : List Mark) : Prop :=
  ∀ mark ∈ log, mark.Plain

theorem closed_plainLog : Closed PlainLog where
  nil := by simp [PlainLog]
  append left right := by
    intro mark mem
    rcases List.mem_append.mp mem with early | late
    · exact left mark early
    · exact right mark late

/-- A property of logs that plain entries do not affect. -/
structure Indifferent (property : List Mark → Prop) : Prop where
  closed : Closed property
  plain : ∀ mark, mark.Plain → property [mark]

theorem Indifferent.of_plainLog {property : List Mark → Prop} (indifferent : Indifferent property)
    {log : List Mark} (plain : PlainLog log) : property log := by
  induction log with
  | nil => exact indifferent.closed.nil
  | cons mark rest ih =>
      have here : property [mark] := indifferent.plain mark (plain mark (by simp))
      have later : property rest := ih fun other mem => plain other (List.mem_cons_of_mem _ mem)
      exact indifferent.closed.append here later

section Plain

variable {σ α : Type}

theorem refuse_plain (failure : Error) :
    (Task.refuse failure : Task σ α).Keeps PlainLog := by
  refine closed_plainLog.bind (Ensures.emit ?_) fun _ => closed_plainLog.leave _
  simp [PlainLog, Mark.Plain]

theorem makePattern_plain (surroundings : Surroundings σ) (text : ByteString) :
    (Task.makePattern surroundings text).Keeps PlainLog := by
  unfold Task.makePattern
  split
  · exact closed_plainLog.pure _
  · exact refuse_plain _

theorem attempt_makePattern_plain (surroundings : Surroundings σ) (text : ByteString) :
    (Task.attempt (Task.makePattern surroundings text)).Keeps PlainLog :=
  Closed.intercept (makePattern_plain surroundings text)

theorem write_plain (message : ByteString) (status : Status) :
    (Task.write (.addIndicator message status) : Task σ Unit).Keeps PlainLog :=
  Ensures.emit (by simp [PlainLog, Mark.Plain])

theorem listValidShells_plain (surroundings : Surroundings σ) :
    (listValidShells surroundings).Keeps PlainLog := by
  refine closed_plainLog.bind (closed_plainLog.ask _) fun answer => ?_
  cases answer with
  | none => exact refuse_plain _
  | some text => exact closed_plainLog.pure _

theorem usersRange_plain (surroundings : Surroundings σ) :
    (usersRange surroundings).Keeps PlainLog := by
  refine closed_plainLog.bind (closed_plainLog.ask _) fun answer => ?_
  cases answer with
  | error errno => exact refuse_plain _
  | ok range => exact closed_plainLog.pure _

theorem UserHomeDirectoryPermissions.homeParams_plain (surroundings : Surroundings σ)
    (user : Passwd) :
    (homeParams surroundings user).Keeps PlainLog := by
  refine closed_plainLog.bind (closed_plainLog.ask _) fun groupFound => ?_
  cases groupFound with
  | false => exact closed_plainLog.bind (closed_plainLog.ask _) fun errno => refuse_plain _
  | true =>
      refine closed_plainLog.bind (makePattern_plain _ _) fun pwdPattern => ?_
      refine closed_plainLog.bind (closed_plainLog.ask _) fun groupName => ?_
      exact closed_plainLog.bind (makePattern_plain _ _) fun _ => closed_plainLog.pure _

theorem UserHomeDirectoryPermissions.ensureHome_plain (surroundings : Surroundings σ)
    (user : Passwd) :
    (ensureHome surroundings user).Keeps PlainLog := by
  refine closed_plainLog.bind (closed_plainLog.ask _) fun answer => ?_
  cases answer with
  | none => exact closed_plainLog.pure _
  | some errno =>
      dsimp only
      split
      · refine closed_plainLog.bind (closed_plainLog.ask _) fun answer => ?_
        cases answer with
        | none => exact closed_plainLog.pure _
        | some errno => exact refuse_plain _
      · exact refuse_plain _

theorem LogFilePermissions.getFilePermissionArgs_plain (surroundings : Surroundings σ)
    (filename fullPath : ByteString) :
    (getFilePermissionArgs surroundings filename fullPath).Keeps PlainLog := by
  have made : ∀ args, (getFilePermissionsParams surroundings fullPath args).Keeps PlainLog := by
    intro args
    unfold getFilePermissionsParams
    split
    · exact closed_plainLog.pure _
    · exact closed_plainLog.leave _
  unfold getFilePermissionArgs
  split
  · exact made _
  · exact made _

end Plain

/-- The log has the property `always`, and if the run ends well, things were well before it and
the log has the property `whenGood` too. -/
def Reports {α : Type} (always whenGood : List Mark → Prop) (before : Prop)
    (good : Except Leaving α → Prop) (ending : Except Leaving α) (log : List Mark) : Prop :=
  always log ∧ (good ending → before ∧ whenGood log)

/-- The run ends with the given value. -/
def Ends {α : Type} (value : α) (ending : Except Leaving α) : Prop :=
  ending = .ok value

theorem not_ends_error {α : Type} (value : α) (left : Leaving) : ¬Ends value (.error left) := by
  simp [Ends]

/-- The run ends with a status other than `NonCompliant`. -/
def Passes (ending : Except Leaving Status) : Prop :=
  ∃ status, ending = .ok status ∧ status ≠ .nonCompliant

theorem not_passes_error (left : Leaving) : ¬Passes (.error left) := by
  simp [Passes]

section Rules

variable {σ α β : Type} {always whenGood : List Mark → Prop} {before between after : Prop}
  {good : Except Leaving α → Prop} {finallyGood : Except Leaving β → Prop}
  (indifferent : Indifferent always) (indifferentGood : Indifferent whenGood)

theorem Reports.of_plain {ending : Except Leaving α} {log : List Mark}
    (indifferent : Indifferent always) (indifferentGood : Indifferent whenGood)
    (plain : PlainLog log) (holds : good ending → before) :
    Reports always whenGood before good ending log :=
  ⟨indifferent.of_plainLog plain,
    fun isGood => ⟨holds isGood, indifferentGood.of_plainLog plain⟩⟩

include indifferent indifferentGood

theorem reports_pure (value : α) (holds : good (.ok value) → before) :
    (pure value : Task σ α).Ensures (Reports always whenGood before good) :=
  Ensures.pure (.of_plain indifferent indifferentGood closed_plainLog.nil holds)

theorem reports_leave (left : Leaving) (bad : ¬good (.error left)) :
    (leave left : Task σ α).Ensures (Reports always whenGood before good) :=
  Ensures.leave (.of_plain indifferent indifferentGood closed_plainLog.nil fun isGood =>
    absurd isGood bad)

theorem reports_refuse (failure : Error) (bad : ¬good (.error (.error failure))) :
    (Task.refuse failure : Task σ α).Ensures (Reports always whenGood before good) := by
  intro state
  refine .of_plain indifferent indifferentGood (refuse_plain failure state) fun isGood => ?_
  exact absurd isGood bad

theorem reports_after_plain {first : Task σ α} {next : α → Task σ β}
    (plain : first.Keeps PlainLog) (bad : ∀ left, ¬finallyGood (.error left))
    (rest : ∀ value, (next value).Ensures (Reports always whenGood before finallyGood)) :
    (first >>= next).Ensures (Reports always whenGood before finallyGood) := by
  refine Ensures.bind plain ?_ ?_
  · intro left log isPlain
    exact .of_plain indifferent indifferentGood isPlain fun isGood => absurd isGood (bad left)
  · intro value log isPlain
    refine (rest value).mono fun ending later reported => ?_
    refine ⟨indifferent.closed.append (indifferent.of_plainLog isPlain) reported.1, ?_⟩
    intro isGood
    rcases reported.2 isGood with ⟨held, goodLog⟩
    exact ⟨held, indifferentGood.closed.append (indifferentGood.of_plainLog isPlain) goodLog⟩

/-- If the second part is fine only when the first ended well, the whole reports. -/
theorem reports_bind {first : Task σ α} {next : α → Task σ β} {link : α → Prop}
    (left : first.Ensures (Reports always whenGood before good))
    (right : ∀ value, (next value).Ensures (Reports always whenGood (link value) finallyGood))
    (bad : ∀ reason, ¬finallyGood (.error reason))
    (linked : ∀ value, link value → good (.ok value))
    (held : ∀ value, link value → before → after) :
    (first >>= next).Ensures (Reports always whenGood after finallyGood) := by
  refine Ensures.bind left ?_ ?_
  · intro reason log reported
    exact ⟨reported.1, fun isGood => absurd isGood (bad reason)⟩
  · intro value log reported
    refine (right value).mono fun ending rest later => ?_
    refine ⟨indifferent.closed.append reported.1 later.1, ?_⟩
    intro isGood
    rcases later.2 isGood with ⟨isLinked, restGood⟩
    rcases reported.2 (linked value isLinked) with ⟨wasBefore, logGood⟩
    exact ⟨held value isLinked wasBefore, indifferentGood.closed.append logGood restGood⟩

end Rules

section Walk

variable {σ : Type} {surroundings : Surroundings σ}
  {callback : ByteString → ByteString → BitVec 16 → Task σ Status} {breakOnNonCompliant : Bool}
  {always whenGood : List Mark → Prop}
  (indifferent : Indifferent always) (indifferentGood : Indifferent whenGood)

include indifferent indifferentGood

theorem breakIteration_reports (path : ByteString) (before : Prop) :
    (breakIteration surroundings path).Ensures
      (Reports always whenGood before Passes) := by
  refine reports_after_plain indifferent indifferentGood (closed_plainLog.ask _)
    not_passes_error fun errno => ?_
  split
  · exact reports_refuse indifferent indifferentGood _ (not_passes_error _)
  · exact reports_pure indifferent indifferentGood _ (by simp [Passes])

variable (calls : ∀ path name mode,
  (callback path name mode).Ensures (Reports always whenGood True (Ends .compliant)))

include calls

theorem visitEntry_reports (path : ByteString) (entry : DirectoryEntry) :
    (visitEntry surroundings callback path entry).Ensures
      (Reports always whenGood True (Ends .compliant)) := by
  refine reports_after_plain indifferent indifferentGood (closed_plainLog.ask _)
    (not_ends_error _) fun answer => ?_
  cases answer with
  | error errno => exact reports_refuse indifferent indifferentGood _ (not_ends_error _ _)
  | ok mode => exact calls path entry.name mode

/-- The loop passes only if it did so before, and every directory below and every entry was
compliant. -/
theorem walkEntries_reports {descend : ByteString → Task σ Status}
    (descends : ∀ path, (descend path).Ensures (Reports always whenGood True Passes))
    (path : ByteString) (errno : ℤ) (entries : List DirectoryEntry) (result : Status) :
    (walkEntries surroundings callback breakOnNonCompliant descend path errno entries
      result).Ensures (Reports always whenGood (result ≠ .nonCompliant) Passes) := by
  induction entries generalizing result with
  | nil =>
      unfold walkEntries
      split
      · exact reports_refuse indifferent indifferentGood _ (not_passes_error _)
      · exact reports_pure indifferent indifferentGood _ (by simp [Passes])
  | cons entry rest ih =>
      unfold walkEntries
      split
      · exact ih result
      · have belowReports : (walkBelow descend path entry).Ensures
            (Reports always whenGood True Passes) := by
          unfold walkBelow
          split
          · exact descends _
          · exact reports_pure indifferent indifferentGood _ fun _ => trivial
        refine reports_bind indifferent indifferentGood belowReports (fun below => ?_)
          not_passes_error
          (fun below (linked : below = .compliant ∧ result ≠ .nonCompliant) => ?_)
          (fun below linked _ => linked.2)
        · split
          · exact breakIteration_reports indifferent indifferentGood path _
          · refine reports_bind indifferent indifferentGood
              (visitEntry_reports indifferent indifferentGood calls path entry) (fun here => ?_)
              not_passes_error
              (fun here
                (linked : here = .compliant ∧ below = .compliant ∧ result ≠ .nonCompliant) => ?_)
              (fun here linked _ => linked.2)
            · split
              · exact breakIteration_reports indifferent indifferentGood path _
              · refine (ih _).mono fun ending log reported => ⟨reported.1, fun isGood => ?_⟩
                rcases reported.2 isGood with ⟨stays, goodLog⟩
                refine ⟨?_, goodLog⟩
                by_cases bad : below ≠ .compliant ∨ here ≠ .compliant
                · rw [if_pos bad] at stays
                  exact absurd rfl stays
                · rw [if_neg bad] at stays
                  push Not at bad
                  exact ⟨bad.2, bad.1, stays⟩
            · rw [linked.1]
              rfl
        · exact ⟨below, rfl, by simp [linked.1]⟩

theorem fileTreeWalk_reports (path : ByteString) :
    (fileTreeWalk surroundings callback breakOnNonCompliant path).Ensures
      (Reports always whenGood True Passes) := by
  have walks : ∀ levels path,
      (walkTree surroundings callback breakOnNonCompliant levels path).Ensures
        (Reports always whenGood True Passes) := by
    intro levels
    induction levels with
    | zero =>
        intro path
        exact reports_leave indifferent indifferentGood _ (not_passes_error _)
    | succ levels ih =>
        intro path
        unfold walkTree
        refine reports_after_plain indifferent indifferentGood (closed_plainLog.ask _)
          not_passes_error fun answer => ?_
        cases answer with
        | error errno =>
            dsimp only
            split
            · exact reports_pure indifferent indifferentGood _ fun _ => trivial
            · exact reports_refuse indifferent indifferentGood _ (not_passes_error _)
        | ok directory =>
            refine (walkEntries_reports indifferent indifferentGood calls ih path
              directory.errno directory.entries .compliant).mono ?_
            intro ending log reported
            exact ⟨reported.1, fun isGood => ⟨trivial, (reported.2 isGood).2⟩⟩
  exact walks (maxDepth + 1) path

end Walk

section Users

variable {σ : Type} {surroundings : Surroundings σ} {body : Passwd → Status → Task σ Status}

/-- What the body of the loop guarantees from one status to the next, the loop guarantees from
the first to the last. -/
theorem forUsers_ensures {post : Status → Except Leaving Status → List Mark → Prop}
    (bodies : ∀ user status, (body user status).Ensures (post status))
    (done : ∀ status, post status (.ok status) [])
    (interrupted : ∀ status failure what, post status (.error (.thrown what)) [.refused failure])
    (chain : ∀ {status middle ending log rest}, post status (.ok middle) log →
      post middle ending rest → post status ending (log ++ rest))
    (shells : List ByteString) (failure : Option ℤ) (users : List Passwd) (status : Status) :
    (forUsers surroundings body shells failure users status).Ensures (post status) := by
  induction users generalizing status with
  | nil =>
      unfold forUsers
      cases failure with
      | none => exact Ensures.pure (done status)
      | some errno => exact fun _ => interrupted status _ _
  | cons user rest ih =>
      unfold forUsers
      split
      · refine Ensures.bind (bodies user status) (fun _ _ left => left) ?_
        intro middle log reached
        exact (ih middle).mono fun ending later continued => chain reached continued
      · exact ih status

variable {always whenGood : List Mark → Prop}
  (indifferent : Indifferent always) (indifferentGood : Indifferent whenGood)

include indifferent indifferentGood

theorem overUsers_reports
    (bodies : ∀ user status, (body user status).Ensures
      (Reports always whenGood (status = .compliant) (Ends .compliant))) :
    (overUsers surroundings body).Ensures (Reports always whenGood True (Ends .compliant)) := by
  refine reports_after_plain indifferent indifferentGood (listValidShells_plain _)
    (not_ends_error _) fun shells => ?_
  refine reports_after_plain indifferent indifferentGood (usersRange_plain _)
    (not_ends_error _) fun range => ?_
  have loops := @forUsers_ensures σ surroundings body _ bodies
    (fun status => .of_plain indifferent indifferentGood closed_plainLog.nil (by simp [Ends]))
    (fun status failure what => .of_plain indifferent indifferentGood
      (by simp [PlainLog, Mark.Plain]) fun ends => absurd ends (not_ends_error _ _))
    (fun {status middle ending log rest} reported continued => ?_)
    shells range.failure range.entries .compliant
  · exact loops.mono fun ending log reported =>
      ⟨reported.1, fun ends => ⟨trivial, (reported.2 ends).2⟩⟩
  · refine ⟨indifferent.closed.append reported.1 continued.1, fun ends => ?_⟩
    rcases continued.2 ends with ⟨rfl, restGood⟩
    rcases reported.2 rfl with ⟨before, logGood⟩
    exact ⟨before, indifferentGood.closed.append logGood restGood⟩

end Users

section Handlers

variable {σ : Type} {surroundings : Surroundings σ} {always whenGood : List Mark → Prop}
  (indifferent : Indifferent always) (indifferentGood : Indifferent whenGood)

include indifferent indifferentGood

theorem ofResult_reports {α : Type} (result : Result α) (value : α) :
    (Task.ofResult result : Task σ α).Ensures
      (Reports always whenGood (result = .ok value) (Ends value)) := by
  cases result with
  | error failure => exact reports_leave indifferent indifferentGood _ (not_ends_error _ _)
  | ok found => exact reports_pure indifferent indifferentGood _ (by simp [Ends])

variable (nodes : ∀ action node params, (Task.underNode surroundings action node params).Ensures
  (Reports always whenGood True (Ends (.ok .compliant))))

namespace UserDotFilePermissions

theorem selectFile_reports {check : Task σ Status} (user : Passwd) (filename : ByteString)
    (mode : BitVec 16)
    (reports : check.Ensures (Reports always whenGood True (Ends .compliant))) :
    (selectFile user filename mode check).Ensures
      (Reports always whenGood True (Ends .compliant)) := by
  unfold selectFile
  split
  · exact reports_pure indifferent indifferentGood _ fun _ => trivial
  · split
    · exact reports_pure indifferent indifferentGood _ fun _ => trivial
    · split
      · refine reports_after_plain indifferent indifferentGood (write_plain _ _)
          (not_ends_error _) fun _ => ?_
        exact reports_pure indifferent indifferentGood _ fun _ => trivial
      · exact reports

theorem whileValue_reports (condition : Prop) [Decidable condition]
    {check : Result Status → Task σ (Result Status)}
    (checks : ∀ result, (check result).Ensures
      (Reports always whenGood (result = .ok .compliant) (Ends (.ok .compliant))))
    (result : Result Status) :
    (whileValue condition check result).Ensures
      (Reports always whenGood (result = .ok .compliant) (Ends (.ok .compliant))) := by
  unfold whileValue
  cases result with
  | error failure => exact reports_pure indifferent indifferentGood _ (by simp [Ends])
  | ok status =>
      dsimp only
      split
      · exact checks (.ok status)
      · exact reports_pure indifferent indifferentGood _ (by simp [Ends])

theorem absorb_reports {walk : Task σ Status}
    (walks : walk.Ensures (Reports always whenGood True Passes)) (status : Status) :
    (absorb walk status).Ensures
      (Reports always whenGood (status = .compliant) (Ends .compliant)) := by
  have attempted : (Task.attempt walk).Ensures (Reports always whenGood True fun ending =>
      ∃ result, ending = .ok (.ok result) ∧ result ≠ .nonCompliant) := by
    refine Ensures.intercept (walks.mono fun ending log reported => ⟨reported.1, ?_⟩)
    rintro ⟨result, ended, passes⟩
    refine reported.2 ⟨result, ?_, passes⟩
    rcases ending with (failure | what | _) | found
    · simp at ended
    · simp at ended
    · simp at ended
    · simpa using ended
  refine reports_bind indifferent indifferentGood attempted (fun answer => ?_)
    (not_ends_error _)
    (fun answer (linked : (∃ result, answer = .ok result ∧ result ≠ .nonCompliant) ∧
      status = .compliant) => ?_) (fun answer linked _ => linked.2)
  · cases answer with
    | error failure => exact reports_pure indifferent indifferentGood _ (by simp [Ends])
    | ok result =>
        dsimp only
        split
        next refused => exact reports_pure indifferent indifferentGood _ (by simp [Ends])
        next passes =>
          refine reports_pure indifferent indifferentGood _ fun isGood => ?_
          exact ⟨⟨result, rfl, passes⟩, by simpa [Ends] using isGood⟩
  · rcases linked.1 with ⟨result, rfl, passes⟩
    exact ⟨result, rfl, passes⟩

theorem reports_update {step : Task σ (Result Status)} {next : Result Status → Task σ Status}
    {result : Result Status}
    (first : step.Ensures
      (Reports always whenGood (result = .ok .compliant) (Ends (.ok .compliant))))
    (rest : ∀ updated, (next updated).Ensures
      (Reports always whenGood (updated = .ok .compliant) (Ends .compliant))) :
    (step >>= next).Ensures
      (Reports always whenGood (result = .ok .compliant) (Ends .compliant)) := by
  refine reports_bind indifferent indifferentGood first rest (not_ends_error _)
    (fun updated linked => ?_) (fun _ _ before => before)
  rw [linked]
  rfl

include nodes

theorem checkPermissions_reports (action : Action) (node : HandlerNode)
    (params : FilePermissionsParams) (result : Result Status) :
    (checkPermissions surroundings action node params result).Ensures
      (Reports always whenGood (result = .ok .compliant) (Ends (.ok .compliant))) := by
  refine reports_bind indifferent indifferentGood (nodes action node params) (fun answer => ?_)
    (not_ends_error _)
    (fun answer (linked : answer = .ok .compliant ∧ result = .ok .compliant) => ?_)
    (fun answer linked _ => linked.2)
  · cases answer with
    | error failure => exact reports_pure indifferent indifferentGood _ (by simp [Ends])
    | ok verdict =>
        cases verdict with
        | nonCompliant =>
            exact reports_pure indifferent indifferentGood _ (by simp [Ends, Verdict.status])
        | compliant => exact reports_pure indifferent indifferentGood _ (by simp [Ends])
  · rw [linked.1]
    rfl

theorem checkFile_reports (user : Passwd) (path : ByteString) (mask : BitVec 32)
    (result : Result Status) : (checkFile surroundings user path mask result).Ensures
      (Reports always whenGood (result = .ok .compliant) (Ends (.ok .compliant))) := by
  refine reports_after_plain indifferent indifferentGood (closed_plainLog.ask _)
    (not_ends_error _) fun groupName => ?_
  refine reports_after_plain indifferent indifferentGood (attempt_makePattern_plain _ _)
    (not_ends_error _) fun groupPattern => ?_
  cases groupPattern with
  | error failure => exact reports_pure indifferent indifferentGood _ (by simp [Ends])
  | ok groupPattern =>
      refine reports_after_plain indifferent indifferentGood (attempt_makePattern_plain _ _)
        (not_ends_error _) fun pwdPattern => ?_
      cases pwdPattern with
      | error failure => exact reports_pure indifferent indifferentGood _ (by simp [Ends])
      | ok pwdPattern => exact checkPermissions_reports indifferent indifferentGood nodes _ _ _ _

theorem remediateFile_reports (user : Passwd) (groupFound : Bool) (path : ByteString)
    (mask : BitVec 32) (result : Result Status) :
    (remediateFile surroundings user groupFound path mask result).Ensures
      (Reports always whenGood (result = .ok .compliant) (Ends (.ok .compliant))) := by
  refine reports_after_plain indifferent indifferentGood (attempt_makePattern_plain _ _)
    (not_ends_error _) fun pwdPattern => ?_
  cases pwdPattern with
  | error failure => exact reports_pure indifferent indifferentGood _ (by simp [Ends])
  | ok pwdPattern =>
      cases groupFound with
      | false => exact reports_leave indifferent indifferentGood _ (not_ends_error _ _)
      | true =>
          refine reports_after_plain indifferent indifferentGood (closed_plainLog.ask _)
            (not_ends_error _) fun groupName => ?_
          refine reports_after_plain indifferent indifferentGood (attempt_makePattern_plain _ _)
            (not_ends_error _) fun groupPattern => ?_
          cases groupPattern with
          | error failure => exact reports_pure indifferent indifferentGood _ (by simp [Ends])
          | ok groupPattern =>
              exact checkPermissions_reports indifferent indifferentGood nodes _ _ _ _

theorem auditCallback_reports (user : Passwd) (directory filename : ByteString)
    (mode : BitVec 16) : (auditCallback surroundings user directory filename mode).Ensures
      (Reports always whenGood True (Ends .compliant)) := by
  refine selectFile_reports indifferent indifferentGood user filename mode ?_
  refine Ensures.mono (reports_update indifferent indifferentGood
    (whileValue_reports indifferent indifferentGood _
      (checkFile_reports indifferent indifferentGood nodes user _ _) _) fun result => ?_)
    fun ending log reported => ⟨reported.1, fun isGood => ⟨trivial, (reported.2 isGood).2⟩⟩
  refine reports_update indifferent indifferentGood
    (whileValue_reports indifferent indifferentGood _
      (checkFile_reports indifferent indifferentGood nodes user _ _) _) fun result => ?_
  refine reports_update indifferent indifferentGood
    (whileValue_reports indifferent indifferentGood _
      (checkFile_reports indifferent indifferentGood nodes user _ _) _) fun result => ?_
  exact ofResult_reports indifferent indifferentGood result .compliant

theorem remediateCallback_reports (user : Passwd) (groupFound : Bool)
    (directory filename : ByteString) (mode : BitVec 16) :
    (remediateCallback surroundings user groupFound directory filename mode).Ensures
      (Reports always whenGood True (Ends .compliant)) := by
  refine selectFile_reports indifferent indifferentGood user filename mode ?_
  refine Ensures.mono (reports_update indifferent indifferentGood
    (whileValue_reports indifferent indifferentGood _
      (remediateFile_reports indifferent indifferentGood nodes user groupFound _ _) _)
      fun result => ?_)
    fun ending log reported => ⟨reported.1, fun isGood => ⟨trivial, (reported.2 isGood).2⟩⟩
  refine reports_update indifferent indifferentGood
    (whileValue_reports indifferent indifferentGood _
      (remediateFile_reports indifferent indifferentGood nodes user groupFound _ _) _)
      fun result => ?_
  exact ofResult_reports indifferent indifferentGood result .compliant

theorem audit_reports : (audit surroundings).Ensures
    (Reports always whenGood True (Ends .compliant)) := by
  refine overUsers_reports indifferent indifferentGood fun user status => ?_
  refine reports_after_plain indifferent indifferentGood (closed_plainLog.ask _)
    (not_ends_error _) fun groupFound => ?_
  cases groupFound with
  | false =>
      refine reports_after_plain indifferent indifferentGood (closed_plainLog.ask _)
        (not_ends_error _) fun errno => ?_
      exact reports_refuse indifferent indifferentGood _ (not_ends_error _ _)
  | true =>
      refine absorb_reports indifferent indifferentGood ?_ status
      exact fileTreeWalk_reports indifferent indifferentGood
        (auditCallback_reports indifferent indifferentGood nodes user) user.dir

theorem remediate_reports : (remediate surroundings).Ensures
    (Reports always whenGood True (Ends .compliant)) := by
  refine overUsers_reports indifferent indifferentGood fun user status => ?_
  refine reports_after_plain indifferent indifferentGood (closed_plainLog.ask _)
    (not_ends_error _) fun groupFound => ?_
  have walks : (fileTreeWalk surroundings (remediateCallback surroundings user groupFound) false
      user.dir).Ensures (Reports always whenGood True Passes) :=
    fileTreeWalk_reports indifferent indifferentGood
      (remediateCallback_reports indifferent indifferentGood nodes user groupFound) user.dir
  refine (absorb_reports indifferent indifferentGood walks _).mono fun ending log reported => ?_
  refine ⟨reported.1, fun isGood => ?_⟩
  rcases reported.2 isGood with ⟨before, goodLog⟩
  refine ⟨?_, goodLog⟩
  cases groupFound with
  | false => cases before
  | true => exact before

end UserDotFilePermissions

namespace UserHomeDirectoryPermissions

include indifferent indifferentGood nodes

theorem auditHome_reports (user : Passwd) : (auditHome surroundings user).Ensures
    (Reports always whenGood True (Ends .compliant)) := by
  refine reports_after_plain indifferent indifferentGood (homeParams_plain _ user)
    (not_ends_error _) fun params => ?_
  refine reports_bind indifferent indifferentGood (nodes _ _ params)
    (fun answer => ofResult_reports indifferent indifferentGood answer .compliant)
    (not_ends_error _) (fun answer linked => ?_) (fun _ _ _ => trivial)
  rw [linked]
  rfl

theorem audit_reports : (audit surroundings).Ensures
    (Reports always whenGood True (Ends .compliant)) := by
  refine overUsers_reports indifferent indifferentGood fun user status => ?_
  refine reports_after_plain indifferent indifferentGood (closed_plainLog.ask _)
    (not_ends_error _) fun answer => ?_
  cases answer with
  | some errno =>
      dsimp only
      split
      · refine reports_after_plain indifferent indifferentGood (write_plain _ _)
          (not_ends_error _) fun _ => ?_
        exact reports_pure indifferent indifferentGood _ (by simp [Ends])
      · exact reports_refuse indifferent indifferentGood _ (not_ends_error _ _)
  | none =>
      refine reports_bind indifferent indifferentGood
        (auditHome_reports indifferent indifferentGood nodes user) (fun verdict => ?_)
        (not_ends_error _)
        (fun verdict (linked : verdict = .compliant ∧ status = .compliant) => ?_)
        (fun verdict linked _ => linked.2)
      · cases verdict with
        | nonCompliant =>
            refine reports_after_plain indifferent indifferentGood (write_plain _ _)
              (not_ends_error _) fun _ => ?_
            exact reports_pure indifferent indifferentGood _ (by simp [Ends])
        | compliant => exact reports_pure indifferent indifferentGood _ (by simp [Ends])
      · rw [linked.1]
        rfl

omit nodes in
theorem remediate_reports
    (homes : ∀ params status, (remediateHome surroundings params status).Ensures
      (Reports always whenGood (status = .compliant) (Ends .compliant))) :
    (remediate surroundings).Ensures (Reports always whenGood True (Ends .compliant)) := by
  refine overUsers_reports indifferent indifferentGood fun user status => ?_
  refine reports_after_plain indifferent indifferentGood (ensureHome_plain _ user)
    (not_ends_error _) fun _ => ?_
  refine reports_after_plain indifferent indifferentGood (homeParams_plain _ user)
    (not_ends_error _) fun params => ?_
  exact homes params status

end UserHomeDirectoryPermissions

namespace LogFilePermissions

include indifferent indifferentGood nodes

theorem processLogfile_reports (action : Action) (path filename : ByteString)
    (mode : BitVec 16) : (processLogfile surroundings action path filename mode).Ensures
      (Reports always whenGood True (Ends .compliant)) := by
  unfold processLogfile
  split
  · exact reports_pure indifferent indifferentGood _ fun _ => trivial
  · split
    · exact reports_pure indifferent indifferentGood _ fun _ => trivial
    · split
      · exact reports_pure indifferent indifferentGood _ fun _ => trivial
      · refine reports_after_plain indifferent indifferentGood
          (getFilePermissionArgs_plain _ _ _) (not_ends_error _) fun params => ?_
        refine reports_bind indifferent indifferentGood (nodes action _ params)
          (fun answer => ?_) (not_ends_error _)
          (fun answer (linked : answer = .ok .compliant) => ?_) (fun _ _ _ => trivial)
        · cases answer with
          | error failure =>
              exact reports_leave indifferent indifferentGood _ (not_ends_error _ _)
          | ok verdict =>
              cases verdict with
              | nonCompliant => exact reports_pure indifferent indifferentGood _ (by simp [Ends])
              | compliant => exact reports_pure indifferent indifferentGood _ fun _ => rfl
        · rw [linked]
          rfl

theorem processTree_reports (action : Action) (good bad : ByteString × ByteString)
    (path : Option ByteString) :
    (processTree surroundings action good bad path).Ensures
      (Reports always whenGood True (Ends .compliant)) := by
  cases path with
  | none => exact reports_leave indifferent indifferentGood _ (not_ends_error _ _)
  | some path =>
      refine reports_bind indifferent indifferentGood
        (fileTreeWalk_reports indifferent indifferentGood
          (processLogfile_reports indifferent indifferentGood nodes action) path)
        (fun result => ?_) (not_ends_error _)
        (fun result (linked : result = .compliant) => ?_) (fun _ _ _ => trivial)
      · split
        next passed =>
          refine reports_after_plain indifferent indifferentGood (write_plain _ _)
            (not_ends_error _) fun _ => ?_
          exact reports_pure indifferent indifferentGood _ fun _ => passed
        next failed =>
          refine reports_after_plain indifferent indifferentGood (write_plain _ _)
            (not_ends_error _) fun _ => ?_
          exact reports_pure indifferent indifferentGood _ (by simp [Ends])
      · exact ⟨result, rfl, by simp [linked]⟩

end LogFilePermissions

include indifferent indifferentGood nodes

theorem Aggregate.task_reports (aggregate : Aggregate) (action : Action)
    (homes : aggregate = .userHomeDirectoryPermissions → action = .remediate →
      ∀ params status,
        (UserHomeDirectoryPermissions.remediateHome surroundings params status).Ensures
          (Reports always whenGood (status = .compliant) (Ends .compliant))) :
    (aggregate.task surroundings action).Ensures
      (Reports always whenGood True (Ends .compliant)) := by
  cases aggregate with
  | userDotFilePermissions =>
      cases action with
      | audit => exact UserDotFilePermissions.audit_reports indifferent indifferentGood nodes
      | remediate =>
          exact UserDotFilePermissions.remediate_reports indifferent indifferentGood nodes
  | userHomeDirectoryPermissions =>
      cases action with
      | audit =>
          exact UserHomeDirectoryPermissions.audit_reports indifferent indifferentGood nodes
      | remediate =>
          exact UserHomeDirectoryPermissions.remediate_reports indifferent indifferentGood
            (homes rfl rfl)
  | logFilePermissions path =>
      cases action with
      | audit =>
          exact LogFilePermissions.processTree_reports indifferent indifferentGood nodes _ _ _ path
      | remediate =>
          exact LogFilePermissions.processTree_reports indifferent indifferentGood nodes _ _ _ path

end Handlers

end OsConfig.ComplianceEngine
