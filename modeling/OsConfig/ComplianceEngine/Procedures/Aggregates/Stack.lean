import OsConfig.ComplianceEngine.Procedures.Aggregates.Reports
import OsConfig.ComplianceEngine.Procedures.FilePermissions.Compliance

/-!
# The evaluation stack around the aggregating procedures

Every call of a permission procedure that returns an error leaves its node open,
and every other node is closed. The depth a run leaves is therefore the number
of failed calls. Where an error ends the procedure too, no status is returned
and the depth does not matter; the procedures over dot files absorb the error
and return a status.
-/

namespace OsConfig.ComplianceEngine

open OsConfig Logged

namespace Mark

/-- A permission procedure returned an error. -/
def isFailure : Mark → Bool
  | .permissions (.error _) => true
  | _ => false

/-- The number of calls of permission procedures that returned an error. -/
def failures (log : List Mark) : ℕ :=
  log.countP isFailure

/-- No call of a permission procedure returned an error. -/
def NoFailures (log : List Mark) : Prop :=
  Free (fun mark => isFailure mark = true) log

theorem failures_eq_zero_iff {log : List Mark} : failures log = 0 ↔ NoFailures log := by
  simp [failures, NoFailures, Free, List.countP_eq_zero]

theorem ops_append (first second : List Mark) : ops (first ++ second) = ops first ++ ops second :=
  List.filterMap_append

theorem failures_append (first second : List Mark) :
    failures (first ++ second) = failures first + failures second :=
  List.countP_append

theorem closed_noFailures : Closed NoFailures :=
  closed_free _

end Mark

/-- The depth a log leaves is the number of failed calls, and the nodes it opens are those of
handlers. -/
structure Orderly (log : List Mark) : Prop where
  depth : TreeOp.depthAfter 0 (Mark.ops log) = some (Mark.failures log)
  names : ∀ name, TreeOp.push name ∈ Mark.ops log → IsHandlerName name

theorem closed_orderly : Closed Orderly where
  nil := ⟨rfl, by simp [Mark.ops]⟩
  append := by
    rintro first second ⟨depth, names⟩ ⟨depth', names'⟩
    constructor
    · have shifted := TreeOp.depthAfter_add 0 (Mark.failures first) depth'
      rw [Nat.zero_add, Nat.add_comm] at shifted
      rw [Mark.ops_append, TreeOp.depthAfter_append, depth, Option.bind_some, shifted,
        Mark.failures_append]
    · intro name mem
      rw [Mark.ops_append] at mem
      rcases List.mem_append.mp mem with early | late
      · exact names name early
      · exact names' name late

theorem indifferent_orderly : Indifferent Orderly where
  closed := closed_orderly
  plain := by
    intro mark plain
    cases mark with
    | op write =>
        cases write with
        | push name => exact plain.elim
        | close status => exact plain.elim
        | addIndicator message status => exact ⟨rfl, by simp [Mark.ops]⟩
    | permissions result => exact plain.elim
    | refused failure => exact ⟨rfl, by simp [Mark.ops]⟩
    | valueOfError failure => exact plain.elim

theorem indifferent_true : Indifferent fun _ => True :=
  ⟨⟨trivial, fun _ _ => trivial⟩, fun _ _ => trivial⟩

section Nodes

variable {σ : Type} {surroundings : Surroundings σ}

/-- The entries of a call of a permission procedure under a node, up to its return. -/
def called (node : HandlerNode) (report : Report σ) : List Mark :=
  .op (.push node.name) :: (report.indicators.map (fun indicator =>
    Mark.op (.addIndicator indicator.message indicator.status)) ++ [.permissions report.result])

theorem depthAfter_called (node : HandlerNode) (report : Report σ) :
    TreeOp.depthAfter 0 (Mark.ops (called node report)) = some 1 := by
  have flat : ∀ indicators : List Indicator,
      TreeOp.depthAfter 1 (Mark.ops (indicators.map fun indicator =>
        Mark.op (.addIndicator indicator.message indicator.status))) = some 1 := by
    intro indicators
    induction indicators with
    | nil => rfl
    | cons indicator rest ih => exact ih
  change TreeOp.depthAfter 1 (Mark.ops (_ ++ [Mark.permissions report.result])) = some 1
  rw [Mark.ops_append, TreeOp.depthAfter_append, flat]
  rfl

theorem push_mem_called {node : HandlerNode} {report : Report σ} {name : ByteString}
    (mem : TreeOp.push name ∈ Mark.ops (called node report)) : name = node.name := by
  simp [Mark.ops, called] at mem
  exact mem

theorem failures_called (node : HandlerNode) (report : Report σ) :
    Mark.failures (called node report) = Mark.failures [.permissions report.result] := by
  have flat : Mark.failures (report.indicators.map fun indicator =>
      Mark.op (.addIndicator indicator.message indicator.status)) = 0 := by
    rw [Mark.failures_eq_zero_iff]
    intro mark mem
    rcases List.mem_map.mp mem with ⟨indicator, -, rfl⟩
    simp [Mark.isFailure]
  change Mark.failures (_ ++ [Mark.permissions report.result]) = _
  rw [Mark.failures_append, flat, Nat.zero_add]

theorem orderly_called_error {node : HandlerNode} {report : Report σ} {failure : Error}
    (failed : report.result = .error failure) : Orderly (called node report) := by
  constructor
  · rw [depthAfter_called, failures_called, failed]
    rfl
  · intro name mem
    exact ⟨node, push_mem_called mem⟩

theorem orderly_called_ok {node : HandlerNode} {report : Report σ} {verdict : Verdict}
    (answered : report.result = .ok verdict) (status : Status) :
    Orderly (called node report ++ [.op (.close status)]) := by
  constructor
  · rw [Mark.ops_append, TreeOp.depthAfter_append, depthAfter_called, Mark.failures_append,
      failures_called, answered]
    rfl
  · intro name mem
    rw [Mark.ops_append] at mem
    rcases List.mem_append.mp mem with pushed | closed
    · exact ⟨node, push_mem_called pushed⟩
    · simp [Mark.ops] at closed

theorem underNode_run (action : Action) (node : HandlerNode) (params : FilePermissionsParams)
    (state : σ) :
    (Task.underNode surroundings action node params state).ending =
        .ok (surroundings.permissions action params state).result ∧
      (Task.underNode surroundings action node params state).log =
        called node (surroundings.permissions action params state) ++
          match (surroundings.permissions action params state).result with
          | .error _ => []
          | .ok verdict => [.op (.close verdict.status)] := by
  cases answer : (surroundings.permissions action params state).result with
  | error failure =>
      simp [Task.underNode, Task.write, Task.permissions, emit, Bind.bind, Logged.bind,
        Pure.pure, called, answer]
  | ok verdict =>
      simp [Task.underNode, Task.write, Task.permissions, emit, Bind.bind, Logged.bind,
        Pure.pure, called, answer]

theorem underNode_orderly (action : Action) (node : HandlerNode)
    (params : FilePermissionsParams) :
    (Task.underNode surroundings action node params).Keeps Orderly := by
  intro state
  rw [(underNode_run action node params state).2]
  cases answer : (surroundings.permissions action params state).result with
  | error failure =>
      rw [List.append_nil]
      exact orderly_called_error answer
  | ok verdict => exact orderly_called_ok answer _

open UserHomeDirectoryPermissions in
theorem remediateHome_run (params : FilePermissionsParams) (status : Status) (state : σ) :
    (remediateHome surroundings params status state).log =
        called .ensureFilePermissions (surroundings.permissions .remediate params state) ++
          (match (surroundings.permissions .remediate params state).result with
          | .error failure => [.valueOfError failure]
          | .ok verdict => [.op (.close verdict.status)]) ∧
      (remediateHome surroundings params status state).ending =
        match (surroundings.permissions .remediate params state).result with
        | .error _ => .error (.thrown (bytes "Result: unchecked access to Value"))
        | .ok _ => .ok status := by
  cases answer : (surroundings.permissions .remediate params state).result with
  | error failure =>
      simp [remediateHome, Task.write, Task.permissions, Task.valueOf, emit, leave, Bind.bind,
        Logged.bind, called, answer]
  | ok verdict =>
      simp [remediateHome, Task.write, Task.permissions, Task.valueOf, emit, Bind.bind,
        Logged.bind, Pure.pure, called, answer]

theorem remediateHome_orderly (params : FilePermissionsParams) (status : Status) :
    (UserHomeDirectoryPermissions.remediateHome surroundings params status).Keeps Orderly := by
  intro state
  rw [(remediateHome_run params status state).1]
  cases answer : (surroundings.permissions .remediate params state).result with
  | error failure =>
      exact closed_orderly.append (orderly_called_error answer) ⟨rfl, by simp [Mark.ops]⟩
  | ok verdict => exact orderly_called_ok answer _

end Nodes

theorem Aggregate.task_orderly {σ : Type} (surroundings : Surroundings σ) (aggregate : Aggregate)
    (action : Action) : (aggregate.task surroundings action).Keeps Orderly := by
  refine Ensures.mono (aggregate.task_reports indifferent_orderly indifferent_true ?_ action ?_)
    fun ending log reported => reported.1
  · intro action node params
    exact (underNode_orderly action node params).mono fun _ _ orderly =>
      ⟨orderly, fun _ => ⟨trivial, trivial⟩⟩
  · intro _ _ params status state
    refine ⟨remediateHome_orderly params status state, fun ends => ⟨?_, trivial⟩⟩
    rw [Ends, (remediateHome_run params status state).2] at ends
    split at ends
    · cases ends
    · cases ends
      rfl

section Surfacing

variable {σ α β : Type} {surroundings : Surroundings σ}

/-- A run that ends with a value has no failed call behind it. -/
def Surfaces (task : Task σ α) : Prop :=
  task.Ensures fun ending log => ∀ value, ending = .ok value → Mark.NoFailures log

theorem Surfaces.bind {first : Task σ α} {next : α → Task σ β} (left : Surfaces first)
    (right : ∀ value, Surfaces (next value)) : Surfaces (first >>= next) := by
  refine Ensures.bind left ?_ ?_
  · intro reason log _ value ended
    cases ended
  · intro value log surfaces
    refine (right value).mono fun ending rest later final ended => ?_
    exact Mark.closed_noFailures.append (surfaces value rfl) (later final ended)

theorem Surfaces.of_plain {task : Task σ α} (plain : task.Keeps PlainLog) : Surfaces task := by
  refine plain.mono fun ending log isPlain value _ mark mem => ?_
  have plainMark := isPlain mark mem
  cases mark with
  | op write => simp [Mark.isFailure]
  | permissions result => exact plainMark.elim
  | refused failure => simp [Mark.isFailure]
  | valueOfError failure => simp [Mark.isFailure]

theorem Surfaces.leave (left : Leaving) : Surfaces (leave left : Task σ α) :=
  .of_plain (closed_plainLog.leave left)

theorem Surfaces.pure (value : α) : Surfaces (Pure.pure value : Task σ α) :=
  .of_plain (closed_plainLog.pure value)

theorem Surfaces.ask (query : σ → α × σ) : Surfaces (ask query : Task σ α) :=
  .of_plain (closed_plainLog.ask query)

theorem Surfaces.refuse (failure : Error) : Surfaces (Task.refuse failure : Task σ α) :=
  .of_plain (refuse_plain failure)

theorem Surfaces.underNode {action : Action} {node : HandlerNode}
    {params : FilePermissionsParams} {next : Result Verdict → Task σ α}
    (fails : ∀ failure state value, (next (.error failure) state).ending ≠ .ok value)
    (right : ∀ verdict, Surfaces (next (.ok verdict))) :
    Surfaces (Task.underNode surroundings action node params >>= next) := by
  have answers : (Task.underNode surroundings action node params).Ensures fun ending log =>
      ∃ result, ending = .ok result ∧ ∀ verdict, result = .ok verdict → Mark.NoFailures log := by
    intro state
    rcases underNode_run action node params state with ⟨ended, logged⟩
    refine ⟨_, ended, fun verdict answered => ?_⟩
    rw [← Mark.failures_eq_zero_iff, logged, Mark.failures_append, failures_called, answered]
    rfl
  refine Ensures.bind answers ?_ ?_
  · rintro left log ⟨result, ended, -⟩
    cases ended
  · rintro result log ⟨_, same, clean⟩
    cases same
    cases result with
    | error failure =>
        intro state value ended
        exact absurd ended (fails failure state value)
    | ok verdict =>
        refine (right verdict).mono fun ending rest later value ended => ?_
        exact Mark.closed_noFailures.append (clean verdict rfl) (later value ended)

end Surfacing

section Procedures

variable {σ : Type} {surroundings : Surroundings σ}

theorem Surfaces.overUsers {body : Passwd → Status → Task σ Status}
    (bodies : ∀ user status, Surfaces (body user status)) :
    Surfaces (overUsers surroundings body) := by
  refine .bind (.of_plain (listValidShells_plain _)) fun shells => ?_
  refine .bind (.of_plain (usersRange_plain _)) fun range => ?_
  refine forUsers_ensures bodies ?_ ?_ ?_ shells range.failure range.entries .compliant
  · exact fun _ _ _ => Mark.closed_noFailures.nil
  · intro status failure what value ended
    cases ended
  · intro status middle ending log rest clean later value ended
    exact Mark.closed_noFailures.append (clean middle rfl) (later value ended)

theorem Surfaces.fileTreeWalk
    {callback : ByteString → ByteString → BitVec 16 → Task σ Status} {breakOnNonCompliant : Bool}
    (calls : ∀ path name mode, Surfaces (callback path name mode)) (path : ByteString) :
    Surfaces (fileTreeWalk surroundings callback breakOnNonCompliant path) := by
  have breaks : ∀ path, Surfaces (breakIteration surroundings path) := by
    intro path
    refine .bind (.ask _) fun errno => ?_
    split
    · exact .refuse _
    · exact .pure _
  have visits : ∀ path entry, Surfaces (visitEntry surroundings callback path entry) := by
    intro path entry
    refine .bind (.ask _) fun answer => ?_
    cases answer with
    | error errno => exact .refuse _
    | ok mode => exact calls path entry.name mode
  have loops : ∀ {descend : ByteString → Task σ Status}, (∀ path, Surfaces (descend path)) →
      ∀ path errno entries result, Surfaces (walkEntries surroundings callback
        breakOnNonCompliant descend path errno entries result) := by
    intro descend descends path errno entries
    induction entries with
    | nil =>
        intro result
        unfold walkEntries
        split
        · exact .refuse _
        · exact .pure _
    | cons entry rest ih =>
        intro result
        have belowSurfaces : Surfaces (walkBelow descend path entry) := by
          unfold walkBelow
          split
          · exact descends _
          · exact .pure _
        unfold walkEntries
        split
        · exact ih result
        · refine .bind belowSurfaces fun below => ?_
          split
          · exact breaks path
          · refine .bind (visits path entry) fun here => ?_
            split
            · exact breaks path
            · exact ih _
  have walks : ∀ levels path,
      Surfaces (walkTree surroundings callback breakOnNonCompliant levels path) := by
    intro levels
    induction levels with
    | zero => exact fun path => .leave _
    | succ levels ih =>
        intro path
        unfold walkTree
        refine .bind (.ask _) fun answer => ?_
        cases answer with
        | error errno =>
            dsimp only
            split
            · exact .pure _
            · exact .refuse _
        | ok directory => exact loops ih path _ _ _
  exact walks (maxDepth + 1) path

theorem processTree_surfaces (action : Action) (good bad : ByteString × ByteString)
    (path : Option ByteString) :
    Surfaces (LogFilePermissions.processTree surroundings action good bad path) := by
  have calls : ∀ path name mode,
      Surfaces (LogFilePermissions.processLogfile surroundings action path name mode) := by
    intro path name mode
    unfold LogFilePermissions.processLogfile
    split
    · exact .pure _
    · split
      · exact .pure _
      · split
        · exact .pure _
        · refine .bind (.of_plain (LogFilePermissions.getFilePermissionArgs_plain _ _ _))
            fun params => ?_
          refine .underNode (fun failure state value ended => by cases ended) fun verdict => ?_
          dsimp only
          split
          · exact .pure _
          · exact .pure _
  cases path with
  | none => exact .leave _
  | some path =>
      refine .bind (.fileTreeWalk calls path) fun result => ?_
      split
      · exact .bind (.of_plain (write_plain _ _)) fun _ => .pure _
      · exact .bind (.of_plain (write_plain _ _)) fun _ => .pure _

open UserHomeDirectoryPermissions in
theorem auditHomes_surfaces : Surfaces (UserHomeDirectoryPermissions.audit surroundings) := by
  refine .overUsers fun user status => ?_
  refine .bind (.ask _) fun answer => ?_
  cases answer with
  | some errno =>
      dsimp only
      split
      · exact .bind (.of_plain (write_plain _ _)) fun _ => .pure _
      · exact .refuse _
  | none =>
      have home : Surfaces (auditHome surroundings user) := by
        refine .bind (.of_plain (homeParams_plain _ user)) fun params => ?_
        exact .underNode (fun failure state value ended => by cases ended) fun _ => .pure _
      refine .bind home fun verdict => ?_
      split
      · exact .bind (.of_plain (write_plain _ _)) fun _ => .pure _
      · exact .pure _

open UserHomeDirectoryPermissions in
theorem remediateHomes_surfaces :
    Surfaces (UserHomeDirectoryPermissions.remediate surroundings) := by
  refine .overUsers fun user status => ?_
  refine .bind (.of_plain (ensureHome_plain _ user)) fun _ => ?_
  refine .bind (.of_plain (homeParams_plain _ user)) fun params => ?_
  intro state value ended
  rcases remediateHome_run params status state with ⟨logged, ends⟩
  rw [ends] at ended
  rw [← Mark.failures_eq_zero_iff, logged, Mark.failures_append, failures_called]
  cases answer : (surroundings.permissions .remediate params state).result with
  | error failure => simp [answer] at ended
  | ok verdict => rfl

/-- The procedures over home directories and log files return no status after a failed call. -/
theorem Aggregate.task_surfaces (aggregate : Aggregate) (action : Action)
    (other : aggregate ≠ .userDotFilePermissions) :
    Surfaces (aggregate.task surroundings action) := by
  cases aggregate with
  | userDotFilePermissions => exact absurd rfl other
  | userHomeDirectoryPermissions =>
      cases action with
      | audit => exact auditHomes_surfaces
      | remediate => exact remediateHomes_surfaces
  | logFilePermissions path =>
      cases action with
      | audit => exact processTree_surfaces _ _ _ path
      | remediate => exact processTree_surfaces _ _ _ path

end Procedures

section Handlers

variable {σ : Type}

/-- A run of a procedure as the evaluator sees it. -/
def Aggregate.run (surroundings : Surroundings σ) (aggregate : Aggregate) (action : Action)
    (state : σ) : HandlerRun σ :=
  let ran := aggregate.task surroundings action state
  { outcome := Task.outcome ran.ending, ops := Mark.ops ran.log, context := ran.state }

/-- The handler of a procedure. It never closes a node it did not open. -/
def Aggregate.handler (surroundings : Surroundings σ) (aggregate : Aggregate)
    (action : Action) : Handler σ where
  run _ state := aggregate.run surroundings action state
  opsScoped _ state := by
    have orderly := aggregate.task_orderly surroundings action state
    change (TreeOp.depthAfter 0 (Mark.ops _)).isSome
    rw [orderly.depth]
    rfl
  opsNames _ state := (aggregate.task_orderly surroundings action state).names

theorem Task.ending_of_outcome {α : Type} {ending : Except Leaving α} {value : α}
    (returns : Task.outcome ending = .value value) : ending = .ok value := by
  rcases ending with (failure | what | _) | result
  · cases returns
  · cases returns
  · cases returns
  · cases returns
    rfl

/-- A run leaves as many nodes open as calls of permission procedures returned an error. -/
theorem Aggregate.run_opens (surroundings : Surroundings σ) (aggregate : Aggregate)
    (action : Action) (state : σ) {tree : IndicatorsTree} {base : Node} {parents : List Node}
    (opens : tree.Opens (base :: parents)) :
    ∃ tree' inner, TreeOp.applyAll (aggregate.run surroundings action state).ops tree =
        some tree' ∧ tree'.Opens (inner ++ parents) ∧
      inner.length = Mark.failures (aggregate.task surroundings action state).log + 1 := by
  have orderly := aggregate.task_orderly surroundings action state
  rcases TreeOp.onOpenAll_scoped 0 [] base orderly.depth rfl orderly.names (by simp) with
    ⟨inner, base', effect, length_eq, -, -⟩
  rcases TreeOp.applyAll_of_onOpenAll opens effect with ⟨tree', applied, opens'⟩
  refine ⟨tree', inner ++ [base'], applied, ?_, ?_⟩
  · rw [List.append_assoc]
    exact opens'
  · rw [List.length_append, length_eq]
    rfl

/-- A run that returns a status leaves the evaluation stack as it found it exactly if no call of
a permission procedure over a dot file returned an error. -/
theorem Aggregate.stack_restored_iff (surroundings : Surroundings σ) (aggregate : Aggregate)
    (action : Action) (state : σ) (status : Status) (tree : IndicatorsTree) (base : Node)
    (parents : List Node) (opens : tree.Opens (base :: parents))
    (returns : (aggregate.run surroundings action state).outcome = .value status) :
    ∃ tree', TreeOp.applyAll (aggregate.run surroundings action state).ops tree = some tree' ∧
      (tree'.evaluationStack = tree.evaluationStack ↔
        (aggregate = .userDotFilePermissions →
          Mark.NoFailures (aggregate.task surroundings action state).log)) := by
  rcases aggregate.run_opens surroundings action state opens with
    ⟨tree', inner, applied, opens', length_eq⟩
  refine ⟨tree', applied, ?_⟩
  rw [opens.stack_eq_iff opens', length_eq, Nat.add_eq_right, Mark.failures_eq_zero_iff]
  constructor
  · exact fun clean _ => clean
  · intro clean
    by_cases dots : aggregate = .userDotFilePermissions
    · exact clean dots
    · exact aggregate.task_surfaces action dots state status (Task.ending_of_outcome returns)

end Handlers

section DotFile

/-- A system with one user, whose home directory holds one dot file. -/
def oneDotFile : Surroundings FileSystem where
  strerror _ := bytes "error"
  shellsFile files := (some (bytes "/bin/sh\n"), files)
  users files :=
    (.ok { entries := [{ name := bytes "root", uid := 0, gid := 0, dir := bytes "/root",
                         shell := bytes "/bin/sh" }] }, files)
  getgrgid _ files := (true, files)
  groupName files := (bytes "root", files)
  regexFailure _ := none
  fnmatch _ _ := false
  errno files := (0, files)
  stat _ files := (none, files)
  mkdir _ _ files := (none, files)
  opendir _ files :=
    (.ok { entries := [{ name := bytes ".profile", isDirectory := false }] }, files)
  lstat _ files := (.ok 0o100644, files)
  permissions := FilePermissions.procedures FilePermissions.linuxHost

/-- The file, which belongs to `daemon`; `chown` fails as given. -/
def dotFile (chownFailure : Option ℤ) : FileSystem where
  stat _ := .ok { uid := 1, gid := 0, mode := 0o100644 }
  chownFailure _ := chownFailure

/-- The tree while the procedure is evaluated. -/
def dotFileTree : IndicatorsTree where
  root := some (Node.new (bytes "UserDotFilePermissions"))
  evaluationStack := [[]]

/-- When `chown` succeeds, the stack is restored. -/
theorem dotFile_restored : ∃ tree',
    TreeOp.applyAll (Aggregate.userDotFilePermissions.run oneDotFile .remediate
      (dotFile none)).ops dotFileTree = some tree' ∧
    tree'.evaluationStack = dotFileTree.evaluationStack := by
  rcases Aggregate.stack_restored_iff oneDotFile .userDotFilePermissions .remediate (dotFile none)
    .compliant dotFileTree (Node.new (bytes "UserDotFilePermissions")) [] ⟨rfl, rfl⟩
    (by decide) with ⟨tree', applied, restored⟩
  exact ⟨tree', applied, restored.mpr fun _ => Mark.failures_eq_zero_iff.mp (by decide)⟩

/-- When it fails, the procedure returns `NonCompliant` with the node of the file still open. -/
theorem dotFile_left_open :
    (Aggregate.userDotFilePermissions.run oneDotFile .remediate
      (dotFile (some Errno.EPERM))).outcome = .value .nonCompliant ∧
    (TreeOp.applyAll (Aggregate.userDotFilePermissions.run oneDotFile .remediate
      (dotFile (some Errno.EPERM))).ops dotFileTree).map IndicatorsTree.evaluationStack =
      some ([0] :: dotFileTree.evaluationStack) := by
  decide

end DotFile

end OsConfig.ComplianceEngine
