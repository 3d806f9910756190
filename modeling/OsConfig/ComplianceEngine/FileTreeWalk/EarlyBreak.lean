import OsConfig.ComplianceEngine.FileTreeWalk

/-!
# Stopping a walk early

A walk visits a list of entries, and may end with an error of its own. Both are
properties of the tree. The callback answers each visit, and the walk that stops
early differs from the full walk at the first answer that is not compliant only.

There it does not reset the error number, as the loop does in front of the next
entry. So it takes a number that the callback leaves for a failure of `readdir`.
-/

namespace OsConfig.ComplianceEngine.FileTreeWalk

open ByteString

/-- An entry that is looked at, with the error number at that time. -/
structure Visit (τ : Type) where
  path : ByteString
  name : ByteString
  stat : τ
  errno : ℤ

/-- What the callback says about an entry, and the error number it leaves. -/
structure Answer where
  path : ByteString
  status : Status
  errno : ℤ

def Answer.IsFailure (answer : Answer) : Prop :=
  answer.status ≠ .compliant

instance : DecidablePred Answer.IsFailure :=
  fun answer => inferInstanceAs (Decidable (answer.status ≠ .compliant))

variable {τ σ : Type} (strerror : ℤ → ByteString)

section Visits

/-- The error number behind the walk of a directory that returns a status. -/
def Directory.errnoAfter : Directory τ → ℤ
  | .unopened errno => errno
  | .opened _ => 0

/-- Look at an entry, and go on with what follows. -/
def visitEntry (path name : ByteString) (lstat : Except ℤ τ) (errno : ℤ)
    (rest : List (Visit τ) × Option Error) : List (Visit τ) × Option Error :=
  match lstat with
  | .error errno => ([], some (lstatError strerror (childPath path name) errno))
  | .ok stat => ({ path, name, stat, errno } :: rest.1, rest.2)

mutual

/-- The entries of a tree that a full walk visits, and the error it ends with, if any. -/
def Directory.visits (depth : ℕ) (path : ByteString) :
    Directory τ → List (Visit τ) × Option Error
  | .unopened errno =>
      if depth > maxDepth then ([], some depthError)
      else if errno = Errno.ENOENT then ([], none)
      else ([], some (openError strerror path errno))
  | .opened entries =>
      if depth > maxDepth then ([], some depthError) else entries.visits depth path

def Entries.visits (depth : ℕ) (path : ByteString) :
    Entries τ → List (Visit τ) × Option Error
  | .finish errno => ([], if errno = 0 then none else some (iterateError strerror path errno))
  | .file name lstat rest => visitEntry strerror path name lstat 0 (rest.visits depth path)
  | .directory name tree lstat rest =>
      if name = bytes "." ∨ name = bytes ".." then rest.visits depth path
      else
        match tree.visits (depth + 1) (childPath path name) with
        | (inside, some failure) => (inside, some failure)
        | (inside, none) =>
            let later := visitEntry strerror path name lstat tree.errnoAfter
              (rest.visits depth path)
            (inside ++ later.1, later.2)

end

end Visits

section Answers

/-- A callback that returns a status and no error. -/
abbrev StatusCallback (τ σ : Type) :=
  ByteString → ByteString → τ → Process σ → Status × Process σ

def StatusCallback.toFtwCallback (answer : StatusCallback τ σ) : FtwCallback τ σ :=
  fun path name stat process =>
    (.ok (answer path name stat process).1, (answer path name stat process).2)

variable (callback : StatusCallback τ σ)

/-- The call of the callback for a visit. -/
def visitWith (visit : Visit τ) (context : σ) : Status × Process σ :=
  callback visit.path visit.name visit.stat { errno := visit.errno, context }

def contextAfter : List (Visit τ) → σ → σ
  | [], context => context
  | visit :: rest, context => contextAfter rest (visitWith callback visit context).2.context

def answers : List (Visit τ) → σ → List Answer
  | [], _ => []
  | visit :: rest, context =>
      let (status, process) := visitWith callback visit context
      { path := visit.path, status, errno := process.errno } :: answers rest process.context

theorem contextAfter_append (first second : List (Visit τ)) (context : σ) :
    contextAfter callback (first ++ second) context =
      contextAfter callback second (contextAfter callback first context) := by
  induction first generalizing context with
  | nil => rfl
  | cons visit rest ih => exact ih _

theorem answers_append (first second : List (Visit τ)) (context : σ) :
    answers callback (first ++ second) context = answers callback first context ++
      answers callback second (contextAfter callback first context) := by
  induction first generalizing context with
  | nil => rfl
  | cons visit rest ih =>
      simp only [List.cons_append, answers, contextAfter, ih]

def firstFailure (given : List Answer) : Option Answer :=
  given.find? fun answer => answer.IsFailure

/-- What a walk returns: what the first failure says if it stops there, and otherwise the error
it ends with or a status that tells of failures. -/
def conclude (stops : Bool) (given : List Answer) (ending : Option Error) (result : Status) :
    Result Status :=
  match firstFailure given, stops, ending with
  | none, _, none => .ok result
  | none, _, some failure => .error failure
  | some answer, true, _ =>
      if answer.errno ≠ 0 then .error (iterateError strerror answer.path answer.errno)
      else .ok .nonCompliant
  | some _, false, none => .ok .nonCompliant
  | some _, false, some failure => .error failure

end Answers

section Conclusions

variable {stops : Bool} {first second given : List Answer} {ending : Option Error}
  {result : Status} {answer : Answer}

theorem firstFailure_append_of_none (clean : firstFailure first = none) :
    firstFailure (first ++ second) = firstFailure second := by
  unfold firstFailure at clean ⊢
  rw [List.find?_append, clean, Option.none_or]

theorem firstFailure_append_of_some (fails : firstFailure first = some answer) :
    firstFailure (first ++ second) = some answer := by
  unfold firstFailure at fails ⊢
  rw [List.find?_append, fails, Option.some_or]

theorem firstFailure_cons_of_compliant (passes : answer.status = .compliant) :
    firstFailure (answer :: given) = firstFailure given :=
  List.find?_cons_of_neg (by simp [Answer.IsFailure, passes])

theorem firstFailure_cons_of_failure (fails : answer.status ≠ .compliant) :
    firstFailure (answer :: given) = some answer :=
  List.find?_cons_of_pos (by simp [Answer.IsFailure, fails])

theorem conclude_congr (same : firstFailure first = firstFailure second) :
    conclude strerror stops first ending result = conclude strerror stops second ending result := by
  unfold conclude
  rw [same]

theorem conclude_full_of_failure (fails : firstFailure given = some answer) :
    conclude strerror false given ending result =
      match ending with
      | none => .ok .nonCompliant
      | some failure => .error failure := by
  unfold conclude
  rw [fails]
  cases ending <;> rfl

theorem conclude_stops_of_failure (fails : firstFailure given = some answer) :
    conclude strerror true given ending result =
      if answer.errno ≠ 0 then .error (iterateError strerror answer.path answer.errno)
      else .ok .nonCompliant := by
  unfold conclude
  rw [fails]

theorem conclude_of_clean (clean : firstFailure given = none) :
    conclude strerror stops given ending result =
      match ending with
      | none => .ok result
      | some failure => .error failure := by
  unfold conclude
  rw [clean]
  cases ending <;> rfl

theorem conclude_full_append (fails : firstFailure first = some answer) :
    conclude strerror false (first ++ second) ending result =
      conclude strerror false second ending .nonCompliant := by
  rw [conclude_full_of_failure strerror (firstFailure_append_of_some fails)]
  cases failed : firstFailure second with
  | none => rw [conclude_of_clean strerror failed]
  | some later => rw [conclude_full_of_failure strerror failed]

theorem conclude_ended (result' : Status) {failure : Error} :
    conclude strerror stops given (some failure) result =
      conclude strerror stops given (some failure) result' := by
  cases stops <;> cases failed : firstFailure given <;> simp [conclude, failed]

theorem conclude_append_of_error {failure : Error}
    (fails : conclude strerror stops first none .compliant = .error failure) :
    conclude strerror stops (first ++ second) ending result = .error failure := by
  cases failed : firstFailure first with
  | none =>
      rw [conclude_of_clean strerror failed] at fails
      cases fails
  | some answer =>
      cases stops with
      | true =>
          rw [conclude_stops_of_failure strerror failed] at fails
          rw [conclude_stops_of_failure strerror (firstFailure_append_of_some failed), fails]
      | false =>
          rw [conclude_full_of_failure strerror failed] at fails
          cases fails

end Conclusions

section Walks

variable (callback : StatusCallback τ σ) (stops : Bool)

/-- A part of a walk makes of its visits what `conclude` says, and leaves the given error number
and what the callback left, where it goes on. -/
structure Walked (plan : List (Visit τ) × Option Error) (errno : ℤ) (result : Status) (context : σ)
    (outcome : Result Status × Process σ) : Prop where
  concludes : outcome.1 =
    conclude strerror stops (answers callback plan.1 context) plan.2 result
  errno : ∀ status, outcome.1 = .ok status → outcome.2.errno = errno
  context : ∀ status, outcome.1 = .ok status →
    (firstFailure (answers callback plan.1 context) = none ∨ stops = false) →
    outcome.2.context = contextAfter callback plan.1 context

variable {strerror callback stops} {path name : ByteString} {lstat : Except ℤ τ} {result : Status}
  {process : Process σ} {next : Status → Process σ → Result Status × Process σ}
  {rest : List (Visit τ) × Option Error}

theorem errno_of_afterLoop {status : Status}
    (returns : (afterLoop strerror path result process).1 = .ok status) :
    process.errno = 0 ∧ (afterLoop strerror path result process).2 = process := by
  unfold afterLoop at returns ⊢
  split at returns
  next => cases returns
  next unset => exact ⟨not_not.mp unset, by rw [if_neg unset]⟩

section Sequence

variable {first : List (Visit τ)} {errno : ℤ} {context : σ} {answer : Answer}
  {outcome : Result Status × Process σ}

theorem Walked.after_clean (clean : firstFailure (answers callback first context) = none)
    (walked : Walked strerror callback stops rest errno result (contextAfter callback first context)
      outcome) :
    Walked strerror callback stops (first ++ rest.1, rest.2) errno result context outcome := by
  have sameFailure : firstFailure (answers callback (first ++ rest.1) context) =
      firstFailure (answers callback rest.1 (contextAfter callback first context)) := by
    rw [answers_append, firstFailure_append_of_none clean]
  refine ⟨?_, walked.errno, ?_⟩
  · rw [walked.concludes]
    exact (conclude_congr strerror sameFailure).symm
  · intro status returns goesOn
    rw [sameFailure] at goesOn
    rw [walked.context status returns goesOn, contextAfter_append]

theorem Walked.after_failure (full : stops = false)
    (fails : firstFailure (answers callback first context) = some answer)
    (walked : Walked strerror callback stops rest errno .nonCompliant
      (contextAfter callback first context) outcome) :
    Walked strerror callback stops (first ++ rest.1, rest.2) errno result context outcome := by
  subst full
  refine ⟨?_, walked.errno, ?_⟩
  · rw [walked.concludes, answers_append, conclude_full_append strerror fails]
  · intro status returns _
    rw [walked.context status returns (Or.inr rfl), contextAfter_append]

theorem walked_stop (rest : List (Visit τ) × Option Error) (breaks : stops = true)
    (fails : firstFailure (answers callback first context) = some answer)
    (left : process.errno = answer.errno) (here : answer.errno ≠ 0 → path = answer.path) :
    Walked strerror callback stops (first ++ rest.1, rest.2) 0 result context
      (afterLoop strerror path .nonCompliant process) := by
  subst breaks
  have fails' : firstFailure (answers callback (first ++ rest.1) context) = some answer := by
    rw [answers_append, firstFailure_append_of_some fails]
  refine ⟨?_, ?_, ?_⟩
  · rw [conclude_stops_of_failure strerror fails', afterLoop, left]
    split
    next set => rw [here set]
    next => rfl
  · intro status returns
    obtain ⟨unset, same⟩ := errno_of_afterLoop returns
    rw [same, unset]
  · intro status returns goesOn
    rw [fails'] at goesOn
    simp at goesOn

end Sequence

theorem walked_checkEntry (process : Process σ)
    (follows : ∀ result process, Walked strerror callback stops rest 0 result process.context
      (next result process)) :
    Walked strerror callback stops (visitEntry strerror path name lstat process.errno rest) 0 result
      process.context
      (checkEntry strerror callback.toFtwCallback stops path name lstat result process next) := by
  cases lstat with
  | error errno =>
      have failed : conclude strerror stops [] (some (lstatError strerror (childPath path name) errno))
          result = .error (lstatError strerror (childPath path name) errno) :=
        conclude_of_clean strerror rfl
      refine ⟨failed.symm, ?_, ?_⟩
      · intro status returns
        cases returns
      · intro status returns
        cases returns
  | ok stat =>
      cases called : callback path name stat process with
      | mk status after =>
          have given : answers callback [⟨path, name, stat, process.errno⟩] process.context =
              [⟨path, status, after.errno⟩] := by
            simp [answers, visitWith, called]
          have left : contextAfter callback [⟨path, name, stat, process.errno⟩] process.context =
              after.context := by
            simp [contextAfter, visitWith, called]
          have plan : visitEntry strerror path name (.ok stat) process.errno rest =
              ([⟨path, name, stat, process.errno⟩] ++ rest.1, rest.2) := rfl
          have outcome : checkEntry strerror callback.toFtwCallback stops path name (.ok stat) result
              process next =
              if status ≠ .compliant then
                if stops then afterLoop strerror path .nonCompliant after
                else next .nonCompliant after
              else next result after := by
            simp [checkEntry, StatusCallback.toFtwCallback, called]
          rw [plan, outcome]
          by_cases passes : status = .compliant
          · have clean : firstFailure (answers callback [⟨path, name, stat, process.errno⟩]
                process.context) = none := by
              rw [given, firstFailure_cons_of_compliant passes]
              rfl
            rw [if_neg (not_not.mpr passes)]
            apply Walked.after_clean clean
            rw [left]
            exact follows result after
          · have fails : firstFailure (answers callback [⟨path, name, stat, process.errno⟩]
                process.context) = some ⟨path, status, after.errno⟩ := by
              rw [given, firstFailure_cons_of_failure passes]
            rw [if_pos passes]
            cases breaks : stops with
            | true =>
                rw [if_pos rfl]
                exact walked_stop rest rfl fails rfl fun _ => rfl
            | false =>
                rw [if_neg Bool.false_ne_true]
                apply Walked.after_failure rfl fails
                rw [left, ← breaks]
                exact follows .nonCompliant after

theorem walked_afterLoop {errno : ℤ} :
    Walked strerror callback stops
      ([], if errno = 0 then none else some (iterateError strerror path errno)) 0 result
      process.context (afterLoop strerror path result { process with errno }) := by
  refine ⟨?_, ?_, ?_⟩
  · rw [conclude_of_clean strerror rfl, afterLoop]
    by_cases unset : errno = 0
    · simp [unset]
    · simp [unset]
  · intro status returns
    obtain ⟨unset, same⟩ := errno_of_afterLoop returns
    rw [same]
    exact unset
  · intro status returns _
    rw [(errno_of_afterLoop returns).2]
    rfl

theorem walked_error {failure : Error} {errno : ℤ} {context : σ} :
    Walked strerror callback stops ([], some failure) errno result context
      (.error failure, process) := by
  refine ⟨?_, ?_, ?_⟩
  · rw [conclude_of_clean strerror rfl]
  · intro status returns
    cases returns
  · intro status returns
    cases returns

theorem errnoAfter_of_failure {depth : ℕ} {tree : Directory τ} {context : σ} {answer : Answer}
    (fails : firstFailure (answers callback (tree.visits strerror depth path).1 context) =
      some answer) : tree.errnoAfter = 0 := by
  cases tree with
  | opened entries => rfl
  | unopened errno =>
      rw [Directory.visits] at fails
      split at fails
      next => cases fails
      next =>
        split at fails
        next => cases fails
        next => cases fails

theorem walked_directory {depth : ℕ} {tree : Directory τ}
    (inside : Walked strerror callback stops
      (tree.visits strerror (depth + 1) (childPath path name)) tree.errnoAfter .compliant
      process.context
      (walk strerror callback.toFtwCallback stops (depth + 1) (childPath path name) tree
        { process with errno := 0 }))
    (follows : ∀ result process, Walked strerror callback stops rest 0 result process.context
      (next result process)) :
    Walked strerror callback stops
      (match tree.visits strerror (depth + 1) (childPath path name) with
        | (inside, some failure) => (inside, some failure)
        | (inside, none) =>
            let later := visitEntry strerror path name lstat tree.errnoAfter rest
            (inside ++ later.1, later.2))
      0 result process.context
      (match walk strerror callback.toFtwCallback stops (depth + 1) (childPath path name) tree
          { process with errno := 0 } with
        | (.error failure, process) => (.error failure, process)
        | (.ok status, process) =>
            if status ≠ .compliant ∧ stops then
              afterLoop strerror path .nonCompliant process
            else
              checkEntry strerror callback.toFtwCallback stops path name lstat
                (if status ≠ .compliant then .nonCompliant else result) process next) := by
  rcases plan : tree.visits strerror (depth + 1) (childPath path name) with ⟨visits, ending⟩
  rcases walked : walk strerror callback.toFtwCallback stops (depth + 1) (childPath path name) tree
    { process with errno := 0 } with ⟨returned, after⟩
  rw [plan, walked] at inside
  have concludes := inside.concludes
  dsimp only at concludes
  cases returned with
  | error failure =>
      cases ending with
      | some ends =>
          refine ⟨?_, by simp, by simp⟩
          dsimp only
          rw [concludes]
          exact conclude_ended strerror result
      | none =>
          refine ⟨?_, by simp, by simp⟩
          dsimp only
          rw [answers_append]
          exact (conclude_append_of_error strerror concludes.symm).symm
  | ok status =>
      have errno_eq : after.errno = tree.errnoAfter := inside.errno status rfl
      have context_eq := inside.context status rfl
      dsimp only at context_eq
      have entry : ∀ result, after.context = contextAfter callback visits process.context →
          Walked strerror callback stops (visitEntry strerror path name lstat tree.errnoAfter rest) 0
            result (contextAfter callback visits process.context)
            (checkEntry strerror callback.toFtwCallback stops path name lstat result after next) := by
        intro result left
        rw [← left, ← errno_eq]
        exact walked_checkEntry after follows
      cases failed : firstFailure (answers callback visits process.context) with
      | none =>
          rw [conclude_of_clean strerror failed] at concludes
          cases ending with
          | some failure => cases concludes
          | none =>
              cases concludes
              dsimp only
              rw [if_neg (by simp), if_neg (by simp)]
              exact Walked.after_clean failed (entry result (context_eq (Or.inl failed)))
      | some answer =>
          cases breaks : stops with
          | true =>
              subst breaks
              rw [conclude_stops_of_failure strerror failed] at concludes
              split at concludes
              next => cases concludes
              next unset =>
                cases concludes
                have here : answer.errno ≠ 0 → path = answer.path := fun set => absurd set unset
                have fails : firstFailure (answers callback
                    (tree.visits strerror (depth + 1) (childPath path name)).1 process.context) =
                      some answer := by
                  rw [plan]
                  exact failed
                have opened : tree.errnoAfter = 0 := errnoAfter_of_failure fails
                have left : after.errno = answer.errno := by
                  rw [errno_eq, opened, not_not.mp unset]
                dsimp only
                rw [if_pos (by simp)]
                cases ending with
                | some failure =>
                    have stop : Walked strerror callback true (visits ++ [], some failure) 0 result
                        process.context (afterLoop strerror path .nonCompliant after) :=
                      walked_stop ([], some failure) rfl failed left here
                    rw [List.append_nil] at stop
                    exact stop
                | none => exact walked_stop _ rfl failed left here
          | false =>
              subst breaks
              rw [conclude_full_of_failure strerror failed] at concludes
              cases ending with
              | some failure => cases concludes
              | none =>
                  cases concludes
                  dsimp only
                  rw [if_neg (by simp), if_pos (by simp)]
                  exact Walked.after_failure rfl failed (entry .nonCompliant (context_eq (Or.inr rfl)))

mutual

theorem walked_walk (depth : ℕ) (path : ByteString) (tree : Directory τ) (process : Process σ) :
    Walked strerror callback stops (tree.visits strerror depth path) tree.errnoAfter .compliant
      process.context (walk strerror callback.toFtwCallback stops depth path tree process) := by
  cases tree with
  | unopened errno =>
      rw [Directory.visits, walk]
      by_cases deep : depth > maxDepth
      · rw [if_pos deep, if_pos deep]
        exact walked_error
      · rw [if_neg deep, if_neg deep]
        by_cases vanished : errno = Errno.ENOENT
        · rw [if_pos vanished, if_pos vanished]
          refine ⟨?_, fun _ _ => rfl, fun _ _ _ => rfl⟩
          rw [conclude_of_clean strerror rfl]
        · rw [if_neg vanished, if_neg vanished]
          exact walked_error
  | opened entries =>
      rw [Directory.visits, walk]
      by_cases deep : depth > maxDepth
      · rw [if_pos deep, if_pos deep]
        exact walked_error
      · rw [if_neg deep, if_neg deep]
        exact walked_walkEntries depth path entries .compliant process

theorem walked_walkEntries (depth : ℕ) (path : ByteString) (entries : Entries τ) (result : Status)
    (process : Process σ) :
    Walked strerror callback stops (entries.visits strerror depth path) 0 result process.context
      (walkEntries strerror callback.toFtwCallback stops depth path entries result process) := by
  cases entries with
  | finish errno =>
      rw [Entries.visits, walkEntries]
      exact walked_afterLoop
  | file name lstat rest =>
      rw [Entries.visits, walkEntries]
      exact walked_checkEntry { process with errno := 0 } fun result process =>
        walked_walkEntries depth path rest result process
  | directory name tree lstat rest =>
      rw [Entries.visits, walkEntries]
      by_cases dots : name = bytes "." ∨ name = bytes ".."
      · rw [if_pos dots, if_pos dots]
        exact walked_walkEntries depth path rest result { process with errno := 0 }
      · rw [if_neg dots, if_neg dots]
        exact walked_directory
          (walked_walk (depth + 1) (childPath path name) tree { process with errno := 0 })
          fun result process => walked_walkEntries depth path rest result process

end

end Walks

section Verdicts

variable {given : List Answer} {ending : Option Error}

/-- The answers and the end of a full walk with which it makes no difference to stop early: none
is a failure; or nothing fails but entries, the first of them leaves no error number and one is
not compliant; or the number it leaves is that of the failure of `readdir` which ends the full
walk in the same directory, and no answer is `NonCompliant`. -/
def Harmless (given : List Answer) (ending : Option Error) : Prop :=
  ∀ answer ∈ firstFailure given,
    (ending = none ∧ answer.errno = 0 ∧ ∃ other ∈ given, other.status = .nonCompliant) ∨
      (ending = some (iterateError strerror answer.path answer.errno) ∧ answer.errno ≠ 0 ∧
        ¬∃ other ∈ given, other.status = .nonCompliant)

theorem compliant_of_clean (clean : firstFailure given = none) :
    ∀ answer ∈ given, answer.status = .compliant := by
  intro answer mem
  have passes := List.find?_eq_none.mp clean answer mem
  rw [decide_eq_true_eq] at passes
  exact not_not.mp passes

theorem conclude_eq_iff :
    (conclude strerror true given ending .compliant = conclude strerror false given ending .compliant ∧
      (conclude strerror false given ending .compliant = .ok .nonCompliant ↔
        ∃ answer ∈ given, answer.status = .nonCompliant)) ↔
    Harmless strerror given ending := by
  unfold Harmless
  cases failed : firstFailure given with
  | none =>
      have none_reported : ¬∃ answer ∈ given, answer.status = .nonCompliant := by
        rintro ⟨answer, mem, reported⟩
        rw [compliant_of_clean failed answer mem] at reported
        cases reported
      rw [conclude_of_clean strerror failed, conclude_of_clean strerror failed]
      cases ending with
      | none => simp [none_reported]
      | some failure => simp [none_reported]
  | some answer =>
      rw [conclude_stops_of_failure strerror failed, conclude_full_of_failure strerror failed]
      by_cases unset : answer.errno = 0
      · cases ending with
        | none => simp [unset]
        | some failure => simp [unset]
      · cases ending with
        | none => simp [unset]
        | some failure => simp [unset, eq_comm]

end Verdicts

/-- When a walk that stops at the first failure returns what the full walk returns, and that is
`NonCompliant` exactly if the callback said so of an entry. -/
theorem fileTreeWalk_break_iff (callback : StatusCallback τ σ) (path : ByteString)
    (tree : Directory τ) (process : Process σ) :
    ((fileTreeWalk strerror callback.toFtwCallback true path tree process).1 =
        (fileTreeWalk strerror callback.toFtwCallback false path tree process).1 ∧
      ((fileTreeWalk strerror callback.toFtwCallback false path tree process).1 =
          .ok .nonCompliant ↔
        ∃ answer ∈ answers callback (tree.visits strerror 0 path).1 process.context,
          answer.status = .nonCompliant)) ↔
    Harmless strerror (answers callback (tree.visits strerror 0 path).1 process.context)
      (tree.visits strerror 0 path).2 := by
  have early : Walked strerror callback true _ _ _ _ _ := walked_walk 0 path tree process
  have full : Walked strerror callback false _ _ _ _ _ := walked_walk 0 path tree process
  rw [fileTreeWalk, fileTreeWalk, early.concludes, full.concludes]
  exact conclude_eq_iff strerror

/-- A directory with one file. -/
def homeTree : Directory Unit :=
  .opened (.file (bytes ".netrc") (.ok ()) (.finish 0))

/-- A callback that finds no account for the owner: that is not compliant, and the look-up leaves
`ENOENT`. -/
def ownerUnknown : StatusCallback Unit Unit :=
  fun _ _ _ process => (.nonCompliant, { process with errno := Errno.ENOENT })

/-- The walk that stops early takes the error number of the callback for a failure. -/
theorem errno_of_callback_ends_walk :
    (fileTreeWalk (fun _ => bytes "No such file or directory") ownerUnknown.toFtwCallback true
      (bytes "/root") homeTree { errno := 0, context := () }).1 =
      .error (iterateError (fun _ => bytes "No such file or directory") (bytes "/root")
        Errno.ENOENT) ∧
    (fileTreeWalk (fun _ => bytes "No such file or directory") ownerUnknown.toFtwCallback false
      (bytes "/root") homeTree { errno := 0, context := () }).1 = .ok .nonCompliant :=
  ⟨rfl, rfl⟩

end OsConfig.ComplianceEngine.FileTreeWalk
