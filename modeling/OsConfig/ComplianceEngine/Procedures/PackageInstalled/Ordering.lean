import OsConfig.ComplianceEngine.Procedures.PackageInstalled.CacheFile

/-!
# The order of a listing

A package manager may list several versions of a package. The audit compares
the last of them with the minimum, so what it returns depends on the order of
the lines, unless all versions of the package meet the minimum or none does.

The lines of `dpkg` count behind a header line. As long as the header stays in
front of them, the same holds; where it may be put behind them, it also matters
whether any version meets the minimum at all.
-/

namespace OsConfig.ComplianceEngine.PackageInstalled

open ByteString

section Judgement

variable {minimum : ByteString} {found front : List ByteString}

def Meets (minimum version : ByteString) : Prop :=
  0 ≤ versionCompare version minimum

instance (minimum version : ByteString) : Decidable (Meets minimum version) :=
  inferInstanceAs (Decidable (_ ≤ _))

/-- All versions meet the minimum, or none does. -/
def Agree (minimum : ByteString) (found : List ByteString) : Prop :=
  (∀ version ∈ found, Meets minimum version) ∨ ∀ version ∈ found, ¬Meets minimum version

instance (minimum : ByteString) (found : List ByteString) : Decidable (Agree minimum found) :=
  inferInstanceAs (Decidable (_ ∨ _))

/-- The verdict on the versions of a package that are listed. -/
def judge (minimum : ByteString) (found : List ByteString) : Verdict :=
  match found.getLast? with
  | none => .nonCompliant
  | some version => if Meets minimum version then .compliant else .nonCompliant

theorem judge_append_singleton (minimum : ByteString) (front : List ByteString)
    (version : ByteString) :
    judge minimum (front ++ [version]) =
      if Meets minimum version then .compliant else .nonCompliant := by
  rw [judge, List.getLast?_concat]

theorem judge_append (listed : found ≠ []) :
    judge minimum (front ++ found) = judge minimum found := by
  rw [judge, List.getLast?_append_of_ne_nil _ listed, judge]

theorem judge_of_forall_not_meets (misses : ∀ version ∈ found, ¬Meets minimum version) :
    judge minimum found = .nonCompliant := by
  unfold judge
  cases last : found.getLast? with
  | none => rfl
  | some version => exact if_neg (misses version (List.mem_of_getLast? last))

theorem judge_of_forall_meets (listed : found ≠ [])
    (meets : ∀ version ∈ found, Meets minimum version) : judge minimum found = .compliant := by
  rw [judge, List.getLast?_eq_some_getLast listed]
  exact if_pos (meets _ (List.getLast_mem listed))

/-- Versions that agree are judged alike in any order. -/
theorem judge_perm {found' : List ByteString} (agree : Agree minimum found)
    (same : found.Perm found') : judge minimum found = judge minimum found' := by
  by_cases empty : found = []
  · subst empty
    rw [List.nil_perm.mp same]
  · have listed : found' ≠ [] := by
      rintro rfl
      exact empty (List.perm_nil.mp same)
    rcases agree with meets | misses
    · rw [judge_of_forall_meets empty meets, judge_of_forall_meets listed fun version mem =>
        meets version (same.mem_iff.mpr mem)]
    · rw [judge_of_forall_not_meets misses, judge_of_forall_not_meets fun version mem =>
        misses version (same.mem_iff.mpr mem)]

theorem auditPackages_result {params : PackageInstalledParams}
    (given : params.minPackageVersion = some minimum) (entries : List (ByteString × ByteString)) :
    (auditPackages params (assign ∅ entries)).result =
      .ok (judge minimum (versions params.packageName entries)) := by
  unfold auditPackages judge
  rw [getElem?_assign, given]
  cases (versions params.packageName entries).getLast? with
  | none => rfl
  | some version =>
      by_cases less : versionCompare version minimum < 0
      · have misses : ¬Meets minimum version := not_le.mpr less
        simp only [less, misses, if_true, if_false]
        rfl
      · have meets : Meets minimum version := not_lt.mp less
        simp only [less, meets, if_true, if_false]
        rfl

end Judgement

section Orderings

variable {name minimum version line : ByteString} {lines front : List ByteString}
variable {entry : ByteString → Option (ByteString × ByteString)}

def lineVersions (entry : ByteString → Option (ByteString × ByteString)) (name : ByteString)
    (lines : List ByteString) : List ByteString :=
  versions name (lines.filterMap entry)

theorem lineVersions_append (front lines : List ByteString) :
    lineVersions entry name (front ++ lines) =
      lineVersions entry name front ++ lineVersions entry name lines := by
  simp [lineVersions, versions]

theorem lineVersions_perm {first second : List ByteString} (same : first.Perm second) :
    (lineVersions entry name first).Perm (lineVersions entry name second) :=
  ((same.filterMap entry).filter _).map Prod.snd

theorem mem_lineVersions_iff :
    version ∈ lineVersions entry name lines ↔ ∃ line ∈ lines, entry line = some (name, version) := by
  rw [lineVersions, mem_versions_iff, List.mem_filterMap]

theorem lineVersions_singleton (lists : entry line = some (name, version)) :
    lineVersions entry name [line] = [version] := by
  simp [lineVersions, versions, lists]

theorem perm_last (mem : line ∈ lines) : (lines.erase line ++ [line]).Perm lines :=
  (List.perm_append_singleton line _).trans (List.perm_cons_erase mem).symm

theorem judge_lineVersions_last (front : List ByteString)
    (lists : entry line = some (name, version)) :
    judge minimum (lineVersions entry name (front ++ [line])) =
      if Meets minimum version then .compliant else .nonCompliant := by
  rw [lineVersions_append, lineVersions_singleton lists, judge_append_singleton]

/-- Behind lines that stay in place, the order of the lines does not matter if and only if the
versions in them agree. -/
theorem judge_orderings_iff (front : List ByteString) :
    (∀ first second : List ByteString, first.Perm lines → second.Perm lines →
      judge minimum (lineVersions entry name (front ++ first)) =
        judge minimum (lineVersions entry name (front ++ second))) ↔
      Agree minimum (lineVersions entry name lines) := by
  constructor
  · intro same
    by_contra differ
    rw [Agree, not_or] at differ
    push Not at differ
    rcases differ with ⟨⟨low, lowListed, misses⟩, high, highListed, meets⟩
    rcases mem_lineVersions_iff.mp lowListed with ⟨lowLine, lowMem, lists⟩
    rcases mem_lineVersions_iff.mp highListed with ⟨highLine, highMem, lists'⟩
    have equal := same _ _ (perm_last lowMem) (perm_last highMem)
    rw [← List.append_assoc, ← List.append_assoc, judge_lineVersions_last _ lists,
      judge_lineVersions_last _ lists', if_neg misses, if_pos meets] at equal
    cases equal
  · intro agree first second firstPerm secondPerm
    rw [lineVersions_append, lineVersions_append]
    have perm : (lineVersions entry name first).Perm (lineVersions entry name second) :=
      lineVersions_perm (firstPerm.trans secondPerm.symm)
    by_cases empty : lineVersions entry name first = []
    · rw [empty] at perm ⊢
      rw [List.nil_perm.mp perm]
    · have listed : lineVersions entry name second ≠ [] := by
        intro nothing
        rw [nothing] at perm
        exact empty (List.perm_nil.mp perm)
      have agree' : Agree minimum (lineVersions entry name first) := by
        simpa only [Agree, (lineVersions_perm firstPerm).mem_iff] using agree
      rw [judge_append empty, judge_append listed, judge_perm agree' perm]

end Orderings

section Header

variable {name minimum version line : ByteString} {lines before : List ByteString}

def behindHeader (lines : List ByteString) : List ByteString :=
  (lines.dropWhile fun line => !isDpkgHeader line).drop 1

theorem behindHeader_append (headed : before.any isDpkgHeader = true) (lines : List ByteString) :
    behindHeader (before ++ lines) = behindHeader before ++ lines := by
  induction before with
  | nil => cases headed
  | cons line rest ih =>
      unfold behindHeader at ih ⊢
      cases header : isDpkgHeader line with
      | true => simp [header]
      | false =>
          have later : rest.any isDpkgHeader = true := by simpa [header] using headed
          simpa [header] using ih later

theorem behindHeader_append_of_not (headless : before.any isDpkgHeader = false)
    (lines : List ByteString) : behindHeader (before ++ lines) = behindHeader lines := by
  have dropped : ∀ line ∈ before, (!isDpkgHeader line) = true := by
    simpa using headless
  rw [behindHeader, List.dropWhile_append_of_pos dropped, behindHeader]

theorem behindHeader_of_not (headless : lines.any isDpkgHeader = false) :
    behindHeader lines = [] := by
  simpa [behindHeader] using behindHeader_append_of_not headless []

theorem behindHeader_subset (lines : List ByteString) : behindHeader lines ⊆ lines :=
  ((List.drop_suffix 1 _).trans (List.dropWhile_suffix _)).subset

/-- No package is listed in a header. -/
theorem dpkgEntry_header (header : isDpkgHeader line = true) : dpkgEntry line = none := by
  unfold isDpkgHeader startsWith at header
  rcases List.isPrefixOf_iff_prefix.mp header with ⟨rest, rfl⟩
  rfl

theorem judge_behindHeader_iff :
    (∀ first second : List ByteString, first.Perm lines → second.Perm lines →
      judge minimum (lineVersions dpkgEntry name (behindHeader first)) =
        judge minimum (lineVersions dpkgEntry name (behindHeader second))) ↔
      (lines.any isDpkgHeader = true →
        ∀ version ∈ lineVersions dpkgEntry name lines, ¬Meets minimum version) := by
  constructor
  · intro same headed version listed meets
    rcases List.any_eq_true.mp headed with ⟨header, headerMem, isHeader⟩
    rcases mem_lineVersions_iff.mp listed with ⟨line, lineMem, lists⟩
    have apart : line ≠ header := by
      rintro rfl
      rw [dpkgEntry_header isHeader] at lists
      cases lists
    -- The header comes first and the line last.
    have inside : line ∈ lines.erase header := (List.mem_erase_of_ne apart).mpr lineMem
    have listing : (header :: ((lines.erase header).erase line ++ [line])).Perm lines :=
      ((perm_last inside).cons header).trans (List.perm_cons_erase headerMem).symm
    have behind : behindHeader (header :: ((lines.erase header).erase line ++ [line])) =
        (lines.erase header).erase line ++ [line] := by
      simp [behindHeader, isHeader]
    -- All headers come last.
    have burying : (lines.filter (fun line => !isDpkgHeader line) ++
        lines.filter isDpkgHeader).Perm lines :=
      List.perm_append_comm.trans (List.filter_append_perm isDpkgHeader lines)
    have hidden : lineVersions dpkgEntry name (behindHeader
        (lines.filter (fun line => !isDpkgHeader line) ++ lines.filter isDpkgHeader)) = [] := by
      rw [behindHeader_append_of_not (by simp), List.eq_nil_iff_forall_not_mem]
      intro version listed
      rcases mem_lineVersions_iff.mp listed with ⟨line, mem, lists⟩
      have isHeader := (List.mem_filter.mp (behindHeader_subset _ mem)).2
      rw [dpkgEntry_header isHeader] at lists
      cases lists
    have equal := same _ _ listing burying
    rw [behind, hidden, judge_lineVersions_last _ lists, if_pos meets] at equal
    cases equal
  · intro misses
    have noncompliant : ∀ ordering : List ByteString, ordering.Perm lines →
        judge minimum (lineVersions dpkgEntry name (behindHeader ordering)) = .nonCompliant := by
      intro ordering perm
      apply judge_of_forall_not_meets
      intro version listed
      rcases mem_lineVersions_iff.mp listed with ⟨line, mem, lists⟩
      cases headed : ordering.any isDpkgHeader with
      | false =>
          rw [behindHeader_of_not headed] at mem
          cases mem
      | true =>
          rw [perm.any_eq] at headed
          have here : line ∈ lines := perm.mem_iff.mp (behindHeader_subset _ mem)
          exact misses headed version (mem_lineVersions_iff.mpr ⟨line, here, lists⟩)
    intro first second firstPerm secondPerm
    rw [noncompliant first firstPerm, noncompliant second secondPerm]

end Header

section Listing

variable (context : PackageContext) (params : PackageInstalledParams) (files : Files)

/-- The context in which a package manager that is to list the packages prints a text. -/
def PackageContext.withListing (output : ByteString) : PackageContext :=
  { context with
    executeCommand := fun command =>
      if command = rpmCommand ∨ command = dpkgCommand then .ok output
      else context.executeCommand command }

/-- What the audit returns for a listing. -/
def verdictOn (output : ByteString) : Option (Result Verdict) :=
  (auditPackageInstalled (context.withListing output) params files).map Report.result

/-- The package manager whose listing the audit looks at, if it looks at one. -/
def listingManager : Option PackageManagerType :=
  match params.packageManager with
  | none => none
  | some packageManager =>
      match readCache context packageManager files with
      | .error _ => none
      | .ok state =>
          match state.cache, state.fresh with
          | some _, true => none
          | _, _ => some state.packageManager

def listedEntries : PackageManagerType → List ByteString → List (ByteString × ByteString)
  | .rpm, lines => lines.filterMap spaceEntry
  | .dpkg, lines => (behindHeader lines).filterMap dpkgEntry
  | .autodetect, _ => []

variable {context params files}

theorem detectPackageManager_withListing (output : ByteString) :
    detectPackageManager (context.withListing output).executeCommand =
      detectPackageManager context.executeCommand := by
  have others : ∀ command ∈ [bytes "dpkg -l dpkg", bytes "rpm -q rpm", bytes "rpm -q rpm-ndb"],
      ¬(command = rpmCommand ∨ command = dpkgCommand) := by
    decide +kernel
  have same : ∀ command ∈ [bytes "dpkg -l dpkg", bytes "rpm -q rpm", bytes "rpm -q rpm-ndb"],
      (context.withListing output).executeCommand command = context.executeCommand command :=
    fun command mem => if_neg (others command mem)
  unfold detectPackageManager
  rw [same _ (by simp), same _ (by simp), same _ (by simp)]

theorem readCache_withListing (output : ByteString) (packageManager : PackageManagerType) :
    readCache (context.withListing output) packageManager files =
      readCache context packageManager files := by
  unfold readCache
  rw [detectPackageManager_withListing]
  rfl

theorem getInstalledPackages_withListing {packageManager : PackageManagerType}
    (detected : packageManager ≠ .autodetect) (output : ByteString) (time : BitVec 64) :
    getInstalledPackages (context.withListing output).executeCommand time packageManager =
      .ok { lastUpdateTime := time, packageManager
            packages := assign ∅ (listedEntries packageManager (getLines output)) } := by
  have rpm : (context.withListing output).executeCommand rpmCommand = .ok output := by
    simp [PackageContext.withListing]
  have dpkg : (context.withListing output).executeCommand dpkgCommand = .ok output := by
    simp [PackageContext.withListing]
  cases packageManager with
  | autodetect => exact absurd rfl detected
  | rpm =>
      rw [getInstalledPackages, getInstalledPackagesRpm, rpm]
      rfl
  | dpkg =>
      rw [getInstalledPackages, getInstalledPackagesDpkg, dpkg]
      rfl

theorem verdictOn_of_unlisted (unlisted : listingManager context params files = none)
    (first second : ByteString) :
    verdictOn context params files first = verdictOn context params files second := by
  unfold listingManager at unlisted
  unfold verdictOn auditPackageInstalled
  cases given : params.packageManager with
  | none => rfl
  | some packageManager =>
      simp only [given, Option.map_some, readCache_withListing] at unlisted ⊢
      cases reads : readCache context packageManager files with
      | error failure => rfl
      | ok state =>
          simp only [reads] at unlisted ⊢
          split at unlisted
          next cache kept fresh =>
            simp only [currentPackages, kept, fresh]
          next => cases unlisted

theorem verdictOn_of_listingManager {minimum : ByteString}
    (given : params.minPackageVersion = some minimum) {packageManager : PackageManagerType}
    (listing : listingManager context params files = some packageManager)
    (detected : packageManager ≠ .autodetect) (output : ByteString) :
    verdictOn context params files output =
      some (.ok (judge minimum
        (versions params.packageName (listedEntries packageManager (getLines output))))) := by
  unfold listingManager at listing
  unfold verdictOn auditPackageInstalled
  cases asked : params.packageManager with
  | none => simp [asked] at listing
  | some requested =>
      simp only [asked, Option.map_some, readCache_withListing] at listing ⊢
      cases reads : readCache context requested files with
      | error failure => simp [reads] at listing
      | ok state =>
          simp only [reads] at listing ⊢
          split at listing
          next => cases listing
          next outdated =>
            cases listing
            rw [currentPackages]
            simp only [getInstalledPackages_withListing detected]
            rw [Option.some.injEq]
            exact auditPackages_result given _

theorem packageManager_of_loadPackageCache {path : ByteString} {file : Option ByteString}
    {bad : Bool} {cache : PackageCache} (loads : loadPackageCache path file bad = .ok cache) :
    cache.packageManager ≠ .autodetect := by
  have named : ∀ text, readManager text ≠ some .autodetect := by
    intro text
    unfold readManager
    split_ifs <;> simp
  unfold loadPackageCache at loads
  split at loads
  next => cases loads
  next content =>
    split at loads
    next => cases loads
    next header lines _ =>
      split at loads
      next => cases loads
      next =>
        split at loads
        next => cases loads
        next =>
          split at loads
          next => cases loads
          next packageManager reads =>
            split at loads
            next => cases loads
            next =>
              split at loads
              next => cases loads
              next =>
                cases loads
                rintro rfl
                exact named _ reads

theorem packageManager_of_detectPackageManager
    {executeCommand : ByteString → Result ByteString} {packageManager : PackageManagerType}
    (detects : detectPackageManager executeCommand = .ok packageManager) :
    packageManager ≠ .autodetect := by
  unfold detectPackageManager at detects
  split at detects
  all_goals cases detects
  all_goals decide

theorem packageManager_of_readCache {context : PackageContext} {files : Files}
    {requested : PackageManagerType} {state : CacheState}
    (reads : readCache context requested files = .ok state) :
    state.packageManager ≠ .autodetect := by
  unfold readCache at reads
  split at reads
  next =>
    split at reads
    next =>
      cases detects : detectPackageManager context.executeCommand with
      | error failure =>
          rw [detects] at reads
          cases reads
      | ok packageManager =>
          rw [detects] at reads
          cases reads
          exact packageManager_of_detectPackageManager detects
    next given =>
      cases reads
      exact given
  next cache loads =>
    have named := packageManager_of_loadPackageCache loads
    dsimp only at reads
    split_ifs at reads with other old
    · cases reads
      exact other.1
    · cases reads
      exact named
    · cases reads
      exact named

theorem listingManager_ne : listingManager context params files ≠ some .autodetect := by
  intro asks
  unfold listingManager at asks
  split at asks
  next => cases asks
  next =>
    split at asks
    next => cases asks
    next state reads =>
      split at asks
      next => cases asks
      next =>
        rw [Option.some.injEq] at asks
        exact packageManager_of_readCache reads asks

end Listing

section Outputs

variable {before lines : List ByteString} {output : ByteString}

/-- A text in which some lines stay in place and others are ordered in some way. -/
def IsOrdering (before lines : List ByteString) (output : ByteString) : Prop :=
  ∃ ordering : List ByteString, ordering.Perm lines ∧ getLines output = before ++ ordering

theorem forall_isOrdering_iff {α : Type} (listed : getLines output = before ++ lines)
    (value : List ByteString → α) :
    (∀ first second, IsOrdering before lines first → IsOrdering before lines second →
      value (getLines first) = value (getLines second)) ↔
    ∀ first second : List ByteString, first.Perm lines → second.Perm lines →
      value (before ++ first) = value (before ++ second) := by
  constructor
  · intro same first second firstPerm secondPerm
    have printed : ∀ ordering : List ByteString, ordering.Perm lines →
        getLines ((before ++ ordering).flatMap fun line => line ++ [10]) = before ++ ordering := by
      intro ordering perm
      apply getLines_lines
      intro line mem
      have here : line ∈ getLines output := by
        rw [listed]
        exact ((List.Perm.refl before).append perm).mem_iff.mp mem
      exact unbroken_of_mem_getLines here
    have equal := same _ _ ⟨first, firstPerm, printed first firstPerm⟩
      ⟨second, secondPerm, printed second secondPerm⟩
    rwa [printed first firstPerm, printed second secondPerm] at equal
  · rintro same first second ⟨ordering, perm, lines_eq⟩ ⟨ordering', perm', lines_eq'⟩
    rw [lines_eq, lines_eq']
    exact same ordering ordering' perm perm'

end Outputs

section Audit

/-- The versions in the lines to be ordered agree, or the audit does not look at the listing. The
lines of `dpkg` need a header in front of them; if it is one of them, no version may meet the
minimum. -/
def OrderIrrelevant (minimum name : ByteString) (before lines : List ByteString) :
    Option PackageManagerType → Prop
  | some .rpm => Agree minimum (lineVersions spaceEntry name lines)
  | some .dpkg =>
      if before.any isDpkgHeader then Agree minimum (lineVersions dpkgEntry name lines)
      else
        lines.any isDpkgHeader = true →
          ∀ version ∈ lineVersions dpkgEntry name lines, ¬Meets minimum version
  | _ => True

variable {context : PackageContext} {params : PackageInstalledParams} {files : Files}
variable {minimum output : ByteString} {before lines : List ByteString}

/-- The audit of a minimum version returns the same for all orderings of the lines of a listing,
behind lines that stay in place, if and only if the order is irrelevant. -/
theorem verdictOn_orderings_iff (given : params.minPackageVersion = some minimum)
    (listed : getLines output = before ++ lines) :
    (∀ first second, IsOrdering before lines first → IsOrdering before lines second →
      verdictOn context params files first = verdictOn context params files second) ↔
    OrderIrrelevant minimum params.packageName before lines
      (listingManager context params files) := by
  cases listing : listingManager context params files with
  | none =>
      exact iff_of_true (fun first second _ _ => verdictOn_of_unlisted listing first second) trivial
  | some packageManager =>
      cases packageManager with
      | autodetect => exact absurd listing listingManager_ne
      | rpm =>
          simp only [verdictOn_of_listingManager given listing (by decide), Option.some.injEq,
            Except.ok.injEq]
          rw [forall_isOrdering_iff listed fun lines =>
            judge minimum (versions params.packageName (listedEntries .rpm lines))]
          exact judge_orderings_iff before
      | dpkg =>
          simp only [verdictOn_of_listingManager given listing (by decide), Option.some.injEq,
            Except.ok.injEq, OrderIrrelevant]
          rw [forall_isOrdering_iff listed fun lines =>
            judge minimum (versions params.packageName (listedEntries .dpkg lines))]
          cases headed : before.any isDpkgHeader with
          | true =>
              simp only [listedEntries, behindHeader_append headed, if_true]
              exact judge_orderings_iff (behindHeader before)
          | false =>
              simp only [listedEntries, behindHeader_append_of_not headed, Bool.false_eq_true,
                if_false]
              exact judge_behindHeader_iff

/-- A system whose packages are listed by `rpm` and not cached. -/
def rpmContext : PackageContext where
  executeCommand _ := .error { message := bytes "command failed" }
  cachePath := bytes "/cache"
  now := 0
  listedAt := 0
  requests := { mkstemp := some }

def kernelParams : PackageInstalledParams where
  packageName := bytes "kernel"
  minPackageVersion := some (bytes "5.14.0-2")
  packageManager := some .rpm

def oldKernel : ByteString := bytes "kernel 5.14.0-1"

def newKernel : ByteString := bytes "kernel 5.14.0-2"

/-- Two kernels side by side: what is returned depends on the order. -/
theorem verdictOn_kernels :
    IsOrdering [] [oldKernel, newKernel] (bytes "kernel 5.14.0-1\nkernel 5.14.0-2\n") ∧
    IsOrdering [] [oldKernel, newKernel] (bytes "kernel 5.14.0-2\nkernel 5.14.0-1\n") ∧
    verdictOn rpmContext kernelParams (fun _ => none)
      (bytes "kernel 5.14.0-1\nkernel 5.14.0-2\n") = some (.ok .compliant) ∧
    verdictOn rpmContext kernelParams (fun _ => none)
      (bytes "kernel 5.14.0-2\nkernel 5.14.0-1\n") = some (.ok .nonCompliant) := by
  have listing : listingManager rpmContext kernelParams (fun _ => none) = some .rpm := by
    decide +kernel
  have verdict := verdictOn_of_listingManager rfl listing (by decide)
  refine ⟨⟨[oldKernel, newKernel], .refl _, by decide +kernel⟩,
    ⟨[newKernel, oldKernel], .swap _ _ _, by decide +kernel⟩, ?_, ?_⟩
  · rw [verdict]
    decide +kernel
  · rw [verdict]
    decide +kernel

theorem verdictOn_orderings_iff_kernels :
    (∀ first second, IsOrdering [] [oldKernel, newKernel] first →
      IsOrdering [] [oldKernel, newKernel] second →
      verdictOn rpmContext kernelParams (fun _ => none) first =
        verdictOn rpmContext kernelParams (fun _ => none) second) ↔
    OrderIrrelevant (bytes "5.14.0-2") kernelParams.packageName [] [oldKernel, newKernel]
      (listingManager rpmContext kernelParams fun _ => none) := by
  have listed : getLines (bytes "kernel 5.14.0-1\nkernel 5.14.0-2\n") =
      [] ++ [oldKernel, newKernel] := by decide +kernel
  exact verdictOn_orderings_iff rfl listed

end Audit

end OsConfig.ComplianceEngine.PackageInstalled
