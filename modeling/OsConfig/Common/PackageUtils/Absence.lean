import OsConfig.Common.PackageUtils
import OsConfig.Library.Glob

/-!
# Evidence for the absence of a package

A package may be reported absent if the packages were enumerated since the last command that may
have changed them, and no package of that list has the name. The code reports it absent as well
when the enumeration fails, since a failure is no different from a package that is not found.
-/

namespace OsConfig.CommonUtils

def trimSpaces (text : ByteString) : ByteString :=
  (text.dropWhile (· = 32)).rdropWhile (· = 32)

/-- The package that a row of `zypper search` lists. The first column of an installed package
starts with `i`. -/
def zypperPackage (row : ByteString) : Option ByteString :=
  match row.splitOn 124 with
  | status :: name :: _ => if (trimSpaces status).head? = some 105 then some (trimSpaces name) else none
  | _ => none

/-- The package of a name that ends with a dot and an architecture. -/
def withoutArchitecture (name : ByteString) : Option ByteString :=
  if 46 ∈ name then some (name.rdropWhile (· ≠ 46)).dropLast else none

def listedPackages (managers : PackageManagers) (output : ByteString) : List ByteString :=
  let lines := (output.splitOn 10).filter (· ≠ [])
  if managers.aptGet || managers.dpkg then lines.map fun line => line.takeWhile (· ≠ 58)
  else if managers.rpm then lines
  else if managers.tdnf || managers.dnf || managers.yum then lines.filterMap withoutArchitecture
  else lines.filterMap zypperPackage

/-- A `*` in the name of a package stands for any text. -/
def packagePattern (packageName : ByteString) : List (Glob.Token UInt8) :=
  packageName.map fun byte => if byte = 42 then .star else .letter byte

def Lists (managers : PackageManagers) (output packageName : ByteString) : Prop :=
  ∃ package ∈ listedPackages managers output,
    Glob.accepts (packagePattern packageName) package = true

instance (managers : PackageManagers) (output packageName : ByteString) :
    Decidable (Lists managers output packageName) :=
  inferInstanceAs (Decidable (∃ package ∈ listedPackages managers output, _))

namespace PackageCache

/-- What happened since the last request for a refresh. -/
def recent (cache : PackageCache) : List PackageEvent :=
  cache.events.takeWhile (· ≠ .refreshRequested)

/-- The packages were enumerated since, and no package that was listed matches the name. -/
def ShowsAbsent (cache : PackageCache) (packageName : ByteString) : Prop :=
  ∃ managers output, .enumerated managers output ∈ cache.recent ∧
    ¬Lists managers output packageName

/-- What the text is made of, if the packages were enumerated since the last request. -/
structure Tracks (cache : PackageCache) (managers : PackageManagers) (output : ByteString) :
    Prop where
  recent : cache.recent = [.enumerated managers output]
  update : cache.update = false
  installed : cache.installed = some (10 :: output)
  present : cache.present = some managers

/-- The invariant of all runs. -/
def Consistent (cache : PackageCache) : Prop :=
  cache.recent = [] ∨ ∃ managers output, cache.Tracks managers output

/-- The package managers that a call goes by. -/
def managers (cache : PackageCache) (environment : PackageEnvironment) : PackageManagers :=
  cache.present.getD environment.isPresent

theorem checkPackageManagersPresence_eq (environment : PackageEnvironment)
    (cache : PackageCache) :
    cache.checkPackageManagersPresence environment =
      (cache.managers environment, { cache with present := some (cache.managers environment) }) := by
  rw [checkPackageManagersPresence, managers]
  cases cache with
  | mk present update installed events => cases present <;> rfl

end PackageCache

namespace CommandResult

/-- The text of a successful enumeration. -/
def listing (result : CommandResult) : Option ByteString :=
  if result.status = 0 then result.results.map ByteString.cString else none

/-- The status of an enumeration that is not successful. -/
def failure (result : CommandResult) : ℤ :=
  if result.status ≠ 0 then result.status else enoent

theorem failure_ne_zero (result : CommandResult) : result.failure ≠ 0 := by
  rw [failure]
  split
  next failed => exact failed
  · decide

end CommandResult

section Calls

variable {environment : PackageEnvironment} {cache : PackageCache}
  {packageName : Option ByteString}

theorem updateInstalledPackagesCache_of_listing {output : ByteString}
    (listing : (enumerateAllPackages environment (cache.managers environment)).listing =
      some output) :
    updateInstalledPackagesCache environment cache =
      (0, { cache with
        present := some (cache.managers environment)
        installed := some (10 :: output)
        events := .enumerated (cache.managers environment) output :: cache.events }) := by
  rw [updateInstalledPackagesCache, cache.checkPackageManagersPresence_eq]
  rw [CommandResult.listing] at listing
  split at listing
  next success =>
    rcases Option.map_eq_some_iff.mp listing with ⟨text, results, rfl⟩
    simp only [results, if_pos success]
  · cases listing

theorem updateInstalledPackagesCache_of_failure
    (failed : (enumerateAllPackages environment (cache.managers environment)).listing = none) :
    updateInstalledPackagesCache environment cache =
      ((enumerateAllPackages environment (cache.managers environment)).failure,
        { cache with present := some (cache.managers environment) }) := by
  rw [updateInstalledPackagesCache, cache.checkPackageManagersPresence_eq, CommandResult.failure]
  rw [CommandResult.listing] at failed
  split at failed
  next success =>
    rw [Option.map_eq_none_iff] at failed
    simp only [failed]
  next status =>
    simp only
    split
    · rw [if_neg status, if_pos status]
    · rfl

theorem isPackageInstalled_of_listing {output : ByteString} (some_name : packageName.getD [] ≠ [])
    (needs : cache.needsUpdate = true)
    (listing : (enumerateAllPackages environment (cache.managers environment)).listing =
      some output) :
    isPackageInstalled environment packageName cache =
      (if searchTarget (cache.managers environment) (packageName.getD []) <:+: 10 :: output then
          0 else enoent,
      { present := some (cache.managers environment)
        update := false
        installed := some (10 :: output)
        events := .enumerated (cache.managers environment) output :: cache.events }) := by
  have updated := @updateInstalledPackagesCache_of_listing environment
    { cache with present := some (cache.managers environment), update := false } output listing
  have again : PackageCache.needsUpdate
      { cache with present := some (cache.managers environment) } = true := needs
  rw [isPackageInstalled, cache.checkPackageManagersPresence_eq, if_neg some_name]
  simp only [again, if_true, updated]
  rfl

theorem isPackageInstalled_of_failure (some_name : packageName.getD [] ≠ [])
    (needs : cache.needsUpdate = true)
    (failed : (enumerateAllPackages environment (cache.managers environment)).listing = none) :
    isPackageInstalled environment packageName cache =
      (if cache.installed = none then enoent
        else (enumerateAllPackages environment (cache.managers environment)).failure,
      { cache with present := some (cache.managers environment), update := false }) := by
  have updated := @updateInstalledPackagesCache_of_failure environment
    { cache with present := some (cache.managers environment), update := false } failed
  have again : PackageCache.needsUpdate
      { cache with present := some (cache.managers environment) } = true := needs
  rw [isPackageInstalled, cache.checkPackageManagersPresence_eq, if_neg some_name]
  simp only [again, if_true, updated]
  cases cache.installed with
  | none => rfl
  | some installed =>
      simp only [reduceCtorEq, if_false]
      rw [if_neg (CommandResult.failure_ne_zero _)]
      rfl

theorem isPackageInstalled_of_kept {installed : ByteString} (some_name : packageName.getD [] ≠ [])
    (kept : cache.needsUpdate = false) (text : cache.installed = some installed) :
    isPackageInstalled environment packageName cache =
      (if searchTarget (cache.managers environment) (packageName.getD []) <:+: installed then 0
        else enoent,
      { cache with present := some (cache.managers environment) }) := by
  have again : PackageCache.needsUpdate
      { cache with present := some (cache.managers environment) } = false := kept
  rw [isPackageInstalled, cache.checkPackageManagersPresence_eq, if_neg some_name]
  simp only [again, Bool.false_eq_true, if_false]
  simp only [text, if_true]

/-- All that is left is what `IsPackageInstalled` leaves. -/
theorem checkPackageInstalled_cache (name reason : Option ByteString) :
    (checkPackageInstalled environment name reason cache).2.2 =
      (isPackageInstalled environment name cache).2 := by
  simp only [checkPackageInstalled]
  split
  · rfl
  · split <;> rfl

theorem checkPackageNotInstalled_cache (name reason : Option ByteString) :
    (checkPackageNotInstalled environment name reason cache).2.2 =
      (isPackageInstalled environment name cache).2 := by
  simp only [checkPackageNotInstalled]
  split
  · rfl
  · split <;> rfl

theorem checkPackageNotInstalled_status (name reason : Option ByteString) :
    (checkPackageNotInstalled environment name reason cache).1 = 0 ↔
      (isPackageInstalled environment name cache).1 ∉ [0, einval, enomem] := by
  simp only [checkPackageNotInstalled, List.mem_cons, List.not_mem_nil, or_false, not_or]
  split
  next installed => simp [installed, enoent]
  next absent =>
    split
    next known => simp [absent, known]
    next unknown => simp [absent, unknown]

end Calls

namespace PackageCache

variable {environment : PackageEnvironment} {cache : PackageCache}

theorem Tracks.needsUpdate {managers : PackageManagers} {output : ByteString}
    (tracks : cache.Tracks managers output) : cache.needsUpdate = false := by
  rw [PackageCache.needsUpdate, tracks.update, tracks.installed]
  rfl

theorem exists_installed (kept : cache.needsUpdate = false) :
    ∃ installed, cache.installed = some installed := by
  rw [PackageCache.needsUpdate, Bool.or_eq_false_iff, Option.isNone_eq_false_iff] at kept
  exact Option.isSome_iff_exists.mp kept.2

theorem Tracks.showsAbsent_iff {managers : PackageManagers} {output : ByteString}
    (tracks : cache.Tracks managers output) (packageName : ByteString) :
    cache.ShowsAbsent packageName ↔ ¬Lists managers output packageName := by
  simp [ShowsAbsent, tracks.recent]

theorem not_showsAbsent (none_recent : cache.recent = []) (packageName : ByteString) :
    ¬cache.ShowsAbsent packageName := by
  simp [ShowsAbsent, none_recent]

/-- As long as an enumeration is due, there was none since the last request. -/
theorem Consistent.recent_eq_nil (consistent : cache.Consistent)
    (needs : cache.needsUpdate = true) : cache.recent = [] := by
  rcases consistent with none | ⟨managers, output, tracks⟩
  · exact none
  · rw [tracks.needsUpdate] at needs
    cases needs

theorem tracks_enumerated (none_recent : cache.recent = []) (managers : PackageManagers)
    (output : ByteString) :
    Tracks { present := some managers, update := false, installed := some (10 :: output)
             events := .enumerated managers output :: cache.events } managers output := by
  refine ⟨?_, rfl, rfl, rfl⟩
  rw [recent, List.takeWhile_cons_of_pos (by simp)]
  exact congrArg (List.cons _) none_recent

theorem Consistent.isPackageInstalled (consistent : cache.Consistent)
    (packageName : Option ByteString) :
    (CommonUtils.isPackageInstalled environment packageName cache).2.Consistent := by
  by_cases empty : packageName.getD [] = []
  · rw [CommonUtils.isPackageInstalled, if_pos empty]
    exact consistent
  · cases needs : cache.needsUpdate with
    | true =>
        have none_recent := consistent.recent_eq_nil needs
        cases listing : (enumerateAllPackages environment (cache.managers environment)).listing with
        | some output =>
            rw [isPackageInstalled_of_listing empty needs listing]
            exact .inr ⟨cache.managers environment, output, tracks_enumerated none_recent _ _⟩
        | none =>
            rw [isPackageInstalled_of_failure empty needs listing]
            exact .inl none_recent
    | false =>
        obtain ⟨installed, text⟩ := exists_installed needs
        rw [isPackageInstalled_of_kept empty needs text]
        rcases consistent with none_recent | ⟨managers, output, tracks⟩
        · exact .inl none_recent
        · refine .inr ⟨managers, output, tracks.recent, tracks.update, tracks.installed, ?_⟩
          simp [PackageCache.managers, tracks.present]

theorem Consistent.next (consistent : cache.Consistent) (call : PackageCall) :
    (call.next environment cache).Consistent := by
  cases call with
  | isPackageInstalled packageName => exact consistent.isPackageInstalled packageName
  | checkPackageInstalled packageName reason =>
      rw [PackageCall.next, checkPackageInstalled_cache]
      exact consistent.isPackageInstalled packageName
  | checkPackageNotInstalled packageName reason =>
      rw [PackageCall.next, checkPackageNotInstalled_cache]
      exact consistent.isPackageInstalled packageName
  | requestRefresh =>
      left
      simp [PackageCall.next, CommonUtils.requestRefresh, recent]

end PackageCache

theorem runCalls_consistent (calls : List (PackageCall × PackageEnvironment)) :
    (runCalls calls).Consistent := by
  induction calls using List.reverseRecOn with
  | nil => exact .inl rfl
  | append_singleton calls call ih =>
      rw [runCalls, List.foldl_append]
      exact ih.next call.1

theorem search_status (found : Prop) [Decidable found] :
    (if found then 0 else enoent) ∉ [0, einval, enomem] ↔ ¬found := by
  split
  next here => simp [here]
  next missing => simp [missing, enoent, einval, enomem]

/-- If a package that matches the name is listed, then in the form that is searched for. -/
def Shown (managers : PackageManagers) (output packageName : ByteString) : Prop :=
  Lists managers output packageName → searchTarget managers packageName <:+: 10 :: output

/-- What a call must find for its answer to be justified. When it enumerates the packages, the
enumeration must succeed, or fail with a status that is reported. When it uses the list it has, that
list must be from an enumeration since the last request, or it must still show the package. -/
def AbsenceJustified (environment : PackageEnvironment) (packageName : Option ByteString)
    (cache : PackageCache) : Prop :=
  let name := packageName.getD []
  let managers := cache.managers environment
  let enumeration := enumerateAllPackages environment managers
  name = [] ∨
    if cache.needsUpdate then
      match enumeration.listing with
      | some output => Shown managers output name
      | none => cache.installed ≠ none ∧ enumeration.failure ∈ [einval, enomem]
    else
      (∀ managers output, .enumerated managers output ∈ cache.recent →
        Shown managers output name) ∧
      (cache.recent = [] →
        ∃ installed ∈ cache.installed, searchTarget managers name <:+: installed)

def ReportsAbsenceOnEvidence (environment : PackageEnvironment)
    (packageName reason : Option ByteString) (cache : PackageCache) : Prop :=
  let checked := checkPackageNotInstalled environment packageName reason cache
  checked.1 = 0 → checked.2.2.ShowsAbsent (packageName.getD [])

theorem reportsAbsenceOnEvidence_iff (calls : List (PackageCall × PackageEnvironment))
    (environment : PackageEnvironment) (packageName reason : Option ByteString) :
    ReportsAbsenceOnEvidence environment packageName reason (runCalls calls) ↔
      AbsenceJustified environment packageName (runCalls calls) := by
  have consistent := runCalls_consistent calls
  generalize runCalls calls = cache at *
  simp only [ReportsAbsenceOnEvidence, AbsenceJustified, checkPackageNotInstalled_status,
    checkPackageNotInstalled_cache]
  by_cases empty : packageName.getD [] = []
  · simp [isPackageInstalled, empty]
  · rw [or_iff_right empty]
    cases needs : cache.needsUpdate with
    | true =>
        have none_recent := consistent.recent_eq_nil needs
        rw [if_pos rfl]
        cases listing : (enumerateAllPackages environment (cache.managers environment)).listing with
        | some output =>
            have tracks := PackageCache.tracks_enumerated none_recent
              (cache.managers environment) output
            rw [isPackageInstalled_of_listing empty needs listing, search_status,
              tracks.showsAbsent_iff]
            exact not_imp_not
        | none =>
            have unseen : ¬PackageCache.ShowsAbsent { cache with
                present := some (cache.managers environment), update := false }
                (packageName.getD []) := PackageCache.not_showsAbsent none_recent _
            have nonzero := CommandResult.failure_ne_zero
              (enumerateAllPackages environment (cache.managers environment))
            rw [isPackageInstalled_of_failure empty needs listing]
            simp only [unseen, imp_false, not_not]
            cases cache.installed with
            | none => simp [enoent, einval, enomem]
            | some installed => simp [nonzero]
    | false =>
        obtain ⟨installed, text⟩ := PackageCache.exists_installed needs
        rw [isPackageInstalled_of_kept empty needs text, search_status,
          if_neg Bool.false_ne_true]
        rcases consistent with none_recent | ⟨managers, output, tracks⟩
        · have unseen : ¬PackageCache.ShowsAbsent { cache with
              present := some (cache.managers environment) } (packageName.getD []) :=
            PackageCache.not_showsAbsent none_recent _
          simp only [unseen, imp_false, not_not]
          simp [none_recent, text]
        · have same : cache.managers environment = managers := by
            simp [PackageCache.managers, tracks.present]
          have again : PackageCache.Tracks { cache with
              present := some (cache.managers environment) } managers output :=
            ⟨tracks.recent, tracks.update, tracks.installed, by rw [same]⟩
          have text_eq : installed = 10 :: output := by
            rw [tracks.installed] at text
            exact (Option.some.inj text).symm
          rw [again.showsAbsent_iff, not_imp_not, same, text_eq]
          simp [tracks.recent, Shown]

/-- No package could be listed, and the package counts as absent. -/
theorem failed_enumeration_reports_absence :
    ¬ReportsAbsenceOnEvidence
      ⟨⟨false, true, false, false, false, false, false⟩, fun _ => ⟨2, none⟩⟩
      (some (bytes "telnetd")) none (runCalls []) := by
  intro evident
  rcases evident (by decide) with ⟨managers, output, mem, -⟩
  exact absurd mem List.not_mem_nil

end OsConfig.CommonUtils
