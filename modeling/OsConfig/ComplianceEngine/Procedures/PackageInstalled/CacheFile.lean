import OsConfig.ComplianceEngine.Procedures.PackageInstalled

/-!
# The cache file is read back

No name that a package manager lists contains a space, and neither name nor
version contains a newline. So each line of a cache file is read as the package
that it was written for, and the header as the package manager and the time.
-/

namespace OsConfig.ComplianceEngine.PackageInstalled

open ByteString

section Assignments

variable {name version : ByteString} {entries : List (ByteString × ByteString)}

def versions (name : ByteString) (entries : List (ByteString × ByteString)) : List ByteString :=
  (entries.filter fun entry => entry.1 = name).map Prod.snd

theorem mem_versions_iff : version ∈ versions name entries ↔ (name, version) ∈ entries := by
  unfold versions
  simp

theorem getElem?_assign (name : ByteString) (entries : List (ByteString × ByteString)) :
    (assign ∅ entries)[name]? = (versions name entries).getLast? := by
  induction entries using List.reverseRecOn with
  | nil => rfl
  | append_singleton entries entry ih =>
      have last : assign ∅ (entries ++ [entry]) = (assign ∅ entries).insert entry.1 entry.2 := by
        simp [assign]
      rw [last, Std.ExtTreeMap.getElem?_insert, ih]
      by_cases same : entry.1 = name
      · simp [versions, same]
      · simp [versions, same]

theorem mem_of_getElem?_assign (found : (assign ∅ entries)[name]? = some version) :
    (name, version) ∈ entries := by
  rw [getElem?_assign] at found
  exact mem_versions_iff.mp (List.mem_of_getLast? found)

theorem assign_toList (packages : PackageMap) : assign ∅ packages.toList = packages := by
  apply Std.ExtTreeMap.ext_getElem?
  intro name
  rw [getElem?_assign]
  cases found : packages[name]? with
  | none =>
      rw [List.getLast?_eq_none_iff, List.eq_nil_iff_forall_not_mem]
      intro version mem
      have listed := Std.ExtTreeMap.mem_toList_iff_getElem?_eq_some.mp (mem_versions_iff.mp mem)
      rw [found] at listed
      cases listed
  | some version =>
      have listed : version ∈ versions name packages.toList :=
        mem_versions_iff.mpr (Std.ExtTreeMap.mem_toList_iff_getElem?_eq_some.mpr found)
      have some_version := List.ne_nil_of_mem listed
      rw [List.getLast?_eq_some_getLast some_version, Option.some.injEq]
      have last := Std.ExtTreeMap.mem_toList_iff_getElem?_eq_some.mp
        (mem_versions_iff.mp (List.getLast_mem some_version))
      rw [found, Option.some.injEq] at last
      exact last.symm

end Assignments

section Storable

variable {line : ByteString} {entry : ByteString × ByteString} {cache : PackageCache}

/-- A package that fits in a line of a cache file. -/
def IsStorable (entry : ByteString × ByteString) : Prop :=
  32 ∉ entry.1 ∧ 10 ∉ entry.1 ∧ 10 ∉ entry.2

/-- A cache that a cache file can hold. -/
structure Storable (cache : PackageCache) : Prop where
  detected : cache.packageManager ≠ .autodetect
  packages : ∀ entry ∈ cache.packages.toList, IsStorable entry

theorem isStorable_of_spaceEntry (unbroken : 10 ∉ line) (found : spaceEntry line = some entry) :
    IsStorable entry := by
  unfold spaceEntry at found
  split at found
  · cases found
    refine ⟨fun mem => ?_, fun mem => ?_, fun mem => ?_⟩
    · simpa using List.mem_takeWhile_imp mem
    · exact unbroken ((List.takeWhile_prefix _).subset mem)
    · exact unbroken ((List.dropWhile_suffix _).subset ((List.drop_suffix 1 _).subset mem))
  · cases found

/-- A column contains neither spaces nor newlines. -/
theorem black_of_mem_columns {column : ByteString} (mem : column ∈ columns line) :
    32 ∉ column ∧ 10 ∉ column := by
  have black := (Words.isWord_of_mem mem).1.2
  refine ⟨fun space => ?_, fun newline => ?_⟩
  · exact Bool.noConfusion (black 32 space)
  · exact Bool.noConfusion (black 10 newline)

theorem isStorable_of_dpkgEntry (found : dpkgEntry line = some entry) : IsStorable entry := by
  unfold dpkgEntry at found
  split at found
  · split at found
    next status name rest parts =>
      cases found
      have name_mem : name ∈ columns line := by simp [parts]
      have name_black := black_of_mem_columns name_mem
      have front : name.takeWhile (fun byte => byte ≠ 58) <+: name := List.takeWhile_prefix _
      refine ⟨fun mem => name_black.1 (front.subset mem), fun mem => name_black.2 (front.subset mem),
        ?_⟩
      cases rest with
      | nil => simp
      | cons version others =>
          have version_mem : version ∈ columns line := by simp [parts]
          exact (black_of_mem_columns version_mem).2
    next => cases found
  · cases found

theorem storable_assign {entries : List (ByteString × ByteString)} {time : BitVec 64}
    {packageManager : PackageManagerType} (detected : packageManager ≠ .autodetect)
    (storable : ∀ entry ∈ entries, IsStorable entry) :
    Storable { lastUpdateTime := time, packageManager, packages := assign ∅ entries } := by
  refine ⟨detected, fun entry mem => storable entry ?_⟩
  exact mem_of_getElem?_assign (Std.ExtTreeMap.mem_toList_iff_getElem?_eq_some.mp mem)

variable {executeCommand : ByteString → Result ByteString} {time : BitVec 64}

theorem storable_rpm (listed : getInstalledPackagesRpm executeCommand time = .ok cache) :
    Storable cache := by
  unfold getInstalledPackagesRpm at listed
  split at listed
  · cases listed
  next output _ =>
    cases listed
    refine storable_assign (by decide) fun entry mem => ?_
    rcases List.mem_filterMap.mp mem with ⟨line, mem, found⟩
    exact isStorable_of_spaceEntry (unbroken_of_mem_getLines mem) found

theorem storable_dpkg (listed : getInstalledPackagesDpkg executeCommand time = .ok cache) :
    Storable cache := by
  unfold getInstalledPackagesDpkg at listed
  split at listed
  · cases listed
  next output _ =>
    cases listed
    refine storable_assign (by decide) fun entry mem => ?_
    rcases List.mem_filterMap.mp mem with ⟨line, -, found⟩
    exact isStorable_of_dpkgEntry found

end Storable

section Loading

variable {cache : PackageCache} {entry : ByteString × ByteString}

theorem spaceEntry_cacheLine (storable : IsStorable entry) :
    spaceEntry (cacheLine entry) = some entry := by
  have black : ∀ byte ∈ entry.1, decide (byte ≠ 32) = true := by
    intro byte mem
    exact decide_eq_true fun space => storable.1 (space ▸ mem)
  unfold spaceEntry cacheLine
  rw [if_pos (by simp), List.takeWhile_append_of_pos black, List.dropWhile_append_of_pos black]
  simp

theorem filterMap_cacheLine {entries : List (ByteString × ByteString)}
    (storable : ∀ entry ∈ entries, IsStorable entry) :
    (entries.map cacheLine).filterMap spaceEntry = entries := by
  induction entries with
  | nil => rfl
  | cons entry rest ih =>
      rw [List.map_cons, List.filterMap_cons_some (spaceEntry_cacheLine (storable entry (by simp))),
        ih fun other mem => storable other (List.mem_cons_of_mem _ mem)]

theorem unbroken_cacheLine (storable : IsStorable entry) : 10 ∉ cacheLine entry := by
  simp [cacheLine, storable.2.1, storable.2.2]

/-- A number is written without newlines. -/
theorem unbroken_renderInt (number : ℤ) : 10 ∉ Numerals.renderInt 10 number := by
  have digits : 10 ∉ Numerals.render 10 number.natAbs :=
    fun mem => Bool.noConfusion (Numerals.isDecimal_of_mem_render mem)
  unfold Numerals.renderInt
  split
  · simpa using digits
  · exact digits

theorem front_of_headerLine (detected : cache.packageManager ≠ .autodetect) :
    10 ∉ cacheHeader ++ cache.packageManager.toString ∧
      (∀ byte ∈ cacheHeader ++ cache.packageManager.toString, decide (byte ≠ 64) = true) ∧
      readManager cache.packageManager.toString = some cache.packageManager := by
  cases manager : cache.packageManager with
  | autodetect => exact absurd manager detected
  | rpm => decide +kernel
  | dpkg => decide +kernel

theorem unbroken_headerLine (detected : cache.packageManager ≠ .autodetect) :
    10 ∉ headerLine cache := by
  rw [headerLine, List.mem_append, List.mem_cons]
  rintro (front | separator | number)
  · exact (front_of_headerLine detected).1 front
  · cases separator
  · exact unbroken_renderInt _ number

theorem getLines_cacheText (storable : Storable cache) :
    getLines (cacheText cache) = headerLine cache :: cache.packages.toList.map cacheLine := by
  apply getLines_lines
  intro line mem
  rcases List.mem_cons.mp mem with rfl | later
  · exact unbroken_headerLine storable.detected
  · rcases List.mem_map.mp later with ⟨entry, listed, rfl⟩
    exact unbroken_cacheLine (storable.packages entry listed)

/-- Leading white space does not count. -/
theorem readSigned_space (width : ℕ) (text : ByteString) :
    readSigned width (32 :: text) = readSigned width text := rfl

theorem readSigned_toInt (time : BitVec 64) :
    readSigned 64 (Numerals.renderInt 10 time.toInt) = some (time.toInt, []) := by
  have nothing : ∀ byte ∈ ([] : ByteString).head?, Numerals.isDecimal byte = false := by simp
  have reads := readSigned_renderInt nothing (BitVec.le_toInt time) (BitVec.toInt_lt)
  rwa [List.append_nil, readSigned_space] at reads

theorem loadPackageCache_cacheText (path : ByteString) (storable : Storable cache) :
    loadPackageCache path (some (cacheText cache)) false = .ok cache := by
  rcases front_of_headerLine storable.detected with ⟨-, front, manager⟩
  have starts : startsWith (headerLine cache) cacheHeader = true := by
    rw [startsWith, List.isPrefixOf_iff_prefix, headerLine, List.append_assoc]
    exact List.prefix_append _ _
  have separated : 64 ∈ headerLine cache := by simp [headerLine]
  have before : (headerLine cache).takeWhile (fun byte => byte ≠ 64) =
      cacheHeader ++ cache.packageManager.toString := by
    rw [headerLine, List.takeWhile_append_of_pos front]
    simp
  have behind : ((headerLine cache).dropWhile fun byte => byte ≠ 64).drop 1 =
      Numerals.renderInt 10 cache.lastUpdateTime.toInt := by
    rw [headerLine, List.dropWhile_append_of_pos front]
    simp
  unfold loadPackageCache
  simp only [getLines_cacheText storable, starts, separated, before, behind, List.drop_left,
    manager, readSigned_toInt, filterMap_cacheLine storable.packages, assign_toList,
    BitVec.ofInt_toInt]
  simp

end Loading

theorem cacheText_of_savePackageCache {requests : SaveRequests} {cache : PackageCache}
    {path : ByteString} {files : Files}
    (saved : (savePackageCache requests cache path files).1 = .ok 0) :
    (savePackageCache requests cache path files).2 (cString path) = some (cacheText cache) := by
  unfold savePackageCache at saved ⊢
  dsimp only at saved ⊢
  split at saved
  · cases saved
  · split_ifs at saved ⊢
    exact Function.update_self _ _ _

/-- A cache file that was saved is loaded as the cache that was listed. -/
theorem loadPackageCache_savePackageCache {executeCommand : ByteString → Result ByteString}
    {time : BitVec 64} {cache : PackageCache} (requests : SaveRequests) (path : ByteString)
    (files : Files)
    (listed : getInstalledPackagesRpm executeCommand time = .ok cache ∨
      getInstalledPackagesDpkg executeCommand time = .ok cache)
    (saved : (savePackageCache requests cache path files).1 = .ok 0) :
    loadPackageCache path ((savePackageCache requests cache path files).2 (cString path)) false =
      .ok cache := by
  have storable : Storable cache := by
    rcases listed with rpm | dpkg
    · exact storable_rpm rpm
    · exact storable_dpkg dpkg
  rw [cacheText_of_savePackageCache saved]
  exact loadPackageCache_cacheText path storable

def kernelCache : PackageCache :=
  { lastUpdateTime := 1700000000, packageManager := .rpm
    packages := assign ∅ [(bytes "kernel", bytes "5.14.0-2")] }

theorem loadPackageCache_savePackageCache_kernel :
    loadPackageCache (bytes "/cache")
      ((savePackageCache { mkstemp := some } kernelCache (bytes "/cache") fun _ => none).2
        (cString (bytes "/cache"))) false = .ok kernelCache := by
  have entries : (getLines (bytes "kernel 5.14.0-2\n")).filterMap spaceEntry =
      [(bytes "kernel", bytes "5.14.0-2")] := by decide +kernel
  have listed : getInstalledPackagesRpm (fun _ => .ok (bytes "kernel 5.14.0-2\n")) 1700000000 =
      .ok kernelCache := by
    rw [getInstalledPackagesRpm]
    simp only [entries, kernelCache]
  exact loadPackageCache_savePackageCache { mkstemp := some } (bytes "/cache") (fun _ => none)
    (Or.inl listed) rfl

end OsConfig.ComplianceEngine.PackageInstalled
