import OsConfig.ComplianceEngine.FilesystemScanner

/-!
# What of a scan survives the cache file

Every path the reader extracts is a word, and every link count it extracts has
32 bits. An entry that is not of this kind is therefore lost or altered. All
other entries are read back field by field, from the lines they were written to.
-/

namespace OsConfig.ComplianceEngine.FilesystemScanner

open OsConfig ByteString

/-- An entry that the cache file can represent. -/
def Representable (path : ByteString) (st : FSEntry) : Prop :=
  IsWord path ∧ st.nlink.toNat < 2 ^ 32

instance (path : ByteString) (st : FSEntry) : Decidable (Representable path st) :=
  inferInstanceAs (Decidable (_ ∧ _))

section Separated

variable (rest : ByteString)

theorem readWord_separated {word : ByteString} (isWord : IsWord word) :
    readWord (word ++ 32 :: rest) = some (word, 32 :: rest) := by
  refine readWord_append isWord fun byte mem => ?_
  cases mem
  rfl

theorem readUnsigned_separated {width number : ℕ} (fits : number < 2 ^ width) :
    readUnsigned width (32 :: (Numerals.render 10 number ++ 32 :: rest)) =
      some (number, 32 :: rest) := by
  refine readUnsigned_render (fun byte mem => ?_) fits
  cases mem
  rfl

theorem readSigned_separated {width : ℕ} {number : ℤ} (lower : -2 ^ (width - 1) ≤ number)
    (upper : number < 2 ^ (width - 1)) :
    readSigned width (32 :: (Numerals.renderInt 10 number ++ 32 :: rest)) =
      some (number, 32 :: rest) := by
  refine readSigned_renderInt (fun byte mem => ?_) lower upper
  cases mem
  rfl

theorem readSigned_last {width : ℕ} {number : ℤ} (lower : -2 ^ (width - 1) ≤ number)
    (upper : number < 2 ^ (width - 1)) :
    readSigned width (32 :: Numerals.renderInt 10 number) = some (number, []) := by
  have reads : readSigned width (32 :: (Numerals.renderInt 10 number ++ [])) =
      some (number, []) :=
    readSigned_renderInt (fun byte mem => by cases mem) lower upper
  rwa [List.append_nil] at reads

end Separated

theorem readHeader_headerLine (start finish : BitVec 64) :
    readHeader (headerLine start finish) = some (start, finish) := by
  have hash : bytes "# FilesystemScanCache-V1" =
      bytes "#" ++ 32 :: bytes "FilesystemScanCache-V1" := by decide
  have readHash := readWord_separated (bytes "FilesystemScanCache-V1" ++
    32 :: (Numerals.renderInt 10 start.toInt ++ 32 :: Numerals.renderInt 10 finish.toInt))
    (show IsWord (bytes "#") by decide +kernel)
  have readMagic := readWord_separated (Numerals.renderInt 10 start.toInt ++
    32 :: Numerals.renderInt 10 finish.toInt)
    (show IsWord (bytes "FilesystemScanCache-V1") by decide +kernel)
  have readStart := readSigned_separated (Numerals.renderInt 10 finish.toInt)
    start.le_toInt start.toInt_lt
  have readFinish := readSigned_last finish.le_toInt finish.toInt_lt
  unfold readHeader headerLine
  rw [hash]
  simp only [List.append_assoc, List.cons_append, Option.bind_eq_bind, readHash, readWord_space,
    readMagic, readStart, readFinish, Option.bind_some, and_self, if_true, BitVec.ofInt_toInt]
  rfl

theorem readEntry_entryLine {path : ByteString} {st : FSEntry}
    (representable : Representable path st) : readEntry (entryLine path st) = some (path, st) := by
  rcases representable with ⟨isWord, fits⟩
  have narrow : (st.nlink.setWidth 32).toNat = st.nlink.toNat := by
    rw [BitVec.toNat_setWidth, Nat.mod_eq_of_lt fits]
  have uidLower : -2 ^ (64 - 1) ≤ (st.uid.toNat : ℤ) := by omega
  have uidUpper : (st.uid.toNat : ℤ) < 2 ^ (64 - 1) := by omega
  have gidLower : -2 ^ (64 - 1) ≤ (st.gid.toNat : ℤ) := by omega
  have gidUpper : (st.gid.toNat : ℤ) < 2 ^ (64 - 1) := by omega
  unfold readEntry entryLine
  simp only [narrow, Option.bind_eq_bind, readWord_separated _ isWord,
    readUnsigned_separated _ st.dev.isLt, readUnsigned_separated _ st.ino.isLt,
    readUnsigned_separated _ st.mode.isLt, readUnsigned_separated _ fits,
    readSigned_separated _ uidLower uidUpper, readSigned_separated _ gidLower gidUpper,
    readSigned_separated _ st.size.le_toInt st.size.toInt_lt,
    readSigned_separated _ st.blksize.le_toInt st.blksize.toInt_lt,
    readSigned_last st.blocks.le_toInt st.blocks.toInt_lt, Option.bind_some, BitVec.ofInt_toInt,
    BitVec.ofNat_toNat, BitVec.setWidth_eq, BitVec.ofInt_natCast]
  rfl

section Lines

theorem newline_not_mem_render (number : ℕ) : 10 ∉ Numerals.render 10 number := by
  intro mem
  have digit := Numerals.isDecimal_of_mem_render mem
  simp [Numerals.isDecimal] at digit

theorem newline_not_mem_renderInt (number : ℤ) : 10 ∉ Numerals.renderInt 10 number := by
  unfold Numerals.renderInt
  split
  · simp [newline_not_mem_render]
  · exact newline_not_mem_render _

theorem newline_not_mem_headerLine (start finish : BitVec 64) :
    10 ∉ headerLine start finish := by
  have title : 10 ∉ bytes "# FilesystemScanCache-V1" := by decide
  simp [headerLine, title, newline_not_mem_renderInt]

theorem newline_not_mem_entryLine {path : ByteString} (isWord : IsWord path) (st : FSEntry) :
    10 ∉ entryLine path st := by
  have unbroken : 10 ∉ path := by
    intro mem
    have black := isWord.2 10 mem
    simp [isSpace] at black
  simp [entryLine, unbroken, newline_not_mem_render, newline_not_mem_renderInt]

end Lines

theorem representable_of_readEntry {line name : ByteString} {st : FSEntry}
    (reads : readEntry line = some (name, st)) : Representable name st := by
  unfold readEntry at reads
  simp only [Option.bind_eq_bind, Option.bind_eq_some_iff] at reads
  rcases reads with ⟨⟨word, _⟩, readsWord, ⟨dev, _⟩, -, ⟨ino, _⟩, -, ⟨mode, _⟩, -,
    ⟨nlink, _⟩, readsLinks, ⟨uid, _⟩, -, ⟨gid, _⟩, -, ⟨size, _⟩, -, ⟨blksize, _⟩, -,
    ⟨blocks, _⟩, -, built⟩
  have links := readUnsigned_lt readsLinks
  cases built
  refine ⟨isWord_of_readWord readsWord, ?_⟩
  rw [BitVec.toNat_ofNat]
  omega

section Maps

variable {entries : Std.ExtTreeMap ByteString FSEntry}

theorem readEntries_entryLines {list : List (ByteString × FSEntry)}
    (distinct : list.Pairwise fun first second => ¬compare first.1 second.1 = .eq)
    (representable : ∀ kv ∈ list, Representable kv.1 kv.2) (path : ByteString) (st : FSEntry) :
    (readEntries (list.map fun kv => entryLine kv.1 kv.2) entries)[path]? = some st ↔
      entries[path]? = some st ∨ (entries[path]? = none ∧ (path, st) ∈ list) := by
  induction list generalizing entries with
  | nil => simp [readEntries]
  | cons kv rest ih =>
      rcases kv with ⟨name, first⟩
      have here : Representable name first := representable (name, first) (by simp)
      have later : ∀ kv ∈ rest, Representable kv.1 kv.2 :=
        fun kv mem => representable kv (List.mem_cons_of_mem _ mem)
      rcases List.pairwise_cons.mp distinct with ⟨apart, restDistinct⟩
      have nonempty : entryLine name first ≠ [] := by simp [entryLine]
      have reads : readEntries ((name, first) :: rest |>.map fun kv => entryLine kv.1 kv.2)
          entries = readEntries (rest.map fun kv => entryLine kv.1 kv.2)
            (entries.insertIfNew name first) := by
        simp only [List.map_cons, readEntries, if_neg nonempty, readEntry_entryLine here]
      rw [reads, ih restDistinct later, Std.ExtTreeMap.getElem?_insertIfNew]
      by_cases same : name = path
      · subst same
        have notLater : (name, st) ∉ rest := fun mem => apart (name, st) mem (by simp)
        by_cases present : name ∈ entries
        · simp [present]
        · simp [present, notLater, eq_comm]
      · have other : ¬compare name path = .eq := by
          simpa [Std.LawfulEqCmp.compare_eq_iff_eq] using same
        simp [other, Ne.symm same]

theorem representable_readEntries {lines : List ByteString}
    (before : ∀ path st, entries[path]? = some st → Representable path st) (path : ByteString)
    (st : FSEntry) (found : (readEntries lines entries)[path]? = some st) :
    Representable path st := by
  induction lines generalizing entries with
  | nil => exact before path st found
  | cons line rest ih =>
      unfold readEntries at found
      split at found
      · exact ih before found
      · split at found
        · exact ih before found
        next name first reads =>
          refine ih ?_ found
          intro other value inserted
          rw [Std.ExtTreeMap.getElem?_insertIfNew] at inserted
          split at inserted
          next same =>
            cases inserted
            rw [← Std.LawfulEqCmp.eq_of_compare same.1]
            exact representable_of_readEntry reads
          next => exact before other value inserted

end Maps

section RoundTrip

theorem loadCache_some {hardTimeout now : ℤ} {file : Option ByteString} {cache : FSCache}
    (loads : loadCache hardTimeout now file = some cache) :
    ∃ lines, cache.entries = readEntries lines ∅ := by
  unfold loadCache at loads
  simp only [Option.bind_eq_bind, Option.bind_eq_some_iff] at loads
  rcases loads with ⟨text, -, loads⟩
  split at loads
  · cases loads
  next header lines split_eq =>
    rcases Option.bind_eq_some_iff.mp loads with ⟨⟨start, finish⟩, -, loads⟩
    dsimp only at loads
    split at loads
    · cases loads
    · split at loads
      · cases loads
      · cases loads
        exact ⟨lines, rfl⟩

theorem readEntries_cacheLines {cache : FSCache}
    (representable : ∀ path st, cache.entries[path]? = some st → Representable path st) :
    readEntries (cache.entries.toList.map fun kv => entryLine kv.1 kv.2) ∅ = cache.entries := by
  have listed : ∀ kv ∈ cache.entries.toList, Representable kv.1 kv.2 := fun kv mem =>
    representable kv.1 kv.2 (Std.ExtTreeMap.mem_toList_iff_getElem?_eq_some.mp mem)
  refine Std.ExtTreeMap.ext_getElem? fun path => Option.ext fun st => ?_
  rw [readEntries_entryLines Std.ExtTreeMap.distinct_keys_toList listed]
  simp [Std.ExtTreeMap.mem_toList_iff_getElem?_eq_some]

theorem getLines_cacheFile {cache : FSCache}
    (representable : ∀ path st, cache.entries[path]? = some st → Representable path st) :
    getLines (cacheFile cache) = cacheLines cache := by
  refine getLines_lines fun line mem => ?_
  rcases List.mem_cons.mp mem with rfl | entry
  · exact newline_not_mem_headerLine _ _
  · rcases List.mem_map.mp entry with ⟨⟨path, st⟩, listed, rfl⟩
    have found := Std.ExtTreeMap.mem_toList_iff_getElem?_eq_some.mp listed
    exact newline_not_mem_entryLine (representable path st found).1 st

/-- A cache file that has not expired is read back exactly if every path is a word and every link
count has 32 bits. Nothing is stored if there are no entries. -/
theorem loadCache_cacheFile_iff (cache : FSCache) (hardTimeout now : ℤ)
    (fresh : ¬hardExpired hardTimeout now cache.scanEndTime) :
    loadCache hardTimeout now (some (cacheFile cache)) =
        (if cache.entries.isEmpty then none else some cache) ↔
      ∀ path st, cache.entries[path]? = some st → Representable path st := by
  constructor
  · intro loads path st found
    have nonempty : ¬cache.entries.isEmpty = true := by
      intro empty
      rw [Std.ExtTreeMap.isEmpty_iff.mp empty] at found
      simp at found
    rw [if_neg nonempty] at loads
    rcases loadCache_some loads with ⟨lines, entries_eq⟩
    rw [entries_eq] at found
    exact representable_readEntries (by simp) path st found
  · intro representable
    simp only [loadCache, Option.bind_eq_bind, Option.bind_some, getLines_cacheFile representable,
      cacheLines, readHeader_headerLine, if_neg fresh, readEntries_cacheLines representable]

end RoundTrip

section Example

/-- The cache of a scan that found one world-writable file. -/
def worldWritableAt (path : ByteString) : FSCache where
  scanStartTime := 1700000000
  scanEndTime := 1700000060
  entries := Std.ExtTreeMap.insert ∅ path
    { dev := 2049, ino := 12, mode := 0o100666, nlink := 1, uid := 1000, gid := 1000,
      size := 5, blksize := 4096, blocks := 8 }

theorem worldWritableAt_loads :
    loadCache 3600 1700000100 (some (cacheFile (worldWritableAt (bytes "/tmp/shared")))) =
      if (worldWritableAt (bytes "/tmp/shared")).entries.isEmpty then none
      else some (worldWritableAt (bytes "/tmp/shared")) := by
  refine (loadCache_cacheFile_iff (worldWritableAt (bytes "/tmp/shared")) 3600 1700000100
    (by decide)).mpr fun path st found => ?_
  simp only [worldWritableAt, Std.ExtTreeMap.getElem?_insert] at found
  split at found
  next same =>
    cases found
    rw [← Std.LawfulEqCmp.eq_of_compare same]
    decide +kernel
  next => simp at found

/-- A space in the name of the file: its line is malformed, and nothing is loaded. -/
theorem worldWritable_lost :
    ¬(worldWritableAt (bytes "/tmp/shared file")).entries.isEmpty ∧
    loadCache 3600 1700000100 (some (cacheFile (worldWritableAt (bytes "/tmp/shared file")))) =
      none := by
  decide

end Example

end OsConfig.ComplianceEngine.FilesystemScanner
