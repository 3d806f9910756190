import OsConfig.Common.Columns
import OsConfig.ComplianceEngine.Procedures.FilesystemMountOption.Reading

/-!
# Rewriting a mount table

The line that is rewritten is the one with the number that was recorded for the
entry. Lines that `getmntent` passes over are not counted, so behind such a line
the number is too small.
-/

namespace OsConfig.ComplianceEngine.FilesystemMountOption

open ByteString CommonUtils MountTable

section Numbers

variable {fstabMap : FstabMap} {dir : ByteString}

theorem passedOver_le (looking : Bool) (lines : List ByteString) :
    passedOver looking lines ≤ lines.length := by
  induction lines generalizing looking with
  | nil => exact Nat.le_refl 0
  | cons line lines ih =>
      have here := Bool.toNat_le (passes looking line)
      have later := ih (passes looking line)
      rw [passedOver, List.length_cons]
      omega

theorem passedOver_eq_zero_iff (lines : List ByteString) :
    passedOver false lines = 0 ↔ ∀ line ∈ lines, IsSkipped line ∨ (readEntry line).isSome := by
  induction lines with
  | nil => simp [passedOver]
  | cons line lines ih =>
      rw [List.forall_mem_cons, ← ih, passedOver, Nat.add_eq_zero_iff]
      have here : passes false line = false ↔ IsSkipped line ∨ (readEntry line).isSome := by
        simp [passes, imp_iff_not_or]
      rw [← here]
      cases passes false line with
      | false => simp
      | true => simp

theorem mem_numbered {looking : Bool} {number : ℕ} {lines : List ByteString}
    {found : ℕ × MountEntry} (mem : found ∈ numbered looking number lines) :
    ∃ line ∈ lines, readEntry line = some found.2 := by
  induction lines generalizing looking number with
  | nil => cases mem
  | cons line lines ih =>
      rw [numbered, List.mem_append] at mem
      rcases mem with here | later
      · rw [List.mem_map] at here
        obtain ⟨mnt, entry, rfl⟩ := here
        exact ⟨line, List.mem_cons_self, Option.mem_toList.mp entry⟩
      · obtain ⟨other, mem, entry⟩ := ih later
        exact ⟨other, List.mem_cons_of_mem _ mem, entry⟩

theorem numbered_append_cons {line : ByteString} {mnt : MountEntry} (looking : Bool) (number : ℕ)
    (before after : List ByteString) (entry : readEntry line = some mnt) :
    ∃ following, numbered looking number (before ++ line :: after) =
      numbered looking number before ++
        (number + before.length - passedOver looking before, mnt) ::
          numbered false following after := by
  induction before generalizing looking number with
  | nil =>
      have found : passes looking line = false := by simp [passes, entry]
      have first : numbered looking number (line :: after) =
          (number, mnt) :: numbered false (number + 1) after := by
        rw [numbered, entry, found]
        rfl
      exact ⟨number + 1, first⟩
  | cons first before ih =>
      obtain ⟨following, rest⟩ := ih (passes looking first)
        (if passes looking first then number else number + 1)
      refine ⟨following, ?_⟩
      have fewer := passedOver_le (passes looking first) before
      have counted : (if passes looking first then number else number + 1) + before.length -
          passedOver (passes looking first) before =
          number + (first :: before).length - passedOver looking (first :: before) := by
        rw [passedOver, List.length_cons]
        cases passes looking first with
        | true =>
            simp only [if_true, Bool.toNat_true]
            omega
        | false =>
            simp only [Bool.false_eq_true, if_false, Bool.toNat_false]
            omega
      rw [List.cons_append, numbered, rest, counted, numbered, List.append_assoc]

theorem record_of_forall_ne {entries : List (ℕ × MountEntry)}
    (others : ∀ found ∈ entries, found.2.dir ≠ dir) : fstabMap.record entries dir = fstabMap dir := by
  induction entries generalizing fstabMap with
  | nil => rfl
  | cons found entries ih =>
      rw [List.forall_mem_cons] at others
      have first : fstabMap.insert found.1 found.2 dir = fstabMap dir :=
        Function.update_of_ne (Ne.symm others.1) _ _
      rw [← first]
      exact ih others.2

theorem entry_of_parseFstab {content line : ByteString} {steps : ℕ} {entries : FstabMap}
    {before after : List ByteString} {mnt : MountEntry}
    (parsed : parseFstab steps content = some entries)
    (lines : getLines content = before ++ line :: after) (entry : readEntry line = some mnt)
    (last : ∀ other ∈ after, ∀ found ∈ readEntry other, found.dir ≠ mnt.dir) :
    entries mnt.dir =
      some (.ofMountEntry (before.length + 1 - passedOver false before) mnt) := by
  obtain ⟨following, numbers⟩ := numbered_append_cons false 1 before after entry
  rw [eq_record_of_parseFstab parsed, lines, numbers, FstabMap.record, List.foldl_append,
    List.foldl_cons]
  have others : ∀ found ∈ numbered false following after, found.2.dir ≠ mnt.dir := by
    intro found mem
    obtain ⟨other, inside, same⟩ := mem_numbered mem
    exact last other inside found.2 same
  refine (record_of_forall_ne others).trans ?_
  rw [Nat.add_comm 1]
  exact Function.update_self _ _ _

end Numbers

section Lines

theorem length_splitOn_eq_one_iff (text : ByteString) :
    (text.splitOn 10).length = 1 ↔ 10 ∉ text := by
  constructor
  · intro single broken
    obtain ⟨before, after, rfl⟩ := List.append_of_mem broken
    rw [List.splitOn_append_cons_self, List.length_append] at single
    have first := List.length_pos_of_ne_nil (List.splitOn_ne_nil (10 : UInt8) before)
    have second := List.length_pos_of_ne_nil (List.splitOn_ne_nil (10 : UInt8) after)
    omega
  · intro unbroken
    rw [List.splitOn_eq_singleton unbroken]
    rfl

/-- The file that is written has one line of text in the place of another one. -/
theorem replaceLine_eq (content text : ByteString) (number : ℕ) :
    replaceLine content (number + 1) (text ++ [10]) =
      ((getLines content).set number text).flatMap fun line => line ++ [10] := by
  have lines : ((getLines content).zipIdx 1).map (fun found =>
      if found.2 = number + 1 then text else found.1) = (getLines content).set number text := by
    apply List.ext_getElem?
    intro i
    rw [List.getElem?_map, List.getElem?_zipIdx, List.getElem?_set]
    by_cases here : number = i
    · subst here
      by_cases inside : number < (getLines content).length
      · simp [inside, Nat.add_comm]
      · simp [inside, Nat.add_comm]
    · have other : 1 + i ≠ number + 1 := by omega
      cases (getLines content)[i]? with
      | none => simp [here]
      | some line => simp [here, other]
  rw [replaceLine, ← lines, List.flatMap_map]
  apply List.flatMap_congr
  intro found _
  exact (apply_ite (fun line => line ++ [10]) (found.2 = number + 1) text found.1).symm

theorem getLines_replaceLine {content : ByteString} {number : ℕ} (text : ByteString)
    (inside : number < (getLines content).length) :
    getLines (replaceLine content (number + 1) (text ++ [10])) =
      (getLines content).take number ++ (text.splitOn 10 ++ (getLines content).drop (number + 1)) := by
  have first : ∀ line ∈ (getLines content).take number, 10 ∉ line :=
    fun line mem => unbroken_of_mem_getLines (List.mem_of_mem_take mem)
  have later : ∀ line ∈ (getLines content).drop (number + 1), 10 ∉ line :=
    fun line mem => unbroken_of_mem_getLines (List.mem_of_mem_drop mem)
  rw [replaceLine_eq, List.set_eq_take_append_cons_drop, if_pos inside, List.flatMap_append,
    getLines_flatMap_append first, List.flatMap_cons, List.append_assoc, List.singleton_append,
    getLines_append_cons, getLines_lines later]

end Lines

section Remediation

variable {requests : MountRequests} {params : FilesystemMountOptionParams} {steps : ℕ}
  {files : MountFiles} {report : Report MountFiles} {content : ByteString} {mnt : MountEntry}

def Complies (params : FilesystemMountOptionParams) (mnt : MountEntry) : Prop :=
  (∀ option ∈ params.optionsSet.getD [], option ∈ getPieces 44 mnt.opts) ∧
    ∀ option ∈ params.optionsNotSet.getD [], option ∉ getPieces 44 mnt.opts

instance (params : FilesystemMountOptionParams) (mnt : MountEntry) :
    Decidable (Complies params mnt) :=
  inferInstanceAs (Decidable (_ ∧ _))

def correctedOptions (params : FilesystemMountOptionParams) (mnt : MountEntry) : List ByteString :=
  writtenOptions (getPieces 44 mnt.opts) (setOf params.optionsSet) (setOf params.optionsNotSet)

def correctedLine (params : FilesystemMountOptionParams) (mnt : MountEntry) : ByteString :=
  (mnt.fsname ++ [32] ++ params.mountpoint ++ [32] ++ mnt.type ++ [32] ++
      (correctedOptions params mnt).flatMap fun option => option ++ [44]).dropLast ++
    [32] ++ printInt mnt.freq ++ [32] ++ printInt mnt.passno

theorem mem_setOf {items : Option (List ByteString)} {option : ByteString} :
    option ∈ setOf items ↔ option ∈ items.getD [] := by
  rw [setOf, List.mem_dedup, List.mem_insertionSort]

/-- Options between commas. -/
def joinOptions (options : List ByteString) : ByteString :=
  (options.flatMap fun option => option ++ [44]).dropLast

/-- The options as they stand in the line. Without options there is not even a field for them. -/
def optionField (options : List ByteString) : ByteString :=
  if options = [] then [] else 32 :: joinOptions options

theorem joinOptions_concat (options : List ByteString) (option : ByteString) :
    joinOptions (options ++ [option]) = (options.flatMap fun option => option ++ [44]) ++ option := by
  rw [joinOptions, List.flatMap_append, List.flatMap_singleton, ← List.append_assoc,
    List.dropLast_concat]

theorem correctedLine_eq (params : FilesystemMountOptionParams) (mnt : MountEntry) :
    correctedLine params mnt = mnt.fsname ++ 32 :: (params.mountpoint ++ 32 :: (mnt.type ++
      (optionField (correctedOptions params mnt) ++
        32 :: (printInt mnt.freq ++ 32 :: printInt mnt.passno)))) := by
  have field : ∀ options : List ByteString,
      (mnt.fsname ++ [32] ++ params.mountpoint ++ [32] ++ mnt.type ++ [32] ++
        options.flatMap fun option => option ++ [44]).dropLast =
      mnt.fsname ++ [32] ++ params.mountpoint ++ [32] ++ mnt.type ++ optionField options := by
    intro options
    rcases List.eq_nil_or_concat' options with rfl | ⟨others, option, rfl⟩
    · rw [List.flatMap_nil, List.append_nil, List.dropLast_concat, optionField, if_pos rfl,
        List.append_nil]
    · rw [optionField, if_neg (by simp), joinOptions_concat, List.flatMap_append,
        List.flatMap_singleton, ← List.append_assoc, ← List.append_assoc, List.dropLast_concat]
      simp
  rw [correctedLine, field]
  simp

theorem mem_correctedOptions {params : FilesystemMountOptionParams} {mnt : MountEntry}
    {option : ByteString} :
    option ∈ correctedOptions params mnt ↔
      option ∈ getPieces 44 mnt.opts ∧ option ∉ params.optionsNotSet.getD [] ∨
        option ∈ params.optionsSet.getD [] ∧ option ∉ getPieces 44 mnt.opts := by
  simp [correctedOptions, writtenOptions, mem_setOf]

/-- No part of the corrected line has a newline. -/
def Unbroken (params : FilesystemMountOptionParams) (mnt : MountEntry) : Prop :=
  10 ∉ mnt.fsname ∧ 10 ∉ params.mountpoint ∧ 10 ∉ mnt.type ∧
    ∀ option, option ∈ getPieces 44 mnt.opts ∧ option ∉ params.optionsNotSet.getD [] ∨
      option ∈ params.optionsSet.getD [] ∧ option ∉ getPieces 44 mnt.opts → 10 ∉ option

theorem notMem_printInt {byte : UInt8} (number : BitVec 32)
    (other : byte ≠ 45 ∧ Numerals.isDecimal byte = false) : byte ∉ printInt number := by
  intro mem
  rcases mem_printInt mem with minus | digit
  · exact other.1 minus
  · rw [other.2] at digit
    cases digit

theorem notMem_optionField {byte : UInt8} (options : List ByteString)
    (other : byte ≠ 32 ∧ byte ≠ 44) :
    byte ∉ optionField options ↔ ∀ option ∈ options, byte ∉ option := by
  rcases List.eq_nil_or_concat' options with rfl | ⟨others, option, rfl⟩
  · simp [optionField]
  · rw [optionField, if_neg (by simp), joinOptions_concat]
    simp only [List.mem_cons, List.mem_append, List.mem_flatMap]
    simp [other.1, other.2, or_imp, forall_and]

theorem unbroken_iff : 10 ∉ correctedLine params mnt ↔ Unbroken params mnt := by
  have numbers (number : BitVec 32) : 10 ∉ printInt number := notMem_printInt number (by decide)
  have options := notMem_optionField (correctedOptions params mnt)
    (show (10 : UInt8) ≠ 32 ∧ (10 : UInt8) ≠ 44 by decide)
  simp only [mem_correctedOptions] at options
  rw [Unbroken, ← options, correctedLine_eq]
  simp [numbers]

theorem writtenLine_ofMountEntry (params : FilesystemMountOptionParams) (lineno : ℕ)
    (mnt : MountEntry) :
    writtenLine params.mountpoint (.ofMountEntry lineno mnt) (setOf params.optionsSet)
        (setOf params.optionsNotSet) =
      correctedLine params mnt ++ [10] := rfl

theorem checkOptions_iff (options optionsSet optionsNotSet : List ByteString) :
    (checkOptions options optionsSet optionsNotSet).1 = .compliant ↔
      (∀ option ∈ optionsSet, option ∈ options) ∧ ∀ option ∈ optionsNotSet, option ∉ options := by
  rw [checkOptions]
  cases missing : optionsSet.find? (· ∉ options) with
  | some option =>
      have found := List.find?_some missing
      have mem := List.mem_of_find?_eq_some missing
      simp only [decide_eq_true_eq] at found
      refine iff_of_false (by simp) fun complies => found (complies.1 option mem)
  | none =>
      have set : ∀ option ∈ optionsSet, option ∈ options := by simpa using missing
      cases forbidden : optionsNotSet.find? (· ∈ options) with
      | some option =>
          have found := List.find?_some forbidden
          have mem := List.mem_of_find?_eq_some forbidden
          simp only [decide_eq_true_eq] at found
          refine iff_of_false (by simp) fun complies => complies.2 option mem found
      | none =>
          have notSet : ∀ option ∈ optionsNotSet, option ∉ options := by simpa using forbidden
          exact iff_of_true rfl ⟨set, notSet⟩

theorem checkOptions_ofMountEntry_iff (lineno : ℕ) :
    (checkOptions (FstabEntry.ofMountEntry lineno mnt).options (setOf params.optionsSet)
      (setOf params.optionsNotSet)).1 = .compliant ↔ Complies params mnt := by
  simp only [checkOptions_iff, mem_setOf]
  rfl

theorem parseFstab_of_parseFiles {tables : FstabMap × FstabMap} (fstab : files.fstab = some content)
    (parsed : requests.parseFiles steps files = some (.ok tables)) :
    parseFstab steps content = some tables.1 := by
  rw [MountRequests.parseFiles, fstab, MountRequests.parseFile] at parsed
  cases first : parseFstab steps content with
  | none =>
      rw [first] at parsed
      cases parsed
  | some fstabEntries =>
      rw [first] at parsed
      dsimp only [Option.map_some] at parsed
      split at parsed
      · cases parsed
      · cases parsed
      · cases parsed
        rfl

/-- What an update that succeeds leaves in `/etc/fstab`. -/
theorem updateFstab_fstab {entries : FstabMap} {entry : FstabEntry} {verdict : Verdict}
    (fstab : files.fstab = some content) (found : entries params.mountpoint = some entry)
    (success : (updateFstab requests params entries content files).result = .ok verdict) :
    (updateFstab requests params entries content files).context.fstab =
      if (checkOptions entry.options (setOf params.optionsSet)
          (setOf params.optionsNotSet)).1 = .compliant then some content
      else some (replaceLine content entry.lineno (writtenLine params.mountpoint entry
        (setOf params.optionsSet) (setOf params.optionsNotSet))) := by
  rw [updateFstab, found] at success ⊢
  dsimp only at success ⊢
  cases checked : checkOptions entry.options (setOf params.optionsSet)
    (setOf params.optionsNotSet) with
  | mk answer indicators =>
      rw [checked] at success
      cases answer with
      | compliant => exact fstab
      | nonCompliant =>
          dsimp only at success ⊢
          cases backup : requests.backupError with
          | some errno =>
              rw [backup] at success
              cases success
          | none =>
              cases rename : requests.renameError with
              | some errno =>
                  rw [backup, rename] at success
                  cases success
              | none => rfl

/-- A remediation that succeeds has read `/etc/fstab` to its end, and has updated it. -/
theorem updateFstab_of_success (fstab : files.fstab = some content)
    (run : remediateFilesystemMountOption requests steps params files = some report)
    (success : report.result = .ok .compliant) :
    ∃ entries verdict, parseFstab steps content = some entries ∧
      (updateFstab requests params entries content files).result = .ok verdict ∧
      report.context = (updateFstab requests params entries content files).context := by
  rw [remediateFilesystemMountOption] at run
  split at run
  · cases run
  · cases run
    cases success
  next fstabEntries mtabEntries parsed =>
    rw [fstab, Option.getD_some] at run
    dsimp only at run
    split at run
    next failed =>
      cases run
      rw [failed] at success
      cases success
    next verdict updated =>
      cases run
      exact ⟨fstabEntries, verdict, parseFstab_of_parseFiles fstab parsed, updated, rfl⟩

/-- What a successful remediation leaves in `/etc/fstab`. -/
theorem fstab_of_success {line : ByteString} {before after : List ByteString}
    (fstab : files.fstab = some content) (lines : getLines content = before ++ line :: after)
    (entry : readEntry line = some mnt) (mounted : mnt.dir = params.mountpoint)
    (last : ∀ other ∈ after, ∀ found ∈ readEntry other, found.dir ≠ params.mountpoint)
    (run : remediateFilesystemMountOption requests steps params files = some report)
    (success : report.result = .ok .compliant) :
    report.context.fstab =
      if Complies params mnt then some content
      else some (replaceLine content (before.length - passedOver false before + 1)
        (correctedLine params mnt ++ [10])) := by
  obtain ⟨entries, verdict, parsed, updated, context⟩ := updateFstab_of_success fstab run success
  rw [← mounted] at last
  have recorded := entry_of_parseFstab parsed lines entry last
  rw [mounted] at recorded
  have changed := updateFstab_fstab fstab recorded updated
  have few := passedOver_le false before
  have number : before.length + 1 - passedOver false before =
      before.length - passedOver false before + 1 := by omega
  simp only [checkOptions_ofMountEntry_iff, writtenLine_ofMountEntry] at changed
  rw [context, ← number]
  exact changed

/-- The texts have the same number of lines, and the same lines but for one. -/
def ChangesOnly (content written : ByteString) (index : ℕ) : Prop :=
  (getLines written).length = (getLines content).length ∧
    ∀ i, i ≠ index → (getLines written)[i]? = (getLines content)[i]?

theorem changesOnly_replaceLine_iff {number index : ℕ} (text : ByteString)
    (inside : number < (getLines content).length) :
    ChangesOnly content (replaceLine content (number + 1) (text ++ [10])) index ↔
      10 ∉ text ∧ (number = index ∨ (getLines content)[number]? = some text) := by
  rw [ChangesOnly, getLines_replaceLine text inside, ← length_splitOn_eq_one_iff text]
  have length : ((getLines content).take number ++
      (text.splitOn 10 ++ (getLines content).drop (number + 1))).length =
      (getLines content).length ↔ (text.splitOn 10).length = 1 := by
    simp only [List.length_append, List.length_take, List.length_drop]
    omega
  rw [length]
  apply and_congr_right
  intro single
  have whole : text.splitOn 10 = [text] :=
    List.splitOn_eq_singleton ((length_splitOn_eq_one_iff text).mp single)
  have set : (getLines content).take number ++
      (text.splitOn 10 ++ (getLines content).drop (number + 1)) =
      (getLines content).set number text := by
    rw [whole, List.set_eq_take_append_cons_drop, if_pos inside]
    rfl
  rw [set]
  constructor
  · intro same
    by_cases here : number = index
    · exact .inl here
    · right
      rw [← same number here, List.getElem?_set_self inside]
  · rintro (rfl | same) i other
    · exact List.getElem?_set_ne (Ne.symm other)
    · by_cases here : number = i
      · rw [← here, List.getElem?_set_self inside, same]
      · exact List.getElem?_set_ne here

/-- Only the line of the entry changes, if it changes at all, unless the new text is several lines
or a line that is passed over makes the recorded number too small. -/
theorem remediate_changesOnly_iff {line : ByteString} {before after : List ByteString}
    (fstab : files.fstab = some content) (lines : getLines content = before ++ line :: after)
    (entry : readEntry line = some mnt) (mounted : mnt.dir = params.mountpoint)
    (last : ∀ other ∈ after, ∀ found ∈ readEntry other, found.dir ≠ params.mountpoint)
    (run : remediateFilesystemMountOption requests steps params files = some report)
    (success : report.result = .ok .compliant) :
    (∃ written, report.context.fstab = some written ∧
        ChangesOnly content written before.length) ↔
      Complies params mnt ∨ Unbroken params mnt ∧
        ((∀ other ∈ before, IsSkipped other ∨ (readEntry other).isSome) ∨
          (getLines content)[before.length - passedOver false before]? =
            some (correctedLine params mnt)) := by
  rw [fstab_of_success fstab lines entry mounted last run success]
  by_cases complies : Complies params mnt
  · rw [if_pos complies]
    exact iff_of_true ⟨content, rfl, rfl, fun _ _ => rfl⟩ (.inl complies)
  · have few := passedOver_le false before
    have inside : before.length - passedOver false before < (getLines content).length := by
      rw [lines, List.length_append, List.length_cons]
      omega
    have counted : before.length - passedOver false before = before.length ↔
        ∀ other ∈ before, IsSkipped other ∨ (readEntry other).isSome := by
      rw [← passedOver_eq_zero_iff]
      constructor
      · intro same
        by_contra passed
        have some_passed : 0 < passedOver false before := Nat.pos_of_ne_zero passed
        omega
      · intro none_passed
        omega
    rw [if_neg complies, or_iff_right complies, ← unbroken_iff, ← counted]
    simp only [Option.some.injEq, exists_eq_left']
    exact changesOnly_replaceLine_iff _ inside

/-- A system on which every request succeeds. -/
def servingRequests : MountRequests where
  openError _ := []
  executeCommand _ := .ok []

def requireNoatime : FilesystemMountOptionParams where
  mountpoint := bytes "/home"
  optionsSet := some [bytes "noatime"]
  optionsNotSet := none

def homeLine : ByteString := bytes "/dev/sda2 /home ext4 rw 0 2"

def homeEntry : MountEntry where
  fsname := bytes "/dev/sda2"
  dir := bytes "/home"
  type := bytes "ext4"
  opts := bytes "rw"
  freq := 0
  passno := 2

def tableOf (lines : List ByteString) : MountFiles where
  fstab := some (fileOf lines [])
  mtab := some []

theorem exists_report (lines : List ByteString)
    (result : (remediateFilesystemMountOption servingRequests 128 requireNoatime
      (tableOf lines)).map Report.result = some (.ok .compliant)) :
    ∃ report, remediateFilesystemMountOption servingRequests 128 requireNoatime (tableOf lines) =
      some report ∧ report.result = .ok .compliant := by
  rw [Option.map_eq_some_iff] at result
  exact result

theorem readEntry_homeLine : readEntry homeLine = some homeEntry := by
  decide +kernel

theorem remediate_changesOnly_homeLine :
    ∃ report written, remediateFilesystemMountOption servingRequests 128 requireNoatime
        (tableOf [homeLine]) = some report ∧ report.context.fstab = some written ∧
      ChangesOnly (fileOf [homeLine] []) written 0 := by
  obtain ⟨report, run, success⟩ := exists_report [homeLine] (by decide +kernel)
  have lines : getLines (fileOf [homeLine] []) = [] ++ homeLine :: [] := by decide +kernel
  have unbroken : 10 ∉ correctedLine requireNoatime homeEntry := by decide +kernel
  obtain ⟨written, fstab, changes⟩ :=
    (remediate_changesOnly_iff rfl lines readEntry_homeLine rfl (by simp) run success).mpr
      (.inr ⟨unbroken_iff.mp unbroken, .inl (by simp)⟩)
  exact ⟨report, written, run, fstab, changes⟩

/-- Behind an indented comment, the comment is overwritten. -/
theorem remediate_overwrites_comment :
    ¬∀ (requests : MountRequests) (params : FilesystemMountOptionParams) (steps : ℕ)
        (files : MountFiles) (report : Report MountFiles) (content line : ByteString)
        (before after : List ByteString) (mnt : MountEntry),
      files.fstab = some content → getLines content = before ++ line :: after →
      readEntry line = some mnt → mnt.dir = params.mountpoint →
      (∀ other ∈ after, ∀ found ∈ readEntry other, found.dir ≠ params.mountpoint) →
      remediateFilesystemMountOption requests steps params files = some report →
      report.result = .ok .compliant →
      ∃ written, report.context.fstab = some written ∧
        ChangesOnly content written before.length := by
  intro claim
  obtain ⟨report, run, success⟩ :=
    exists_report [bytes "  # home", homeLine] (by decide +kernel)
  have lines : getLines (fileOf [bytes "  # home", homeLine] []) =
      [bytes "  # home"] ++ homeLine :: [] := by decide +kernel
  obtain ⟨written, fstab, -, same⟩ := claim _ _ _ _ _ _ _ _ _ _ rfl lines readEntry_homeLine rfl
    (by simp) run success
  have first : (remediateFilesystemMountOption servingRequests 128 requireNoatime
      (tableOf [bytes "  # home", homeLine])).map (fun report =>
        report.context.fstab.map fun written => (getLines written)[0]?) =
      some (some (some (correctedLine requireNoatime homeEntry))) := by decide +kernel
  rw [run, Option.map_some, fstab, Option.map_some, Option.some.injEq, Option.some.injEq,
    same 0 (by decide), lines] at first
  revert first
  decide +kernel

end Remediation

end OsConfig.ComplianceEngine.FilesystemMountOption
