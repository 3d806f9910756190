import OsConfig.ComplianceEngine.Procedures.FilesystemMountOption

/-!
# Reading a mount table

Seen line by line, the loop passes over a line that is empty or starts with a
`#`, and counts it. With any other line it starts `getmntent`, which passes over
lines that it does not count until it finds an entry. The loop comes to an end
unless it is to pass over a line that has no newline.
-/

namespace OsConfig.ComplianceEngine.FilesystemMountOption

open ByteString MountTable

/-- The loop passes over the line itself. -/
def IsSkipped (line : ByteString) : Prop :=
  line = [] ∨ line.head? = some 35

instance (line : ByteString) : Decidable (IsSkipped line) :=
  inferInstanceAs (Decidable (_ ∨ _))

/-- `getmntent` passes over the line, perhaps because it is looking for an entry already. -/
def passes (looking : Bool) (line : ByteString) : Bool :=
  (looking || !decide (IsSkipped line)) && (readEntry line).isNone

/-- Whether `getmntent` is looking for an entry behind the lines. -/
def looksBehind (looking : Bool) (lines : List ByteString) : Bool :=
  lines.foldl passes looking

/-- The number of lines that `getmntent` passes over. -/
def passedOver : Bool → List ByteString → ℕ
  | _, [] => 0
  | looking, line :: rest => (passes looking line).toNat + passedOver (passes looking line) rest

/-- The entries of some lines with the numbers that are recorded for them. -/
def numbered : Bool → ℕ → List ByteString → List (ℕ × MountEntry)
  | _, _, [] => []
  | looking, number, line :: rest =>
      ((readEntry line).toList.map fun mnt => (number, mnt)) ++
        numbered (passes looking line) (if passes looking line then number else number + 1) rest

/-- An entry is inserted if there is one. -/
def FstabMap.add (fstabMap : FstabMap) (lineno : ℕ) (found : Option MountEntry) : FstabMap :=
  found.elim fstabMap (FstabMap.insert lineno · fstabMap)

def FstabMap.record (fstabMap : FstabMap) (entries : List (ℕ × MountEntry)) : FstabMap :=
  entries.foldl (fun fstabMap (lineno, mnt) => fstabMap.insert lineno mnt) fstabMap

/-- Some lines with their newlines, and a text behind the last newline. -/
def fileOf (lines : List ByteString) (last : ByteString) : ByteString :=
  lines.flatMap (fun line => line ++ [10]) ++ last

def lastLine (last : ByteString) : List ByteString :=
  if last = [] then [] else [last]

section Lines

@[simp]
theorem fileOf_nil (last : ByteString) : fileOf [] last = last := rfl

@[simp]
theorem fileOf_cons (line : ByteString) (lines : List ByteString) (last : ByteString) :
    fileOf (line :: lines) last = line ++ 10 :: fileOf lines last := by
  simp [fileOf]

theorem exists_fileOf (content : ByteString) :
    ∃ lines last, content = fileOf lines last ∧ (∀ line ∈ lines, 10 ∉ line) ∧ 10 ∉ last := by
  induction content with
  | nil => exact ⟨[], [], rfl, by simp, by simp⟩
  | cons byte content ih =>
      obtain ⟨lines, last, rfl, unbroken, unbroken_last⟩ := ih
      by_cases newline : byte = 10
      · refine ⟨[] :: lines, last, by simp [newline], ?_, unbroken_last⟩
        simpa using unbroken
      · have other : 10 ≠ byte := Ne.symm newline
        cases lines with
        | nil => exact ⟨[], byte :: last, rfl, by simp, by simp [other, unbroken_last]⟩
        | cons line lines =>
            refine ⟨(byte :: line) :: lines, last, by simp, ?_, unbroken_last⟩
            rw [List.forall_mem_cons] at unbroken ⊢
            exact ⟨by simp [other, unbroken.1], unbroken.2⟩

theorem getLines_fileOf {lines : List ByteString} {last : ByteString}
    (unbroken : ∀ line ∈ lines, 10 ∉ line) (unbroken_last : 10 ∉ last) :
    getLines (fileOf lines last) = lines ++ lastLine last := by
  induction lines with
  | nil =>
      rw [fileOf_nil, List.nil_append, getLines, List.splitOn_eq_singleton unbroken_last, lastLine]
      by_cases empty : last = []
      · simp [empty]
      · simp [empty]
  | cons line lines ih =>
      rw [List.forall_mem_cons] at unbroken
      rw [fileOf_cons, getLines_cons _ unbroken.1, ih unbroken.2]
      rfl

theorem readEntry_of_isSkipped {line : ByteString} (skipped : IsSkipped line) :
    readEntry line = none := by
  rcases skipped with rfl | comment
  · rfl
  · cases line with
    | nil => cases comment
    | cons byte rest =>
        rw [List.head?_cons, Option.some.injEq] at comment
        subst comment
        obtain ⟨word, others, first⟩ :=
          Words.words_cons_letter (show isBlank 35 = false by decide) (cString rest)
        have begins : fields (35 :: rest) = (35 :: word) :: others := first
        rw [readEntry, begins]
        rfl

end Lines

section Steps

variable {steps lineno : ℕ} {fstabMap : FstabMap}

theorem skipLine_newline (rest : ByteString) : skipLine steps 10 rest = some rest := by
  cases steps with
  | zero => rfl
  | succ steps => rfl

theorem skipLine_terminated {line rest : ByteString} {byte : UInt8} {after : ByteString}
    (text : byte :: rest = line ++ 10 :: after) (unbroken : 10 ∉ line) :
    skipLine steps byte rest = if line.length ≤ steps then some after else none := by
  induction line generalizing steps byte rest with
  | nil =>
      rw [List.nil_append, List.cons.injEq] at text
      obtain ⟨rfl, rfl⟩ := text
      rw [skipLine_newline]
      simp
  | cons first line ih =>
      rw [List.cons_append, List.cons.injEq] at text
      rw [List.mem_cons, not_or] at unbroken
      obtain ⟨rfl, rfl⟩ := text
      cases steps with
      | zero =>
          rw [skipLine, if_neg (Ne.symm unbroken.1)]
          simp
      | succ steps =>
          cases remaining : line ++ 10 :: after with
          | nil => simp at remaining
          | cons next others =>
              rw [skipLine, if_neg (Ne.symm unbroken.1), ih remaining.symm unbroken.2]
              simp

/-- Without a newline the loop goes on for ever. -/
theorem skipLine_unterminated {byte : UInt8} {rest : ByteString} (unbroken : 10 ∉ byte :: rest) :
    skipLine steps byte rest = none := by
  induction steps generalizing byte rest with
  | zero =>
      rw [List.mem_cons, not_or] at unbroken
      rw [skipLine, if_neg (Ne.symm unbroken.1)]
  | succ steps ih =>
      rw [List.mem_cons, not_or] at unbroken
      cases rest with
      | nil =>
          rw [skipLine, if_neg (Ne.symm unbroken.1)]
          exact ih (by simpa using unbroken.1)
      | cons next rest =>
          rw [skipLine, if_neg (Ne.symm unbroken.1)]
          exact ih unbroken.2

theorem getmntentFrom_terminated {line : ByteString} (start after : ByteString)
    (unbroken : 10 ∉ line) :
    getmntentFrom start (line ++ 10 :: after) =
      match readEntry (start ++ line) with
      | some mnt => (some mnt, { rest := after })
      | none => getmntentFrom [] after := by
  induction line generalizing start with
  | nil =>
      rw [List.nil_append, List.append_nil]
      exact if_pos rfl
  | cons byte line ih =>
      rw [List.mem_cons, not_or] at unbroken
      rw [List.cons_append, getmntentFrom, if_neg (Ne.symm unbroken.1), ih _ unbroken.2,
        List.append_assoc, List.singleton_append]

theorem getmntentFrom_unterminated {last : ByteString} (start : ByteString)
    (unbroken : 10 ∉ last) :
    getmntentFrom start last = (readEntry (start ++ last), { rest := [], eof := true }) := by
  induction last generalizing start with
  | nil => rw [getmntentFrom, List.append_nil]
  | cons byte last ih =>
      rw [List.mem_cons, not_or] at unbroken
      rw [getmntentFrom, if_neg (Ne.symm unbroken.1), ih _ unbroken.2, List.append_assoc,
        List.singleton_append]

/-- What the loop does with an answer of `getmntent`. -/
def resume (steps lineno : ℕ) (fstabMap : FstabMap) (found : Option MountEntry × FileStream) :
    Option FstabMap :=
  parseLoop steps found.2 (lineno + 1) (fstabMap.add (lineno + 1) found.1)

theorem parseLoop_of_eof (stream : FileStream) (ended : stream.eof = true) :
    parseLoop (steps + 1) stream lineno fstabMap = some fstabMap := by
  rw [parseLoop, if_pos ended]

theorem parseLoop_of_isSkipped {line : ByteString} (after : ByteString) (skipped : IsSkipped line)
    (unbroken : 10 ∉ line) :
    parseLoop (steps + 1) { rest := line ++ 10 :: after } lineno fstabMap =
      if line.length ≤ steps then parseLoop steps { rest := after } (lineno + 1) fstabMap
      else none := by
  cases text : line ++ 10 :: after with
  | nil => simp at text
  | cons byte rest =>
      have begins : byte = 35 ∨ byte = 10 := by
        rcases skipped with rfl | comment
        · right
          simpa using (congrArg List.head? text).symm
        · left
          have first := congrArg List.head? text
          rw [List.head?_append, comment] at first
          simpa using first.symm
      rw [parseLoop, if_neg (by simp)]
      dsimp only
      rw [if_pos begins, skipLine_terminated text.symm unbroken]
      by_cases enough : line.length ≤ steps
      · rw [if_pos enough, if_pos enough]
      · rw [if_neg enough, if_neg enough]

theorem parseLoop_of_not_isSkipped {line : ByteString} (after : ByteString)
    (kept : ¬IsSkipped line) (unbroken : 10 ∉ line) :
    parseLoop (steps + 1) { rest := line ++ after } lineno fstabMap =
      resume steps lineno fstabMap (getmntent (line ++ after)) := by
  rw [IsSkipped, not_or] at kept
  cases line with
  | nil => exact absurd rfl kept.1
  | cons byte line =>
      have comment : byte ≠ 35 := by simpa using kept.2
      rw [List.mem_cons, not_or] at unbroken
      have other : ¬(byte = 35 ∨ byte = 10) := by
        rw [not_or]
        exact ⟨comment, Ne.symm unbroken.1⟩
      rw [parseLoop, if_neg (by simp)]
      dsimp only [List.cons_append]
      rw [if_neg other]
      split
      next found => rw [resume, found]; rfl
      next found => rw [resume, found]; rfl

/-- The loop does not come to the end of a line without a newline. -/
theorem parseLoop_of_comment {last : ByteString} (comment : last.head? = some 35)
    (unbroken : 10 ∉ last) : parseLoop steps { rest := last } lineno fstabMap = none := by
  cases steps with
  | zero => rfl
  | succ steps =>
      cases last with
      | nil => cases comment
      | cons byte rest =>
          rw [List.head?_cons, Option.some.injEq] at comment
          rw [parseLoop, if_neg (by simp)]
          dsimp only
          rw [if_pos (.inl comment), skipLine_unterminated unbroken]

end Steps

section Runs

variable {fstabMap : FstabMap}

/-- The loop is to pass over the text behind the last newline. -/
def opensComment (looking : Bool) (lines : List ByteString) (last : ByteString) : Bool :=
  !looksBehind looking lines && last.head? = some 35

/-- What the loop makes of a file. -/
def readFile (looking : Bool) (lineno : ℕ) (fstabMap : FstabMap) (lines : List ByteString)
    (last : ByteString) : Option FstabMap :=
  if opensComment looking lines last then none
  else some (fstabMap.record (numbered looking (lineno + 1) (lines ++ lastLine last)))

theorem record_numbered_cons (looking : Bool) (number : ℕ) (line : ByteString)
    (lines : List ByteString) :
    fstabMap.record (numbered looking number (line :: lines)) =
      (fstabMap.add number (readEntry line)).record
        (numbered (passes looking line) (if passes looking line then number else number + 1)
          lines) := by
  rw [numbered, FstabMap.record, List.foldl_append]
  cases readEntry line with
  | none => rfl
  | some mnt => rfl

theorem readFile_cons (looking : Bool) (lineno : ℕ) (line : ByteString)
    (lines : List ByteString) (last : ByteString) :
    readFile looking lineno fstabMap (line :: lines) last =
      readFile (passes looking line) (if passes looking line then lineno else lineno + 1)
        (fstabMap.add (lineno + 1) (readEntry line)) lines last := by
  have numbers : (if passes looking line then lineno + 1 else lineno + 1 + 1) =
      (if passes looking line then lineno else lineno + 1) + 1 := by
    split <;> rfl
  rw [readFile, readFile, List.cons_append, record_numbered_cons, numbers]
  rfl

theorem readFile_nil (looking : Bool) (lineno : ℕ) (last : ByteString) :
    readFile looking lineno fstabMap [] last =
      if !looking && last.head? = some 35 then none
      else some (fstabMap.add (lineno + 1) (readEntry last)) := by
  have entries : fstabMap.record (numbered looking (lineno + 1) (lastLine last)) =
      fstabMap.add (lineno + 1) (readEntry last) := by
    by_cases empty : last = []
    · rw [empty]
      rfl
    · rw [lastLine, if_neg empty, record_numbered_cons]
      rfl
  rw [readFile, List.nil_append, entries]
  rfl

/-- The result is right, or there were not enough steps for the text. -/
def Agrees (steps length : ℕ) (result expected : Option FstabMap) : Prop :=
  result = expected ∨ result = none ∧ steps < length + 2

theorem Agrees.longer {steps length more : ℕ} {result expected : Option FstabMap}
    (agrees : Agrees steps length result expected) (longer : length ≤ more) :
    Agrees steps more result expected := by
  rcases agrees with right | ⟨ended, few⟩
  · exact .inl right
  · exact .inr ⟨ended, by omega⟩

theorem Agrees.later {steps length more : ℕ} {result expected : Option FstabMap}
    (agrees : Agrees steps length result expected) (longer : length < more) :
    Agrees (steps + 1) more result expected := by
  rcases agrees with right | ⟨ended, few⟩
  · exact .inl right
  · exact .inr ⟨ended, by omega⟩

theorem agrees_of_not_isSkipped {line after : ByteString} {lineno length : ℕ}
    {expected : Option FstabMap} (steps : ℕ) (kept : ¬IsSkipped line) (unbroken : 10 ∉ line)
    (agrees : ∀ steps, Agrees steps length
      (resume steps lineno fstabMap (getmntent (line ++ after))) expected) :
    Agrees steps (length + 1) (parseLoop steps { rest := line ++ after } lineno fstabMap)
      expected := by
  cases steps with
  | zero => exact .inr ⟨rfl, by omega⟩
  | succ steps =>
      rw [parseLoop_of_not_isSkipped after kept unbroken]
      exact (agrees steps).later (by omega)

/-- The last call of `getmntent`, and the loop behind it. -/
theorem agrees_last {last : ByteString} (unbroken : 10 ∉ last) (steps lineno : ℕ) :
    Agrees steps 0 (resume steps lineno fstabMap (getmntent last))
      (some (fstabMap.add (lineno + 1) (readEntry last))) := by
  rw [resume, getmntent, getmntentFrom_unterminated _ unbroken, List.nil_append]
  cases steps with
  | zero => exact .inr ⟨rfl, by omega⟩
  | succ steps => exact .inl (parseLoop_of_eof _ rfl)

theorem agrees_nil {last : ByteString} (unbroken : 10 ∉ last) (steps lineno : ℕ) :
    Agrees steps last.length (parseLoop steps { rest := last } lineno fstabMap)
      (readFile false lineno fstabMap [] last) := by
  rw [readFile_nil]
  by_cases comment : last.head? = some 35
  · rw [parseLoop_of_comment comment unbroken]
    left
    simp [comment]
  · rw [if_neg (by simp [comment])]
    by_cases empty : last = []
    · cases steps with
      | zero => exact .inr ⟨rfl, by omega⟩
      | succ steps =>
          left
          rw [empty]
          rfl
    · have kept : ¬IsSkipped last := not_or.mpr ⟨empty, comment⟩
      have positive := List.length_pos_of_ne_nil empty
      have ended : ∀ steps, Agrees steps 0
          (resume steps lineno fstabMap (getmntent (last ++ [])))
          (some (fstabMap.add (lineno + 1) (readEntry last))) := by
        intro steps
        rw [List.append_nil]
        exact agrees_last unbroken steps lineno
      have agrees := agrees_of_not_isSkipped steps kept unbroken ended
      rw [List.append_nil] at agrees
      exact agrees.longer (by omega)

theorem agrees_readFile {lines : List ByteString} {last : ByteString}
    (unbroken : ∀ line ∈ lines, 10 ∉ line) (unbroken_last : 10 ∉ last) (steps lineno : ℕ)
    (fstabMap : FstabMap) :
    Agrees steps (fileOf lines last).length
        (parseLoop steps { rest := fileOf lines last } lineno fstabMap)
        (readFile false lineno fstabMap lines last) ∧
      Agrees steps (fileOf lines last).length
        (resume steps lineno fstabMap (getmntent (fileOf lines last)))
        (readFile true lineno fstabMap lines last) := by
  induction lines generalizing steps lineno fstabMap with
  | nil =>
      refine ⟨agrees_nil unbroken_last steps lineno, ?_⟩
      rw [readFile_nil]
      exact (agrees_last unbroken_last steps lineno).longer (Nat.zero_le _)
  | cons line lines ih =>
      rw [List.forall_mem_cons] at unbroken
      have length : (fileOf (line :: lines) last).length =
          line.length + 1 + (fileOf lines last).length := by
        rw [fileOf_cons, List.length_append, List.length_cons]
        omega
      -- What `getmntent` does with the line.
      have looking (steps : ℕ) : Agrees steps (fileOf lines last).length
          (resume steps lineno fstabMap (getmntent (fileOf (line :: lines) last)))
          (readFile true lineno fstabMap (line :: lines) last) := by
        rw [readFile_cons, fileOf_cons, getmntent, getmntentFrom_terminated _ _ unbroken.1,
          List.nil_append]
        cases found : readEntry line with
        | none =>
            have passed : passes true line = true := by simp [passes, found]
            rw [passed]
            exact (ih unbroken.2 steps lineno fstabMap).2
        | some mnt =>
            have taken : passes true line = false := by simp [passes, found]
            rw [taken]
            exact (ih unbroken.2 steps (lineno + 1) _).1
      refine ⟨?_, (looking steps).longer (by omega)⟩
      rw [length]
      by_cases skipped : IsSkipped line
      · have taken : passes false line = false := by simp [passes, skipped]
        rw [readFile_cons, fileOf_cons, taken, readEntry_of_isSkipped skipped]
        cases steps with
        | zero => exact .inr ⟨rfl, by omega⟩
        | succ steps =>
            rw [parseLoop_of_isSkipped _ skipped unbroken.1]
            by_cases enough : line.length ≤ steps
            · rw [if_pos enough]
              exact (ih unbroken.2 steps (lineno + 1) fstabMap).1.later (by omega)
            · rw [if_neg enough]
              exact .inr ⟨rfl, by omega⟩
      · have same : readFile false lineno fstabMap (line :: lines) last =
            readFile true lineno fstabMap (line :: lines) last := by
          rw [readFile_cons, readFile_cons]
          simp [passes, skipped]
        rw [same]
        simp only [fileOf_cons line] at looking ⊢
        have agrees := agrees_of_not_isSkipped steps skipped unbroken.1 looking
        exact agrees.longer (by omega)

/-- The entries of a file by their mount points, if it is read to its end. -/
theorem eq_record_of_parseFstab {content : ByteString} {steps : ℕ} {entries : FstabMap}
    (parsed : parseFstab steps content = some entries) :
    entries = FstabMap.record (fun _ => none) (numbered false 1 (getLines content)) := by
  obtain ⟨lines, last, rfl, unbroken, unbroken_last⟩ := exists_fileOf content
  rw [getLines_fileOf unbroken unbroken_last]
  rcases (agrees_readFile unbroken unbroken_last steps 0 _).1 with right | ⟨ended, -⟩
  · rw [← parseFstab, parsed, readFile, eq_comm, Option.ite_none_left_eq_some] at right
    exact (Option.some.inj right.2).symm
  · rw [← parseFstab, parsed] at ended
    cases ended

theorem parseFstab_isSome_iff {lines : List ByteString} {last : ByteString}
    (unbroken : ∀ line ∈ lines, 10 ∉ line) (unbroken_last : 10 ∉ last) :
    (∃ steps, (parseFstab steps (fileOf lines last)).isSome) ↔
      opensComment false lines last = false := by
  constructor
  · rintro ⟨steps, ended⟩
    rcases (agrees_readFile unbroken unbroken_last steps 0 fun _ => none).1 with right | ⟨ends, -⟩
    · rw [parseFstab, right, readFile] at ended
      by_contra opens
      rw [Bool.not_eq_false] at opens
      rw [if_pos opens] at ended
      cases ended
    · rw [parseFstab, ends] at ended
      cases ended
  · intro closed
    refine ⟨(fileOf lines last).length + 2, ?_⟩
    rcases (agrees_readFile unbroken unbroken_last ((fileOf lines last).length + 2) 0
      fun _ => none).1 with right | ⟨-, few⟩
    · rw [parseFstab, right, readFile, closed]
      rfl
    · omega

theorem looksBehind_append_singleton (looking : Bool) (lines : List ByteString)
    (line : ByteString) :
    looksBehind looking (lines ++ [line]) = passes (looksBehind looking lines) line :=
  List.foldl_append

/-- Behind an entry the loop is at the start of every line up to the first that it leaves to
`getmntent`. -/
theorem looksBehind_eq_false_iff (lines : List ByteString) :
    looksBehind false lines = false ↔ ∃ before skipped, lines = before ++ skipped ∧
      (∀ line ∈ before.getLast?, (readEntry line).isSome) ∧ ∀ line ∈ skipped, IsSkipped line := by
  induction lines using List.reverseRecOn with
  | nil =>
      refine iff_of_true rfl ⟨[], [], rfl, by simp, by simp⟩
  | append_singleton lines line ih =>
      rw [looksBehind_append_singleton]
      constructor
      · intro stops
        by_cases found : (readEntry line).isSome
        · exact ⟨lines ++ [line], [], by simp, by simpa using found, by simp⟩
        · have idle : looksBehind false lines = false ∧ IsSkipped line := by
            simpa [passes, found] using stops
          obtain ⟨before, skipped, rfl, entry, skips⟩ := ih.mp idle.1
          refine ⟨before, skipped ++ [line], by simp, entry, ?_⟩
          simpa [or_imp, forall_and, idle.2] using skips
      · rintro ⟨before, skipped, split, entry, skips⟩
        induction skipped using List.reverseRecOn with
        | nil =>
            rw [List.append_nil] at split
            rw [← split] at entry
            have found : (readEntry line).isSome := by simpa using entry
            simp [passes, Option.isNone_eq_false_iff.mpr found]
        | append_singleton skipped other _ =>
            rw [← List.append_assoc] at split
            obtain ⟨rfl, same⟩ := List.append_inj' split rfl
            rw [List.singleton_inj] at same
            have idle : looksBehind false (before ++ skipped) = false :=
              ih.mpr ⟨before, skipped, rfl, entry, fun line mem => skips line (by simp [mem])⟩
            have skip : IsSkipped line := by
              rw [same]
              exact skips other (by simp)
            simp [passes, idle, skip]

/-- The last line is a comment without a newline, and behind the last entry all lines are empty or
comments that start in the first column. -/
def EndsInOpenComment (content : ByteString) : Prop :=
  ∃ before skipped comment, content = fileOf (before ++ skipped) (35 :: comment) ∧
    (∀ line ∈ before ++ skipped, 10 ∉ line) ∧ 10 ∉ comment ∧
    (∀ line ∈ before.getLast?, (readEntry line).isSome) ∧ ∀ line ∈ skipped, IsSkipped line

/-- The reading ends unless the file ends in such a comment. -/
theorem parseFstab_ends_iff (content : ByteString) :
    (∃ steps, (parseFstab steps content).isSome) ↔ ¬EndsInOpenComment content := by
  constructor
  · rintro ends ⟨before, skipped, comment, rfl, unbroken, unbroken_comment, entry, skips⟩
    have unbroken_last : 10 ∉ 35 :: comment := by simpa using unbroken_comment
    have opens := (parseFstab_isSome_iff unbroken unbroken_last).mp ends
    have idle : looksBehind false (before ++ skipped) = false :=
      (looksBehind_eq_false_iff _).mpr ⟨before, skipped, rfl, entry, skips⟩
    simp [opensComment, idle] at opens
  · intro closed
    obtain ⟨lines, last, rfl, unbroken, unbroken_last⟩ := exists_fileOf content
    apply (parseFstab_isSome_iff unbroken unbroken_last).mpr
    by_contra opens
    rw [Bool.not_eq_false, opensComment, Bool.and_eq_true, Bool.not_eq_true',
      decide_eq_true_eq] at opens
    obtain ⟨before, skipped, rfl, entry, skips⟩ := (looksBehind_eq_false_iff lines).mp opens.1
    obtain ⟨comment, rfl⟩ : ∃ comment, last = 35 :: comment := by
      cases last with
      | nil => cases opens.2
      | cons byte rest =>
          rw [List.head?_cons, Option.some.injEq] at opens
          exact ⟨rest, by rw [opens.2]⟩
    apply closed
    refine ⟨before, skipped, comment, rfl, unbroken, ?_, entry, skips⟩
    simpa using unbroken_last

/-- No number of steps is enough for a comment without a newline. -/
theorem parseFstab_open_comment :
    ¬∀ content, ∃ steps, (parseFstab steps content).isSome := by
  intro ends
  obtain ⟨steps, ended⟩ := ends (bytes "# static file systems")
  rw [parseFstab, parseLoop_of_comment (by decide) (by decide)] at ended
  cases ended

end Runs

end OsConfig.ComplianceEngine.FilesystemMountOption
