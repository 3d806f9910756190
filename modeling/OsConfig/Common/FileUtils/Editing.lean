import OsConfig.Common.FileUtils.MarkedLines
import OsConfig.Library.Substrings

/-!
# Editing a text file

What the replacement of marked lines comes to in a text file, whose last line
need not end in a newline, and why it changes nothing when it is done again: the
new lines are read back as they were written, and only the replacement is marked.
-/

namespace OsConfig.CommonUtils

/-- The lines of a text of any length, with their newlines. -/
def textLines (content : ByteString) : List ByteString :=
  -- No line has length zero: this is no limit.
  Chunks.chunks 10 0 content

/-- No NUL, and no line longer than `lineMax`. The last newline is optional. -/
structure IsTextFile (content : ByteString) : Prop where
  noNul : 0 ∉ content
  short : ∀ line ∈ textLines content, line.length ≤ lineMax

section Purpose

variable (marker replacement : ByteString) (comment : UInt8)

/-- The first marked line is replaced and the other ones are removed. -/
def replaceFirst : List ByteString → List ByteString
  | [] => []
  | line :: rest =>
      if isMarked marker comment line then
        replacement :: rest.filter fun line => !isMarked marker comment line
      else line :: replaceFirst rest

/-- What a text is to become. -/
def edited (content : ByteString) : ByteString :=
  if (textLines content).any (isMarked marker comment) then
    (replaceFirst marker replacement comment (textLines content)).flatten
  else appended content replacement

/-- What a text is to become if the replacement goes in front. -/
def editedInFront (content : ByteString) : ByteString :=
  replacement ++ ((textLines content).filter fun line => !isMarked marker comment line).flatten

end Purpose

section Lines

variable {content line : ByteString}

theorem fgetsLines_eq_textLines (text : IsTextFile content) :
    fgetsLines content = textLines content := by
  have proper : ∀ line ∈ textLines content, Chunks.IsChunk 10 lineMax line := by
    intro line mem
    constructor
    · exact Chunks.ne_nil_of_mem_chunksFrom mem
    · exact Chunks.notMem_dropLast_of_mem_chunksFrom List.not_mem_nil mem
    · exact text.short line mem
  have complete : (textLines content).Pairwise fun line _ => Chunks.IsComplete 10 lineMax line := by
    apply List.Pairwise.imp_of_mem _ (Chunks.pairwise_chunksFrom [] content)
    intro line other mem _ ends
    rcases ends with last | empty
    · exact .inl last
    · exact absurd (List.length_eq_zero_iff.mp empty) (proper line mem).nonempty
  have read := Chunks.chunks_flatten_of_complete proper complete
  rwa [textLines, Chunks.flatten_chunks] at read

theorem isChunk_of_mem_fgetsLines (mem : line ∈ fgetsLines content) :
    Chunks.IsChunk 10 lineMax line :=
  Chunks.isChunk_of_mem (by decide) mem

theorem isPiece_of_isChunk (noNul : 0 ∉ line) (proper : Chunks.IsChunk 10 lineMax line) :
    IsPiece line := by
  refine ⟨noNul, proper.nonempty, ?_⟩
  intro head
  have plain := proper.plain
  cases line with
  | nil => exact absurd rfl proper.nonempty
  | cons first others =>
      have first_eq : first = 10 := by simpa using head
      subst first_eq
      cases others with
      | nil => rfl
      | cons second later => simp at plain

theorem isPiece_of_mem_fgetsLines (noNul : 0 ∉ content) (mem : line ∈ fgetsLines content) :
    IsPiece line := by
  apply isPiece_of_isChunk _ (isChunk_of_mem_fgetsLines mem)
  intro nul
  apply noNul
  rw [← flatten_fgetsLines content]
  exact List.mem_flatten_of_mem mem nul

theorem pairwise_fgetsLines (content : ByteString) :
    (fgetsLines content).Pairwise fun line _ => Chunks.IsComplete 10 lineMax line :=
  Chunks.pairwise_chunksFrom [] content

theorem IsTextLine.isChunk (proper : IsTextLine line) : Chunks.IsChunk 10 lineMax line := by
  rcases proper.proper with ⟨body, rfl, plain, short⟩
  refine ⟨by simp, by simpa using plain, ?_⟩
  rw [List.length_append, List.length_singleton]
  omega

theorem IsTextLine.isComplete (proper : IsTextLine line) : Chunks.IsComplete 10 lineMax line := by
  rcases proper.proper with ⟨body, rfl, -, -⟩
  exact .inl List.getLast?_concat

end Lines

section Editing

variable {marker replacement content line : ByteString} {comment : UInt8}
  {lines : List ByteString}

theorem replaceFirst_eq (marked : lines.any (isMarked marker comment) = true) :
    (replaceFirst marker replacement comment lines).flatten =
      (lines.takeWhile fun line => !isMarked marker comment line).flatten ++ replacement ++
        ((lines.dropWhile fun line => !isMarked marker comment line).tail.filter fun line =>
          !isMarked marker comment line).flatten := by
  induction lines with
  | nil => simp at marked
  | cons line rest ih =>
      cases here : isMarked marker comment line with
      | true => simp [replaceFirst, here]
      | false =>
          have later : rest.any (isMarked marker comment) = true := by simpa [here] using marked
          simp [replaceFirst, here, ih later]

theorem mem_of_mem_replaceFirst
    (mem : line ∈ replaceFirst marker replacement comment lines) :
    line = replacement ∨ line ∈ lines := by
  induction lines with
  | nil => cases mem
  | cons first rest ih =>
      rw [replaceFirst] at mem
      split at mem
      · rcases List.mem_cons.mp mem with here | later
        · exact .inl here
        · exact .inr (List.mem_cons_of_mem _ (List.mem_of_mem_filter later))
      · rcases List.mem_cons.mp mem with here | later
        · exact .inr (List.mem_cons.mpr (.inl here))
        · rcases ih later with new | old
          · exact .inl new
          · exact .inr (List.mem_cons_of_mem _ old)

theorem pairwise_replaceFirst {good : ByteString → Prop} (new : good replacement)
    (old : lines.Pairwise fun line _ => good line) :
    (replaceFirst marker replacement comment lines).Pairwise fun line _ => good line := by
  induction lines with
  | nil => exact List.Pairwise.nil
  | cons first rest ih =>
      rw [List.pairwise_cons] at old
      rw [replaceFirst]
      split
      · exact List.pairwise_cons.mpr ⟨fun _ _ => new, old.2.filter _⟩
      · apply List.pairwise_cons.mpr
        refine ⟨fun other mem => ?_, ih old.2⟩
        -- Where something follows the replaced lines, something followed before.
        cases rest with
        | nil => cases mem
        | cons second later => exact old.1 second List.mem_cons_self

theorem replaceFirst_idempotent (marked : isMarked marker comment replacement = true) :
    replaceFirst marker replacement comment (replaceFirst marker replacement comment lines) =
      replaceFirst marker replacement comment lines := by
  induction lines with
  | nil => rfl
  | cons line rest ih =>
      cases here : isMarked marker comment line with
      | true => simp [replaceFirst, here, marked]
      | false => simp [replaceFirst, here, ih]

theorem any_replaceFirst (marked : isMarked marker comment replacement = true)
    (some_marked : lines.any (isMarked marker comment) = true) :
    (replaceFirst marker replacement comment lines).any (isMarked marker comment) = true := by
  induction lines with
  | nil => simp at some_marked
  | cons line rest ih =>
      cases here : isMarked marker comment line with
      | true => simp [replaceFirst, here, marked]
      | false =>
          have later : rest.any (isMarked marker comment) = true := by
            simpa [here] using some_marked
          simp [replaceFirst, here, ih later]

theorem replaceFirst_append (unmarked : ∀ line ∈ lines, isMarked marker comment line = false)
    (marked : isMarked marker comment replacement = true) :
    replaceFirst marker replacement comment (lines ++ [replacement]) = lines ++ [replacement] := by
  induction lines with
  | nil => simp [replaceFirst, marked]
  | cons line rest ih =>
      have here := unmarked line List.mem_cons_self
      simp [replaceFirst, here, ih fun other mem => unmarked other (List.mem_cons_of_mem _ mem)]

theorem isMarked_concat_newline (plain : 10 ∉ marker) (some_line : line ≠ []) :
    isMarked marker comment (line ++ [10]) = isMarked marker comment line := by
  have occurs : marker <:+: line ++ [10] ↔ marker <:+: line := by
    rw [Substrings.infix_append_cons_iff plain, List.infix_nil]
    constructor
    · rintro (inside | rfl)
      · exact inside
      · exact List.nil_infix
    · exact .inl
  rcases List.exists_cons_of_ne_nil some_line with ⟨first, others, rfl⟩
  simp only [List.cons_append] at occurs
  simp [isMarked, occurs]

/-- A line that is read by itself whatever follows, and stays. -/
structure IsKept (marker : ByteString) (comment : UInt8) (line : ByteString) : Prop where
  proper : Chunks.IsChunk 10 lineMax line
  complete : Chunks.IsComplete 10 lineMax line
  unmarked : isMarked marker comment line = false

theorem isKept_newline (some_marker : marker ≠ []) (plain : 10 ∉ marker) :
    IsKept marker comment [10] := by
  refine ⟨⟨by simp, by simp, by decide⟩, .inl rfl, ?_⟩
  have absent : ¬ marker <:+: [] ++ 10 :: [] := by
    rw [Substrings.infix_append_cons_iff plain, List.infix_nil, or_self]
    exact some_marker
  have absent_there : ¬ marker <:+: [10] := absent
  simp [isMarked, absent_there]

/-- The newline that is put behind a line completes it. If the line fills the buffer, the newline
is read by itself. -/
theorem exists_kept_last (some_marker : marker ≠ []) (plain : 10 ∉ marker)
    (proper : Chunks.IsChunk 10 lineMax line) (unmarked : isMarked marker comment line = false) :
    ∃ kept : List ByteString,
      kept.flatten = line ++ (if line.getLast? = some 10 then [] else [10]) ∧
        ∀ line ∈ kept, IsKept marker comment line := by
  by_cases ended : line.getLast? = some 10
  · refine ⟨[line], by simp [ended], ?_⟩
    intro other mem
    rw [List.mem_singleton.mp mem]
    exact ⟨proper, .inl ended, unmarked⟩
  · by_cases full : line.length = lineMax
    · refine ⟨[line, [10]], by simp [ended], ?_⟩
      intro other mem
      simp only [List.mem_cons, List.not_mem_nil, or_false] at mem
      rcases mem with rfl | rfl
      · exact ⟨proper, .inr full, unmarked⟩
      · exact isKept_newline some_marker plain
    · refine ⟨[line ++ [10]], by simp [ended], ?_⟩
      intro other mem
      rw [List.mem_singleton.mp mem]
      have inside : 10 ∉ line := by
        intro newline
        rw [← List.dropLast_concat_getLast proper.nonempty, List.mem_append] at newline
        rcases newline with before | last
        · exact proper.plain before
        · have equal := List.mem_singleton.mp last
          rw [List.getLast?_eq_some_getLast proper.nonempty, ← equal] at ended
          exact ended rfl
      refine ⟨⟨by simp, by simpa using inside, ?_⟩, .inl List.getLast?_concat, ?_⟩
      · have short := proper.short
        rw [List.length_append, List.length_singleton]
        omega
      · rw [isMarked_concat_newline plain proper.nonempty]
        exact unmarked

theorem exists_kept_lines (some_marker : marker ≠ []) (plain : 10 ∉ marker)
    (proper : ∀ line ∈ lines, Chunks.IsChunk 10 lineMax line)
    (complete : lines.Pairwise fun line _ => Chunks.IsComplete 10 lineMax line)
    (unmarked : ∀ line ∈ lines, isMarked marker comment line = false) :
    ∃ kept : List ByteString,
      kept.flatten = lines.flatten ++ (if lines.flatten.getLast? = some 10 then [] else [10]) ∧
        ∀ line ∈ kept, IsKept marker comment line := by
  induction lines with
  | nil =>
      refine ⟨[[10]], rfl, ?_⟩
      rw [List.forall_mem_singleton]
      exact isKept_newline some_marker plain
  | cons line rest ih =>
      have here := proper line List.mem_cons_self
      have stays := unmarked line List.mem_cons_self
      cases rest with
      | nil =>
          have last := exists_kept_last some_marker plain here stays
          simpa using last
      | cons second later =>
          have others : ∀ other ∈ second :: later, Chunks.IsChunk 10 lineMax other :=
            fun other mem => proper other (List.mem_cons_of_mem _ mem)
          rw [List.pairwise_cons] at complete
          rcases ih others complete.2
              (fun other mem => unmarked other (List.mem_cons_of_mem _ mem)) with
            ⟨kept, flatten_eq, properties⟩
          have some_rest : (second :: later).flatten ≠ [] := by
            intro empty
            have nothing := List.flatten_eq_nil_iff.mp empty second List.mem_cons_self
            exact (others second List.mem_cons_self).nonempty nothing
          refine ⟨line :: kept, ?_, ?_⟩
          · rw [List.flatten_cons, List.flatten_cons, flatten_eq,
              List.getLast?_append_of_ne_nil _ some_rest, List.append_assoc]
          · intro other mem
            rcases List.mem_cons.mp mem with rfl | inside
            · exact ⟨here, complete.1 second List.mem_cons_self, stays⟩
            · exact properties other inside

end Editing

section File

variable {fs : FileSystem} {fileName content marker replacement : ByteString} {comment : UInt8}
  {random : ℕ}

/-- What the requirements of an edit come to. -/
structure IsReplacement (marker replacement : ByteString) (comment : UInt8) : Prop where
  some_marker : marker ≠ []
  plain : 10 ∉ marker
  line : IsTextLine replacement
  contains : marker <:+: replacement
  uncommented : replacement.head? ≠ some comment

theorem IsReplacement.isMarked (new : IsReplacement marker replacement comment) :
    isMarked marker comment replacement = true := by
  simp [CommonUtils.isMarked, new.contains, new.uncommented]

theorem IsReplacement.long (new : IsReplacement marker replacement comment) :
    1 < replacement.length := by
  rcases new.line.proper with ⟨body, rfl, -, -⟩
  cases body with
  | nil =>
      have occurs : marker <:+: [] ++ 10 :: [] := new.contains
      rw [Substrings.infix_append_cons_iff new.plain, List.infix_nil, or_self] at occurs
      exact absurd occurs new.some_marker
  | cons first others => simp

theorem replaceMarkedLinesInFile_fgetsLines (held : fs.read fileName = some content)
    (noNul : 0 ∉ content) (new : IsReplacement marker replacement comment)
    (free : fs.read (replacingLinesName fileName random) = none) :
    replaceMarkedLinesInFile fileName marker (some replacement) comment random fs =
      (0, fs.write fileName
        (if (fgetsLines content).any (isMarked marker comment) then
          (replaceFirst marker replacement comment (fgetsLines content)).flatten
        else appended content replacement)) := by
  rw [replaceMarkedLinesInFile_pieces held (fun _ => isPiece_of_mem_fgetsLines noNul) free
    new.some_marker new.plain new.long new.line.isChunk.short]
  cases marked : (fgetsLines content).any (isMarked marker comment) with
  | true => rw [if_pos rfl, if_pos rfl, replaceFirst_eq marked]
  | false => rfl

theorem nul_notMem_flatten {lines : List ByteString} (noNul : 0 ∉ content)
    (new : IsReplacement marker replacement comment)
    (known : ∀ line ∈ lines, line = replacement ∨ line ∈ fgetsLines content) :
    0 ∉ lines.flatten := by
  intro nul
  rcases List.mem_flatten.mp nul with ⟨line, mem, inside⟩
  rcases known line mem with rfl | old
  · exact new.line.noNul inside
  · exact (isPiece_of_mem_fgetsLines noNul old).noNul inside

/-- What an edit leaves is read back as it was written, with the replacement in place. -/
structure IsStable (marker replacement : ByteString) (comment : UInt8) (after : ByteString) :
    Prop where
  noNul : 0 ∉ after
  marked : (fgetsLines after).any (isMarked marker comment) = true
  same : (replaceFirst marker replacement comment (fgetsLines after)).flatten = after

theorem isStable_replaceFirst (noNul : 0 ∉ content)
    (new : IsReplacement marker replacement comment)
    (marked : (fgetsLines content).any (isMarked marker comment) = true) :
    IsStable marker replacement comment
      (replaceFirst marker replacement comment (fgetsLines content)).flatten := by
  have proper : ∀ line ∈ replaceFirst marker replacement comment (fgetsLines content),
      Chunks.IsChunk 10 lineMax line := by
    intro line mem
    rcases mem_of_mem_replaceFirst mem with rfl | old
    · exact new.line.isChunk
    · exact isChunk_of_mem_fgetsLines old
  have complete : (replaceFirst marker replacement comment (fgetsLines content)).Pairwise
      fun line _ => Chunks.IsComplete 10 lineMax line :=
    pairwise_replaceFirst new.line.isComplete (pairwise_fgetsLines content)
  have read : fgetsLines (replaceFirst marker replacement comment (fgetsLines content)).flatten =
      replaceFirst marker replacement comment (fgetsLines content) :=
    Chunks.chunks_flatten_of_complete proper complete
  constructor
  · exact nul_notMem_flatten noNul new fun line => mem_of_mem_replaceFirst
  · rw [read]
    exact any_replaceFirst new.isMarked marked
  · rw [read, replaceFirst_idempotent new.isMarked]

theorem isStable_appended (noNul : 0 ∉ content)
    (new : IsReplacement marker replacement comment)
    (unmarked : (fgetsLines content).any (isMarked marker comment) = false) :
    IsStable marker replacement comment (appended content replacement) := by
  have whole := flatten_fgetsLines content
  have stay : ∀ line ∈ fgetsLines content, isMarked marker comment line = false := by
    simpa using unmarked
  rcases exists_kept_lines new.some_marker new.plain (fun _ => isChunk_of_mem_fgetsLines) (pairwise_fgetsLines content) stay with
    ⟨kept, flatten_eq, properties⟩
  rw [whole] at flatten_eq
  have after_eq : appended content replacement = (kept ++ [replacement]).flatten := by
    rw [appended, List.flatten_concat, flatten_eq]
  have proper : ∀ line ∈ kept ++ [replacement], Chunks.IsChunk 10 lineMax line := by
    intro line mem
    rcases List.mem_append.mp mem with old | here
    · exact (properties line old).proper
    · rw [List.mem_singleton.mp here]
      exact new.line.isChunk
  have complete : (kept ++ [replacement]).Pairwise
      fun line _ => Chunks.IsComplete 10 lineMax line := by
    apply List.pairwise_of_forall_mem_list
    intro line mem other _
    rcases List.mem_append.mp mem with old | here
    · exact (properties line old).complete
    · rw [List.mem_singleton.mp here]
      exact new.line.isComplete
  have read : fgetsLines (appended content replacement) = kept ++ [replacement] := by
    rw [after_eq]
    exact Chunks.chunks_flatten_of_complete proper complete
  constructor
  · rw [appended, List.mem_append, List.mem_append, not_or, not_or]
    refine ⟨⟨noNul, ?_⟩, new.line.noNul⟩
    split <;> simp
  · rw [read]
    simp [new.isMarked]
  · rw [read, replaceFirst_append (fun line mem => (properties line mem).unmarked) new.isMarked,
      after_eq]

/-- Without marked lines in front, the filter leaves what it has left before. -/
theorem fgetsLines_filter (content : ByteString) (new : IsReplacement marker replacement comment) :
    fgetsLines (replacement ++
        ((fgetsLines content).filter fun line => !isMarked marker comment line).flatten) =
      replacement :: (fgetsLines content).filter fun line => !isMarked marker comment line := by
  let kept := (fgetsLines content).filter fun line => !isMarked marker comment line
  have proper : ∀ line ∈ replacement :: kept, Chunks.IsChunk 10 lineMax line := by
    intro line mem
    rcases List.mem_cons.mp mem with rfl | old
    · exact new.line.isChunk
    · exact isChunk_of_mem_fgetsLines (List.mem_of_mem_filter old)
  have complete : (replacement :: kept).Pairwise
      fun line _ => Chunks.IsComplete 10 lineMax line :=
    List.pairwise_cons.mpr ⟨fun _ _ => new.line.isComplete, (pairwise_fgetsLines content).filter _⟩
  exact Chunks.chunks_flatten_of_complete proper complete

/-- Replacing the marked lines of a text file edits exactly these, and doing it again changes
nothing. -/
theorem replaceMarkedLinesInFile_edits {again : ℕ} (held : fs.read fileName = some content)
    (some_content : content ≠ []) (text : IsTextFile content)
    (new : IsReplacement marker replacement comment)
    (free : fs.read (replacingLinesName fileName random) = none)
    (still : fs.read (replacingLinesName fileName again) = none) :
    let after := fs.write fileName (edited marker replacement comment content)
    let inFront := fs.write fileName (editedInFront marker replacement comment content)
    replaceMarkedLinesInFile fileName marker (some replacement) comment random fs = (0, after) ∧
      replaceMarkedLinesInFile fileName marker (some replacement) comment again after = (0, after) ∧
      replaceMarkedLinesInFilePrepend fileName marker (some replacement) comment random fs =
        (0, inFront) ∧
      replaceMarkedLinesInFilePrepend fileName marker (some replacement) comment again inFront =
        (0, inFront) := by
  intro after inFront
  have read := fgetsLines_eq_textLines text
  have apart : fs.entry (replacingLinesName fileName again) ≠ fs.entry fileName := by
    intro same
    rw [FileSystem.read_congr same, held] at still
    cases still
  have remains : ∀ written, (fs.write fileName written).read (replacingLinesName fileName again) =
      none := by
    intro written
    rw [FileSystem.read_write_of_ne apart, still]
  have stable : IsStable marker replacement comment (edited marker replacement comment content) := by
    rw [edited, ← read]
    cases marked : (fgetsLines content).any (isMarked marker comment) with
    | true => exact isStable_replaceFirst text.noNul new marked
    | false => exact isStable_appended text.noNul new marked
  refine ⟨?_, ?_, ?_, ?_⟩
  · rw [replaceMarkedLinesInFile_fgetsLines held text.noNul new free, read]
    rfl
  · rw [replaceMarkedLinesInFile_fgetsLines FileSystem.read_write_self stable.noNul new
      (remains _), if_pos stable.marked, stable.same, FileSystem.write_write]
  · rw [replaceMarkedLinesInFilePrepend_pieces held (fun _ => isPiece_of_mem_fgetsLines text.noNul)
      free new.some_marker new.plain new.long, read]
    rfl
  · have lines := fgetsLines_filter content new
    rw [read] at lines
    have known : ∀ line ∈ replacement ::
          (textLines content).filter fun line => !isMarked marker comment line,
        line = replacement ∨ line ∈ fgetsLines content := by
      intro line mem
      rcases List.mem_cons.mp mem with rfl | old
      · exact .inl rfl
      · rw [read]
        exact .inr (List.mem_of_mem_filter old)
    have noNul : 0 ∉ editedInFront marker replacement comment content :=
      nul_notMem_flatten text.noNul new known
    rw [replaceMarkedLinesInFilePrepend_pieces FileSystem.read_write_self
      (fun _ => isPiece_of_mem_fgetsLines noNul) (remains _) new.some_marker new.plain new.long,
      FileSystem.write_write]
    simp [editedInFront, lines, new.isMarked, inFront]

theorem replaceMarkedLinesInFile_edits_umask :
    let fs := oneFile (bytes "/etc/login.defs") (bytes "UMASK 022\nUMASK 002\n# end")
    let after := fs.write (bytes "/etc/login.defs")
      (edited (bytes "UMASK") (bytes "UMASK 027\n") 35 (bytes "UMASK 022\nUMASK 002\n# end"))
    let inFront := fs.write (bytes "/etc/login.defs")
      (editedInFront (bytes "UMASK") (bytes "UMASK 027\n") 35
        (bytes "UMASK 022\nUMASK 002\n# end"))
    replaceMarkedLinesInFile (bytes "/etc/login.defs") (bytes "UMASK")
          (some (bytes "UMASK 027\n")) 35 7 fs = (0, after) ∧
      replaceMarkedLinesInFile (bytes "/etc/login.defs") (bytes "UMASK")
          (some (bytes "UMASK 027\n")) 35 8 after = (0, after) ∧
      replaceMarkedLinesInFilePrepend (bytes "/etc/login.defs") (bytes "UMASK")
          (some (bytes "UMASK 027\n")) 35 7 fs = (0, inFront) ∧
      replaceMarkedLinesInFilePrepend (bytes "/etc/login.defs") (bytes "UMASK")
          (some (bytes "UMASK 027\n")) 35 8 inFront = (0, inFront) :=
  replaceMarkedLinesInFile_edits FileSystem.read_write_self (by decide) ⟨by decide, by decide⟩
    ⟨by decide, by decide, ⟨by decide, bytes "UMASK 027", by decide, by decide, by decide⟩,
      ⟨[], bytes " 027\n", by decide⟩, by decide⟩ (by decide) (by decide)

end File

end OsConfig.CommonUtils
