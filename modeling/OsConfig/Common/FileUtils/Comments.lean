import OsConfig.Common.FileUtils.Options

/-!
# Text that is not commented out

A text is found in a file where no comment mark stands in front of it on its
line. The scan goes through the whole file; in a text file it comes to the same
as looking at each line.
-/

namespace OsConfig.CommonUtils

/-- The walk back from a position to the start of the line. It looks for the comment mark before
it looks for the end of line. -/
def commentedOut (commentMark : UInt8) (before : ByteString) : Bool :=
  before.reverse.find? (fun byte => byte = commentMark || byte = 10) = some commentMark

/-- The scan of `IsLineNotFoundOrCommentedOut`: whether the text occurs and is not commented out.
An occurrence is skipped as a whole. -/
def foundUncommented (commentMark : UInt8) (text : ByteString) :
    ByteString → ℕ → ByteString → Bool
  | _, _, [] => false
  | before, skip + 1, byte :: rest => foundUncommented commentMark text (before ++ [byte]) skip rest
  | before, 0, byte :: rest =>
      if text <+: byte :: rest then
        !commentedOut commentMark before ||
          foundUncommented commentMark text (before ++ [byte]) (text.length - 1) rest
      else foundUncommented commentMark text (before ++ [byte]) 0 rest

/-- `IsLineNotFoundOrCommentedOut` with no reason to capture. -/
def isLineNotFoundOrCommentedOut (fileName : ByteString) (commentMark : UInt8)
    (text : ByteString) (fs : FileSystem) : ℤ :=
  if text = [] then einval
  else
    match loadStringFromFile fileName fs with
    | some contents => if foundUncommented commentMark text [] 0 contents then eexist else 0
    | none => 0

/-- `CheckLineFoundNotCommentedOut` with no reason to capture. -/
def checkLineFoundNotCommentedOut (fileName : ByteString) (commentMark : UInt8)
    (text : ByteString) (fs : FileSystem) : ℤ :=
  if !fs.fileExists fileName then enoent
  else
    let result := isLineNotFoundOrCommentedOut fileName commentMark text fs
    if result = eexist then 0 else if result = 0 then eexist else result

/-- `CheckLineNotFoundOrCommentedOut` with no reason to capture. -/
def checkLineNotFoundOrCommentedOut (fileName : ByteString) (commentMark : UInt8)
    (text : ByteString) (fs : FileSystem) : ℤ :=
  if !fs.fileExists fileName then 0
  else isLineNotFoundOrCommentedOut fileName commentMark text fs

section Scan

variable {comment : UInt8} {text before content line : ByteString}

theorem commentedOut_iff (mark : comment ≠ 10) :
    commentedOut comment before = true ↔ comment ∈ lineBefore before := by
  rw [commentedOut, decide_eq_true_iff, lineBefore, List.rtakeWhile, List.mem_reverse]
  induction before.reverse with
  | nil => simp
  | cons byte rest ih =>
      by_cases newline : byte = 10
      · subst newline
        simp [mark.symm]
      · rw [List.takeWhile_cons_of_pos (by simpa using newline), List.mem_cons, List.find?_cons]
        by_cases marked : byte = comment
        · simp [marked]
        · have differs : comment ≠ byte := fun same => marked same.symm
          rw [decide_eq_false marked, decide_eq_false newline, Bool.or_false, ih, or_iff_right differs]

/-- The text occurs on the line with no comment mark in front of it. -/
def Mentions (comment : UInt8) (text line : ByteString) : Prop :=
  ∃ ahead behind, line = ahead ++ (text ++ behind) ∧ comment ∉ ahead

theorem lineBefore_append_of_plain (first : ByteString) {second : ByteString}
    (plain : 10 ∉ second) : lineBefore (first ++ second) = lineBefore first ++ second := by
  have all : ∀ byte ∈ second.reverse, decide (byte ≠ (10 : UInt8)) = true := by
    intro byte mem
    simpa using ne_of_mem_of_not_mem (List.mem_reverse.mp mem) plain
  simp only [lineBefore, List.rtakeWhile, List.reverse_append]
  rw [List.takeWhile_append_of_pos all, List.reverse_append, List.reverse_reverse]

theorem lineBefore_newline (first : ByteString) : lineBefore (first ++ [10]) = [] :=
  List.rtakeWhile_concat_neg _ _ _ (by simp)

/-- More text in front of it does not shorten the line. -/
theorem lineBefore_subset (first second : ByteString) :
    lineBefore second ⊆ lineBefore (first ++ second) := by
  induction second using List.reverseRecOn with
  | nil => simp [lineBefore]
  | append_singleton others byte ih =>
      rw [← List.append_assoc]
      by_cases newline : byte = 10
      · subst newline
        rw [lineBefore_newline]
        exact List.nil_subset _
      · have single : 10 ∉ [byte] := by simpa using fun equal : 10 = byte => newline equal.symm
        rw [lineBefore_append_of_plain _ single, lineBefore_append_of_plain _ single]
        exact List.append_subset.mpr
          ⟨List.Subset.trans ih (List.subset_append_left _ _), List.subset_append_right _ _⟩

theorem lineBefore_append_subset (first second : ByteString) :
    lineBefore (first ++ second) ⊆ lineBefore first ++ second := by
  induction second using List.reverseRecOn with
  | nil => simp
  | append_singleton others byte ih =>
      rw [← List.append_assoc]
      by_cases newline : byte = 10
      · subst newline
        rw [lineBefore_newline]
        exact List.nil_subset _
      · have single : 10 ∉ [byte] := by simpa using fun equal : 10 = byte => newline equal.symm
        rw [lineBefore_append_of_plain _ single, ← List.append_assoc]
        exact List.append_subset.mpr
          ⟨List.Subset.trans ih (List.subset_append_left _ _), List.subset_append_right _ _⟩

theorem lineBefore_flatten {lines : List ByteString} (proper : ∀ line ∈ lines, IsTextLine line) :
    lineBefore lines.flatten = [] := by
  rcases List.eq_nil_or_concat lines with rfl | ⟨earlier, last, rfl⟩
  · rfl
  · rcases (proper last (by simp)).proper with ⟨body, rfl, -, -⟩
    rw [List.concat_eq_append, List.flatten_append, List.flatten_singleton, ← List.append_assoc,
      lineBefore_newline]

theorem exists_of_foundUncommented {skip : ℕ} (mark : comment ≠ 10)
    (found : foundUncommented comment text before skip content = true) :
    ∃ ahead behind, content = ahead ++ (text ++ behind) ∧
      comment ∉ lineBefore (before ++ ahead) := by
  induction content generalizing before skip with
  | nil => cases found
  | cons byte rest ih =>
      -- An occurrence further on is one behind this byte.
      have further : ∀ {skip},
          foundUncommented comment text (before ++ [byte]) skip rest = true →
            ∃ ahead behind, byte :: rest = ahead ++ (text ++ behind) ∧
              comment ∉ lineBefore (before ++ ahead) := by
        intro skip later
        rcases ih later with ⟨ahead, behind, rest_eq, uncommented⟩
        refine ⟨byte :: ahead, behind, by rw [rest_eq, List.cons_append], ?_⟩
        simpa using uncommented
      cases skip with
      | succ skip => exact further found
      | zero =>
          rw [foundUncommented] at found
          split at found
          next here =>
            rcases here with ⟨behind, content_eq⟩
            rcases Bool.or_eq_true_iff.mp found with uncommented | later
            · have plain : comment ∉ lineBefore before := by
                intro marked
                rw [(commentedOut_iff mark).mpr marked] at uncommented
                cases uncommented
              exact ⟨[], behind, content_eq.symm, by simpa using plain⟩
            · exact further later
          · exact further found

theorem foundUncommented_of_exists {skip : ℕ} (mark : comment ≠ 10) (some_text : text ≠ []) (plain : 10 ∉ text)
    {ahead behind : ByteString} (later : skip ≤ ahead.length)
    (content_eq : content = ahead ++ (text ++ behind))
    (uncommented : comment ∉ lineBefore (before ++ ahead)) :
    foundUncommented comment text before skip content = true := by
  induction content generalizing before skip ahead with
  | nil =>
      have empty : text = [] := by simp_all
      exact absurd empty some_text
  | cons byte rest ih =>
      -- Where the occurrence is further on, the scan gets there.
      have further : ∀ {skip}, ahead ≠ [] → skip + 1 ≤ ahead.length →
          foundUncommented comment text (before ++ [byte]) skip rest = true := by
        intro skip moved fits
        rcases List.exists_cons_of_ne_nil moved with ⟨first, others, rfl⟩
        rw [List.cons_append, List.cons.injEq] at content_eq
        rw [List.length_cons] at fits
        apply ih (by omega) content_eq.2
        simpa [content_eq.1] using uncommented
      cases skip with
      | succ skip =>
          have moved : ahead ≠ [] := by
            rintro rfl
            cases later
          exact further moved later
      | zero =>
          rw [foundUncommented]
          split
          next here =>
            by_cases marked : comment ∈ lineBefore before
            · have moved : ahead ≠ [] := by
                rintro rfl
                rw [List.append_nil] at uncommented
                exact uncommented marked
              have positive : 0 < text.length := List.length_pos_iff.mpr some_text
              -- An occurrence that overlaps this one would be on the same line.
              have apart : text.length ≤ ahead.length := by
                by_contra overlap
                have inside : ahead <+: text := by
                  apply List.prefix_of_prefix_length_le _ here (by omega)
                  rw [content_eq]
                  exact List.prefix_append _ _
                have line : lineBefore (before ++ ahead) = lineBefore before ++ ahead :=
                  lineBefore_append_of_plain before fun mem => plain (inside.subset mem)
                rw [line] at uncommented
                exact uncommented (List.mem_append_left _ marked)
              have found : foundUncommented comment text (before ++ [byte]) (text.length - 1) rest =
                  true :=
                further moved (by omega)
              simp [found]
            · have plain : commentedOut comment before = false := by
                rw [← Bool.not_eq_true, commentedOut_iff mark]
                exact marked
              simp [plain]
          next elsewhere =>
            have moved : ahead ≠ [] := by
              rintro rfl
              apply elsewhere
              rw [content_eq]
              exact List.prefix_append _ _
            have positive : 0 < ahead.length := List.length_pos_iff.mpr moved
            exact further moved positive

theorem mentions_of_occurrence {lines : List ByteString} {ahead behind : ByteString}
    (proper : ∀ line ∈ lines, IsTextLine line) (some_text : text ≠ []) (plain : 10 ∉ text)
    (content_eq : lines.flatten = ahead ++ (text ++ behind))
    (uncommented : comment ∉ lineBefore ahead) :
    ∃ line ∈ lines, Mentions comment text line := by
  induction lines generalizing ahead with
  | nil =>
      have empty : text = [] := by simp_all
      exact absurd empty some_text
  | cons line rest ih =>
      have others : ∀ line ∈ rest, IsTextLine line :=
        fun other mem => proper other (List.mem_cons_of_mem _ mem)
      rcases (proper line List.mem_cons_self).proper with ⟨body, line_eq, body_plain, -⟩
      -- An occurrence behind the line is one in the rest.
      have beyond : ∀ further, ahead = line ++ further →
          rest.flatten = further ++ (text ++ behind) →
            ∃ line' ∈ line :: rest, Mentions comment text line' := by
        intro further ahead_eq rest_eq
        rcases ih others rest_eq fun mem => uncommented (ahead_eq ▸ lineBefore_subset _ _ mem) with
          ⟨other, mem, mentions⟩
        exact ⟨other, List.mem_cons_of_mem _ mem, mentions⟩
      rw [List.flatten_cons] at content_eq
      rcases List.append_eq_append_iff.mp content_eq with
        ⟨further, ahead_eq, rest_eq⟩ | ⟨left, line_split, behind_eq⟩
      · exact beyond further ahead_eq rest_eq
      · rcases List.append_eq_append_iff.mp behind_eq with
          ⟨inner, left_eq, -⟩ | ⟨inner, text_eq, rest_eq⟩
        · have short : 10 ∉ ahead := by
            have some_left : left ≠ [] := by simp [left_eq, some_text]
            have body_eq : body = ahead ++ left.dropLast := by
              rw [← List.dropLast_append_of_ne_nil some_left, ← line_split, line_eq,
                List.dropLast_concat]
            exact fun mem => body_plain (body_eq ▸ List.mem_append_left _ mem)
          refine ⟨line, List.mem_cons_self, ahead, inner, by rw [line_split, left_eq], ?_⟩
          have whole : lineBefore ([] ++ ahead) = lineBefore [] ++ ahead :=
            lineBefore_append_of_plain [] short
          rw [List.nil_append] at whole
          rw [whole] at uncommented
          exact fun mem => uncommented (List.mem_append_right _ mem)
        · rcases List.eq_nil_or_concat left with rfl | ⟨others', last, rfl⟩
          · rw [List.append_nil] at line_split
            rw [List.nil_append] at text_eq
            exact beyond [] (by rw [line_split, List.append_nil]) (by rw [rest_eq, text_eq]; rfl)
          · have last_eq : last = 10 := by
              rw [line_eq, List.concat_eq_append, ← List.append_assoc] at line_split
              exact (List.append_inj_right' line_split rfl |> List.singleton_inj.mp).symm
            exact absurd (by simp [text_eq, last_eq]) plain

theorem foundUncommented_iff (isText : IsText content) (mark : comment ≠ 10) (some_text : text ≠ [])
    (plain : 10 ∉ text) :
    foundUncommented comment text [] 0 content = true ↔
      ∃ line ∈ fgetsLines content, Mentions comment text line := by
  constructor
  · intro found
    rcases exists_of_foundUncommented mark found with ⟨ahead, behind, content_eq, uncommented⟩
    rw [← flatten_fgetsLines content] at content_eq
    exact mentions_of_occurrence (fun line => isText.isTextLine) some_text plain content_eq
      uncommented
  · rintro ⟨line, mem, ahead, behind, line_eq, uncommented⟩
    rcases List.append_of_mem mem with ⟨earlier, later, lines_eq⟩
    have content_eq : content = (earlier.flatten ++ ahead) ++ (text ++ (behind ++ later.flatten)) := by
      rw [← flatten_fgetsLines content, lines_eq, List.flatten_append, List.flatten_cons, line_eq]
      simp
    have proper : ∀ line ∈ earlier, IsTextLine line := fun line inside =>
      isText.isTextLine (by rw [lines_eq]; exact List.mem_append_left _ inside)
    apply foundUncommented_of_exists mark some_text plain (Nat.zero_le _) content_eq
    intro commented
    rw [List.nil_append] at commented
    have near := lineBefore_append_subset _ _ commented
    rw [lineBefore_flatten proper, List.nil_append] at near
    exact uncommented near

end Scan

section Checks

variable {fs : FileSystem} {fileName content text : ByteString} {comment : UInt8}

theorem checkLineFoundNotCommentedOut_cases (comment : UInt8)
    (held : fs.read fileName = some content) (some_text : text ≠ []) :
    (foundUncommented comment text [] 0 content.cString = true ∧
        checkLineFoundNotCommentedOut fileName comment text fs = 0) ∨
      (foundUncommented comment text [] 0 content.cString = false ∧
        checkLineFoundNotCommentedOut fileName comment text fs = eexist) := by
  have present : fs.fileExists fileName = true := FileSystem.fileExists_iff.mpr ⟨content, held⟩
  rw [checkLineFoundNotCommentedOut, isLineNotFoundOrCommentedOut, loadStringFromFile, held]
  simp only [present, Bool.not_true, Bool.false_eq_true, if_false, some_text, Option.map_some]
  cases found : foundUncommented comment text [] 0 content.cString with
  | true => simp
  | false => simp [eexist]

/-- A line is reported exactly if the text occurs with no comment mark in front of it on its line,
and exactly one of the two checks succeeds. -/
theorem commentedOut_exact (held : fs.read fileName = some content) (noNul : 0 ∉ content)
    (mark : comment ≠ 10) (some_text : text ≠ []) (plain : 10 ∉ text) :
    (isLineNotFoundOrCommentedOut fileName comment text fs = eexist ↔
        ∃ ahead behind, content = ahead ++ (text ++ behind) ∧ comment ∉ lineBefore ahead) ∧
      (checkLineFoundNotCommentedOut fileName comment text fs = 0 ↔
        checkLineNotFoundOrCommentedOut fileName comment text fs ≠ 0) := by
  have present : fs.fileExists fileName = true := FileSystem.fileExists_iff.mpr ⟨content, held⟩
  have scanned : isLineNotFoundOrCommentedOut fileName comment text fs =
      if foundUncommented comment text [] 0 content then eexist else 0 := by
    rw [isLineNotFoundOrCommentedOut, if_neg some_text, loadStringFromFile, held, Option.map_some,
      ByteString.cString_of_not_mem noNul]
  have found : foundUncommented comment text [] 0 content = true ↔
      ∃ ahead behind, content = ahead ++ (text ++ behind) ∧ comment ∉ lineBefore ahead := by
    constructor
    · exact exists_of_foundUncommented mark
    · rintro ⟨ahead, behind, content_eq, uncommented⟩
      exact foundUncommented_of_exists mark some_text plain (Nat.zero_le _) content_eq uncommented
  simp only [checkLineFoundNotCommentedOut, checkLineNotFoundOrCommentedOut, present, scanned,
    Bool.not_true, Bool.false_eq_true, if_false, ← found]
  cases foundUncommented comment text [] 0 content with
  | true => simp [eexist]
  | false => simp [eexist]

def sampleText : ByteString := bytes "# a\na\n"

theorem commentedOut_exact_sample :
    (isLineNotFoundOrCommentedOut [] 35 (bytes "a") (FileSystem.write ⟨id, fun _ => none⟩ [] sampleText) =
          eexist ↔
        ∃ ahead behind, sampleText = ahead ++ (bytes "a" ++ behind) ∧ 35 ∉ lineBefore ahead) ∧
      (checkLineFoundNotCommentedOut [] 35 (bytes "a")
            (FileSystem.write ⟨id, fun _ => none⟩ [] sampleText) = 0 ↔
        checkLineNotFoundOrCommentedOut [] 35 (bytes "a")
          (FileSystem.write ⟨id, fun _ => none⟩ [] sampleText) ≠ 0) :=
  commentedOut_exact FileSystem.read_write_self (by decide) (by decide) (by decide) (by decide)

/-- With the end of line as the comment mark, all lines but the first are commented out. -/
theorem newline_comments_out :
    ¬ ∀ (fs : FileSystem) (fileName content : ByteString) (comment : UInt8) (text : ByteString),
      fs.read fileName = some content → 0 ∉ content → text ≠ [] → 10 ∉ text →
      ((isLineNotFoundOrCommentedOut fileName comment text fs = eexist ↔
          ∃ ahead behind, content = ahead ++ (text ++ behind) ∧ comment ∉ lineBefore ahead) ∧
        (checkLineFoundNotCommentedOut fileName comment text fs = 0 ↔
          checkLineNotFoundOrCommentedOut fileName comment text fs ≠ 0)) := by
  intro all
  have reported := (all (FileSystem.write ⟨id, fun _ => none⟩ [] (bytes "b\na\n")) [] _ 10 (bytes "a")
    FileSystem.read_write_self (by decide) (by decide) (by decide)).1.mpr
      ⟨bytes "b\n", [10], by decide, by decide⟩
  revert reported
  decide +kernel

end Checks

end OsConfig.CommonUtils
