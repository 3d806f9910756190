import OsConfig.Common.FileUtils.Editing
import OsConfig.Library.Lines

/-!
# The lines around a replacement

A replacement stands between the lines in front of the first marked one and the
unmarked lines behind it. If it does not end in a newline, the line behind it
goes on with it. Lines of a kind are all kept exactly if no marked line is of
that kind and the line that the replacement is joined with is not.
-/

namespace OsConfig.CommonUtils

section Around

variable {marker newline : ByteString} {lines : List ByteString}

def frontLines (marker : ByteString) (lines : List ByteString) : List ByteString :=
  lines.takeWhile (fun line => !isMarked marker 35 line) ++ if lines = [] then [[10]] else []

/-- The lines that are kept behind the replacement. -/
def backLines (marker : ByteString) (lines : List ByteString) : List ByteString :=
  (lines.dropWhile fun line => !isMarked marker 35 line).tail.filter fun line =>
    !isMarked marker 35 line

theorem replacedLines_eq (marker newline : ByteString) (lines : List ByteString) :
    replacedLines marker newline 35 lines =
      frontLines marker lines ++ fgetsLines newline ++ backLines marker lines := rfl

theorem isTextLine_of_mem_frontLines (proper : ∀ line ∈ lines, IsTextLine line) :
    ∀ line ∈ frontLines marker lines, IsTextLine line := by
  intro line mem
  rcases List.mem_append.mp mem with front | blank
  · exact proper line (List.takeWhile_subset _ front)
  · split at blank
    · rw [List.mem_singleton.mp blank]
      exact ⟨by decide, ⟨[], rfl, by decide, by decide⟩⟩
    · cases blank

theorem isTextLine_of_mem_backLines (proper : ∀ line ∈ lines, IsTextLine line) :
    ∀ line ∈ backLines marker lines, IsTextLine line := by
  intro line mem
  have inside := List.mem_of_mem_tail (List.mem_of_mem_filter mem)
  exact proper line ((List.dropWhile_suffix _).subset inside)

/-- Lines that end in newlines are read back, however long they are. -/
theorem textLines_flatten (closed : ∀ line ∈ lines, ∃ body, line = body ++ [10] ∧ 10 ∉ body) :
    textLines lines.flatten = lines := by
  apply Lines.lines_flatten
  · intro line mem
    rcases closed line mem with ⟨body, rfl, -⟩
    simp
  · intro line mem
    rcases closed line mem with ⟨body, rfl, plain⟩
    simpa using plain
  · refine List.pairwise_of_forall_mem_list fun line mem _ _ => ?_
    rcases closed line mem with ⟨body, rfl, -⟩
    simp

theorem IsTextLine.closed {line : ByteString} (proper : IsTextLine line) :
    ∃ body, line = body ++ [10] ∧ 10 ∉ body := by
  rcases proper.proper with ⟨body, line_eq, plain, -⟩
  exact ⟨body, line_eq, plain⟩

theorem fgetsLines_eq {content : ByteString} (text : IsText content) :
    fgetsLines content = textLines content := by
  have read : textLines (fgetsLines content).flatten = fgetsLines content :=
    textLines_flatten fun line mem => (text.isTextLine mem).closed
  rw [← read, flatten_fgetsLines]

/-- What becomes of the lines behind a replacement without a line end. -/
def joinedLines (newline : ByteString) : List ByteString → List ByteString
  | [] => [newline]
  | line :: rest => (newline ++ line) :: rest

theorem flatten_joinedLines (newline : ByteString) (back : List ByteString) :
    (joinedLines newline back).flatten = newline ++ back.flatten := by
  cases back with
  | nil => simp [joinedLines]
  | cons line rest => simp [joinedLines]

theorem textLines_joined {front back : List ByteString} (fronts : ∀ line ∈ front, IsTextLine line)
    (backs : ∀ line ∈ back, IsTextLine line) (some_newline : newline ≠ [])
    (plain : 10 ∉ newline) :
    textLines (front.flatten ++ newline ++ back.flatten) = front ++ joinedLines newline back := by
  have whole : front.flatten ++ newline ++ back.flatten =
      (front ++ joinedLines newline back).flatten := by
    rw [List.flatten_append, flatten_joinedLines, List.append_assoc]
  have ended {line : ByteString} (proper : IsTextLine line) : line.getLast? = some 10 := by
    rcases proper.proper with ⟨body, rfl, -, -⟩
    simp
  have open_line {line : ByteString} (proper : IsTextLine line) :
      line ≠ [] ∧ 10 ∉ line.dropLast := by
    rcases proper.proper with ⟨body, rfl, closed, -⟩
    simpa using closed
  have joined : ∀ line ∈ joinedLines newline back, line ≠ [] ∧ 10 ∉ line.dropLast := by
    intro line mem
    cases back with
    | nil =>
        rw [joinedLines, List.mem_singleton] at mem
        rw [mem]
        exact ⟨some_newline, fun inside => plain (List.dropLast_subset _ inside)⟩
    | cons next rest =>
        rw [List.forall_mem_cons] at backs
        rcases List.mem_cons.mp mem with rfl | later
        · refine ⟨by simp [some_newline], ?_⟩
          rw [List.dropLast_append_of_ne_nil (open_line backs.1).1, List.mem_append, not_or]
          exact ⟨plain, (open_line backs.1).2⟩
        · exact open_line (backs.2 line later)
  have pairwise : (joinedLines newline back).Pairwise fun line _ => line.getLast? = some 10 := by
    cases back with
    | nil => exact List.pairwise_singleton _ _
    | cons next rest =>
        rw [List.forall_mem_cons] at backs
        refine List.pairwise_cons.mpr ⟨fun _ _ => ?_, ?_⟩
        · rw [List.getLast?_append, ended backs.1]
          rfl
        · exact List.pairwise_of_forall_mem_list fun line mem _ _ => ended (backs.2 line mem)
  rw [whole]
  apply Lines.lines_flatten
  · intro line mem
    rcases List.mem_append.mp mem with before | behind
    · exact (open_line (fronts line before)).1
    · exact (joined line behind).1
  · intro line mem
    rcases List.mem_append.mp mem with before | behind
    · exact (open_line (fronts line before)).2
    · exact (joined line behind).2
  · rw [List.pairwise_append]
    refine ⟨?_, pairwise, fun line mem _ _ => ended (fronts line mem)⟩
    exact List.pairwise_of_forall_mem_list fun line mem _ _ => ended (fronts line mem)

theorem filter_unmarked (some_lines : lines ≠ []) :
    (lines.filter fun line => !isMarked marker 35 line) =
      frontLines marker lines ++ backLines marker lines := by
  have fronts : ((lines.takeWhile fun line => !isMarked marker 35 line).filter fun line =>
      !isMarked marker 35 line) = lines.takeWhile fun line => !isMarked marker 35 line :=
    List.filter_eq_self.mpr fun _ mem =>
      List.mem_takeWhile_imp (p := fun line => !isMarked marker 35 line) mem
  have behind : ((lines.dropWhile fun line => !isMarked marker 35 line).filter fun line =>
      !isMarked marker 35 line) = backLines marker lines := by
    rw [backLines]
    cases behind : lines.dropWhile fun line => !isMarked marker 35 line with
    | nil => rfl
    | cons line rest =>
        have stops := List.head?_dropWhile_not (fun line => !isMarked marker 35 line) lines
        rw [behind] at stops
        rw [List.filter_cons_of_neg (by simpa using stops), List.tail_cons]
  have split := List.takeWhile_append_dropWhile (p := fun line => !isMarked marker 35 line)
    (l := lines)
  calc (lines.filter fun line => !isMarked marker 35 line)
      = ((lines.takeWhile fun line => !isMarked marker 35 line) ++
          lines.dropWhile fun line => !isMarked marker 35 line).filter fun line =>
            !isMarked marker 35 line := by rw [split]
    _ = frontLines marker lines ++ backLines marker lines := by
      rw [List.filter_append, fronts, behind, frontLines, if_neg some_lines, List.append_nil]

end Around

section Kept

variable {marker newline : ByteString} {lines middle : List ByteString} {kind : ByteString → Bool}

theorem filter_twice (lines : List ByteString) :
    (lines.filter kind).filter kind = lines.filter kind :=
  List.filter_eq_self.mpr fun _ mem => (List.mem_filter.mp mem).2

theorem filter_kind_unmarked (unmarked : ∀ line ∈ lines, kind line = true →
      isMarked marker 35 line = false) :
    (lines.filter fun line => !isMarked marker 35 line).filter kind = lines.filter kind := by
  rw [List.filter_filter]
  refine List.filter_congr fun line mem => ?_
  cases ofKind : kind line with
  | false => rfl
  | true => simp [unmarked line mem ofKind]

theorem sublist_of_unmarked (unmarked : ∀ line ∈ lines, kind line = true →
      isMarked marker 35 line = false)
    (behind : ((backLines marker lines).filter kind).Sublist middle) :
    (lines.filter kind).Sublist (frontLines marker lines ++ middle) := by
  by_cases some_lines : lines = []
  · subst some_lines
    exact List.nil_sublist _
  · rw [← filter_kind_unmarked unmarked, filter_unmarked some_lines, List.filter_append]
    exact List.filter_sublist.append behind

theorem unmarked_of_sublist
    (nothing_new : (middle.filter kind).length ≤ ((backLines marker lines).filter kind).length)
    (kept : (lines.filter kind).Sublist (frontLines marker lines ++ middle)) :
    ∀ line ∈ lines, kind line = true → isMarked marker 35 line = false := by
  intro line mem ofKind
  have some_lines : lines ≠ [] := List.ne_nil_of_mem mem
  have counted := (kept.filter kind).length_le
  rw [filter_twice, List.filter_append, List.length_append] at counted
  have fewer : ((lines.filter fun line => !isMarked marker 35 line).filter kind).Sublist
      (lines.filter kind) := List.filter_sublist.filter kind
  have same : ((lines.filter fun line => !isMarked marker 35 line).filter kind) =
      lines.filter kind := by
    apply fewer.eq_of_length_le
    rw [filter_unmarked some_lines, List.filter_append, List.length_append]
    omega
  have inside : line ∈ (lines.filter fun line => !isMarked marker 35 line).filter kind := by
    rw [same, List.mem_filter]
    exact ⟨mem, ofKind⟩
  simpa using (List.mem_filter.mp (List.mem_of_mem_filter inside)).2

theorem sublist_replaced_iff (other : kind newline = false) :
    (lines.filter kind).Sublist (frontLines marker lines ++ newline :: backLines marker lines) ↔
      ∀ line ∈ lines, kind line = true → isMarked marker 35 line = false := by
  constructor
  · apply unmarked_of_sublist
    rw [List.filter_cons_of_neg (by simp [other])]
  · intro unmarked
    exact sublist_of_unmarked unmarked (List.filter_sublist.trans (List.sublist_cons_self _ _))

theorem sublist_joined_iff (other : ∀ line, kind (newline ++ line) = false) :
    (lines.filter kind).Sublist
        (frontLines marker lines ++ joinedLines newline (backLines marker lines)) ↔
      (∀ line ∈ lines, kind line = true → isMarked marker 35 line = false) ∧
        ∀ line rest, backLines marker lines = line :: rest → kind line = false := by
  cases behind : backLines marker lines with
  | nil =>
      have alone : kind newline = false := by simpa using other []
      have replaced := @sublist_replaced_iff marker newline lines kind alone
      rw [behind] at replaced
      rw [joinedLines, replaced]
      exact ⟨fun unmarked => ⟨unmarked, fun _ _ nothing => nomatch nothing⟩, fun both => both.1⟩
  | cons line rest =>
      have joined : (joinedLines newline (line :: rest)).filter kind = rest.filter kind := by
        rw [joinedLines, List.filter_cons_of_neg (by simp [other])]
      have fewer : (rest.filter kind).length ≤ ((line :: rest).filter kind).length :=
        ((List.sublist_cons_self line rest).filter kind).length_le
      constructor
      · intro kept
        have unmarked := unmarked_of_sublist (by rw [joined, behind]; exact fewer) kept
        refine ⟨unmarked, fun first others same => ?_⟩
        rw [List.cons.injEq] at same
        rw [← same.1, ← Bool.not_eq_true]
        intro ofKind
        have some_lines : lines ≠ [] := by
          rintro rfl
          cases behind
        have counted := (kept.filter kind).length_le
        rw [filter_twice, List.filter_append, joined, ← filter_kind_unmarked unmarked,
          filter_unmarked some_lines, behind, List.filter_append, List.filter_cons_of_pos ofKind,
          List.length_append, List.length_append, List.length_cons] at counted
        omega
      · rintro ⟨unmarked, otherKind⟩
        apply sublist_of_unmarked unmarked
        rw [behind, List.filter_cons_of_neg (by simp [otherKind line rest rfl]), joinedLines]
        exact List.filter_sublist.trans (List.sublist_cons_self _ _)

end Kept

end OsConfig.CommonUtils
