import Mathlib
import OsConfig.Library.Chunks

/-!
# Lines

The lines of a text are its chunks when there is no limit. A text is closed if
its last line ends in a newline. Behind a closed text other lines can be put as
they are; behind an open one the first of them goes on with its last line, which
makes the lines fewer than they were.

A text that is cut somewhere has some of the lines of the whole, of which the
last can be cut itself. What it lacks cannot be found among the others.
-/

namespace Lines

variable {α : Type*} [DecidableEq α] {newline : α}

def lines (newline : α) (text : List α) : List (List α) :=
  -- No line has length zero: this is no limit.
  Chunks.chunks newline 0 text

def chomp (newline : α) (line : List α) : List α :=
  line.takeWhile (· ≠ newline)

/-- The lines of a text, without their newlines. -/
def bodies (newline : α) (text : List α) : List (List α) :=
  (lines newline text).map (chomp newline)

/-- A text without a line that goes on. -/
def IsClosed (newline : α) (text : List α) : Prop :=
  text = [] ∨ text.getLast? = some newline

instance (text : List α) : Decidable (IsClosed newline text) :=
  inferInstanceAs (Decidable (_ ∨ _))

section Lines

variable {text front back line last : List α}

theorem flatten_lines (text : List α) : (lines newline text).flatten = text :=
  Chunks.flatten_chunks text

theorem ne_nil_of_mem_lines (mem : line ∈ lines newline text) : line ≠ [] :=
  Chunks.ne_nil_of_mem_chunksFrom mem

theorem notMem_dropLast_of_mem_lines (mem : line ∈ lines newline text) :
    newline ∉ line.dropLast :=
  Chunks.notMem_dropLast_of_mem_chunksFrom List.not_mem_nil mem

theorem pairwise_lines (text : List α) :
    (lines newline text).Pairwise fun line _ => line.getLast? = some newline := by
  apply List.Pairwise.imp_of_mem _ (Chunks.pairwise_chunksFrom [] text)
  intro line other mem _ ends
  rcases ends with last | empty
  · exact last
  · exact absurd (List.length_eq_zero_iff.mp empty) (ne_nil_of_mem_lines mem)

theorem lines_append (closed : IsClosed newline front) (back : List α) :
    lines newline (front ++ back) = lines newline front ++ lines newline back := by
  rcases closed with rfl | ends
  · rfl
  · exact Chunks.chunksFrom_append back ends

theorem chunksFrom_of_open {current : List α} (opened : newline ∉ front) (back : List α) :
    Chunks.chunksFrom newline 0 current (front ++ back) =
      Chunks.chunksFrom newline 0 (current ++ front) back := by
  induction front generalizing current with
  | nil => simp
  | cons letter others ih =>
      rw [List.mem_cons, not_or] at opened
      have inside : ¬ (letter = newline ∨ (current ++ [letter]).length = 0) := by
        rintro (here | empty)
        · exact opened.1 here.symm
        · simp at empty
      rw [List.cons_append, Chunks.chunksFrom, if_neg inside, ih opened.2]
      simp

theorem lines_of_open (some_line : line ≠ []) (opened : newline ∉ line) :
    lines newline line = [line] := by
  have read := @chunksFrom_of_open α _ newline line [] opened []
  rw [List.append_nil] at read
  rw [lines, Chunks.chunks, read, Chunks.chunksFrom]
  simp [some_line]

theorem lines_of_plain (some_line : line ≠ []) (plain : newline ∉ line.dropLast) :
    lines newline line = [line] := by
  by_cases ends : newline ∈ line
  · rw [← List.dropLast_concat_getLast some_line, List.mem_append] at ends
    have last : newline = line.getLast some_line := by
      rcases ends with before | last
      · exact absurd before plain
      · exact List.mem_singleton.mp last
    rw [← List.dropLast_concat_getLast some_line, ← last]
    have read := @chunksFrom_of_open α _ newline line.dropLast [] plain [newline]
    rw [lines, Chunks.chunks, read]
    simp [Chunks.chunksFrom]
  · exact lines_of_open some_line ends

/-- Lines that are put together are read apart again. -/
theorem lines_flatten {read : List (List α)} (some_lines : ∀ line ∈ read, line ≠ [])
    (plain : ∀ line ∈ read, newline ∉ line.dropLast)
    (ended : read.Pairwise fun line _ => line.getLast? = some newline) :
    lines newline read.flatten = read := by
  induction read with
  | nil => rfl
  | cons line rest ih =>
      have here := lines_of_plain (some_lines line List.mem_cons_self) (plain line List.mem_cons_self)
      rw [List.pairwise_cons] at ended
      have others := ih (fun other mem => some_lines other (List.mem_cons_of_mem _ mem))
        (fun other mem => plain other (List.mem_cons_of_mem _ mem)) ended.2
      cases rest with
      | nil => simpa using here
      | cons second later =>
          have closed : IsClosed newline line := .inr (ended.1 second List.mem_cons_self)
          rw [List.flatten_cons, lines_append closed, here, others, List.singleton_append]

theorem lines_flatten_of_sublist {read : List (List α)} (some_of : read.Sublist (lines newline text)) :
    lines newline read.flatten = read :=
  lines_flatten (fun _ mem => ne_nil_of_mem_lines (some_of.subset mem))
    (fun _ mem => notMem_dropLast_of_mem_lines (some_of.subset mem))
    ((pairwise_lines text).sublist some_of)

theorem chunks_eq_flatMap (limit : ℕ) (text : List α) :
    Chunks.chunks newline limit text =
      (lines newline text).flatMap (Chunks.chunks newline limit) := by
  have each : ∀ read : List (List α),
      read.Pairwise (fun line _ => line.getLast? = some newline) →
        Chunks.chunks newline limit read.flatten = read.flatMap (Chunks.chunks newline limit) := by
    intro read ended
    induction read with
    | nil => rfl
    | cons line rest ih =>
        rw [List.pairwise_cons] at ended
        cases rest with
        | nil => simp
        | cons second later =>
            have ends := ended.1 second List.mem_cons_self
            rw [List.flatten_cons, List.flatMap_cons, ← ih ended.2]
            exact Chunks.chunksFrom_append _ ends
  have whole := each (lines newline text) (pairwise_lines text)
  rwa [flatten_lines] at whole

omit [DecidableEq α] in
theorem isClosed_flatten {read : List (List α)}
    (ended : ∀ line ∈ read, line.getLast? = some newline) : IsClosed newline read.flatten := by
  rcases List.eq_nil_or_concat read with rfl | ⟨others, last, rfl⟩
  · exact .inl rfl
  · rw [List.concat_eq_append] at ended ⊢
    have last_ends : last.getLast? = some newline := ended last (by simp)
    have some_last : last ≠ [] := by
      rintro rfl
      cases last_ends
    right
    rw [List.flatten_append, List.flatten_singleton, List.getLast?_append_of_ne_nil _ some_last,
      last_ends]

theorem exists_last (opened : ¬ IsClosed newline text) :
    ∃ front last, text = front ++ last ∧ IsClosed newline front ∧ last ≠ [] ∧ newline ∉ last ∧
      lines newline text = lines newline front ++ [last] := by
  rw [IsClosed, not_or] at opened
  have whole := @flatten_lines α _ newline text
  rcases List.eq_nil_or_concat (lines newline text) with none_there | ⟨before, last, concat⟩
  · rw [none_there] at whole
    exact absurd whole.symm opened.1
  · rw [List.concat_eq_append] at concat
    have mem : last ∈ lines newline text := by simp [concat]
    have some_last := ne_nil_of_mem_lines mem
    have text_eq : text = before.flatten ++ last := by
      rw [← whole, concat, List.flatten_append, List.flatten_singleton]
    have unended : last.getLast? ≠ some newline := by
      intro ends
      apply opened.2
      rw [text_eq, List.getLast?_append_of_ne_nil _ some_last, ends]
    have plain : newline ∉ last := by
      intro inside
      rw [← List.dropLast_concat_getLast some_last, List.mem_append] at inside
      rcases inside with early | late
      · exact notMem_dropLast_of_mem_lines mem early
      · apply unended
        rw [List.getLast?_eq_some_getLast some_last, ← List.mem_singleton.mp late]
    have ended : ∀ line ∈ before, line.getLast? = some newline := by
      intro line inside
      have ordered := @pairwise_lines α _ newline text
      rw [concat, List.pairwise_append] at ordered
      exact ordered.2.2 line inside last List.mem_cons_self
    have closed : IsClosed newline before.flatten := isClosed_flatten ended
    have read : lines newline before.flatten = before := by
      apply @lines_flatten_of_sublist α _ newline text
      rw [concat]
      exact List.sublist_append_left before [last]
    exact ⟨before.flatten, last, text_eq, closed, some_last, plain, by rw [read, concat]⟩

end Lines

section Bodies

variable {text front back line : List α}

theorem chomp_of_notMem (opened : newline ∉ line) : chomp newline line = line := by
  rw [chomp, List.takeWhile_eq_self_iff]
  intro letter mem
  have differs : letter ≠ newline := ne_of_mem_of_not_mem mem opened
  simpa using differs

theorem chomp_append (opened : newline ∉ front) (back : List α) :
    chomp newline (front ++ back) = front ++ chomp newline back := by
  rw [chomp, List.takeWhile_append_of_pos]
  · rfl
  · intro letter mem
    have differs : letter ≠ newline := ne_of_mem_of_not_mem mem opened
    simpa using differs

@[simp]
theorem bodies_nil : bodies newline [] = [] := rfl

theorem bodies_append (closed : IsClosed newline front) (back : List α) :
    bodies newline (front ++ back) = bodies newline front ++ bodies newline back := by
  rw [bodies, lines_append closed, List.map_append]
  rfl

theorem bodies_newline : bodies newline [newline] = [[]] := by
  simp [bodies, lines, chomp, Chunks.chunks, Chunks.chunksFrom]

theorem bodies_open_newline (opened : ¬ IsClosed newline text) (back : List α) :
    bodies newline (text ++ newline :: back) = bodies newline text ++ bodies newline back := by
  rcases exists_last opened with ⟨front, last, rfl, closed, some_last, plain, read⟩
  have ended : IsClosed newline (last ++ [newline]) := .inr List.getLast?_concat
  have last_line : lines newline (last ++ [newline]) = [last ++ [newline]] :=
    lines_of_plain (by simp) (by simpa using plain)
  have closing : bodies newline (last ++ [newline]) = [last] := by
    rw [bodies, last_line, List.map_singleton, chomp_append plain]
    simp [chomp]
  have whole : bodies newline (front ++ last) = bodies newline front ++ [last] := by
    rw [bodies, read, List.map_append, List.map_singleton, chomp_of_notMem plain]
    rfl
  have split_eq : front ++ last ++ newline :: back = front ++ ((last ++ [newline]) ++ back) := by simp
  rw [split_eq, bodies_append closed, bodies_append ended, closing, whole, List.append_assoc]

theorem bodies_closed_newline (closed : IsClosed newline text) (back : List α) :
    bodies newline (text ++ newline :: back) =
      bodies newline text ++ [] :: bodies newline back := by
  have ended : IsClosed newline [newline] := .inr rfl
  rw [bodies_append closed, ← List.singleton_append, bodies_append ended, bodies_newline,
    List.singleton_append]

theorem mem_chomp {letter : α} (mem : line ∈ lines newline text) (inside : letter ∈ line)
    (other : letter ≠ newline) : letter ∈ chomp newline line := by
  have some_line := ne_nil_of_mem_lines mem
  rw [← List.dropLast_concat_getLast some_line,
    chomp_append (notMem_dropLast_of_mem_lines mem), List.mem_append]
  rw [← List.dropLast_concat_getLast some_line, List.mem_append, List.mem_singleton] at inside
  rcases inside with early | last
  · exact .inl early
  · right
    rw [← last]
    simp [chomp, other]

theorem subset_of_mem_bodies {body : List α} (mem : body ∈ bodies newline text) : body ⊆ text := by
  rcases List.mem_map.mp mem with ⟨line, line_mem, rfl⟩
  intro letter inside
  rw [← @flatten_lines α _ newline text]
  exact List.mem_flatten_of_mem line_mem ((List.takeWhile_subset _) inside)

/-- The letters of some lines with a newline for each. -/
def size (bodies : List (List α)) : ℕ :=
  (bodies.map fun body => body.length + 1).sum

omit [DecidableEq α] in
theorem size_append (first second : List (List α)) :
    size (first ++ second) = size first + size second := by
  rw [size, List.map_append, List.sum_append]
  rfl

omit [DecidableEq α] in
theorem size_cons (body : List α) (others : List (List α)) :
    size (body :: others) = body.length + 1 + size others := by
  rw [size, List.map_cons, List.sum_cons]
  rfl

omit [DecidableEq α] in
@[simp]
theorem size_nil : size ([] : List (List α)) = 0 := rfl

omit [DecidableEq α] in
theorem size_eq_zero_iff {read : List (List α)} : size read = 0 ↔ read = [] := by
  cases read with
  | nil => simp
  | cons body others =>
      rw [size_cons]
      simp

omit [DecidableEq α] in
theorem size_le_of_subperm {first second : List (List α)} (contained : first.Subperm second) :
    size first ≤ size second := by
  rcases contained with ⟨same, permuted, inside⟩
  have equal : size same = size first := (permuted.map _).sum_nat
  rw [← equal]
  exact (inside.map _).sum_le_sum (fun _ _ => Nat.zero_le _)

theorem size_bodies_of_closed (closed : IsClosed newline text) :
    size (bodies newline text) = text.length := by
  have ended : ∀ line ∈ lines newline text, line.getLast? = some newline := by
    intro line mem
    rcases List.eq_nil_or_concat (lines newline text) with none_there | ⟨before, last, concat⟩
    · simp [none_there] at mem
    · rw [List.concat_eq_append] at concat
      have whole := @flatten_lines α _ newline text
      have some_last : last ≠ [] := by
        apply @ne_nil_of_mem_lines α _ newline text
        simp [concat]
      have ordered := @pairwise_lines α _ newline text
      rw [concat, List.pairwise_append] at ordered
      rw [concat, List.mem_append, List.mem_singleton] at mem
      rcases mem with early | rfl
      · exact ordered.2.2 line early last List.mem_cons_self
      · rcases closed with rfl | ends
        · simp [lines, Chunks.chunks, Chunks.chunksFrom] at concat
        · rwa [← whole, concat, List.flatten_append, List.flatten_singleton,
            List.getLast?_append_of_ne_nil _ some_last] at ends
  have counted : ∀ line ∈ lines newline text, (chomp newline line).length + 1 = line.length := by
    intro line mem
    have some_line := ne_nil_of_mem_lines mem
    have last : line.getLast some_line = newline := by
      have ends := ended line mem
      rwa [List.getLast?_eq_some_getLast some_line, Option.some.injEq] at ends
    rw [← List.dropLast_concat_getLast some_line, last,
      chomp_append (notMem_dropLast_of_mem_lines mem)]
    simp [chomp]
  have lengths : (bodies newline text).map (fun body => body.length + 1) =
      (lines newline text).map List.length := by
    rw [bodies, List.map_map]
    exact List.map_congr_left counted
  rw [size, lengths, ← List.length_flatten, flatten_lines]

theorem size_bodies_of_open (opened : ¬ IsClosed newline text) :
    size (bodies newline text) = text.length + 1 := by
  have ended : IsClosed newline (text ++ [newline]) := .inr List.getLast?_concat
  have counted := size_bodies_of_closed ended
  rw [bodies_open_newline opened, bodies_nil, List.append_nil, List.length_append,
    List.length_singleton] at counted
  exact counted

theorem length_le_size (text : List α) : text.length ≤ size (bodies newline text) := by
  by_cases closed : IsClosed newline text
  · rw [size_bodies_of_closed closed]
  · rw [size_bodies_of_open closed]
    exact Nat.le_succ _

theorem eq_nil_of_bodies (empty : bodies newline text = []) : text = [] := by
  have short := @length_le_size α _ newline text
  rw [empty, size_nil] at short
  exact List.length_eq_zero_iff.mp (by omega)

theorem eq_newline_of_size (some_text : text ≠ []) (small : size (bodies newline text) ≤ 1) :
    text = [newline] := by
  have longer : 0 < text.length := List.length_pos_iff.mpr some_text
  by_cases closed : IsClosed newline text
  · rw [size_bodies_of_closed closed] at small
    have one : text.length = 1 := by omega
    rcases List.length_eq_one_iff.mp one with ⟨letter, rfl⟩
    have last : letter = newline := by simpa using closed.resolve_left some_text
    rw [last]
  · rw [size_bodies_of_open closed] at small
    omega

/-- What is put behind an open text runs into its last line. -/
theorem size_bodies_join (opened : ¬ IsClosed newline front) (some_back : back ≠ []) :
    size (bodies newline (front ++ back)) <
      size (bodies newline front) + size (bodies newline back) := by
  have ends : (front ++ back).getLast? = back.getLast? := List.getLast?_append_of_ne_nil _ some_back
  rw [size_bodies_of_open opened]
  by_cases closed : IsClosed newline back
  · have last : back.getLast? = some newline := closed.resolve_left some_back
    rw [size_bodies_of_closed (.inr (ends.trans last)), size_bodies_of_closed closed,
      List.length_append]
    omega
  · have goes_on : ¬ IsClosed newline (front ++ back) := by
      rintro (empty | last)
      · exact some_back (List.append_eq_nil_iff.mp empty).2
      · exact closed (.inr (ends.symm.trans last))
    rw [size_bodies_of_open goes_on, size_bodies_of_open closed, List.length_append]
    omega

end Bodies

section Cuts

variable {part whole : List (List α)} {front text : List α}

/-- Some of the lines of a text that has been cut, which can be cut within a line. -/
inductive IsCut : List (List α) → List (List α) → Prop
  | between (same rest : List (List α)) : IsCut same (same ++ rest)
  | within (same : List (List α)) (body longer : List α) (rest : List (List α))
      (shorter : body.length < longer.length) : IsCut (same ++ [body]) (same ++ longer :: rest)

omit [DecidableEq α] in
theorem IsCut.size_le (cut : IsCut part whole) : size part ≤ size whole := by
  cases cut with
  | between same rest =>
      rw [size_append]
      exact Nat.le_add_right _ _
  | within same body longer rest shorter =>
      rw [size_append, size_append, size_cons, size_cons, size_nil]
      omega

omit [DecidableEq α] in
/-- Whoever loses nothing has not been cut. -/
theorem IsCut.eq_of_size (cut : IsCut part whole) (enough : size whole ≤ size part) :
    part = whole := by
  cases cut with
  | between same rest =>
      rw [size_append] at enough
      have nothing : rest = [] := size_eq_zero_iff.mp (by omega)
      rw [nothing, List.append_nil]
  | within same body longer rest shorter =>
      rw [size_append, size_append, size_cons, size_cons, size_nil] at enough
      omega

omit [DecidableEq α] in
/-- A blank line can only stand in for a blank one. -/
theorem IsCut.of_subperm_blank (cut : IsCut part whole) (contained : whole.Subperm (part ++ [[]])) :
    whole = part ∨ whole = part ++ [[]] := by
  cases cut with
  | between same rest =>
      rw [List.subperm_append_left] at contained
      have few := contained.length_le
      cases rest with
      | nil => simp
      | cons body others =>
          have alone : others = [] := by
            rw [List.length_cons, List.length_singleton] at few
            exact List.length_eq_zero_iff.mp (by omega)
          subst alone
          have blank : body = [] := by simpa using contained
          right
          rw [blank]
  | within same body longer rest shorter =>
      rw [List.append_assoc, List.subperm_append_left] at contained
      have mem : longer ∈ [body] ++ [[]] := contained.subset List.mem_cons_self
      rw [List.mem_append, List.mem_singleton, List.mem_singleton] at mem
      rcases mem with rfl | rfl
      · exact absurd shorter (lt_irrefl _)
      · exact absurd shorter (Nat.not_lt_zero _)

theorem exists_chunk (current : List α) (letter : α) (others : List α) :
    ∃ more rest, Chunks.chunksFrom newline 0 current (letter :: others) =
      (current ++ more) :: rest ∧ more ≠ [] := by
  induction others generalizing current letter with
  | nil => exact ⟨[letter], [], by simp [Chunks.chunksFrom], by simp⟩
  | cons second later ih =>
      rw [Chunks.chunksFrom]
      split
      · exact ⟨[letter], _, rfl, by simp⟩
      · rcases ih (current ++ [letter]) second with ⟨more, rest, read, -⟩
        exact ⟨letter :: more, rest, by simpa using read, by simp⟩

/-- The beginning of a text has its first lines, of which the last can be cut. -/
theorem lines_of_front (front back : List α) :
    (∃ rest, lines newline (front ++ back) = lines newline front ++ rest) ∨
      ∃ same last more rest, lines newline front = same ++ [last] ∧
        lines newline (front ++ back) = same ++ (last ++ more) :: rest ∧ newline ∉ last ∧
          more ≠ [] := by
  by_cases closed : IsClosed newline front
  · exact .inl ⟨_, lines_append closed back⟩
  · rcases exists_last closed with ⟨before, last, rfl, ended, some_last, plain, read⟩
    cases back with
    | nil => exact .inl ⟨[], by simp⟩
    | cons letter others =>
        right
        rcases @exists_chunk α _ newline last letter others with ⟨more, rest, continued, some_more⟩
        refine ⟨lines newline before, last, more, rest, read, ?_, plain, some_more⟩
        rw [List.append_assoc, lines_append ended, ← continued]
        have entered := @chunksFrom_of_open α _ newline last [] plain (letter :: others)
        exact congrArg (lines newline before ++ ·) entered

theorem isCut_of_line {last : List α} (same : List (List α)) (opened : newline ∉ last)
    (more : List α) (rest : List (List α)) :
    IsCut (same ++ [last]) (same ++ chomp newline (last ++ more) :: rest) := by
  rw [chomp_append opened]
  by_cases only_newline : chomp newline more = []
  · have first : same ++ (last ++ chomp newline more) :: rest = (same ++ [last]) ++ rest := by
      simp [only_newline]
    rw [first]
    exact .between _ rest
  · apply IsCut.within
    rw [List.length_append]
    exact Nat.lt_add_of_pos_right (List.length_pos_iff.mpr only_newline)

theorem isCut_bodies (front back : List α) :
    IsCut (bodies newline front) (bodies newline (front ++ back)) := by
  rcases @lines_of_front α _ newline front back with
    ⟨rest, read⟩ | ⟨same, last, more, rest, front_eq, whole_eq, opened, -⟩
  · rw [bodies, bodies, read, List.map_append]
    exact .between _ _
  · rw [bodies, bodies, front_eq, whole_eq, List.map_append, List.map_append, List.map_singleton,
      List.map_cons, chomp_of_notMem opened]
    exact isCut_of_line _ opened more _

end Cuts

end Lines
