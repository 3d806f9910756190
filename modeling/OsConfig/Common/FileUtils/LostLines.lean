import OsConfig.Common.FileUtils.FailingEdits
import OsConfig.Library.Lines

/-!
# Lines that get lost

An edit fails safely if after an error the file is what it was, and otherwise
the new line is there besides every line that was not marked. A failure that is
not noticed takes away lines: those behind the one that `fgets` could not read,
those that were not flushed, the new line if it is appended. Also without any
failure a new line that is not closed, or too long, spoils what it replaces.
-/

namespace OsConfig.CommonUtils.Failing

def unmarked (marker : ByteString) (comment : UInt8) (lines : List ByteString) : List ByteString :=
  lines.filter fun line => !isMarked marker comment line.cString

def unmarkedLines (marker : ByteString) (comment : UInt8) (content : ByteString) :
    List ByteString :=
  unmarked marker comment (textLines content)

/-- The lines that are not marked, without their newlines. -/
def unmarkedBodies (marker : ByteString) (comment : UInt8) (content : ByteString) :
    List ByteString :=
  (unmarkedLines marker comment content).map (Lines.chomp 10)

/-- What is read before `fgets` fails. -/
def contentRead (read : Option ℕ) (content : ByteString) : ByteString :=
  (linesRead read content).flatten

def MarkedFit (marker content : ByteString) : Prop :=
  ∀ line ∈ textLines content, marker <:+: line → line.length ≤ lineMax

section Reading

variable {marker content line : ByteString} {comment : UInt8} {read : Option ℕ}

theorem textLines_eq (content : ByteString) : textLines content = Lines.lines 10 content := rfl

theorem fgetsLines_eq_flatMap (content : ByteString) :
    fgetsLines content = (textLines content).flatMap fgetsLines :=
  Lines.chunks_eq_flatMap lineMax content

theorem fgetsLines_of_short (some_line : line ≠ []) (plain : 10 ∉ line.dropLast)
    (short : line.length ≤ lineMax) : fgetsLines line = [line] := by
  have proper : ∀ other ∈ [line], Chunks.IsChunk 10 lineMax other := by
    intro other mem
    rw [List.mem_singleton.mp mem]
    exact ⟨some_line, plain, short⟩
  have alone := Chunks.chunks_flatten_of_complete proper (List.pairwise_singleton _ _)
  rwa [List.flatten_singleton] at alone

theorem linesRead_isPrefix (read : Option ℕ) (content : ByteString) :
    linesRead read content <+: fgetsLines content := by
  cases read with
  | none => exact List.prefix_rfl
  | some lines => exact List.take_prefix lines _

theorem fgetsLines_contentRead (read : Option ℕ) (content : ByteString) :
    fgetsLines (contentRead read content) = linesRead read content := by
  have inside := (linesRead_isPrefix read content).sublist
  exact Chunks.chunks_flatten_of_complete
    (fun line mem => isChunk_of_mem_fgetsLines (inside.subset mem))
    ((pairwise_fgetsLines content).sublist inside)

theorem exists_unread (read : Option ℕ) (content : ByteString) :
    ∃ unread, content = contentRead read content ++ unread := by
  rcases linesRead_isPrefix read content with ⟨others, split_eq⟩
  refine ⟨others.flatten, ?_⟩
  rw [contentRead, ← List.flatten_append, split_eq, flatten_fgetsLines]

theorem textLines_contentRead (fit : MarkedFit marker content) (read : Option ℕ) :
    (∃ rest, textLines content = textLines (contentRead read content) ++ rest) ∨
      ∃ same last more rest, textLines (contentRead read content) = same ++ [last] ∧
        textLines content = same ++ (last ++ more) :: rest ∧ 10 ∉ last ∧
          ¬ marker <:+: last ++ more := by
  rcases exists_unread read content with ⟨unread, content_eq⟩
  have split_lines := @Lines.lines_of_front UInt8 _ 10 (contentRead read content) unread
  rw [← content_eq] at split_lines
  rcases split_lines with ⟨rest, whole⟩ | ⟨same, last, more, rest, part, whole, opened, some_more⟩
  · exact .inl ⟨rest, whole⟩
  · right
    refine ⟨same, last, more, rest, part, whole, opened, fun marked => some_more ?_⟩
    have mem : last ++ more ∈ textLines content := by
      rw [textLines_eq, whole]
      simp
    have short := fit _ mem marked
    have last_mem : last ∈ Lines.lines 10 (contentRead read content) := by simp [part]
    have some_last := Lines.ne_nil_of_mem_lines last_mem
    have here : fgetsLines last = [last] := by
      apply fgetsLines_of_short some_last (Lines.notMem_dropLast_of_mem_lines last_mem)
      rw [List.length_append] at short
      omega
    have there : fgetsLines (last ++ more) = [last ++ more] :=
      fgetsLines_of_short (Lines.ne_nil_of_mem_lines mem) (Lines.notMem_dropLast_of_mem_lines mem)
        short
    have pieces := linesRead_isPrefix read content
    rw [← fgetsLines_contentRead, fgetsLines_eq_flatMap (contentRead read content),
      fgetsLines_eq_flatMap content, textLines_eq, textLines_eq, part, whole, List.flatMap_append,
      List.flatMap_append, List.flatMap_cons, List.flatMap_cons, here, there,
      List.prefix_append_right_inj, List.singleton_append, List.singleton_append,
      List.cons_prefix_cons] at pieces
    simpa using pieces.1.symm

theorem not_infix_cString (absent : ¬ marker <:+: line) : ¬ marker <:+: line.cString := by
  intro inside
  have front : line.cString <+: line := List.takeWhile_prefix _
  exact absent (inside.trans front.isInfix)

theorem isMarked_of_absent (absent : ¬ marker <:+: line) :
    isMarked marker comment line.cString = false := by
  simp [isMarked, not_infix_cString absent]

theorem markedFit_contentRead (fit : MarkedFit marker content) (read : Option ℕ) :
    MarkedFit marker (contentRead read content) := by
  intro line mem marked
  rcases textLines_contentRead fit read with
    ⟨rest, whole⟩ | ⟨same, last, more, rest, part, whole, -, absent⟩
  · apply fit line _ marked
    rw [whole]
    exact List.mem_append_left rest mem
  · rw [part, List.mem_append, List.mem_singleton] at mem
    rcases mem with early | rfl
    · apply fit line _ marked
      rw [whole]
      exact List.mem_append_left _ early
    · exact absurd (marked.trans (List.prefix_append line more).isInfix) absent

theorem isCut_unmarkedLines (fit : MarkedFit marker content) (read : Option ℕ) :
    Lines.IsCut (unmarkedBodies marker comment (contentRead read content))
      (unmarkedBodies marker comment content) := by
  rcases textLines_contentRead fit read with
    ⟨rest, whole⟩ | ⟨same, last, more, rest, part, whole, opened, absent⟩
  · rw [unmarkedBodies, unmarkedBodies, unmarkedLines, unmarkedLines, unmarked, unmarked, whole,
      List.filter_append, List.map_append]
    exact .between _ _
  · have part_absent : ¬ marker <:+: last := fun inside =>
      absent (inside.trans (List.prefix_append last more).isInfix)
    rw [unmarkedBodies, unmarkedBodies, unmarkedLines, unmarkedLines, unmarked, unmarked, part, whole,
      List.filter_append, List.filter_append,
      List.filter_cons_of_pos (by simp [isMarked_of_absent part_absent]), List.filter_nil,
      List.filter_cons_of_pos (by simp [isMarked_of_absent absent]), List.map_append,
      List.map_append, List.map_singleton, List.map_cons, Lines.chomp_of_notMem opened]
    exact Lines.isCut_of_line _ opened more _

theorem nul_notMem_contentRead (fit : MarkedFit marker content) (read : Option ℕ)
    (noNul : ∀ line ∈ unmarkedLines marker comment content, 0 ∉ line)
    (mem : line ∈ unmarkedLines marker comment (contentRead read content)) : 0 ∉ line := by
  rw [unmarkedLines, unmarked, List.mem_filter] at mem
  rcases textLines_contentRead fit read with
    ⟨rest, whole⟩ | ⟨same, last, more, rest, part, whole, -, absent⟩
  · apply noNul line
    rw [unmarkedLines, unmarked, List.mem_filter, whole]
    exact ⟨List.mem_append_left rest mem.1, mem.2⟩
  · rw [part, List.mem_append, List.mem_singleton] at mem
    rcases mem with ⟨early | rfl, stays⟩
    · apply noNul line
      rw [unmarkedLines, unmarked, List.mem_filter, whole]
      exact ⟨List.mem_append_left _ early, stays⟩
    · intro nul
      have longer : line ++ more ∈ unmarkedLines marker comment content := by
        rw [unmarkedLines, unmarked, List.mem_filter, whole]
        exact ⟨by simp, by simp [isMarked_of_absent absent]⟩
      exact noNul _ longer (List.mem_append_left more nul)

end Reading

section Loop

variable {marker content : ByteString} {newline : Option ByteString} {comment : UInt8}
  {lines : List ByteString}

theorem replaceMarkedLines_append (replacedLine : Bool) (first second : List ByteString) :
    let before := replaceMarkedLines marker newline comment replacedLine first
    let behind := replaceMarkedLines marker newline comment before.1 second
    replaceMarkedLines marker newline comment replacedLine (first ++ second) =
      (behind.1, before.2 ++ behind.2) := by
  induction first generalizing replacedLine with
  | nil => rfl
  | cons line rest ih =>
      simp only [List.cons_append, replaceMarkedLines, ih, List.append_assoc]

theorem replaceMarkedLines_of_absent (replacedLine : Bool)
    (absent : ∀ line ∈ lines, ¬ marker <:+: line ∧ 0 ∉ line) :
    replaceMarkedLines marker newline comment replacedLine lines = (replacedLine, lines.flatten) := by
  induction lines with
  | nil => rfl
  | cons line rest ih =>
      rcases absent line List.mem_cons_self with ⟨elsewhere, noNul⟩
      have others := ih fun other mem => absent other (List.mem_cons_of_mem _ mem)
      simp [replaceMarkedLines, ByteString.cString_of_not_mem noNul, replaceMarkedLine, elsewhere,
        others]

/-- It does not matter in which pieces a line without the marker is read. -/
theorem replaceMarkedLines_flatMap (replacedLine : Bool)
    (whole : ∀ line ∈ lines, fgetsLines line = [line] ∨ ¬ marker <:+: line ∧ 0 ∉ line) :
    replaceMarkedLines marker newline comment replacedLine (lines.flatMap fgetsLines) =
      replaceMarkedLines marker newline comment replacedLine lines := by
  induction lines generalizing replacedLine with
  | nil => rfl
  | cons line rest ih =>
      have others := fun flag => ih flag fun other mem => whole other (List.mem_cons_of_mem _ mem)
      have here : replaceMarkedLines marker newline comment replacedLine (fgetsLines line) =
          replaceMarkedLines marker newline comment replacedLine [line] := by
        rcases whole line List.mem_cons_self with alone | ⟨absent, noNul⟩
        · rw [alone]
        · have pieces : ∀ piece ∈ fgetsLines line, ¬ marker <:+: piece ∧ 0 ∉ piece := by
            intro piece mem
            have inside : piece <:+: line := by
              have joined := List.infix_of_mem_flatten mem
              rwa [flatten_fgetsLines] at joined
            exact ⟨fun found => absent (found.trans inside), fun nul => noNul (inside.subset nul)⟩
          have alone : ∀ other ∈ [line], ¬ marker <:+: other ∧ 0 ∉ other := by
            intro other mem
            rw [List.mem_singleton.mp mem]
            exact ⟨absent, noNul⟩
          rw [replaceMarkedLines_of_absent _ pieces, replaceMarkedLines_of_absent _ alone,
            flatten_fgetsLines, List.flatten_singleton]
      rw [List.flatMap_cons, ← List.singleton_append, replaceMarkedLines_append,
        replaceMarkedLines_append, here, others]

theorem replaceMarkedLines_fgetsLines (fit : MarkedFit marker content)
    (noNul : ∀ line ∈ unmarkedLines marker comment content, 0 ∉ line) (replacedLine : Bool) :
    replaceMarkedLines marker newline comment replacedLine (fgetsLines content) =
      replaceMarkedLines marker newline comment replacedLine (textLines content) := by
  rw [fgetsLines_eq_flatMap]
  apply replaceMarkedLines_flatMap
  intro line mem
  by_cases marked : marker <:+: line
  · left
    exact fgetsLines_of_short (Lines.ne_nil_of_mem_lines mem)
      (Lines.notMem_dropLast_of_mem_lines mem) (fit line mem marked)
  · right
    refine ⟨marked, noNul line ?_⟩
    rw [unmarkedLines, unmarked, List.mem_filter]
    exact ⟨mem, by simp [isMarked_of_absent marked]⟩

theorem unmarked_cons_marked {line : ByteString}
    (marked : isMarked marker comment line.cString = true) (rest : List ByteString) :
    unmarked marker comment (line :: rest) = unmarked marker comment rest := by
  rw [unmarked, List.filter_cons_of_neg (by simp [marked])]
  rfl

theorem unmarked_cons_unmarked {line : ByteString}
    (stays : isMarked marker comment line.cString = false) (rest : List ByteString) :
    unmarked marker comment (line :: rest) = line :: unmarked marker comment rest := by
  rw [unmarked, List.filter_cons_of_pos (by simp [stays])]
  rfl

theorem replaceMarkedLine_unmarked {line : ByteString} (replacedLine : Bool) (noNul : 0 ∉ line)
    (stays : isMarked marker comment line.cString = false) :
    replaceMarkedLine marker newline comment replacedLine line.cString = (replacedLine, line) := by
  have unreplaceable : ¬ isReplaced marker (newline.getD []) comment line = true := by
    intro replaced
    rw [isMarked_of_isReplaced replaced] at stays
    cases stays
  rw [replaceMarkedLine_cString, if_neg unreplaceable, kept, stays, if_neg Bool.false_ne_true,
    ByteString.cString_of_not_mem noNul]

theorem replaceMarkedLines_unreplaced (replacedLine : Bool)
    (noNul : ∀ line ∈ unmarked marker comment lines, 0 ∉ line)
    (unreplaced : replacedLine = true ∨
      lines.any (isReplaced marker (newline.getD []) comment) = false) :
    replaceMarkedLines marker newline comment replacedLine lines =
      (replacedLine, (unmarked marker comment lines).flatten) := by
  induction lines with
  | nil => rfl
  | cons line rest ih =>
      have later : replacedLine = true ∨
          rest.any (isReplaced marker (newline.getD []) comment) = false := by
        rcases unreplaced with before | never
        · exact .inl before
        · rw [List.any_cons, Bool.or_eq_false_iff] at never
          exact .inr never.2
      cases marked : isMarked marker comment line.cString with
      | true =>
          rw [unmarked_cons_marked marked] at noNul ⊢
          have dropped : replaceMarkedLine marker newline comment replacedLine line.cString =
              (replacedLine, []) := by
            rw [replaceMarkedLine_cString]
            rcases unreplaced with rfl | never
            · simp [kept, marked]
            · rw [List.any_cons, Bool.or_eq_false_iff] at never
              simp [kept, marked, never.1]
          simp [replaceMarkedLines, dropped, ih noNul later]
      | false =>
          rw [unmarked_cons_unmarked marked] at noNul ⊢
          have here := @replaceMarkedLine_unmarked marker newline comment line replacedLine
            (noNul line List.mem_cons_self) marked
          have others := ih (fun other mem => noNul other (List.mem_cons_of_mem _ mem)) later
          simp only [replaceMarkedLines, here, others, List.flatten_cons]

theorem replaceMarkedLines_replaced (noNul : ∀ line ∈ unmarked marker comment lines, 0 ∉ line)
    (replaced : lines.any (isReplaced marker (newline.getD []) comment) = true) :
    let unreplaced := fun line => !isReplaced marker (newline.getD []) comment line
    replaceMarkedLines marker newline comment false lines =
      (true, (unmarked marker comment (lines.takeWhile unreplaced)).flatten ++
        ((newline.getD []).take lineMax ++
          (unmarked marker comment (lines.dropWhile unreplaced).tail).flatten)) := by
  intro unreplaced
  induction lines with
  | nil => cases replaced
  | cons line rest ih =>
      cases here : isReplaced marker (newline.getD []) comment line with
      | true =>
          have marked := isMarked_of_isReplaced here
          rw [unmarked_cons_marked marked] at noNul
          have others := @replaceMarkedLines_unreplaced marker newline comment rest true noNul
            (.inl rfl)
          simp [replaceMarkedLines, replaceMarkedLine_cString, here, others, unreplaced, unmarked]
      | false =>
          have later : rest.any (isReplaced marker (newline.getD []) comment) = true := by
            simpa [here] using replaced
          have before : (line :: rest).takeWhile unreplaced = line :: rest.takeWhile unreplaced := by
            simp [unreplaced, here]
          have behind : (line :: rest).dropWhile unreplaced = rest.dropWhile unreplaced := by
            simp [unreplaced, here]
          rw [before, behind]
          cases marked : isMarked marker comment line.cString with
          | true =>
              rw [unmarked_cons_marked marked] at noNul ⊢
              have dropped : replaceMarkedLine marker newline comment false line.cString =
                  (false, []) := by
                simp [replaceMarkedLine_cString, here, kept, marked]
              simp only [replaceMarkedLines, dropped, ih noNul later, List.nil_append]
          | false =>
              rw [unmarked_cons_unmarked marked] at noNul ⊢
              have stays := @replaceMarkedLine_unmarked marker newline comment line false
                (noNul line List.mem_cons_self) marked
              have others := ih (fun other mem => noNul other (List.mem_cons_of_mem _ mem)) later
              simp only [replaceMarkedLines, stays, others, List.flatten_cons, List.append_assoc]

end Loop

section Appending

variable {faults : Faults} {leftovers : Leftovers} {newline arrived : ByteString}
  {all : List ByteString}

/-- When appending loses none of the lines, of which some have arrived. A newline that no line
needs can stand in for a blank line. -/
def AppendKeeps (faults : Faults) (newline arrived : ByteString) (all : List ByteString) : Prop :=
  let lines := Lines.bodies 10 arrived
  if newline = [] then lines = all
  else
    faults.payload = false ∧ lines = all ∧ (faults.eol = false ∨ Lines.IsClosed 10 arrived) ∨
      faults.eol = false ∧ (arrived = [] ∨ arrived.getLast? = some 10 ∧ faults.ending = true) ∧
        (faults.payload = false ∧ all = lines ++ [[]] ∨ newline = [10] ∧ lines = all)

theorem bodies_pair (closed : Lines.IsClosed 10 arrived) (behind : ByteString) :
    Lines.bodies 10 (arrived ++ [10] ++ behind) =
      Lines.bodies 10 arrived ++ [] :: Lines.bodies 10 behind := by
  rw [List.append_assoc, List.singleton_append, Lines.bodies_closed_newline closed]

theorem subperm_appended {between : ByteString}
    (known : between = [] ∧ Lines.IsClosed 10 arrived ∨ between = [10]) :
    (Lines.bodies 10 newline ++ Lines.bodies 10 arrived).Subperm
      (Lines.bodies 10 (arrived ++ between ++ newline)) := by
  have swapped := @List.perm_append_comm _ (Lines.bodies 10 newline) (Lines.bodies 10 arrived)
  rcases known with ⟨rfl, closed⟩ | rfl
  · rw [List.append_nil, Lines.bodies_append closed]
    exact swapped.subperm
  · by_cases closed : Lines.IsClosed 10 arrived
    · rw [bodies_pair closed]
      apply swapped.subperm.trans
      rw [List.subperm_append_left]
      exact (List.sublist_cons_self _ _).subperm
    · rw [List.append_assoc, List.singleton_append, Lines.bodies_open_newline closed]
      exact swapped.subperm

theorem saved_eol (fails : Bool) (count : ℕ) :
    saved fails count [10] = [] ∨ saved fails count [10] = [10] := by
  unfold saved
  split
  · cases count with
    | zero => exact .inl rfl
    | succ more => exact .inr (by simp)
  · exact .inr rfl

theorem subperm_of_appendKeeps (keeps : AppendKeeps faults newline arrived all)
    (leftovers : Leftovers) :
    (Lines.bodies 10 newline ++ all).Subperm
      (Lines.bodies 10 (appendedText faults leftovers arrived newline)) := by
  unfold AppendKeeps at keeps
  unfold appendedText
  by_cases empty : newline = []
  · rw [if_pos empty] at keeps ⊢
    rw [empty, keeps]
    exact List.Subperm.refl _
  · rw [if_neg empty] at keeps ⊢
    rcases keeps with ⟨written, complete, separated⟩ | ⟨separated, spare, stands_in⟩
    · have whole : saved faults.payload leftovers.payload newline = newline := by
        rw [written]
        rfl
      rw [← complete, whole]
      apply subperm_appended
      split
      next ended => exact .inl ⟨rfl, .inr ended.2⟩
      · rcases separated with served | closed
        · rw [served]
          exact .inr rfl
        · rcases saved_eol faults.eol leftovers.eol with nothing | newline_there
          · exact .inl ⟨nothing, closed⟩
          · exact .inr newline_there
    · have closed : Lines.IsClosed 10 arrived := spare.imp_right And.left
      have unended : ¬ (faults.ending = false ∧ arrived.getLast? = some 10) := by
        rintro ⟨seen, ended⟩
        rcases spare with rfl | ⟨-, blind⟩
        · cases ended
        · rw [seen] at blind
          cases blind
      have between : saved faults.eol leftovers.eol [10] = [10] := by
        rw [separated]
        rfl
      rw [if_neg unended, between, bodies_pair closed]
      rcases stands_in with ⟨written, all_eq⟩ | ⟨rfl, complete⟩
      · have whole : saved faults.payload leftovers.payload newline = newline := by
          rw [written]
          rfl
        have swapped := @List.perm_append_comm _ (Lines.bodies 10 newline)
          (Lines.bodies 10 arrived ++ [[]])
        rw [whole, all_eq]
        apply swapped.subperm.trans
        rw [List.append_assoc, List.singleton_append]
      · have swapped := @List.perm_append_comm _ [[]] (Lines.bodies 10 arrived)
        rw [Lines.bodies_newline, ← complete]
        apply swapped.subperm.trans
        rw [List.subperm_append_left]
        exact List.singleton_subperm_iff.mpr List.mem_cons_self

theorem between_cases (faults : Faults) (arrived : ByteString) :
    (if faults.ending = false ∧ arrived.getLast? = some 10 then [] else saved faults.eol 0 [10]) =
        [] ∨
      (if faults.ending = false ∧ arrived.getLast? = some 10 then []
          else saved faults.eol 0 [10]) = [10] ∧
        faults.eol = false ∧ ¬ (faults.ending = false ∧ arrived.getLast? = some 10) := by
  split
  · exact .inl rfl
  next unended =>
    cases separated : faults.eol with
    | true => exact .inl rfl
    | false => exact .inr ⟨rfl, rfl, unended⟩

theorem spare_of_closed (closed : Lines.IsClosed 10 arrived)
    (unended : ¬ (faults.ending = false ∧ arrived.getLast? = some 10)) :
    arrived = [] ∨ arrived.getLast? = some 10 ∧ faults.ending = true := by
  rcases closed with empty | ended
  · exact .inl empty
  · right
    refine ⟨ended, ?_⟩
    by_contra seen
    exact unended ⟨Bool.eq_false_iff.mpr seen, ended⟩

/-- If nothing arrives of the writes that fail, no more can be kept. -/
theorem appendKeeps_of_subperm (cut : Lines.IsCut (Lines.bodies 10 arrived) all)
    (contained : (Lines.bodies 10 newline ++ all).Subperm
      (Lines.bodies 10 (appendedText faults ⟨0, 0, 0⟩ arrived newline))) :
    AppendKeeps faults newline arrived all := by
  have fewer := cut.size_le
  have enough := Lines.size_le_of_subperm contained
  rw [Lines.size_append] at enough
  unfold AppendKeeps
  unfold appendedText at enough contained
  by_cases empty : newline = []
  · rw [if_pos empty] at enough ⊢
    exact cut.eq_of_size (by omega)
  · rw [if_neg empty] at enough contained ⊢
    have some_newline : 0 < newline.length := List.length_pos_iff.mpr empty
    have longer := @Lines.length_le_size UInt8 _ 10 newline
    cases written : faults.payload with
    | true =>
        have nothing : saved true 0 newline = [] := rfl
        rw [written, nothing, List.append_nil] at enough
        rcases between_cases faults arrived with none_there | ⟨newline_there, separated, unended⟩
        · -- The new line has no room among the lines that have arrived.
          rw [none_there, List.append_nil] at enough
          omega
        · rw [newline_there] at enough
          by_cases closed : Lines.IsClosed 10 arrived
          · have pair := bodies_pair closed []
            rw [List.append_nil] at pair
            rw [pair, Lines.bodies_nil, Lines.size_append, Lines.size_cons, Lines.size_nil,
              List.length_nil] at enough
            have alone : newline = [10] := Lines.eq_newline_of_size empty (by omega)
            have complete := cut.eq_of_size (by omega)
            exact .inr ⟨separated, spare_of_closed closed unended, .inr ⟨alone, complete⟩⟩
          · rw [Lines.bodies_open_newline closed, Lines.bodies_nil, List.append_nil] at enough
            omega
    | false =>
        have whole : saved false 0 newline = newline := rfl
        rw [written, whole] at enough contained
        rcases between_cases faults arrived with none_there | ⟨newline_there, separated, unended⟩
        · rw [none_there, List.append_nil] at enough
          by_cases closed : Lines.IsClosed 10 arrived
          · rw [Lines.bodies_append closed, Lines.size_append] at enough
            exact .inl ⟨rfl, cut.eq_of_size (by omega), .inr closed⟩
          · have joined := Lines.size_bodies_join closed empty
            omega
        · rw [newline_there] at enough contained
          by_cases closed : Lines.IsClosed 10 arrived
          · rw [bodies_pair closed] at contained
            have swapped := @List.perm_append_comm _ (Lines.bodies 10 newline)
              (Lines.bodies 10 arrived ++ [[]])
            rw [List.append_assoc, List.singleton_append] at swapped
            have cancelled := contained.trans swapped.symm.subperm
            rw [List.subperm_append_left] at cancelled
            rcases cut.of_subperm_blank cancelled with complete | but_blank
            · exact .inl ⟨rfl, complete.symm, .inl separated⟩
            · exact .inr ⟨separated, spare_of_closed closed unended, .inl ⟨rfl, but_blank⟩⟩
          · rw [List.append_assoc, List.singleton_append, Lines.bodies_open_newline closed,
              Lines.size_append] at enough
            exact .inl ⟨rfl, cut.eq_of_size (by omega), .inl separated⟩

end Appending

section Replacing

variable {faults : Faults} {marker newline content : ByteString} {comment : UInt8}
  {lines : List ByteString} {read : Option ℕ}

theorem bodies_unmarked (some_of : lines.Sublist (textLines content)) :
    Lines.bodies 10 (unmarked marker comment lines).flatten =
      (unmarked marker comment lines).map (Lines.chomp 10) := by
  have inside : (unmarked marker comment lines).Sublist (Lines.lines 10 content) :=
    List.filter_sublist.trans some_of
  rw [Lines.bodies, Lines.lines_flatten_of_sublist inside]

theorem bodies_unmarkedLines :
    Lines.bodies 10 (unmarkedLines marker comment content).flatten =
      unmarkedBodies marker comment content :=
  bodies_unmarked (List.Sublist.refl _)

/-- The lines in front of the one that is replaced. -/
def linesBefore (marker newline : ByteString) (comment : UInt8) (lines : List ByteString) :
    List ByteString :=
  unmarked marker comment (lines.takeWhile fun line => !isReplaced marker newline comment line)

def linesBehind (marker newline : ByteString) (comment : UInt8) (lines : List ByteString) :
    List ByteString :=
  unmarked marker comment (lines.dropWhile fun line => !isReplaced marker newline comment line).tail

theorem exists_replaced (replaced : lines.any (isReplaced marker newline comment) = true) :
    ∃ line rest, lines.dropWhile (fun line => !isReplaced marker newline comment line) =
      line :: rest ∧ isReplaced marker newline comment line = true := by
  cases dropped : lines.dropWhile fun line => !isReplaced marker newline comment line with
  | nil =>
      rw [List.dropWhile_eq_nil_iff] at dropped
      rcases List.any_eq_true.mp replaced with ⟨line, mem, here⟩
      have contrary := dropped line mem
      rw [here] at contrary
      cases contrary
  | cons line rest =>
      refine ⟨line, rest, rfl, ?_⟩
      have head := List.head?_dropWhile_not (fun line => !isReplaced marker newline comment line) lines
      simpa [dropped] using head

theorem unmarked_eq_append (replaced : lines.any (isReplaced marker newline comment) = true) :
    unmarked marker comment lines =
      linesBefore marker newline comment lines ++ linesBehind marker newline comment lines := by
  rcases exists_replaced replaced with ⟨line, rest, dropped, here⟩
  have whole := @List.takeWhile_append_dropWhile _
    (fun line => !isReplaced marker newline comment line) lines
  rw [linesBefore, linesBehind, dropped, List.tail_cons,
    ← unmarked_cons_marked (isMarked_of_isReplaced here) rest, ← dropped, unmarked, unmarked,
    unmarked, ← List.filter_append, whole]

theorem isClosed_linesBefore
    (replaced : (textLines content).any (isReplaced marker newline comment) = true) :
    Lines.IsClosed 10 (linesBefore marker newline comment (textLines content)).flatten := by
  apply Lines.isClosed_flatten
  intro line mem
  rcases exists_replaced replaced with ⟨first, rest, dropped, -⟩
  have ordered := @Lines.pairwise_lines UInt8 _ 10 content
  rw [← textLines_eq, ← @List.takeWhile_append_dropWhile _
    (fun line => !isReplaced marker newline comment line) (textLines content), dropped,
    List.pairwise_append] at ordered
  exact ordered.2.2 line (List.mem_of_mem_filter mem) first List.mem_cons_self

theorem bodies_replaced (replaced : (textLines content).any (isReplaced marker newline comment) = true)
    (new : ByteString) :
    Lines.bodies 10 ((linesBefore marker newline comment (textLines content)).flatten ++
        (new ++ (linesBehind marker newline comment (textLines content)).flatten)) =
      (linesBefore marker newline comment (textLines content)).map (Lines.chomp 10) ++
        Lines.bodies 10 (new ++ (linesBehind marker newline comment (textLines content)).flatten) := by
  rw [Lines.bodies_append (isClosed_linesBefore replaced)]
  congr 1
  exact bodies_unmarked (List.takeWhile_sublist _)

theorem bodies_linesBehind :
    Lines.bodies 10 (linesBehind marker newline comment (textLines content)).flatten =
      (linesBehind marker newline comment (textLines content)).map (Lines.chomp 10) :=
  bodies_unmarked ((List.tail_sublist _).trans (List.dropWhile_sublist _))

/-- When no line is lost where the new one replaces one. -/
structure ReplaceKeeps (faults : Faults) (marker newline : ByteString) (comment : UInt8)
    (content : ByteString) : Prop where
  flushed : faults.flush = false
  complete : unmarkedBodies marker comment (contentRead faults.read content) =
    unmarkedBodies marker comment content
  fits : Lines.bodies 10 (newline.take lineMax) = Lines.bodies 10 newline
  apart : Lines.IsClosed 10 (newline.take lineMax) ∨
    linesBehind marker newline comment (textLines (contentRead faults.read content)) = []

/-- Every unmarked line is there besides the new ones, each as often as it was. -/
def Contains (marker newline : ByteString) (comment : UInt8) (content text : ByteString) : Prop :=
  (Lines.bodies 10 newline ++ unmarkedBodies marker comment content).Subperm
    (Lines.bodies 10 text)

variable (marker newline comment) in
/-- What the loop writes where a line is replaced. -/
def replacedText (lines : List ByteString) : ByteString :=
  (linesBefore marker newline comment lines).flatten ++
    (newline.take lineMax ++ (linesBehind marker newline comment lines).flatten)

theorem bodies_replacedText_of_apart
    (replaced : (textLines content).any (isReplaced marker newline comment) = true)
    (apart : Lines.IsClosed 10 (newline.take lineMax) ∨
      linesBehind marker newline comment (textLines content) = []) :
    (Lines.bodies 10 (replacedText marker newline comment (textLines content))).Perm
      (Lines.bodies 10 (newline.take lineMax) ++ unmarkedBodies marker comment content) := by
  have behind : Lines.bodies 10 (newline.take lineMax ++
      (linesBehind marker newline comment (textLines content)).flatten) =
        Lines.bodies 10 (newline.take lineMax) ++
          (linesBehind marker newline comment (textLines content)).map (Lines.chomp 10) := by
    rcases apart with closed | none_there
    · rw [Lines.bodies_append closed, bodies_linesBehind]
    · simp [none_there]
  rw [replacedText, bodies_replaced replaced, behind, unmarkedBodies, unmarkedLines,
    unmarked_eq_append replaced, List.map_append, ← List.append_assoc, ← List.append_assoc]
  exact List.perm_append_comm.append_right _

theorem size_replacedText_lt
    (replaced : (textLines content).any (isReplaced marker newline comment) = true)
    (opened : ¬ Lines.IsClosed 10 (newline.take lineMax))
    (some_behind : linesBehind marker newline comment (textLines content) ≠ []) :
    Lines.size (Lines.bodies 10 (replacedText marker newline comment (textLines content))) <
      Lines.size (Lines.bodies 10 (newline.take lineMax)) +
        Lines.size (unmarkedBodies marker comment content) := by
  have some_text : (linesBehind marker newline comment (textLines content)).flatten ≠ [] := by
    intro empty
    apply some_behind
    have bodies := @bodies_linesBehind marker newline content comment
    rw [empty, Lines.bodies_nil] at bodies
    exact List.map_eq_nil_iff.mp bodies.symm
  have joined := Lines.size_bodies_join opened some_text
  rw [bodies_linesBehind] at joined
  rw [replacedText, bodies_replaced replaced, unmarkedBodies, unmarkedLines,
    unmarked_eq_append replaced, List.map_append, Lines.size_append, Lines.size_append]
  omega

theorem long_of_replaced (replaced : lines.any (isReplaced marker newline comment) = true) :
    1 < newline.length := by
  rcases List.any_eq_true.mp replaced with ⟨line, -, here⟩
  simp only [isReplaced, Bool.and_eq_true, decide_eq_true_eq] at here
  exact here.1.1.1

theorem contains_replaced_iff {seen : ByteString} (fit : MarkedFit marker content)
    (seen_eq : contentRead faults.read content = seen)
    (replaced : (textLines seen).any (isReplaced marker newline comment) = true) :
    (∀ arrived, Contains marker newline comment content
        (saved faults.flush arrived (replacedText marker newline comment (textLines seen)))) ↔
      ReplaceKeeps faults marker newline comment content := by
  have cut := @isCut_unmarkedLines marker content comment fit faults.read
  rw [seen_eq] at cut
  have shortened : Lines.IsCut (Lines.bodies 10 (newline.take lineMax)) (Lines.bodies 10 newline) := by
    have parts := @Lines.isCut_bodies UInt8 _ 10 (newline.take lineMax) (newline.drop lineMax)
    rwa [List.take_append_drop] at parts
  constructor
  · intro contains
    have enough := Lines.size_le_of_subperm (contains 0)
    rw [Lines.size_append] at enough
    have fewer := cut.size_le
    have shorter := shortened.size_le
    have flushed : faults.flush = false := by
      by_contra failed
      rw [Bool.not_eq_false] at failed
      have nothing : saved true 0 (replacedText marker newline comment (textLines seen)) = [] := rfl
      have longer := @Lines.length_le_size UInt8 _ 10 newline
      have some_newline := long_of_replaced replaced
      rw [failed, nothing, Lines.bodies_nil, Lines.size_nil] at enough
      omega
    have apart : Lines.IsClosed 10 (newline.take lineMax) ∨
        linesBehind marker newline comment (textLines seen) = [] := by
      by_contra joined
      rw [not_or] at joined
      have smaller := size_replacedText_lt replaced joined.1 joined.2
      have whole : saved false 0 (replacedText marker newline comment (textLines seen)) =
          replacedText marker newline comment (textLines seen) := rfl
      rw [flushed, whole] at enough
      omega
    have sizes := Lines.size_le_of_subperm (bodies_replacedText_of_apart replaced apart).subperm
    have whole : saved false 0 (replacedText marker newline comment (textLines seen)) =
        replacedText marker newline comment (textLines seen) := rfl
    rw [flushed, whole] at enough
    rw [Lines.size_append] at sizes
    refine ⟨flushed, ?_, shortened.eq_of_size (by omega), ?_⟩
    · rw [seen_eq]
      exact cut.eq_of_size (by omega)
    · rw [seen_eq]
      exact apart
  · intro keeps arrived
    rw [keeps.flushed]
    have text := bodies_replacedText_of_apart replaced (by simpa [seen_eq] using keeps.apart)
    have complete := keeps.complete
    rw [seen_eq] at complete
    rw [keeps.fits, complete] at text
    exact text.symm.subperm

end Replacing

section Safety

variable {faults : Faults} {leftovers : Leftovers} {marker newline content : ByteString}
  {comment : UInt8}

theorem nul_notMem_written {newline : Option ByteString} (string : 0 ∉ newline.getD [])
    (replacedLine : Bool) (lines : List ByteString) :
    0 ∉ (replaceMarkedLines marker newline comment replacedLine lines).2 := by
  induction lines generalizing replacedLine with
  | nil => exact List.not_mem_nil
  | cons line rest ih =>
      rw [replaceMarkedLines, replaceMarkedLine_cString]
      have here : 0 ∉ kept marker comment line := by
        unfold kept
        split
        · exact List.not_mem_nil
        · intro nul
          simpa using List.mem_takeWhile_imp nul
      have new : 0 ∉ (newline.getD []).take lineMax := fun nul =>
        string (List.mem_of_mem_take nul)
      by_cases replaced : isReplaced marker (newline.getD []) comment line = true
      · rw [if_pos replaced]
        cases replacedLine with
        | true => simpa using ih true
        | false => simpa [new] using ih true
      · rw [if_neg replaced]
        simpa [here] using ih replacedLine

theorem nul_notMem_saved {fails : Bool} {arrived : ℕ} {text : ByteString} (string : 0 ∉ text) :
    0 ∉ saved fails arrived text := by
  unfold saved
  split
  · exact fun nul => string (List.mem_of_mem_take nul)
  · exact string

theorem nul_notMem_result (string : 0 ∉ newline) :
    0 ∉ result faults leftovers marker (some newline) comment content := by
  have written := @nul_notMem_saved faults.flush leftovers.lines _
    (@nul_notMem_written marker comment (some newline) string false (linesRead faults.read content))
  simp only [result]
  split
  · exact written
  · unfold appendedText
    split
    · exact written
    · have between : (0 : UInt8) ∉ [10] := by decide
      rw [List.mem_append, List.mem_append, not_or, not_or]
      refine ⟨⟨written, ?_⟩, nul_notMem_saved string⟩
      split
      · exact List.not_mem_nil
      · exact nul_notMem_saved between

theorem noNul_of_contains {text : ByteString} (string : 0 ∉ text)
    (contains : Contains marker newline comment content text) :
    ∀ line ∈ unmarkedLines marker comment content, 0 ∉ line := by
  intro line mem nul
  have line_mem : line ∈ Lines.lines 10 content := List.mem_of_mem_filter mem
  have inside := Lines.mem_chomp line_mem nul (by decide)
  have body_mem : Lines.chomp 10 line ∈ Lines.bodies 10 text :=
    contains.subset (List.mem_append_right _ (List.mem_map_of_mem mem))
  exact string (Lines.subset_of_mem_bodies body_mem inside)

/-- Where nothing that is kept may be missing, a part of it does no harm. -/
theorem appendKeeps_take {written : ByteString} {all : List ByteString}
    (cut : Lines.IsCut (Lines.bodies 10 written) all) (keeps : AppendKeeps faults newline [] all)
    (arrived : ℕ) : AppendKeeps faults newline (written.take arrived) all := by
  have fewer := cut.size_le
  have of_none : all = [] → AppendKeeps faults newline (written.take arrived) all := by
    rintro rfl
    have nothing : written = [] := by
      apply Lines.eq_nil_of_bodies
      exact Lines.size_eq_zero_iff.mp (Nat.le_zero.mp fewer)
    rw [nothing, List.take_nil]
    exact keeps
  by_cases empty : newline = []
  · apply of_none
    simp only [AppendKeeps, if_pos empty, Lines.bodies_nil] at keeps
    exact keeps.symm
  · have cases_of := keeps
    simp only [AppendKeeps, if_neg empty, Lines.bodies_nil] at cases_of
    rcases cases_of with ⟨-, none_there, -⟩ | ⟨separated, -, ⟨payload, blank⟩ | ⟨-, none_there⟩⟩
    · exact of_none none_there.symm
    · rw [List.nil_append] at blank
      subst blank
      have short : written = [] ∨ written = [10] := by
        by_cases nothing : written = []
        · exact .inl nothing
        · exact .inr (Lines.eq_newline_of_size nothing fewer)
      have part : written.take arrived = [] ∨ written.take arrived = [10] := by
        rcases short with rfl | rfl
        · exact .inl List.take_nil
        · cases arrived with
          | zero => exact .inl rfl
          | succ more => exact .inr (by simp)
      rcases part with nothing | newline_there
      · rw [nothing]
        exact keeps
      · rw [newline_there, AppendKeeps, if_neg empty]
        exact .inl ⟨payload, Lines.bodies_newline, .inl separated⟩
    · exact of_none none_there.symm

/-- The unmarked lines that are sure to arrive. -/
def arrivedText (faults : Faults) (marker : ByteString) (comment : UInt8) (content : ByteString) :
    ByteString :=
  if faults.flush then []
  else (unmarkedLines marker comment (contentRead faults.read content)).flatten

theorem contains_appended_iff (fit : MarkedFit marker content) :
    (∀ leftovers, Contains marker newline comment content
        (appendedText faults leftovers (saved faults.flush leftovers.lines
          (unmarkedLines marker comment (contentRead faults.read content)).flatten) newline)) ↔
      AppendKeeps faults newline (arrivedText faults marker comment content)
        (unmarkedBodies marker comment content) := by
  have cut := @isCut_unmarkedLines marker content comment fit faults.read
  rw [← @bodies_unmarkedLines marker (contentRead faults.read content)] at cut
  unfold arrivedText
  cases flushed : faults.flush with
  | true =>
      have nothing : ∀ text, saved true 0 text = [] := fun _ => rfl
      rw [if_pos rfl]
      constructor
      · intro contains
        have worst := contains ⟨0, 0, 0⟩
        rw [nothing] at worst
        exact appendKeeps_of_subperm (.between [] _) worst
      · exact fun keeps leftovers => subperm_of_appendKeeps (appendKeeps_take cut keeps _) leftovers
  | false =>
      have whole : ∀ arrived text, saved false arrived text = text := fun _ _ => rfl
      rw [if_neg Bool.false_ne_true]
      simp only [whole]
      constructor
      · exact fun contains => appendKeeps_of_subperm cut (contains ⟨0, 0, 0⟩)
      · exact fun keeps leftovers => subperm_of_appendKeeps keeps leftovers

/-- When no line is lost though nothing is noticed. -/
def Keeps (faults : Faults) (marker newline : ByteString) (comment : UInt8)
    (content : ByteString) : Prop :=
  (∀ line ∈ unmarkedLines marker comment content, 0 ∉ line) ∧
    if (textLines (contentRead faults.read content)).any (isReplaced marker newline comment) then
      ReplaceKeeps faults marker newline comment content
    else
      AppendKeeps faults newline (arrivedText faults marker comment content)
        (unmarkedBodies marker comment content)

theorem contains_result_iff (fit : MarkedFit marker content) (string : 0 ∉ newline) :
    (∀ leftovers, Contains marker newline comment content
        (result faults leftovers marker (some newline) comment content)) ↔
      Keeps faults marker newline comment content := by
  by_cases noNul : ∀ line ∈ unmarkedLines marker comment content, 0 ∉ line
  · have seen_fit := markedFit_contentRead fit faults.read
    have seen_noNul : ∀ line ∈ unmarked marker comment
        (textLines (contentRead faults.read content)), 0 ∉ line := fun _ mem =>
      nul_notMem_contentRead fit faults.read noNul mem
    have loop := @replaceMarkedLines_fgetsLines marker (contentRead faults.read content)
      (some newline) comment seen_fit seen_noNul false
    rw [fgetsLines_contentRead] at loop
    rw [Keeps, and_iff_right noNul]
    by_cases replaced : (textLines (contentRead faults.read content)).any
        (isReplaced marker newline comment) = true
    · have written := @replaceMarkedLines_replaced marker (some newline) comment _ seen_noNul replaced
      have result_eq : ∀ leftovers, result faults leftovers marker (some newline) comment content =
          saved faults.flush leftovers.lines (replacedText marker newline comment
            (textLines (contentRead faults.read content))) := by
        intro leftovers
        simp only [result, loop, written, if_true]
        rfl
      rw [if_pos replaced, ← contains_replaced_iff fit rfl replaced]
      simp only [result_eq]
      exact ⟨fun contains arrived => contains ⟨arrived, 0, 0⟩, fun contains _ => contains _⟩
    · have written := @replaceMarkedLines_unreplaced marker (some newline) comment _ false
        seen_noNul (.inr (Bool.eq_false_iff.mpr replaced))
      have result_eq : ∀ leftovers, result faults leftovers marker (some newline) comment content =
          appendedText faults leftovers (saved faults.flush leftovers.lines
            (unmarkedLines marker comment (contentRead faults.read content)).flatten) newline := by
        intro leftovers
        simp only [result, loop, written, Bool.false_eq_true, if_false]
        rfl
      rw [if_neg replaced, ← contains_appended_iff fit]
      simp only [result_eq]
  · constructor
    · intro contains
      exact absurd (noNul_of_contains (nul_notMem_result string) (contains ⟨0, 0, 0⟩)) noNul
    · intro keeps
      exact absurd keeps.1 noNul

/-- After an error the file is what it was. Otherwise it contains the new lines and those that were
not marked, whatever arrives of a write that fails. -/
def FailsSafely (faults : Faults) (fileName marker : ByteString) (newline : Option ByteString)
    (comment : UInt8) (random : ℕ) (content : ByteString) (fs : FileSystem) : Prop :=
  ∀ leftovers,
    let outcome :=
      replaceMarkedLinesInFile faults leftovers fileName marker newline comment random fs
    (outcome.1 ≠ 0 → outcome.2.read fileName = some content) ∧
      (outcome.1 = 0 → ∀ replacement, newline = some replacement →
        ∃ text, outcome.2.read fileName = some text ∧
          Contains marker replacement comment content text)

end Safety

end OsConfig.CommonUtils.Failing
