import Mathlib.Data.List.Basic
import Mathlib.Tactic.Basic

/-!
# Terminated chunks

A text is read in chunks. A chunk ends behind a terminator, when it has reached
the limit, or with the text. Put together again the chunks are the text. A text
whose chunks all end in terminators can be read apart from what follows it.
-/

namespace Chunks

variable {α : Type*} [DecidableEq α]

/-- The chunks of a text, of which `current` has been read already. -/
def chunksFrom (terminator : α) (limit : ℕ) : List α → List α → List (List α)
  | current, [] => if current = [] then [] else [current]
  | current, letter :: rest =>
      let chunk := current ++ [letter]
      if letter = terminator ∨ chunk.length = limit then
        chunk :: chunksFrom terminator limit [] rest
      else chunksFrom terminator limit chunk rest

def chunks (terminator : α) (limit : ℕ) (text : List α) : List (List α) :=
  chunksFrom terminator limit [] text

variable {terminator : α} {limit : ℕ}

theorem flatten_chunksFrom (current text : List α) :
    (chunksFrom terminator limit current text).flatten = current ++ text := by
  induction text generalizing current with
  | nil =>
      rw [chunksFrom]
      split
      next empty => simp [empty]
      · simp
  | cons letter rest ih =>
      rw [chunksFrom]
      split
      · rw [List.flatten_cons, ih]
        simp
      · rw [ih]
        simp

/-- Reading takes every letter once. -/
theorem flatten_chunks (text : List α) : (chunks terminator limit text).flatten = text :=
  flatten_chunksFrom [] text

theorem ne_nil_of_mem_chunksFrom {chunk current text : List α}
    (mem : chunk ∈ chunksFrom terminator limit current text) : chunk ≠ [] := by
  induction text generalizing current with
  | nil =>
      rw [chunksFrom] at mem
      split at mem
      · cases mem
      next nonempty =>
        rw [List.mem_singleton.mp mem]
        exact nonempty
  | cons letter rest ih =>
      rw [chunksFrom] at mem
      split at mem
      · rcases List.mem_cons.mp mem with rfl | later
        · simp
        · exact ih later
      · exact ih mem

theorem length_le_of_mem_chunksFrom {chunk current text : List α} (short : current.length < limit)
    (mem : chunk ∈ chunksFrom terminator limit current text) : chunk.length ≤ limit := by
  induction text generalizing current with
  | nil =>
      rw [chunksFrom] at mem
      split at mem
      · cases mem
      · rw [List.mem_singleton.mp mem]
        omega
  | cons letter rest ih =>
      have longer : (current ++ [letter]).length = current.length + 1 := List.length_append
      rw [chunksFrom] at mem
      split at mem
      · rcases List.mem_cons.mp mem with rfl | later
        · omega
        · have positive : ([] : List α).length < limit := by
            rw [List.length_nil]
            omega
          exact ih positive later
      next inside =>
        apply ih _ mem
        omega

/-- Every chunk ends in the terminator. -/
def Terminated (terminator : α) (limit : ℕ) (text : List α) : Prop :=
  ∀ chunk ∈ chunks terminator limit text, chunk.getLast? = some terminator

instance (text : List α) : Decidable (Terminated terminator limit text) :=
  inferInstanceAs (Decidable (∀ chunk ∈ chunks terminator limit text, _))

theorem chunksFrom_of_notMem {current body : List α} (rest : List α) (plain : terminator ∉ body)
    (short : current.length + body.length < limit) :
    chunksFrom terminator limit current (body ++ terminator :: rest) =
      (current ++ body ++ [terminator]) :: chunks terminator limit rest := by
  induction body generalizing current with
  | nil => simp [chunksFrom, chunks]
  | cons letter others ih =>
      rw [List.mem_cons, not_or] at plain
      rw [List.length_cons] at short
      have inside : ¬ (letter = terminator ∨ (current ++ [letter]).length = limit) := by
        rintro (here | full)
        · exact plain.1 here.symm
        · rw [List.length_append, List.length_singleton] at full
          omega
      rw [List.cons_append, chunksFrom, if_neg inside, ih plain.2]
      · simp
      · rw [List.length_append, List.length_singleton]
        omega

theorem chunks_line {body : List α} (rest : List α) (plain : terminator ∉ body)
    (short : body.length < limit) :
    chunks terminator limit (body ++ terminator :: rest) =
      (body ++ [terminator]) :: chunks terminator limit rest := by
  have room : ([] : List α).length + body.length < limit := by simpa using short
  have first := chunksFrom_of_notMem rest plain room
  simpa [chunks] using first

/-- A chunk that ends in the terminator and has no other. -/
def IsLine (terminator : α) (limit : ℕ) (chunk : List α) : Prop :=
  ∃ body, chunk = body ++ [terminator] ∧ terminator ∉ body ∧ body.length < limit

theorem notMem_dropLast_of_mem_chunksFrom {chunk current text : List α}
    (plain : terminator ∉ current) (mem : chunk ∈ chunksFrom terminator limit current text) :
    terminator ∉ chunk.dropLast := by
  induction text generalizing current with
  | nil =>
      rw [chunksFrom] at mem
      split at mem
      · cases mem
      · rw [List.mem_singleton.mp mem]
        exact fun inside => plain (List.dropLast_subset _ inside)
  | cons letter rest ih =>
      rw [chunksFrom] at mem
      split at mem
      · rcases List.mem_cons.mp mem with rfl | later
        · rwa [List.dropLast_concat]
        · exact ih List.not_mem_nil later
      next inside =>
        rw [not_or] at inside
        apply ih _ mem
        simpa [plain] using fun equal : terminator = letter => inside.1 equal.symm

theorem isLine_of_mem {chunk text : List α} (positive : 0 < limit)
    (terminated : Terminated terminator limit text) (mem : chunk ∈ chunks terminator limit text) :
    IsLine terminator limit chunk := by
  have last := terminated chunk mem
  have nonempty : chunk ≠ [] := ne_nil_of_mem_chunksFrom mem
  have room : ([] : List α).length < limit := positive
  have short : chunk.length ≤ limit := length_le_of_mem_chunksFrom room mem
  have split_eq : chunk = chunk.dropLast ++ [terminator] := by
    rw [List.getLast?_eq_some_getLast nonempty, Option.some.injEq] at last
    rw [← last, List.dropLast_concat_getLast nonempty]
  refine ⟨chunk.dropLast, split_eq, notMem_dropLast_of_mem_chunksFrom List.not_mem_nil mem, ?_⟩
  have counted := congrArg List.length split_eq
  rw [List.length_append, List.length_singleton] at counted
  omega

/-- Lines that are put together are read apart again. -/
theorem chunks_flatten {lines : List (List α)}
    (proper : ∀ line ∈ lines, IsLine terminator limit line) :
    chunks terminator limit lines.flatten = lines := by
  induction lines with
  | nil => rfl
  | cons line rest ih =>
      rcases proper line List.mem_cons_self with ⟨body, rfl, plain, short⟩
      rw [List.flatten_cons, List.append_assoc, List.singleton_append, chunks_line _ plain short,
        ih fun other mem => proper other (List.mem_cons_of_mem _ mem)]

theorem terminated_flatten {lines : List (List α)}
    (proper : ∀ line ∈ lines, IsLine terminator limit line) :
    Terminated terminator limit lines.flatten := by
  intro chunk mem
  rw [chunks_flatten proper] at mem
  rcases proper chunk mem with ⟨body, rfl, -, -⟩
  exact List.getLast?_concat

/-- What can be read as one chunk: no terminator in front of its end, and no longer than the
limit. -/
structure IsChunk (terminator : α) (limit : ℕ) (chunk : List α) : Prop where
  nonempty : chunk ≠ []
  plain : terminator ∉ chunk.dropLast
  short : chunk.length ≤ limit

/-- A chunk that ends whatever follows it. -/
def IsComplete (terminator : α) (limit : ℕ) (chunk : List α) : Prop :=
  chunk.getLast? = some terminator ∨ chunk.length = limit

theorem isChunk_of_mem {chunk text : List α} (positive : 0 < limit)
    (mem : chunk ∈ chunks terminator limit text) : IsChunk terminator limit chunk := by
  constructor
  · exact ne_nil_of_mem_chunksFrom mem
  · exact notMem_dropLast_of_mem_chunksFrom List.not_mem_nil mem
  · have room : ([] : List α).length < limit := positive
    exact length_le_of_mem_chunksFrom room mem

theorem pairwise_chunksFrom (current text : List α) :
    (chunksFrom terminator limit current text).Pairwise fun chunk _ =>
      IsComplete terminator limit chunk := by
  induction text generalizing current with
  | nil =>
      rw [chunksFrom]
      split
      · exact List.Pairwise.nil
      · exact List.pairwise_singleton _ _
  | cons letter rest ih =>
      rw [chunksFrom]
      split
      next ends =>
        apply List.pairwise_cons.mpr
        refine ⟨fun other mem => ?_, ih []⟩
        rcases ends with last | full
        · left
          simp [last]
        · exact .inr full
      · exact ih _

/-- A chunk that is under way goes on until it is complete. -/
theorem chunksFrom_complete {current body : List α} (rest : List α) (some_body : body ≠ [])
    (plain : terminator ∉ body.dropLast) (short : current.length + body.length ≤ limit)
    (complete : IsComplete terminator limit (current ++ body)) :
    chunksFrom terminator limit current (body ++ rest) =
      (current ++ body) :: chunks terminator limit rest := by
  induction body generalizing current with
  | nil => exact absurd rfl some_body
  | cons letter others ih =>
      rw [List.cons_append, chunksFrom]
      rcases List.eq_nil_or_concat others with rfl | ⟨front, last, concat⟩
      · have ends : letter = terminator ∨ (current ++ [letter]).length = limit := by
          simpa [IsComplete] using complete
        rw [if_pos ends]
        rfl
      · have some_others : others ≠ [] := by simp [concat]
        rw [List.dropLast_cons_of_ne_nil some_others, List.mem_cons, not_or] at plain
        have longer : 0 < others.length := List.length_pos_iff.mpr some_others
        rw [List.length_cons] at short
        have counted : (current ++ [letter]).length = current.length + 1 := List.length_append
        have inside : ¬ (letter = terminator ∨ (current ++ [letter]).length = limit) := by
          rintro (here | full)
          · exact plain.1 here.symm
          · omega
        rw [if_neg inside, ih some_others plain.2 (by omega) (by simpa using complete)]
        simp

theorem chunksFrom_last {current body : List α} (some_text : current ++ body ≠ [])
    (plain : terminator ∉ body.dropLast) (short : current.length + body.length ≤ limit) :
    chunksFrom terminator limit current body = [current ++ body] := by
  induction body generalizing current with
  | nil =>
      rw [List.append_nil] at some_text
      simp [chunksFrom, some_text]
  | cons letter others ih =>
      rw [chunksFrom]
      rcases List.eq_nil_or_concat others with rfl | ⟨front, last, concat⟩
      · split
        · rfl
        · simp [chunksFrom]
      · have some_others : others ≠ [] := by simp [concat]
        rw [List.dropLast_cons_of_ne_nil some_others, List.mem_cons, not_or] at plain
        have longer : 0 < others.length := List.length_pos_iff.mpr some_others
        rw [List.length_cons] at short
        have counted : (current ++ [letter]).length = current.length + 1 := List.length_append
        have inside : ¬ (letter = terminator ∨ (current ++ [letter]).length = limit) := by
          rintro (here | full)
          · exact plain.1 here.symm
          · omega
        rw [if_neg inside, ih (by simp) plain.2 (by omega)]
        simp

/-- Chunks are read apart again if all but the last are complete. -/
theorem chunks_flatten_of_complete {pieces : List (List α)}
    (proper : ∀ piece ∈ pieces, IsChunk terminator limit piece)
    (complete : pieces.Pairwise fun piece _ => IsComplete terminator limit piece) :
    chunks terminator limit pieces.flatten = pieces := by
  induction pieces with
  | nil => rfl
  | cons piece rest ih =>
      have here := proper piece List.mem_cons_self
      have others : ∀ other ∈ rest, IsChunk terminator limit other :=
        fun other mem => proper other (List.mem_cons_of_mem _ mem)
      have short : ([] : List α).length + piece.length ≤ limit := by simpa using here.short
      rw [List.pairwise_cons] at complete
      cases rest with
      | nil =>
          have whole : ([] : List α) ++ piece ≠ [] := here.nonempty
          simpa [chunks] using chunksFrom_last whole here.plain short
      | cons next later =>
          have ended : IsComplete terminator limit ([] ++ piece) :=
            complete.1 next List.mem_cons_self
          have first := chunksFrom_complete (next :: later).flatten here.nonempty here.plain short
            ended
          rw [ih others complete.2] at first
          exact first

/-- A text that ends in a terminator is read apart from what follows it. -/
theorem chunksFrom_append {current front : List α} (back : List α)
    (ends : front.getLast? = some terminator) :
    chunksFrom terminator limit current (front ++ back) =
      chunksFrom terminator limit current front ++ chunks terminator limit back := by
  induction front generalizing current with
  | nil => cases ends
  | cons letter others ih =>
      rw [List.cons_append, chunksFrom, chunksFrom]
      by_cases some_others : others = []
      · subst some_others
        have last : letter = terminator := by simpa using ends
        rw [if_pos (.inl last), if_pos (.inl last)]
        rfl
      · have later : others.getLast? = some terminator := by
          rwa [← List.singleton_append, List.getLast?_append_of_ne_nil _ some_others] at ends
        split
        · rw [ih later, List.cons_append]
        · exact ih later

end Chunks
