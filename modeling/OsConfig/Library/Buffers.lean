import Mathlib.Data.List.Basic
import Mathlib.Tactic.Basic

/-!
# Blocks of memory

A block has a fixed number of cells. Storing succeeds only inside of the block,
so a program all of whose stores succeed never writes past the end. A program
that fills a block from its start keeps what it has written at the front of the
block, whatever is in the cells behind it.
-/

namespace Buffers

variable {α : Type*}

/-- Store letters from an offset on. There is no result if one of them falls outside. -/
def store (block : List α) (offset : ℕ) (text : List α) : Option (List α) :=
  if offset + text.length ≤ block.length then
    some (block.take offset ++ text ++ block.drop (offset + text.length))
  else none

/-- The first cells of a block hold what has been written so far. -/
def Holds (block written : List α) : Prop :=
  written <+: block

theorem holds_nil (block : List α) : Holds block [] :=
  List.nil_prefix

theorem Holds.of_append {block written more : List α} (holds : Holds block (written ++ more)) :
    Holds block written :=
  (List.prefix_append written more).trans holds

theorem exists_store {block written text : List α} (holds : Holds block written)
    (room : written.length + text.length ≤ block.length) :
    ∃ block', store block written.length text = some block' ∧
      block'.length = block.length ∧ Holds block' (written ++ text) := by
  have front : block.take written.length = written := (List.prefix_iff_eq_take.mp holds).symm
  refine ⟨written ++ text ++ block.drop (written.length + text.length), ?_, ?_, ?_⟩
  · rw [store, if_pos room, front]
  · simp only [List.length_append, List.length_drop]
    omega
  · exact List.prefix_append _ _

/-- Behind a terminator nothing is read, so what has been written is all that is read. -/
theorem Holds.takeWhile [DecidableEq α] {block written : List α} {terminator : α}
    (holds : Holds block (written ++ [terminator])) :
    block.takeWhile (· ≠ terminator) = written.takeWhile (· ≠ terminator) := by
  rcases holds with ⟨rest, rfl⟩
  have nothing : ([terminator] ++ rest).takeWhile (· ≠ terminator) = [] := by
    simp
  rw [List.append_assoc, List.takeWhile_append]
  split
  next whole =>
    rw [nothing, List.append_nil]
    exact ((List.takeWhile_prefix _).eq_of_length whole).symm
  · rfl

theorem length_takeWhile_le [DecidableEq α] {block block' : List α} {offset : ℕ} {terminator : α}
    (stored : store block offset [terminator] = some block') :
    (block'.takeWhile (· ≠ terminator)).length ≤ offset := by
  rw [store] at stored
  split at stored
  · cases stored
    have front : (block.take offset).length ≤ offset := List.length_take_le _ _
    rw [List.append_assoc, List.takeWhile_append]
    split
    · simpa using front
    · exact Nat.le_trans (List.takeWhile_prefix _).length_le front
  · cases stored

/-- A block that grows or shrinks keeps the cells that it has in both sizes. -/
def resize (block : List α) (fresh : ℕ → α) (size : ℕ) : List α :=
  block.take size ++ (List.range (size - block.length)).map fresh

theorem length_resize (block : List α) (fresh : ℕ → α) (size : ℕ) :
    (resize block fresh size).length = size := by
  simp only [resize, List.length_append, List.length_take, List.length_map, List.length_range]
  omega

theorem Holds.resize {block written : List α} (holds : Holds block written) (fresh : ℕ → α)
    {size : ℕ} (room : written.length ≤ size) : Holds (resize block fresh size) written := by
  have front : written <+: block.take size := List.prefix_take_iff.mpr ⟨holds, room⟩
  exact front.trans (List.prefix_append _ _)

end Buffers
