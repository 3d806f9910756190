import Mathlib.Data.List.Induction
import Std.Data.ExtTreeMap.Lemmas

/-!
# Assignments, the last of which counts

A list of assignments gives each key the value that is assigned to it last.
Inserting the assignments into a map one after the other keeps these values, and
a search from the end finds them.
-/

namespace Assignments

universe u v w

variable {α : Type u} {β : Type v} {γ : Type w} [DecidableEq α]

def lastValue (key : α) (entries : List (α × β)) : Option β :=
  ((entries.filter fun entry => entry.1 = key).getLast?).map Prod.snd

def valueFor (key : α) (entry : α × β) : Option β :=
  if entry.1 = key then some entry.2 else none

@[simp]
theorem lastValue_nil (key : α) : lastValue key ([] : List (α × β)) = none := rfl

theorem lastValue_append_singleton (key : α) (entries : List (α × β)) (entry : α × β) :
    lastValue key (entries ++ [entry]) = (valueFor key entry).or (lastValue key entries) := by
  unfold lastValue valueFor
  by_cases same : entry.1 = key
  · simp [same]
  · simp [same]

/-- A change of the values alone changes the last value in the same way. -/
theorem lastValue_map (key : α) (turn : β → γ) (entries : List (α × β)) :
    lastValue key (entries.map fun entry => (entry.1, turn entry.2)) =
      (lastValue key entries).map turn := by
  induction entries using List.reverseRecOn with
  | nil => rfl
  | append_singleton entries entry ih =>
      rw [List.map_append, List.map_singleton, lastValue_append_singleton,
        lastValue_append_singleton, ih]
      unfold valueFor
      by_cases same : entry.1 = key
      · simp [same]
      · simp [same]

theorem mem_of_lastValue {key : α} {value : β} {entries : List (α × β)}
    (last : lastValue key entries = some value) : (key, value) ∈ entries := by
  unfold lastValue at last
  rw [Option.map_eq_some_iff] at last
  rcases last with ⟨entry, entry_eq, rfl⟩
  have given := List.mem_filter.mp (List.mem_of_getLast? entry_eq)
  rw [← of_decide_eq_true given.2]
  exact given.1

/-- The search that starts at the end. -/
theorem findSome?_reverse_valueFor (key : α) (entries : List (α × β)) :
    entries.reverse.findSome? (valueFor key) = lastValue key entries := by
  induction entries using List.reverseRecOn with
  | nil => rfl
  | append_singleton entries entry ih =>
      rw [lastValue_append_singleton, List.reverse_append, List.reverse_singleton,
        List.singleton_append, List.findSome?_cons, ih]
      cases valueFor key entry <;> rfl

section Maps

variable [Ord α] [Std.TransOrd α] [Std.LawfulEqOrd α]

/-- One insertion after the other. -/
def insertAll (map : Std.ExtTreeMap α β) (entries : List (α × β)) : Std.ExtTreeMap α β :=
  entries.foldl (fun map entry => map.insert entry.1 entry.2) map

theorem getElem?_insertAll (key : α) (entries : List (α × β)) :
    (insertAll (∅ : Std.ExtTreeMap α β) entries)[key]? = lastValue key entries := by
  induction entries using List.reverseRecOn with
  | nil => rfl
  | append_singleton entries entry ih =>
      have last : insertAll (∅ : Std.ExtTreeMap α β) (entries ++ [entry]) =
          (insertAll ∅ entries).insert entry.1 entry.2 := by
        simp [insertAll]
      rw [last, Std.ExtTreeMap.getElem?_insert, ih, lastValue_append_singleton, valueFor]
      by_cases same : entry.1 = key
      · simp [same]
      · simp [same]

end Maps

end Assignments
