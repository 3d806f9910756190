import Mathlib.Data.List.Nodup
import Mathlib.Data.List.Pairwise

/-!
# Entries that are desired in a list

Each desired entry is put in front of a list unless the list has it, and each
entry that is not desired is taken out of it. From the last one on, the entries
that are put in stand in their order. Where an entry is in the list already it
stays in its place, so the order of all of them depends on the list.
-/

namespace DesiredEntries

variable {α : Type*}

/-- Put an entry in if it is desired and not there, or take it out. -/
def put [BEq α] [LawfulBEq α] (entry : α × Bool) (list : List α) : List α :=
  if entry.2 then (if entry.1 ∈ list then list else entry.1 :: list)
  else list.filter fun other => other != entry.1

/-- The entries that are desired, and those that are not. -/
def wanted (entries : List (α × Bool)) : List α :=
  (entries.filter fun entry => entry.2).map Prod.fst

def unwanted (entries : List (α × Bool)) : List α :=
  (entries.filter fun entry => !entry.2).map Prod.fst

section Result

variable {entries : List (α × Bool)} {list : List α} {entry other : α}

theorem mem_wanted : entry ∈ wanted entries ↔ (entry, true) ∈ entries := by
  simp [wanted]

theorem mem_unwanted : entry ∈ unwanted entries ↔ (entry, false) ∈ entries := by
  simp [unwanted]

theorem nodup_wanted (distinct : (entries.map Prod.fst).Nodup) : (wanted entries).Nodup :=
  distinct.sublist (List.filter_sublist.map Prod.fst)

theorem notMem_unwanted (distinct : (entries.map Prod.fst).Nodup) (mem : entry ∈ wanted entries) :
    entry ∉ unwanted entries := by
  intro mem'
  have same := List.inj_on_of_nodup_map distinct (mem_wanted.mp mem) (mem_unwanted.mp mem') rfl
  cases same

variable [BEq α] [LawfulBEq α]

/-- The entries that were missing stand in front of those that were there and may stay. -/
theorem foldr_put (distinct : (entries.map Prod.fst).Nodup) :
    entries.foldr put list =
      (wanted entries).filter (fun entry => entry ∉ list) ++
        list.filter fun entry => entry ∉ unwanted entries := by
  induction entries with
  | nil => simp [wanted, unwanted]
  | cons first entries ih =>
      rcases first with ⟨entry, desired⟩
      rw [List.map_cons, List.nodup_cons] at distinct
      have absent : ∀ desired, (entry, desired) ∉ entries :=
        fun desired mem => distinct.1 (List.mem_map.mpr ⟨_, mem, rfl⟩)
      have notWanted : entry ∉ wanted entries := fun mem => absent true (mem_wanted.mp mem)
      have notUnwanted : entry ∉ unwanted entries := fun mem => absent false (mem_unwanted.mp mem)
      rw [List.foldr_cons, ih distinct.2]
      cases desired with
      | true =>
          have wanted_cons : wanted ((entry, true) :: entries) = entry :: wanted entries := by
            simp [wanted]
          have unwanted_cons : unwanted ((entry, true) :: entries) = unwanted entries := by
            simp [unwanted]
          rw [put, if_pos rfl, wanted_cons, unwanted_cons]
          by_cases there : entry ∈ list
          · simp [notWanted, notUnwanted, there]
          · simp [notWanted, there]
      | false =>
          have wanted_cons : wanted ((entry, false) :: entries) = wanted entries := by
            simp [wanted]
          have unwanted_cons : unwanted ((entry, false) :: entries) = entry :: unwanted entries := by
            simp [unwanted]
          rw [put, if_neg (by simp), wanted_cons, unwanted_cons, List.filter_append,
            List.filter_filter, List.filter_filter]
          congr 1
          · refine List.filter_congr fun other mem => ?_
            have differs : other ≠ entry := fun same => notWanted (same ▸ mem)
            simp [differs]
          · refine List.filter_congr fun other mem => ?_
            simp [bne]

theorem mem_of_wanted (distinct : (entries.map Prod.fst).Nodup) (mem : entry ∈ wanted entries) :
    entry ∈ entries.foldr put list := by
  rw [foldr_put distinct]
  by_cases there : entry ∈ list
  · exact List.mem_append_right _ (by simp [there, notMem_unwanted distinct mem])
  · exact List.mem_append_left _ (by simp [mem, there])

theorem notMem_of_unwanted (distinct : (entries.map Prod.fst).Nodup)
    (mem : entry ∈ unwanted entries) : entry ∉ entries.foldr put list := by
  rw [foldr_put distinct, List.mem_append]
  rintro (missing | stayed)
  · exact notMem_unwanted distinct (List.mem_of_mem_filter missing) mem
  · simp [mem] at stayed

/-- Once the entries are as desired, nothing is put in or taken out. -/
theorem foldr_put_foldr_put (distinct : (entries.map Prod.fst).Nodup) :
    entries.foldr put (entries.foldr put list) = entries.foldr put list := by
  have nothing : (wanted entries).filter (fun entry => entry ∉ entries.foldr put list) = [] := by
    rw [List.filter_eq_nil_iff]
    intro entry mem
    simp [mem_of_wanted distinct mem]
  have all : (entries.foldr put list).filter (fun entry => entry ∉ unwanted entries) =
      entries.foldr put list := by
    rw [List.filter_eq_self]
    intro entry mem
    simpa using fun mem' => notMem_of_unwanted distinct mem' mem
  calc
    entries.foldr put (entries.foldr put list) = _ := foldr_put distinct
    _ = entries.foldr put list := by rw [nothing, all, List.nil_append]

theorem filter_others (distinct : (entries.map Prod.fst).Nodup) :
    (entries.foldr put list).filter (fun entry => entry ∉ wanted entries ++ unwanted entries) =
      list.filter fun entry => entry ∉ wanted entries ++ unwanted entries := by
  have nothing : ((wanted entries).filter fun entry => entry ∉ list).filter
      (fun entry => entry ∉ wanted entries ++ unwanted entries) = [] := by
    rw [List.filter_eq_nil_iff]
    intro entry mem
    simp [List.mem_of_mem_filter mem]
  rw [foldr_put distinct, List.filter_append, nothing, List.nil_append, List.filter_filter]
  refine List.filter_congr fun entry _ => ?_
  rw [Bool.and_eq_left_iff_imp]
  intro other
  simp only [decide_eq_true_eq, List.mem_append, not_or] at other ⊢
  exact other.2

/-- An occurrence less of an entry that is left out anyway. -/
theorem filter_erase (list : List α) (entry : α) :
    (list.erase entry).filter (fun other => other != entry) =
      list.filter fun other => other != entry := by
  induction list with
  | nil => rfl
  | cons first list ih =>
      by_cases same : first = entry
      · rw [same, List.erase_cons_head, List.filter_cons_of_neg (by simp)]
      · rw [List.erase_cons_tail (by simpa using same), List.filter_cons_of_pos (by simpa using same),
          List.filter_cons_of_pos (by simpa using same), ih]

/-- Leaving entries out does not change the order of the others. -/
theorem idxOf_filter_lt_iff (keep : α → Bool) (kept : keep entry = true) (kept' : keep other = true) :
    (list.filter keep).idxOf entry < (list.filter keep).idxOf other ↔
      list.idxOf entry < list.idxOf other := by
  induction list with
  | nil => rfl
  | cons first list ih =>
      by_cases stays : keep first = true
      · rw [List.filter_cons_of_pos stays]
        by_cases same : first = entry
        · by_cases same' : first = other
          · simp [← same, ← same']
          · simp [← same, List.idxOf_cons_ne _ same']
        · by_cases same' : first = other
          · simp [← same']
          · simp [List.idxOf_cons_ne _ same, List.idxOf_cons_ne _ same', ih]
      · have differs : first ≠ entry := fun same => stays (same ▸ kept)
        have differs' : first ≠ other := fun same => stays (same ▸ kept')
        rw [List.filter_cons_of_neg stays, ih, List.idxOf_cons_ne _ differs,
          List.idxOf_cons_ne _ differs', Nat.succ_lt_succ_iff]

theorem idxOf_lt_of_sublist (distinct : list.Nodup) (before : [entry, other].Sublist list) :
    list.idxOf entry < list.idxOf other := by
  induction list with
  | nil => cases before
  | cons first list ih =>
      rw [List.nodup_cons] at distinct
      cases before with
      | cons _ before =>
          have differs : first ≠ entry := fun same => distinct.1 (same ▸ before.subset (by simp))
          have differs' : first ≠ other := fun same => distinct.1 (same ▸ before.subset (by simp))
          rw [List.idxOf_cons_ne _ differs, List.idxOf_cons_ne _ differs', Nat.succ_lt_succ_iff]
          exact ih distinct.2 before
      | cons_cons _ before =>
          have differs : entry ≠ other := fun same => distinct.1 (same ▸ before.subset (by simp))
          rw [List.idxOf_cons_self, List.idxOf_cons_ne _ differs]
          exact Nat.succ_pos _

/-- The entries stand in their order exactly if behind an entry that was there all others were
there, in their order. -/
theorem pairwise_idxOf_iff (distinct : (entries.map Prod.fst).Nodup) (list : List α) :
    (wanted entries).Pairwise (fun entry other =>
        (entries.foldr put list).idxOf entry < (entries.foldr put list).idxOf other) ↔
      (wanted entries).Pairwise fun entry other =>
        entry ∈ list → other ∈ list ∧ list.idxOf entry < list.idxOf other := by
  rw [foldr_put distinct, List.pairwise_iff_forall_sublist, List.pairwise_iff_forall_sublist]
  refine forall_congr' fun entry => forall_congr' fun other => imp_congr_right fun before => ?_
  have mem : entry ∈ wanted entries := before.subset (by simp)
  have mem' : other ∈ wanted entries := before.subset (by simp)
  have stays : decide (entry ∉ unwanted entries) = true := by simp [notMem_unwanted distinct mem]
  have stays' : decide (other ∉ unwanted entries) = true := by simp [notMem_unwanted distinct mem']
  by_cases there : entry ∈ list
  · by_cases there' : other ∈ list
    · rw [List.idxOf_append_of_notMem (by simp [there]), List.idxOf_append_of_notMem (by simp [there']),
        Nat.add_lt_add_iff_left,
        idxOf_filter_lt_iff (fun entry => entry ∉ unwanted entries) stays stays']
      simp [there, there']
    · -- What was missing stands in front.
      have front : other ∈ (wanted entries).filter fun entry => entry ∉ list := by
        simp [mem', there']
      have position := List.idxOf_lt_length_of_mem front
      rw [List.idxOf_append_of_notMem (by simp [there]), List.idxOf_append_of_mem front]
      exact iff_of_false (by omega) fun all => there' (all there).1
  · have front : entry ∈ (wanted entries).filter fun entry => entry ∉ list := by
      simp [mem, there]
    rw [List.idxOf_append_of_mem front]
    refine iff_of_true ?_ fun mem => absurd mem there
    by_cases there' : other ∈ list
    · have position := List.idxOf_lt_length_of_mem front
      rw [List.idxOf_append_of_notMem (by simp [there'])]
      omega
    · have front' : other ∈ (wanted entries).filter fun entry => entry ∉ list := by
        simp [mem', there']
      rw [List.idxOf_append_of_mem front']
      refine idxOf_lt_of_sublist ((nodup_wanted distinct).filter _) ?_
      have inside := before.filter fun entry => entry ∉ list
      simpa [there, there'] using inside

end Result

end DesiredEntries
