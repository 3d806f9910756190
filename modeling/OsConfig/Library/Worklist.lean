import Mathlib.Data.Set.Finite.Lattice
import Mathlib.Logic.Relation
import Mathlib.Order.WellFounded
import Mathlib.Order.Monotone.Basic
import Mathlib.Order.Preorder.Finite

/-!
# Worklists

A worklist takes the first element of a queue, handles it and puts what it leads
to at the end of the queue. If it does not remember what it has handled, it
handles an element once for every path that leads to it. So it comes to an end
if and only if there are finitely many paths, that is, if no element on the way
leads back to itself.
-/

namespace Worklist

variable {α σ : Type*} {next : α → List α}

/-- The run of a worklist, as long as it takes at most the given number of steps. -/
def run (next : α → List α) (handle : σ → α → σ) : ℕ → σ → List α → Option σ
  | _, state, [] => some state
  | 0, _, _ :: _ => none
  | steps + 1, state, first :: rest =>
      run next handle steps (handle state first) (rest ++ next first)

def Leads (next : α → List α) (element other : α) : Prop :=
  other ∈ next element

/-- No element on the way leads back to itself. -/
def Acyclic (next : α → List α) (element : α) : Prop :=
  ∀ other, Relation.ReflTransGen (Leads next) element other →
    ¬Relation.TransGen (Leads next) other other

section Steps

/-- The number of steps that a queue takes. -/
inductive Costs (next : α → List α) : List α → ℕ → Prop
  | nil : Costs next [] 0
  | cons {first : α} {rest : List α} {here later : ℕ} (found : Costs next (next first) here)
      (others : Costs next rest later) : Costs next (first :: rest) (here + later + 1)

theorem Costs.append {queue queue' : List α} {steps steps' : ℕ} (costs : Costs next queue steps)
    (costs' : Costs next queue' steps') : Costs next (queue ++ queue') (steps + steps') := by
  induction costs with
  | nil => simpa using costs'
  | @cons first rest here later found _ _ ih =>
      have total : here + later + 1 + steps' = here + (later + steps') + 1 := by omega
      rw [List.cons_append, total]
      exact .cons found ih

theorem run_of_costs (handle : σ → α → σ) {steps : ℕ} {queue : List α}
    (costs : Costs next queue steps) (state : σ) :
    (run next handle steps state queue).isSome := by
  induction steps generalizing queue state with
  | zero =>
      cases costs
      rfl
  | succ steps ih =>
      cases costs with
      | @cons first rest here later found others =>
          have remaining : Costs next (rest ++ next first) (here + later) := by
            rw [Nat.add_comm]
            exact others.append found
          exact ih remaining (handle state first)

theorem exists_costs_of_forall {queue : List α}
    (costs : ∀ element ∈ queue, ∃ steps, Costs next (next element) steps) :
    ∃ steps, Costs next queue steps := by
  induction queue with
  | nil => exact ⟨0, .nil⟩
  | cons first rest ih =>
      obtain ⟨here, found⟩ := costs first (by simp)
      obtain ⟨later, others⟩ := ih fun element mem => costs element (List.mem_cons_of_mem _ mem)
      exact ⟨here + later + 1, .cons found others⟩

theorem exists_costs_of_acc {element : α} (acc : Acc (Function.swap (Leads next)) element) :
    ∃ steps, Costs next (next element) steps := by
  induction acc with
  | intro element _ ih => exact exists_costs_of_forall ih

theorem acc_of_run {handle : σ → α → σ} {steps : ℕ} {state : σ} {queue : List α}
    (ends : (run next handle steps state queue).isSome) :
    ∀ element ∈ queue, Acc (Function.swap (Leads next)) element := by
  induction steps generalizing state queue with
  | zero =>
      cases queue with
      | nil => simp
      | cons first rest => cases ends
  | succ steps ih =>
      cases queue with
      | nil => simp
      | cons first rest =>
          have later := ih ends
          intro element mem
          rcases List.mem_cons.mp mem with rfl | inRest
          · exact .intro _ fun other found => later other (List.mem_append_right _ found)
          · exact later element (List.mem_append_left _ inRest)

end Steps

section Cycles

theorem not_rel_self_of_acc {r : α → α → Prop} {element : α} (acc : Acc r element) :
    ¬r element element := by
  induction acc with
  | intro element _ ih => exact fun loop => ih element loop loop

theorem acyclic_of_acc {element : α} (acc : Acc (Function.swap (Leads next)) element) :
    Acyclic next element := by
  intro other path
  have reached : Acc (Function.swap (Leads next)) other := by
    induction path with
    | refl => exact acc
    | tail _ step ih => exact ih.inv step
  intro loop
  apply not_rel_self_of_acc reached.transGen
  exact Relation.transGen_swap.mpr loop

/-- Finitely many elements without a cycle have no infinite path. -/
theorem acc_of_acyclic (finite : (Set.range next).Finite) {element : α}
    (acyclic : Acyclic next element) : Acc (Function.swap (Leads next)) element := by
  by_contra endless
  obtain ⟨path, starts, steps⟩ := not_acc_iff_exists_descending_chain.mp endless
  have follows (n : ℕ) : Leads next (path n) (path (n + 1)) := steps n
  have reaches (n : ℕ) : Relation.ReflTransGen (Leads next) element (path n) := by
    induction n with
    | zero => rw [starts]
    | succ n ih => exact ih.tail (follows n)
  have known : (⋃ found ∈ Set.range next, {other | other ∈ found}).Finite :=
    finite.biUnion fun found _ => List.finite_toSet found
  have visits (n : ℕ) : path (n + 1) ∈ ⋃ found ∈ Set.range next, {other | other ∈ found} :=
    Set.mem_biUnion (Set.mem_range_self (path n)) (follows n)
  obtain ⟨first, second, earlier, same⟩ := known.exists_lt_map_eq_of_forall_mem visits
  have loop : Relation.TransGen (Leads next) (path (first + 1)) (path (second + 1)) :=
    Nat.rel_of_forall_rel_succ_of_lt _ (fun n => .single (follows n)) (by omega)
  rw [← same] at loop
  exact acyclic _ (reaches (first + 1)) loop

end Cycles

/-- A worklist ends if and only if nothing in the queue leads to a cycle. -/
theorem run_ends_iff (finite : (Set.range next).Finite) (handle : σ → α → σ) (state : σ)
    (queue : List α) :
    (∃ steps, (run next handle steps state queue).isSome) ↔
      ∀ element ∈ queue, Acyclic next element := by
  constructor
  · rintro ⟨steps, ends⟩ element mem
    exact acyclic_of_acc (acc_of_run ends element mem)
  · intro acyclic
    have costs : ∀ element ∈ queue, ∃ steps, Costs next (next element) steps :=
      fun element mem => exists_costs_of_acc (acc_of_acyclic finite (acyclic element mem))
    obtain ⟨steps, total⟩ := exists_costs_of_forall costs
    exact ⟨steps, run_of_costs handle total state⟩

end Worklist
