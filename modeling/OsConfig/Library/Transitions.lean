import Mathlib.Logic.Relation
import Mathlib.Data.Nat.Init

/-!
# Invariants and progress of transition systems

A transition system is a relation between states, and a run is a chain of its
steps. A property that every step keeps holds along every run from a state in
which it holds.

The second part is about systems whose steps are moves of several threads. A
trace is an infinite run with its moves, and it is fair to a thread that is not
ready for ever without taking a move. Where a thread stays ready while it waits
for something, and its moves lower a rank that the others do not raise, what it
waits for comes in every trace that is fair to it.
-/

namespace Transitions

variable {σ : Type*} {step : σ → σ → Prop}

def Keeps (step : σ → σ → Prop) (property : σ → Prop) : Prop :=
  ∀ state state', property state → step state state' → property state'

/-- A run of the system. -/
abbrev Run (step : σ → σ → Prop) : σ → σ → Prop :=
  Relation.ReflTransGen step

theorem Keeps.run {property : σ → Prop} (keeps : Keeps step property) {start final : σ}
    (initially : property start) (run : Run step start final) : property final := by
  induction run with
  | refl => exact initially
  | tail _ last ih => exact keeps _ _ ih last

section Moves

variable {μ : Type*} {next : σ → μ → Option σ} {meets : σ → μ → Prop}

/-- The steps of a system with moves, by those that meet a condition. -/
def Taken (next : σ → μ → Option σ) (meets : σ → μ → Prop) (state state' : σ) : Prop :=
  ∃ move, meets state move ∧ next state move = some state'

/-- The state that a list of moves leads to, if all of them can be taken and pass the check. -/
def follow (next : σ → μ → Option σ) (check : σ → μ → Bool) (state : σ) : List μ → Option σ
  | [] => some state
  | move :: moves =>
      if check state move then
        (next state move).bind fun state' => follow next check state' moves
      else none

theorem run_of_follow {check : σ → μ → Bool} {moves : List μ} {start final : σ}
    (follows : follow next check start moves = some final) :
    Run (Taken next fun state move => check state move) start final := by
  induction moves generalizing start with
  | nil =>
      cases follows
      exact .refl
  | cons move moves ih =>
      rw [follow] at follows
      split at follows
      · rename_i met
        rcases Option.bind_eq_some_iff.mp follows with ⟨state', taken, rest⟩
        exact .head ⟨move, met, taken⟩ (ih rest)
      · cases follows

theorem exists_run_of_follow {check : σ → μ → Bool} {start : σ} {test : σ → Bool}
    (moves : List μ) (passes : (follow next check start moves).any test) :
    ∃ final, Run (Taken next fun state move => check state move) start final ∧ test final := by
  rw [Option.any_eq_true] at passes
  rcases passes with ⟨final, reached, passed⟩
  exact ⟨final, run_of_follow reached, passed⟩

/-- An infinite run by moves that meet a condition. -/
structure Trace (next : σ → μ → Option σ) (meets : σ → μ → Prop) where
  state : ℕ → σ
  move : ℕ → μ
  met : ∀ n, meets (state n) (move n)
  taken : ∀ n, next (state n) (move n) = some (state (n + 1))

namespace Trace

/-- Again and again the thread takes a move or cannot take one. -/
def Fair (trace : Trace next meets) (thread : μ → Prop) : Prop :=
  ∀ n, ∃ m, n ≤ m ∧
    (thread (trace.move m) ∨ ∀ move, thread move → next (trace.state m) move = none)

theorem run (trace : Trace next meets) {n m : ℕ} (le : n ≤ m) :
    Run (Taken next meets) (trace.state n) (trace.state m) := by
  induction m, le using Nat.le_induction with
  | base => exact .refl
  | succ m _ ih => exact ih.tail ⟨trace.move m, trace.met m, trace.taken m⟩

/-- A trace with one more move before it. -/
def cons (trace : Trace next meets) {start : σ} {first : μ} (met : meets start first)
    (taken : next start first = some (trace.state 0)) : Trace next meets where
  state
    | 0 => start
    | n + 1 => trace.state n
  move
    | 0 => first
    | n + 1 => trace.move n
  met
    | 0 => met
    | n + 1 => trace.met n
  taken
    | 0 => taken
    | n + 1 => trace.taken n

theorem exists_of_follow {check : σ → μ → Bool} {start final : σ} {rest : μ} {moves : List μ}
    (follows : follow next check start moves = some final) (met : check final rest)
    (rests : next final rest = some final) :
    ∃ trace : Trace next fun state move => check state move,
      trace.state 0 = start ∧ ∀ n, moves.length ≤ n → trace.state n = final := by
  induction moves generalizing start with
  | nil =>
      cases follows
      exact ⟨⟨fun _ => final, fun _ => rest, fun _ => met, fun _ => rests⟩, rfl, fun _ _ => rfl⟩
  | cons move moves ih =>
      rw [follow] at follows
      split at follows
      · rename_i first
        rcases Option.bind_eq_some_iff.mp follows with ⟨state', taken, later⟩
        rcases ih later with ⟨trace, begins, ends⟩
        refine ⟨trace.cons first (begins ▸ taken), rfl, ?_⟩
        intro n le
        rw [List.length_cons] at le
        cases n with
        | zero => omega
        | succ n => exact ends n (by omega)
      · cases follows

variable {thread : μ → Prop}

theorem fair_of_rests {trace : Trace next meets} {final : σ} {bound : ℕ}
    (rests : ∀ n, bound ≤ n → trace.state n = final)
    (blocked : ∀ move, thread move → next final move = none) : trace.Fair thread := by
  intro n
  refine ⟨max n bound, by omega, .inr ?_⟩
  rw [rests _ (by omega)]
  exact blocked

variable (waiting done : σ → Prop) (rank : σ → ℕ)

theorem waits (trace : Trace next meets)
    (moves : ∀ state move state', waiting state → meets state move →
      next state move = some state' → done state' ∨
        waiting state' ∧ rank state' ≤ rank state ∧ (thread move → rank state' < rank state))
    {n m : ℕ} (le : n ≤ m) (initially : waiting (trace.state n)) :
    (∃ k, n ≤ k ∧ done (trace.state k)) ∨
      waiting (trace.state m) ∧ rank (trace.state m) ≤ rank (trace.state n) := by
  induction m, le using Nat.le_induction with
  | base => exact .inr ⟨initially, Nat.le_refl _⟩
  | succ m le ih =>
      rcases ih with finished | ⟨waits, below⟩
      · exact .inl finished
      · rcases moves _ _ _ waits (trace.met m) (trace.taken m) with finished | ⟨still, lower, -⟩
        · exact .inl ⟨m + 1, by omega, finished⟩
        · exact .inr ⟨still, by omega⟩

theorem eventually (trace : Trace next meets) (fair : trace.Fair thread)
    (ready : ∀ state, waiting state → ∃ move, thread move ∧ next state move ≠ none)
    (moves : ∀ state move state', waiting state → meets state move →
      next state move = some state' → done state' ∨
        waiting state' ∧ rank state' ≤ rank state ∧ (thread move → rank state' < rank state))
    {n : ℕ} (initially : waiting (trace.state n)) : ∃ m, n ≤ m ∧ done (trace.state m) := by
  induction bound : rank (trace.state n) using Nat.strong_induction_on generalizing n with
  | _ bound_value ih =>
      rcases fair n with ⟨m, le, turn⟩
      rcases trace.waits waiting done rank moves le initially with finished | ⟨waits, below⟩
      · exact finished
      · have takes : thread (trace.move m) := by
          rcases turn with takes | blocked
          · exact takes
          · rcases ready _ waits with ⟨move, own, enabled⟩
            exact absurd (blocked move own) enabled
        rcases moves _ _ _ waits (trace.met m) (trace.taken m) with finished | ⟨still, -, lower⟩
        · exact ⟨m + 1, by omega, finished⟩
        · have smaller : rank (trace.state (m + 1)) < bound_value := by
            have := lower takes
            omega
          rcases ih _ smaller still rfl with ⟨k, later, finished⟩
          exact ⟨k, by omega, finished⟩

end Trace

end Moves

end Transitions
