import Mathlib.Order.Compare
import Mathlib.Order.Basic
import Mathlib.Algebra.Order.Ring.Int

/-!
# Three-way comparison by numbers

A comparison that answers with a negative number, zero or a positive one. An
order is coded as `-1`, `0` or `1`; to go on with a second comparison where the
first one says `0` is to combine two orders. Two lists are compared item by
item. So a comparison that is made of others obeys the laws of the order that is
combined in the same way.
-/

namespace ThreeWay

/-- `-1`, `0` or `1`. -/
def sign (order : Ordering) : ℤ :=
  match order with
  | .lt => -1
  | .eq => 0
  | .gt => 1

/-- The answer of a comparison unless it is zero, and otherwise that of another one. -/
def andThen (first second : ℤ) : ℤ :=
  if first < 0 then -1 else if first > 0 then 1 else second

/-- Two lists item by item; a list is greater than its beginnings. -/
def compareLists {α : Type*} (compareItems : α → α → ℤ) : List α → List α → ℤ
  | [], [] => 0
  | [], _ :: _ => -1
  | _ :: _, [] => 1
  | left :: lefts, right :: rights =>
      andThen (compareItems left right) (compareLists compareItems lefts rights)

theorem sign_swap (order : Ordering) : sign order.swap = -sign order := by
  cases order <;> rfl

theorem sign_nonpos_iff {order : Ordering} : sign order ≤ 0 ↔ order.isLE := by
  cases order <;> decide

theorem sign_eq_zero_iff {order : Ordering} : sign order = 0 ↔ order = .eq := by
  cases order <;> decide

theorem andThen_sign (first second : Ordering) :
    andThen (sign first) (sign second) = sign (first.then second) := by
  cases first <;> rfl

theorem compareLex_map {α β : Type*} (order : β → β → Ordering) (key : α → β)
    (lefts rights : List α) :
    List.compareLex order (lefts.map key) (rights.map key) =
      List.compareLex (fun left right => order (key left) (key right)) lefts rights := by
  induction lefts generalizing rights with
  | nil => cases rights <;> rfl
  | cons left lefts ih =>
      cases rights with
      | nil => rfl
      | cons right rights =>
          rw [List.map_cons, List.map_cons, List.compareLex_cons_cons, List.compareLex_cons_cons, ih]

/-- Comparisons of items that follow an order make one of lists that follows it. -/
theorem compareLists_eq {α : Type*} {compareItems : α → α → ℤ} {order : α → α → Ordering}
    {lefts rights : List α}
    (items : ∀ left ∈ lefts, ∀ right ∈ rights, compareItems left right = sign (order left right)) :
    compareLists compareItems lefts rights = sign (List.compareLex order lefts rights) := by
  induction lefts generalizing rights with
  | nil => cases rights <;> rfl
  | cons left lefts ih =>
      cases rights with
      | nil => rfl
      | cons right rights =>
          have later := ih fun other mem other' mem' =>
            items other (List.mem_cons_of_mem _ mem) other' (List.mem_cons_of_mem _ mem')
          rw [compareLists, items left (by simp) right (by simp), later, andThen_sign,
            List.compareLex_cons_cons]

end ThreeWay
