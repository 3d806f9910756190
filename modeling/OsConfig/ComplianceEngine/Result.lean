import OsConfig.Common.Bytes

/-!
# Statuses, errors and results

A `Result<T>` holds a value or an error. Besides returning one, code can leave
through an exception or stop the process at a failed assertion; `Outcome`
keeps the four ways apart.
-/

namespace OsConfig.ComplianceEngine

universe u

/-- The verdict of an audit or a remediation. -/
inductive Status where
  | compliant
  | nonCompliant
  | notApplicable
  deriving DecidableEq, Repr

namespace Status

/-- The position of a status in the order of the three-valued logic. -/
def rank : Status → ℕ
  | .nonCompliant => 0
  | .notApplicable => 1
  | .compliant => 2

theorem rank_injective : Function.Injective rank := by
  intro left right equal
  cases left <;> cases right <;> simp_all [rank]

/-- `NonCompliant < NotApplicable < Compliant`. -/
instance : LinearOrder Status :=
  LinearOrder.lift' rank rank_injective

instance : BoundedOrder Status where
  top := .compliant
  le_top status := by cases status <;> decide
  bot := .nonCompliant
  bot_le status := by cases status <;> decide

/-- The reversal of the order. -/
def negate : Status → Status
  | .compliant => .nonCompliant
  | .nonCompliant => .compliant
  | .notApplicable => .notApplicable

theorem negate_comp_negate : negate ∘ negate = id := by
  funext status
  cases status <;> rfl

end Status

structure Error where
  message : ByteString
  code : ℤ := -1
  deriving DecidableEq

namespace Errno

def EPERM : ℤ := 1
def ENOENT : ℤ := 2
def ENOMEM : ℤ := 12
def EINVAL : ℤ := 22

end Errno

/-- `Result<T>`. -/
abbrev Result (α : Type u) := Except Error α

/-- How a call ends: a returned value or error, an exception, or a failed assertion. -/
inductive Outcome (α : Type u) where
  | value (result : α)
  | error (failure : Error)
  | thrown (what : ByteString)
  | aborted
  deriving DecidableEq

namespace Outcome

/-- Returning a `Result`. -/
def ofResult {α : Type u} : Result α → Outcome α
  | .ok result => .value result
  | .error failure => .error failure

@[simp]
theorem ofResult_ok {α : Type u} (result : α) : ofResult (.ok result) = .value result := rfl

@[simp]
theorem ofResult_error {α : Type u} (failure : Error) :
    (ofResult (.error failure) : Outcome α) = .error failure := rfl

/-- Change the returned value. -/
def map {α β : Type u} (turn : α → β) : Outcome α → Outcome β
  | .value result => .value (turn result)
  | .error failure => .error failure
  | .thrown what => .thrown what
  | .aborted => .aborted

@[simp]
theorem map_id {α : Type u} (outcome : Outcome α) : outcome.map id = outcome := by
  cases outcome <;> rfl

theorem map_map {α β γ : Type u} (turn : α → β) (again : β → γ) (outcome : Outcome α) :
    (outcome.map turn).map again = outcome.map (again ∘ turn) := by
  cases outcome <;> rfl

end Outcome

end OsConfig.ComplianceEngine
