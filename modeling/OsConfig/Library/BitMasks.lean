import Mathlib

/-!
# Bit masks

Bit vectors as sets of bit positions. A mask test such as `x & m == m` or
`x & m == 0` is an inclusion or a disjointness of such sets, and the values of
permission arithmetic are compared position by position.
-/

namespace BitMasks

variable {width : ℕ} (left right : BitVec width)

/-- Every bit of `left` is a bit of `right`. -/
def Within : Prop :=
  ∀ i, left.getLsbD i = true → right.getLsbD i = true

/-- No bit of `left` is a bit of `right`. -/
def Apart : Prop :=
  ∀ i, left.getLsbD i = true → right.getLsbD i = false

variable {left right}

theorem and_eq_iff_within : right &&& left = left ↔ Within left right := by
  constructor
  · intro equal i bit
    have both : (right &&& left).getLsbD i = true := by rw [equal, bit]
    simp only [BitVec.getLsbD_and, Bool.and_eq_true] at both
    exact both.1
  · intro within
    refine BitVec.eq_of_getLsbD_eq fun i _ => ?_
    cases bit : left.getLsbD i with
    | false => simp [bit]
    | true => simp [bit, within i bit]

theorem and_eq_zero_iff_apart : right &&& left = 0 ↔ Apart left right := by
  constructor
  · intro equal i bit
    have neither : (right &&& left).getLsbD i = false := by simp [equal]
    simpa [bit] using neither
  · intro apart
    refine BitVec.eq_of_getLsbD_eq fun i _ => ?_
    cases bit : left.getLsbD i with
    | false => simp [bit]
    | true => simp [bit, apart i bit]

/-- Taking away the bits of a mask changes nothing exactly if none of them is set. -/
theorem and_not_eq_self_iff : left &&& ~~~right = left ↔ left &&& right = 0 := by
  rw [and_eq_zero_iff_apart]
  constructor
  · intro same i masked
    have bit : (left &&& ~~~right).getLsbD i = left.getLsbD i := by rw [same]
    rw [BitVec.getLsbD_and, BitVec.getLsbD_not, masked] at bit
    simpa using bit.symm
  · intro apart
    refine BitVec.eq_of_getLsbD_eq fun i inside => ?_
    rw [BitVec.getLsbD_and, BitVec.getLsbD_not]
    cases masked : right.getLsbD i with
    | false => simp only [inside, decide_true, Bool.not_false, Bool.and_true]
    | true => simp only [apart i masked, Bool.false_and]

instance : Decidable (Within left right) :=
  decidable_of_iff _ and_eq_iff_within

instance : Decidable (Apart left right) :=
  decidable_of_iff _ and_eq_zero_iff_apart

/-- The mask of the lowest `count` bits. -/
def low (width count : ℕ) : BitVec width :=
  (BitVec.allOnes count).setWidth width

@[simp]
theorem getLsbD_low (count i : ℕ) :
    (low width count).getLsbD i = (decide (i < width) && decide (i < count)) := by
  simp [low, BitVec.getLsbD_setWidth, BitVec.getLsbD_allOnes]

end BitMasks
