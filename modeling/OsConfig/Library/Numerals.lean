import Mathlib

/-!
# Positional numerals as byte strings

Rendering of natural numbers and integers with ASCII digits in a base up to
ten, as formatted output does it: no leading zeros, a single `0` for zero, and
a minus sign in front of a negative number. Reading takes the longest run of
digits at the start of a text, as formatted input does. A rendered number is
read back from any text in which no digit follows it.
-/

namespace Numerals

/-- The ASCII digit of a value below ten. -/
def digitByte (digit : ℕ) : UInt8 :=
  UInt8.ofNat (48 + digit)

/-- The numeral of a natural number. -/
def render (base number : ℕ) : List UInt8 :=
  if number = 0 then [48] else (Nat.digits base number).reverse.map digitByte

/-- The numeral of an integer. -/
def renderInt (base : ℕ) (number : ℤ) : List UInt8 :=
  if number < 0 then 45 :: render base number.natAbs else render base number.natAbs

/-- The digits of decimal numerals. -/
def isDecimal (byte : UInt8) : Bool :=
  48 ≤ byte && byte ≤ 57

/-- The number a run of decimal digits denotes. -/
def value (digits : List UInt8) : ℕ :=
  Nat.ofDigits 10 (digits.reverse.map fun byte => byte.toNat - 48)

/-- Read the digits at the start of a text, of which there must be one. -/
def read (text : List UInt8) : Option (ℕ × List UInt8) :=
  match text.takeWhile isDecimal with
  | [] => none
  | digit :: digits => some (value (digit :: digits), text.dropWhile isDecimal)

theorem toNat_digitByte {digit : ℕ} (small : digit < 10) :
    (digitByte digit).toNat = 48 + digit := by
  have fits : 48 + digit < 2 ^ 8 := by omega
  exact Nat.mod_eq_of_lt fits

theorem isDecimal_digitByte {digit : ℕ} (small : digit < 10) :
    isDecimal (digitByte digit) = true := by
  have byte := toNat_digitByte small
  simp only [isDecimal, Bool.and_eq_true, decide_eq_true_eq, UInt8.le_iff_toNat_le, byte]
  change 48 ≤ 48 + digit ∧ 48 + digit ≤ 57
  omega

theorem render_ne_nil (number : ℕ) : render 10 number ≠ [] := by
  unfold render
  split
  · simp
  next nonzero => simpa [Nat.digits_eq_nil_iff_eq_zero] using nonzero

theorem render_eq_cons {number : ℕ} (positive : number ≠ 0) :
    ∃ digit digits, render 10 number = digit :: digits ∧ digit ≠ 48 := by
  have nonempty : Nat.digits 10 number ≠ [] := Nat.digits_ne_nil_iff_ne_zero.mpr positive
  have last := Nat.getLast_digit_ne_zero 10 positive
  have small := Nat.digits_lt_base (by decide) (List.getLast_mem nonempty)
  refine ⟨digitByte ((Nat.digits 10 number).getLast nonempty),
    (Nat.digits 10 number).dropLast.reverse.map digitByte, ?_, ?_⟩
  · rw [render, if_neg positive]
    conv_lhs => rw [← List.dropLast_append_getLast nonempty]
    rw [List.reverse_append, List.reverse_singleton, List.singleton_append, List.map_cons]
  · intro zero
    have value := toNat_digitByte small
    rw [zero] at value
    change 48 = 48 + _ at value
    omega

theorem isDecimal_of_mem_render {number : ℕ} {byte : UInt8} (mem : byte ∈ render 10 number) :
    isDecimal byte = true := by
  unfold render at mem
  split at mem
  · rw [List.mem_singleton.mp mem]
    rfl
  · rcases List.mem_map.mp mem with ⟨digit, digit_mem, rfl⟩
    exact isDecimal_digitByte (Nat.digits_lt_base (by omega) (List.mem_reverse.mp digit_mem))

theorem value_render (number : ℕ) : value (render 10 number) = number := by
  unfold render value
  split
  next zero =>
    rw [zero]
    rfl
  next =>
    have back : (Nat.digits 10 number).map ((fun byte => byte.toNat - 48) ∘ digitByte) =
        (Nat.digits 10 number).map id := by
      refine List.map_congr_left fun digit mem => ?_
      simp only [Function.comp, id, toNat_digitByte (Nat.digits_lt_base (by omega) mem)]
      omega
    rw [← List.map_reverse, List.reverse_reverse, List.map_map, back, List.map_id,
      Nat.ofDigits_digits]

/-- A numeral is read back where no digit follows. -/
theorem read_render (number : ℕ) {rest : List UInt8}
    (stops : ∀ byte ∈ rest.head?, isDecimal byte = false) :
    read (render 10 number ++ rest) = some (number, rest) := by
  have digits : ∀ byte ∈ render 10 number, isDecimal byte = true :=
    fun byte mem => isDecimal_of_mem_render mem
  have takes : (render 10 number ++ rest).takeWhile isDecimal = render 10 number := by
    rw [List.takeWhile_append_of_pos digits]
    cases rest with
    | nil => simp
    | cons byte rest => simp [stops byte (by simp)]
  have drops : (render 10 number ++ rest).dropWhile isDecimal = rest := by
    rw [List.dropWhile_append_of_pos digits]
    cases rest with
    | nil => rfl
    | cons byte rest => simp [stops byte (by simp)]
  unfold read
  rw [takes, drops]
  cases numeral : render 10 number with
  | nil => exact absurd numeral (render_ne_nil number)
  | cons digit digits =>
      dsimp only
      rw [← numeral, value_render]

/-- A larger number has no shorter numeral. -/
theorem length_render_le {number other : ℕ} (le : number ≤ other) :
    (render 10 number).length ≤ (render 10 other).length := by
  have positive : ∀ other : ℕ, 1 ≤ (render 10 other).length := fun other =>
    List.length_pos_iff.mpr (render_ne_nil other)
  by_cases zero : number = 0
  · rw [zero]
    exact positive other
  · have otherNonzero : other ≠ 0 := by omega
    rw [render, render, if_neg zero, if_neg otherNonzero]
    simpa using Nat.le_length_digits_le 10 number other le

theorem render_injective : Function.Injective (render 10) :=
  Function.LeftInverse.injective value_render

theorem dash_notMem_render (number : ℕ) : 45 ∉ render 10 number := fun mem =>
  absurd (isDecimal_of_mem_render mem) (by decide)

theorem renderInt_injective : Function.Injective (renderInt 10) := by
  intro number other same
  rw [renderInt, renderInt] at same
  split_ifs at same with negative otherNegative otherNegative
  · have digits := render_injective (List.cons.inj same).2
    omega
  · exact absurd (same ▸ List.mem_cons_self) (dash_notMem_render other.natAbs)
  · exact absurd (same ▸ List.mem_cons_self) (dash_notMem_render number.natAbs)
  · have digits := render_injective same
    omega

theorem renderInt_ne_nil (number : ℤ) : renderInt 10 number ≠ [] := by
  rw [renderInt]
  split
  · exact List.cons_ne_nil _ _
  · exact render_ne_nil number.natAbs

theorem count_renderInt (number : ℤ) :
    (renderInt 10 number).count 45 = if number < 0 then 1 else 0 := by
  have digits := List.count_eq_zero.mpr (dash_notMem_render number.natAbs)
  rw [renderInt]
  split
  · rw [List.count_cons_self, digits]
  · exact digits

/-- A numeral is as long as its digits and its sign. -/
theorem length_renderInt (number : ℤ) :
    (renderInt 10 number).length =
      (render 10 number.natAbs).length + (renderInt 10 number).count 45 := by
  rw [count_renderInt, renderInt]
  split
  · rw [List.length_cons]
  · rw [Nat.add_zero]

end Numerals
