import Mathlib.Data.FinEnum
import Mathlib.Data.List.Basic
import Mathlib.Tactic.Basic

/-!
# Percent encoding

The letters of an alphabet stand for themselves, every other byte for a percent
sign and two hexadecimal digits. An encoded text is read from its front: each
letter and each escape gives one byte, and anything else is refused. When the
percent sign is no letter of the alphabet, reading gives back every text that
was encoded.
-/

namespace PercentEncoding

/-- The upper case digit of a value below sixteen. -/
def hexDigit (digit : UInt8) : UInt8 :=
  if digit < 10 then 48 + digit else 55 + digit

/-- The value of a digit in either case. -/
def hexValue (byte : UInt8) : Option UInt8 :=
  if 48 ≤ byte ∧ byte ≤ 57 then some (byte - 48)
  else if 65 ≤ byte ∧ byte ≤ 70 then some (byte - 55)
  else if 97 ≤ byte ∧ byte ≤ 102 then some (byte - 87)
  else none

theorem hexValue_digits (byte : UInt8) :
    hexValue (hexDigit (byte / 16)) = some (byte / 16) ∧
      hexValue (hexDigit (byte % 16)) = some (byte % 16) ∧
      16 * (byte / 16) + byte % 16 = byte := by
  revert byte
  decide +kernel

/-- A percent sign and the two digits of a byte. -/
def escape (byte : UInt8) : List UInt8 :=
  [37, hexDigit (byte / 16), hexDigit (byte % 16)]

/-- How one byte is written. -/
def encodeByte (plain : UInt8 → Bool) (byte : UInt8) : List UInt8 :=
  if plain byte then [byte] else escape byte

def encode (plain : UInt8 → Bool) (text : List UInt8) : List UInt8 :=
  text.flatMap (encodeByte plain)

/-- Read an encoded text. -/
def decode (plain : UInt8 → Bool) : List UInt8 → Option (List UInt8)
  | [] => some []
  | byte :: rest =>
      if plain byte then (decode plain rest).map (byte :: ·)
      else if byte = 37 then
        match rest with
        | first :: second :: rest => do
            let high ← hexValue first
            let low ← hexValue second
            let text ← decode plain rest
            return (16 * high + low) :: text
        | _ => none
      else none

/-- Texts made of letters of the alphabet and of escapes. -/
inductive Encoded (plain : UInt8 → Bool) : List UInt8 → Prop
  | nil : Encoded plain []
  | plain {byte : UInt8} {rest : List UInt8} (letter : plain byte = true)
      (encoded : Encoded plain rest) : Encoded plain (byte :: rest)
  | escape {first second : UInt8} {rest : List UInt8} (high : (hexValue first).isSome)
      (low : (hexValue second).isSome) (encoded : Encoded plain rest) :
      Encoded plain (37 :: first :: second :: rest)

variable {plain : UInt8 → Bool}

theorem length_encodeByte_le (plain : UInt8 → Bool) (byte : UInt8) :
    (encodeByte plain byte).length ≤ 3 := by
  rw [encodeByte]
  split
  · exact Nat.le_of_ble_eq_true rfl
  · exact Nat.le_refl 3

theorem encode_cons (byte : UInt8) (text : List UInt8) :
    encode plain (byte :: text) = encodeByte plain byte ++ encode plain text :=
  List.flatMap_cons

theorem length_encode_le (plain : UInt8 → Bool) (text : List UInt8) :
    (encode plain text).length ≤ 3 * text.length := by
  induction text with
  | nil => exact Nat.le_refl 0
  | cons byte text ih =>
      have first := length_encodeByte_le plain byte
      rw [encode_cons, List.length_append, List.length_cons]
      omega

theorem encoded_encode (plain : UInt8 → Bool) (text : List UInt8) :
    Encoded plain (encode plain text) := by
  induction text with
  | nil => exact .nil
  | cons byte text ih =>
      rw [encode_cons, encodeByte]
      split
      next letter => exact .plain letter ih
      · rcases hexValue_digits byte with ⟨high, low, _⟩
        apply Encoded.escape _ _ ih
        · rw [high]
          rfl
        · rw [low]
          rfl

theorem notMem_encode {byte : UInt8} (noLetter : plain byte = false) (noSign : byte ≠ 37)
    (noDigit : hexValue byte = none) (text : List UInt8) : byte ∉ encode plain text := by
  intro mem
  have encoded := encoded_encode plain text
  generalize encode plain text = written at mem encoded
  induction encoded with
  | nil => cases mem
  | plain letter _ ih =>
      rcases List.mem_cons.mp mem with rfl | later
      · rw [noLetter] at letter
        cases letter
      · exact ih later
  | escape high low _ ih =>
      rcases List.mem_cons.mp mem with sign | mem
      · exact noSign sign
      rcases List.mem_cons.mp mem with rfl | mem
      · rw [noDigit] at high
        cases high
      rcases List.mem_cons.mp mem with rfl | mem
      · rw [noDigit] at low
        cases low
      · exact ih mem

theorem decode_plain {byte : UInt8} (letter : plain byte = true) (rest : List UInt8) :
    decode plain (byte :: rest) = (decode plain rest).map (byte :: ·) := by
  rw [decode.eq_def]
  exact if_pos letter

theorem decode_escape (noSign : plain 37 = false) {first second high low : UInt8}
    (first_eq : hexValue first = some high) (second_eq : hexValue second = some low)
    (rest : List UInt8) :
    decode plain (37 :: first :: second :: rest) =
      (decode plain rest).map fun text => (16 * high + low) :: text := by
  rw [decode, noSign]
  simp only [Bool.false_eq_true, if_false, if_true, first_eq, second_eq, Option.bind_eq_bind,
    Option.bind_some]
  cases decode plain rest with
  | none => rfl
  | some text => rfl

/-- What was encoded is read back. -/
theorem decode_encode (noSign : plain 37 = false) (text : List UInt8) :
    decode plain (encode plain text) = some text := by
  induction text with
  | nil => rfl
  | cons byte text ih =>
      rw [encode_cons, encodeByte]
      split
      next letter =>
        rw [List.singleton_append, decode_plain letter, ih]
        rfl
      · rcases hexValue_digits byte with ⟨high, low, value⟩
        rw [escape, List.cons_append, List.cons_append, List.cons_append, List.nil_append,
          decode_escape noSign high low, ih, value]
        rfl

/-- Reading gives at most one byte for each letter. -/
theorem length_decode_le {written text : List UInt8} (decoded : decode plain written = some text) :
    text.length ≤ written.length := by
  fun_induction decode plain written generalizing text with
  | case1 =>
      cases decoded
      exact Nat.le_refl 0
  | case2 byte rest letter ih =>
      rcases Option.map_eq_some_iff.mp decoded with ⟨others, read, rfl⟩
      exact Nat.succ_le_succ (ih read)
  | case3 first second rest noLetter ih =>
      simp only [Option.bind_eq_bind, Option.bind_eq_some_iff, Option.pure_def,
        Option.some.injEq] at decoded
      rcases decoded with ⟨high, _, low, _, others, read, rfl⟩
      have shorter := ih read
      simp only [List.length_cons]
      omega
  | case4 | case5 => cases decoded

end PercentEncoding
