import OsConfig.ComplianceEngine.Base64
import Mathlib.Tactic.IntervalCases

/-!
# Decoding inverts encoding

The padded encoding of RFC 4648 is read back by the decoder. A byte outside the
alphabet makes the decoder refuse.
-/

namespace OsConfig.ComplianceEngine.Base64

/-- The character of RFC 4648 for six bits. -/
def encodeChar (sextet : UInt8) : UInt8 :=
  if sextet < 26 then sextet + 65
  else if sextet < 52 then sextet - 26 + 97
  else if sextet < 62 then sextet - 52 + 48
  else if sextet = 62 then 43
  else 47

/-- The padded encoding of RFC 4648. -/
def encode (input : ByteString) : ByteString :=
  match input with
  | [] => []
  | [a] => [encodeChar (a >>> 2), encodeChar ((a &&& 3) <<< 4), 61, 61]
  | [a, b] =>
      [encodeChar (a >>> 2), encodeChar ((a &&& 3) <<< 4 ||| b >>> 4),
        encodeChar ((b &&& 15) <<< 2), 61]
  | a :: b :: c :: rest =>
      encodeChar (a >>> 2) :: encodeChar ((a &&& 3) <<< 4 ||| b >>> 4) ::
        encodeChar ((b &&& 15) <<< 2 ||| c >>> 6) :: encodeChar (c &&& 63) :: encode rest

theorem forall_byte {property : UInt8 → Prop}
    (checked : ∀ number : Fin 256, property (UInt8.ofNat number)) (byte : UInt8) :
    property byte := by
  simpa using checked ⟨byte.toNat, byte.toNat_lt⟩

/-- Six bits are read back from their character, which is in the alphabet and no padding. -/
theorem encodeChar_spec : ∀ sextet : UInt8, sextet < 64 →
    base64Char (encodeChar sextet) = sextet ∧ encodeChar sextet ≠ 61 ∧
      isBase64 (encodeChar sextet) := by
  apply forall_byte
  decide +kernel

section Bits

variable (a b c : UInt8)

theorem or_lt {a b : UInt8} (left : a < 64) (right : b < 64) : a ||| b < 64 := by
  rw [UInt8.lt_iff_toNat_lt] at left right ⊢
  rw [UInt8.toNat_or]
  exact @Nat.or_lt_two_pow _ _ 6 left right

/-- The shifted and masked bytes from which the sextets are put together. -/
theorem sextet_parts : ∀ byte : UInt8, byte >>> 2 < 64 ∧ (byte &&& 3) <<< 4 < 64 ∧
    byte >>> 4 < 64 ∧ (byte &&& 15) <<< 2 < 64 ∧ byte >>> 6 < 64 ∧ byte &&& 63 < 64 := by
  apply forall_byte
  decide +kernel

theorem byte_first : (a >>> 2) <<< 2 ||| ((a &&& 3) <<< 4 ||| b >>> 4) >>> 4 = a := by
  apply UInt8.toBitVec_inj.mp
  ext i bound
  interval_cases i <;> simp

theorem byte_second : (((a &&& 3) <<< 4 ||| b >>> 4) &&& 15) <<< 4 |||
    ((b &&& 15) <<< 2 ||| c >>> 6) >>> 2 = b := by
  apply UInt8.toBitVec_inj.mp
  ext i bound
  interval_cases i <;> simp

theorem byte_third : (((b &&& 15) <<< 2 ||| c >>> 6) &&& 3) <<< 6 ||| (c &&& 63) = c := by
  apply UInt8.toBitVec_inj.mp
  ext i bound
  interval_cases i <;> simp

end Bits

theorem decodeGroup_encodeChar {first second third fourth : UInt8} (first_lt : first < 64)
    (second_lt : second < 64) (third_lt : third < 64) (fourth_lt : fourth < 64) :
    decodeGroup (encodeChar first) (encodeChar second) (encodeChar third) (encodeChar fourth) =
      .ok [first <<< 2 ||| second >>> 4, (second &&& 0x0f) <<< 4 ||| third >>> 2,
        (third &&& 0x03) <<< 6 ||| fourth] := by
  rcases encodeChar_spec first first_lt with ⟨first_eq, first_ne, -⟩
  rcases encodeChar_spec second second_lt with ⟨second_eq, second_ne, -⟩
  rcases encodeChar_spec third third_lt with ⟨third_eq, third_ne, -⟩
  rcases encodeChar_spec fourth fourth_lt with ⟨fourth_eq, fourth_ne, -⟩
  simp [decodeGroup, first_eq, second_eq, third_eq, fourth_eq, first_ne, second_ne, third_ne,
    fourth_ne]

theorem decodeGroups_encode (input : ByteString) : decodeGroups (encode input) = .ok input := by
  fun_induction encode input with
  | case1 => rfl
  | case2 a =>
      rcases sextet_parts a with ⟨first_lt, second_lt, -⟩
      rcases encodeChar_spec _ first_lt with ⟨first_eq, first_ne, -⟩
      rcases encodeChar_spec _ second_lt with ⟨second_eq, second_ne, -⟩
      have byte_eq : (a >>> 2) <<< 2 ||| ((a &&& 3) <<< 4) >>> 4 = a := by
        simpa using byte_first a 0
      simp [decodeGroups, decodeGroup, first_eq, second_eq, first_ne, second_ne, byte_eq]
      rfl
  | case3 a b =>
      rcases sextet_parts a with ⟨first_lt, high_lt, -⟩
      rcases sextet_parts b with ⟨-, -, low_lt, third_lt, -⟩
      rcases encodeChar_spec _ first_lt with ⟨first_eq, first_ne, -⟩
      rcases encodeChar_spec _ (or_lt high_lt low_lt) with ⟨second_eq, second_ne, -⟩
      rcases encodeChar_spec _ third_lt with ⟨third_eq, third_ne, -⟩
      have byte_eq : (((a &&& 3) <<< 4 ||| b >>> 4) &&& 15) <<< 4 |||
          ((b &&& 15) <<< 2) >>> 2 = b := by
        simpa using byte_second a b 0
      simp [decodeGroups, decodeGroup, first_eq, second_eq, third_eq, first_ne, second_ne, third_ne,
        byte_first, byte_eq]
      rfl
  | case4 a b c rest ih =>
      rcases sextet_parts a with ⟨first_lt, high_lt, -⟩
      rcases sextet_parts b with ⟨-, -, low_lt, third_lt, -⟩
      rcases sextet_parts c with ⟨-, -, -, -, top_lt, fourth_lt⟩
      rw [decodeGroups, decodeGroup_encodeChar first_lt (or_lt high_lt low_lt)
        (or_lt third_lt top_lt) fourth_lt, byte_first, byte_second, byte_third, ih]
      rfl

theorem length_encode (input : ByteString) : (encode input).length % 4 = 0 := by
  fun_induction encode input with
  | case1 => rfl
  | case2 a => simp
  | case3 a b => simp
  | case4 a b c rest ih =>
      simp only [List.length_cons]
      omega

theorem all_encode (input : ByteString) : (encode input).all isBase64 := by
  have padding : isBase64 61 := rfl
  fun_induction encode input with
  | case1 => rfl
  | case2 a =>
      rcases sextet_parts a with ⟨first_lt, second_lt, -⟩
      simp [(encodeChar_spec _ first_lt).2.2, (encodeChar_spec _ second_lt).2.2, padding]
  | case3 a b =>
      rcases sextet_parts a with ⟨first_lt, high_lt, -⟩
      rcases sextet_parts b with ⟨-, -, low_lt, third_lt, -⟩
      simp [(encodeChar_spec _ first_lt).2.2, (encodeChar_spec _ (or_lt high_lt low_lt)).2.2,
        (encodeChar_spec _ third_lt).2.2, padding]
  | case4 a b c rest ih =>
      rcases sextet_parts a with ⟨first_lt, high_lt, -⟩
      rcases sextet_parts b with ⟨-, -, low_lt, third_lt, -⟩
      rcases sextet_parts c with ⟨-, -, -, -, top_lt, fourth_lt⟩
      simp only [List.all_cons, (encodeChar_spec _ first_lt).2.2,
        (encodeChar_spec _ (or_lt high_lt low_lt)).2.2,
        (encodeChar_spec _ (or_lt third_lt top_lt)).2.2, (encodeChar_spec _ fourth_lt).2.2,
        Bool.true_and]
      exact ih

theorem base64Decode_encode (input : ByteString) : base64Decode (encode input) = .ok input := by
  rw [base64Decode, if_neg (by rw [length_encode]; simp), all_encode input]
  exact decodeGroups_encode input

theorem base64Decode_refused {input : ByteString} {byte : UInt8} (mem : byte ∈ input)
    (foreign : isBase64 byte = false) : ∃ failure, base64Decode input = .error failure := by
  rw [base64Decode]
  split
  · exact ⟨_, rfl⟩
  · have refused : input.all isBase64 = false := List.all_eq_false.mpr ⟨byte, mem, by simp [foreign]⟩
    rw [refused]
    exact ⟨_, rfl⟩

end OsConfig.ComplianceEngine.Base64
