import OsConfig.Common.Bytes

/-!
# Formatted output

What `snprintf` makes of a template whose only conversions are `%s`. The buffer
keeps as much of the text as fits in front of the terminating zero.
-/

namespace OsConfig

theorem bytes_injective : Function.Injective bytes := by
  intro first second same
  have encoded : first.toList.utf8Encode = second.toList.utf8Encode := by
    simp only [bytes] at same
    simp only [List.utf8Encode, same]
  have texts : String.ofList first.toList = String.ofList second.toList := by
    apply String.toByteArray_inj.mp
    simpa using encoded
  simpa using texts

theorem bytes_append (first second : String) :
    bytes (first ++ second) = bytes first ++ bytes second := by
  simp [bytes]

theorem toNat_of_mem_utf8EncodeChar {character : Char} {byte : UInt8}
    (mem : byte ∈ String.utf8EncodeChar character) :
    (character.toNat < 128 ∧ byte.toNat = character.toNat) ∨
      (128 ≤ character.toNat ∧ 128 ≤ byte.toNat) := by
  have number : character.val.toNat = character.toNat := rfl
  have bound := UInt32.toNat_lt character.val
  have above : ∀ low base : ℕ, 128 ≤ base → low + base < 256 →
      128 ≤ (UInt8.ofNat (low + base)).toNat := by
    intro low base le lt
    rw [UInt8.toNat_ofNat']
    omega
  rw [String.utf8EncodeChar, number] at mem
  split at mem
  next ascii =>
    left
    rw [List.mem_singleton.mp mem, UInt8.toNat_ofNat']
    omega
  next wide =>
    right
    refine ⟨by omega, ?_⟩
    -- Two, three or four bytes, each of them above its marker.
    split at mem
    · simp only [List.mem_cons, List.not_mem_nil, or_false] at mem
      rcases mem with rfl | rfl <;> exact above _ _ (by omega) (by omega)
    · split at mem
      · simp only [List.mem_cons, List.not_mem_nil, or_false] at mem
        rcases mem with rfl | rfl | rfl <;> exact above _ _ (by omega) (by omega)
      · simp only [List.mem_cons, List.not_mem_nil, or_false] at mem
        rcases mem with rfl | rfl | rfl | rfl <;> exact above _ _ (by omega) (by omega)

/-- A template with its strings filled in. -/
def expand : ByteString → List ByteString → ByteString
  | 37 :: 115 :: rest, text :: texts => text ++ expand rest texts
  | byte :: rest, texts => byte :: expand rest texts
  | [], _ => []

/-- `snprintf`; the text that the buffer holds afterwards. -/
def snprintf (size : ℕ) (template : ByteString) (texts : List ByteString) : ByteString :=
  (expand template texts).take (size - 1)

/-- A buffer that is large enough holds the whole text. -/
theorem snprintf_eq {size : ℕ} {template : ByteString} {texts : List ByteString}
    (fits : (expand template texts).length < size) :
    snprintf size template texts = expand template texts :=
  List.take_of_length_le (by omega)

def optionLines (options : List (ByteString × ByteString)) : ByteString :=
  options.flatMap fun option => option.1 ++ 32 :: (option.2 ++ [10])

theorem expand_text (rest text : ByteString) (texts : List ByteString) :
    expand (37 :: 115 :: rest) (text :: texts) = text ++ expand rest texts := rfl

theorem expand_byte {byte : UInt8} (plain : byte ≠ 37) (rest : ByteString)
    (texts : List ByteString) : expand (byte :: rest) texts = byte :: expand rest texts := by
  rw [expand]
  intros
  contradiction

theorem expand_optionLines (options : List (ByteString × ByteString)) :
    expand (List.replicate options.length (bytes "%s %s\n")).flatten
      (options.flatMap fun option => [option.1, option.2]) = optionLines options := by
  induction options with
  | nil => rfl
  | cons option rest ih =>
      have line : bytes "%s %s\n" = [37, 115, 32, 37, 115, 10] := by decide
      rw [List.length_cons, List.replicate_succ, List.flatten_cons, List.flatMap_cons, line]
      rw [line] at ih
      simp only [List.cons_append, List.nil_append, expand_text]
      rw [expand_byte (by decide), expand_text, expand_byte (by decide), ih]
      simp only [optionLines, List.flatMap_cons, List.append_assoc, List.cons_append,
        List.nil_append]

/-- The lines need no more room than the template and the strings have together. -/
theorem length_optionLines (options : List (ByteString × ByteString)) :
    (optionLines options).length =
      2 * options.length +
        ((options.flatMap fun option => [option.1, option.2]).map List.length).sum := by
  induction options with
  | nil => rfl
  | cons option rest ih =>
      simp only [optionLines, List.flatMap_cons, List.length_append, List.length_cons,
        List.length_nil, List.map_append, List.map_cons, List.map_nil, List.sum_append,
        List.sum_cons, List.sum_nil] at ih ⊢
      omega

end OsConfig
