import OsConfig.Common.Parson

/-!
# Validity of composed texts

A character of UTF-8 never continues over an ASCII byte. A text that is put
together from fixed parts and arbitrary bytes, with an ASCII byte behind every
arbitrary part, is therefore valid exactly if all its parts are; and as a C
string it ends at the first NUL of one of them.
-/

namespace OsConfig.Utf8

open ByteString

section Sequences

variable {text other : ByteString} {length : ℕ}

theorem isContinuation_zero : isContinuation 0 = false := by decide

theorem isContinuation_ascii {byte : UInt8} (ascii : byte < 0x80) :
    isContinuation byte = false := by
  revert byte
  decide +kernel

/-- The bytes a code point is read from, and the only ones it depends on. -/
theorem codePoint_eq_some {b0 b1 b2 b3 : UInt8} {point : ℕ}
    (read : codePoint length b0 b1 b2 b3 = some point) :
    (length = 1) ∨ (length = 2 ∧ isContinuation b1) ∨
      (length = 3 ∧ isContinuation b1 ∧ isContinuation b2) ∨
      (length = 4 ∧ isContinuation b1 ∧ isContinuation b2 ∧ isContinuation b3) := by
  unfold codePoint at read
  split_ifs at read with h1 h2 h3 h4 <;> simp_all

theorem verifySequence_eq_some (read : verifySequence text = some length) :
    length = numBytesInSequence (text.getD 0 0) ∧
      ∃ point, codePoint length (text.getD 0 0) (text.getD 1 0) (text.getD 2 0)
        (text.getD 3 0) = some point := by
  unfold verifySequence at read
  dsimp only at read
  split at read
  · simp at read
  · rename_i point point_eq
    split_ifs at read with h1 h2 h3
    simp only [Option.some.injEq] at read
    exact ⟨read.symm, point, read ▸ point_eq⟩

theorem verifySequence_pos (read : verifySequence text = some length) : 1 ≤ length := by
  rcases verifySequence_eq_some read with ⟨-, point, point_eq⟩
  rcases codePoint_eq_some point_eq with rfl | ⟨rfl, -⟩ | ⟨rfl, -⟩ | ⟨rfl, -⟩ <;> decide

/-- All bytes of a sequence but the first are continuation bytes. -/
theorem verifySequence_continuation (read : verifySequence text = some length) {index : ℕ}
    (later : 1 ≤ index) (within : index < length) : isContinuation (text.getD index 0) = true := by
  rcases verifySequence_eq_some read with ⟨-, point, point_eq⟩
  rcases codePoint_eq_some point_eq with rfl | ⟨rfl, second⟩ | ⟨rfl, second, third⟩ |
    ⟨rfl, second, third, fourth⟩
  · omega
  · obtain rfl : index = 1 := by omega
    exact second
  · interval_cases index
    · exact second
    · exact third
  · interval_cases index
    · exact second
    · exact third
    · exact fourth

/-- A sequence depends on its own bytes only. -/
theorem verifySequence_congr (read : verifySequence text = some length)
    (agree : ∀ index < length, other.getD index 0 = text.getD index 0) :
    verifySequence other = some length := by
  have first := agree 0 (verifySequence_pos read)
  have same : codePoint length (other.getD 0 0) (other.getD 1 0) (other.getD 2 0)
      (other.getD 3 0) = codePoint length (text.getD 0 0) (text.getD 1 0) (text.getD 2 0)
        (text.getD 3 0) := by
    rcases verifySequence_eq_some read with ⟨-, point, point_eq⟩
    rcases codePoint_eq_some point_eq with rfl | ⟨rfl, -⟩ | ⟨rfl, -⟩ | ⟨rfl, -⟩
    · rw [first]
      simp [codePoint]
    · rw [first, agree 1 (by decide)]
      simp [codePoint]
    · rw [first, agree 1 (by decide), agree 2 (by decide)]
      simp [codePoint]
    · rw [first, agree 1 (by decide), agree 2 (by decide), agree 3 (by decide)]
  rcases verifySequence_eq_some read with ⟨length_eq, -⟩
  have other_eq : numBytesInSequence (other.getD 0 0) = length := by rw [first, ← length_eq]
  rw [← read, verifySequence, verifySequence, ← length_eq, other_eq]
  simp only [same]

/-- A sequence ends before a byte that is no continuation byte. -/
theorem verifySequence_le (read : verifySequence text = some length) {index : ℕ}
    (later : 1 ≤ index) (stops : isContinuation (text.getD index 0) = false) : length ≤ index := by
  by_contra beyond
  rw [verifySequence_continuation read later (by omega)] at stops
  simp at stops

theorem verifySequence_le_length (nonempty : text ≠ [])
    (read : verifySequence text = some length) : length ≤ text.length := by
  refine verifySequence_le read (List.length_pos_iff.mpr nonempty) ?_
  rw [List.getD_eq_default _ _ le_rfl]
  exact isContinuation_zero

theorem verifySequence_append (nonempty : text ≠ []) (read : verifySequence text = some length)
    (rest : ByteString) : verifySequence (text ++ rest) = some length := by
  refine verifySequence_congr read fun index within => ?_
  rw [List.getD_append]
  exact lt_of_lt_of_le within (verifySequence_le_length nonempty read)

theorem verifySequence_append_ascii (nonempty : text ≠ []) {byte : UInt8} (ascii : byte < 0x80)
    (rest : ByteString) : verifySequence (text ++ byte :: rest) = verifySequence text := by
  cases here : verifySequence text with
  | some length => exact verifySequence_append nonempty here (byte :: rest)
  | none =>
      cases longer : verifySequence (text ++ byte :: rest) with
      | none => rfl
      | some length =>
          have within : length ≤ text.length := by
            refine verifySequence_le longer (List.length_pos_iff.mpr nonempty) ?_
            rw [List.getD_append_right _ _ _ _ le_rfl, Nat.sub_self]
            exact isContinuation_ascii ascii
          have read : verifySequence text = some length := by
            refine verifySequence_congr longer fun index before => ?_
            rw [List.getD_append]
            omega
          rw [here] at read
          simp at read

theorem verifySequence_ascii {byte : UInt8} (ascii : byte < 0x80) (rest : ByteString) :
    verifySequence (byte :: rest) = some 1 := by
  have one : numBytesInSequence byte = 1 := by
    revert byte
    decide +kernel
  have small : byte.toNat < 0x80 := by
    simpa [UInt8.lt_iff_toNat_lt] using ascii
  have low : ¬0x10FFFF < byte.toNat := by omega
  have plain : ¬(0xD800 ≤ byte.toNat) := by omega
  simp [verifySequence, one, codePoint, low, plain]

end Sequences

section Texts

theorem isValidLoop_cons (fuel : ℕ) (byte : UInt8) (rest : ByteString) :
    isValidLoop (fuel + 1) (byte :: rest) =
      match verifySequence (byte :: rest) with
      | none => false
      | some length => isValidLoop fuel ((byte :: rest).drop length) := rfl

theorem isValidLoop_eq (fuel : ℕ) (text : ByteString) (enough : text.length ≤ fuel) :
    isValidLoop fuel text = isValid text := by
  induction fuel using Nat.strong_induction_on generalizing text with
  | _ fuel ih =>
      rcases text with _ | ⟨byte, rest⟩
      · simp [isValid, isValidLoop]
      · rcases fuel with _ | fuel
        · simp at enough
        · rw [isValid, List.length_cons, isValidLoop_cons, isValidLoop_cons]
          cases read : verifySequence (byte :: rest) with
          | none => rfl
          | some length =>
              have pos := verifySequence_pos read
              simp only [List.length_cons] at enough
              have shorter : ((byte :: rest).drop length).length ≤ rest.length := by
                simp only [List.length_drop, List.length_cons]
                omega
              dsimp only
              rw [ih fuel (by omega) _ (by omega), ih rest.length (by omega) _ shorter]

theorem isValid_step {text : ByteString} (nonempty : text ≠ []) {length : ℕ}
    (read : verifySequence text = some length) : isValid text = isValid (text.drop length) := by
  rcases text with _ | ⟨byte, rest⟩
  · simp at nonempty
  · have pos := verifySequence_pos read
    rw [isValid, List.length_cons, isValidLoop_cons, read]
    apply isValidLoop_eq
    simp only [List.length_drop, List.length_cons]
    omega

theorem isValid_eq_false {text : ByteString} (nonempty : text ≠ [])
    (refused : verifySequence text = none) : isValid text = false := by
  rcases text with _ | ⟨byte, rest⟩
  · simp at nonempty
  · rw [isValid, List.length_cons, isValidLoop_cons, refused]

theorem isValid_nil : isValid [] = true := rfl

theorem isValid_append {text : ByteString} (valid : isValid text = true) (rest : ByteString) :
    isValid (text ++ rest) = isValid rest := by
  induction count : text.length using Nat.strong_induction_on generalizing text with
  | _ count ih =>
      by_cases nonempty : text = []
      · rw [nonempty, List.nil_append]
      · cases read : verifySequence text with
        | none => simp [isValid_eq_false nonempty read] at valid
        | some length =>
            have pos := verifySequence_pos read
            have within := verifySequence_le_length nonempty read
            have longer := verifySequence_append nonempty read rest
            rw [isValid_step nonempty read] at valid
            rw [isValid_step (by simp [nonempty]) longer, List.drop_append_of_le_length within]
            refine ih _ ?_ valid rfl
            rw [List.length_drop]
            omega

theorem isValid_append_ascii (text : ByteString) {byte : UInt8} (ascii : byte < 0x80)
    (rest : ByteString) :
    isValid (text ++ byte :: rest) = (isValid text && isValid rest) := by
  induction count : text.length using Nat.strong_induction_on generalizing text with
  | _ count ih =>
      by_cases nonempty : text = []
      · subst nonempty
        rw [List.nil_append, isValid_step (by simp) (verifySequence_ascii ascii rest), isValid_nil]
        rfl
      · have separated := verifySequence_append_ascii nonempty ascii rest
        cases read : verifySequence text with
        | none =>
            rw [isValid_eq_false nonempty read, isValid_eq_false (by simp) (separated.trans read)]
            rfl
        | some length =>
            have pos := verifySequence_pos read
            have within := verifySequence_le_length nonempty read
            rw [isValid_step nonempty read, isValid_step (by simp) (separated.trans read),
              List.drop_append_of_le_length within]
            refine ih _ ?_ _ rfl
            rw [List.length_drop]
            omega

end Texts

section Pieces

/-- A text that a JSON string can hold: valid and without a NUL. -/
def IsText (text : ByteString) : Prop :=
  isValid text = true ∧ 0 ∉ text

instance (text : ByteString) : Decidable (IsText text) :=
  inferInstanceAs (Decidable (_ ∧ _))

theorem isText_nil : IsText [] := by decide

theorem IsText.append {text rest : ByteString} (isText : IsText text) (later : IsText rest) :
    IsText (text ++ rest) := by
  refine ⟨by rw [isValid_append isText.1, later.1], ?_⟩
  rw [List.mem_append, not_or]
  exact ⟨isText.2, later.2⟩

theorem isText_ascii {text : ByteString} (ascii : ∀ byte ∈ text, byte < 0x80 ∧ byte ≠ 0) :
    IsText text := by
  induction text with
  | nil => exact isText_nil
  | cons byte rest ih =>
      have here := ascii byte (by simp)
      have later := ih fun other mem => ascii other (List.mem_cons_of_mem _ mem)
      refine ⟨?_, ?_⟩
      · rw [isValid_step (by simp) (verifySequence_ascii here.1 rest)]
        exact later.1
      · rw [List.mem_cons, not_or]
        exact ⟨here.2.symm, later.2⟩

/-- The output is put together from the texts, in their order, and from fixed texts. Behind
every text stands an ASCII byte. -/
inductive Writes : List ByteString → ByteString → Prop
  | nil : Writes [] []
  | fixed {texts : List ByteString} {part rest : ByteString} (isText : IsText part)
      (writes : Writes texts rest) : Writes texts (part ++ rest)
  | text {texts : List ByteString} {rest : ByteString} (text : ByteString) {stop : UInt8}
      (ascii : stop < 0x80) (notNul : stop ≠ 0) (writes : Writes texts rest) :
      Writes (text :: texts) (text ++ stop :: rest)

theorem Writes.append {texts others : List ByteString} {output more : ByteString}
    (writes : Writes texts output) (later : Writes others more) :
    Writes (texts ++ others) (output ++ more) := by
  induction writes with
  | nil => exact later
  | fixed isText _ ih =>
      rw [List.append_assoc]
      exact .fixed isText ih
  | text text ascii notNul _ ih =>
      rw [List.append_assoc]
      exact .text text ascii notNul ih

theorem writes_fixed {part : ByteString} (isText : IsText part) : Writes [] part := by
  simpa using Writes.fixed isText .nil

def ValidUpToNul (texts : List ByteString) : Prop :=
  match texts with
  | [] => True
  | text :: rest => isValid text.cString = true ∧ (0 ∉ text → ValidUpToNul rest)

theorem cString_append_of_mem {text : ByteString} (nul : 0 ∈ text) (rest : ByteString) :
    cString (text ++ rest) = cString text := by
  induction text with
  | nil => simp at nul
  | cons byte others ih =>
      by_cases here : byte = 0
      · simp [cString, here]
      · have later : (0 : UInt8) ∈ others := by
          rcases List.mem_cons.mp nul with equal | later
          · exact absurd equal.symm here
          · exact later
        simpa [cString, here] using ih later

theorem isValid_writes {texts : List ByteString} {output : ByteString}
    (writes : Writes texts output) : isValid output.cString = true ↔ ValidUpToNul texts := by
  induction writes with
  | nil => simp [ValidUpToNul, cString, isValid_nil]
  | fixed isText _ ih => rw [cString_append_of_not_mem isText.2, isValid_append isText.1, ih]
  | @text texts rest text stop ascii notNul _ ih =>
      rw [ValidUpToNul]
      by_cases nul : (0 : UInt8) ∈ text
      · simp [cString_append_of_mem nul, nul]
      · have stopped : cString (stop :: rest) = stop :: cString rest := by
          simp [cString, notNul]
        rw [cString_append_of_not_mem nul, stopped, isValid_append_ascii text ascii,
          Bool.and_eq_true, ih, cString_of_not_mem nul]
        simp [nul]

end Pieces

section Serialized

theorem numBytesInSequence_high {byte : UInt8} (several : 2 ≤ numBytesInSequence byte) :
    ¬byte < 0x80 := by
  revert byte
  decide +kernel

theorem isContinuation_high {byte : UInt8} (continues : isContinuation byte = true) :
    ¬byte < 0x80 := by
  revert byte
  decide +kernel

theorem verifySequence_high {text : ByteString} {length : ℕ}
    (read : verifySequence text = some length) :
    length = 1 ∨ ∀ index < length, ¬text.getD index 0 < 0x80 := by
  rcases (verifySequence_pos read).eq_or_lt with one | several
  · exact .inl one.symm
  · refine .inr fun index within => ?_
    cases index with
    | zero =>
        apply numBytesInSequence_high
        rw [← (verifySequence_eq_some read).1]
        omega
    | succ index =>
        exact isContinuation_high (verifySequence_continuation read (by omega) within)

theorem escape_high {byte : UInt8} (high : ¬byte < 0x80) : JsonValue.escape byte = [byte] := by
  revert byte
  decide +kernel

theorem isText_escape {byte : UInt8} (ascii : byte < 0x80) : IsText (JsonValue.escape byte) := by
  revert byte
  decide +kernel

theorem flatMap_escape_high {text : ByteString} (high : ∀ byte ∈ text, ¬byte < 0x80) :
    text.flatMap JsonValue.escape = text := by
  induction text with
  | nil => rfl
  | cons byte rest ih =>
      rw [List.flatMap_cons, escape_high (high byte (by simp)),
        ih fun other mem => high other (List.mem_cons_of_mem _ mem)]
      rfl

theorem numBytesInSequence_ascii {byte : UInt8} (single : numBytesInSequence byte = 1) :
    byte < 0x80 := by
  revert byte
  decide +kernel

theorem isText_flatMap_escape {text : ByteString} (valid : isValid text = true) :
    IsText (text.flatMap JsonValue.escape) := by
  induction count : text.length using Nat.strong_induction_on generalizing text with
  | _ count ih =>
      by_cases nonempty : text = []
      · subst nonempty
        exact isText_nil
      · cases read : verifySequence text with
        | none => simp [isValid_eq_false nonempty read] at valid
        | some length =>
            have pos := verifySequence_pos read
            have within := verifySequence_le_length nonempty read
            rw [isValid_step nonempty read] at valid
            have later : IsText ((text.drop length).flatMap JsonValue.escape) := by
              refine ih _ ?_ valid rfl
              rw [List.length_drop]
              omega
            have here : IsText ((text.take length).flatMap JsonValue.escape) := by
              rcases verifySequence_high read with rfl | high
              · rcases text with _ | ⟨byte, rest⟩
                · simp at nonempty
                · have ascii := numBytesInSequence_ascii (verifySequence_eq_some read).1.symm
                  simpa using isText_escape ascii
              · have highBytes : ∀ byte ∈ text.take length, ¬byte < 0x80 := by
                  intro byte mem
                  rcases List.mem_take_iff_getElem.mp mem with ⟨index, bound, rfl⟩
                  have value := high index (by omega)
                  rwa [List.getD_eq_getElem _ _ (by omega)] at value
                have taken : verifySequence (text.take length) = some length := by
                  refine verifySequence_congr read fun index before => ?_
                  simp [before]
                have notEmpty : text.take length ≠ [] := by
                  rw [← List.length_pos_iff, List.length_take]
                  omega
                rw [flatMap_escape_high highBytes]
                refine ⟨?_, fun nul => highBytes 0 nul (by decide)⟩
                rw [isValid_step notEmpty taken, List.drop_take, Nat.sub_self, List.take_zero]
                rfl
            have split := here.append later
            rwa [← List.flatMap_append, List.take_append_drop] at split

/-- All strings of a value are valid. -/
inductive ValidStrings : JsonValue → Prop
  | null : ValidStrings .null
  | boolean (value : Bool) : ValidStrings (.boolean value)
  | number {printed : ByteString} (isText : IsText printed) : ValidStrings (.number printed)
  | string {text : ByteString} (valid : isValid text = true) : ValidStrings (.string text)
  | array {items : List JsonValue} (valid : ∀ item ∈ items, ValidStrings item) :
      ValidStrings (.array items)
  | object {members : JsonObject} (names : ∀ member ∈ members, isValid member.1 = true)
      (valid : ∀ member ∈ members, ValidStrings member.2) : ValidStrings (.object members)

section Layout

variable (pretty : Bool) (level : ℕ)

theorem isText_lineBreak : IsText (JsonValue.lineBreak pretty) := by
  cases pretty <;> decide

theorem isText_indentIf : IsText (JsonValue.indentIf pretty level) := by
  cases pretty
  · exact isText_nil
  · refine isText_ascii fun byte mem => ?_
    simp only [JsonValue.indentIf, JsonValue.indent, if_true, List.mem_flatten,
      List.mem_replicate] at mem
    rcases mem with ⟨gap, ⟨-, rfl⟩, mem⟩
    revert byte
    decide +kernel

theorem isText_gap : IsText (if pretty then bytes " " else []) := by
  cases pretty <;> decide

theorem isText_serializeString {text : ByteString} (valid : isValid text = true) :
    IsText (JsonValue.serializeString text) := by
  have quote : IsText (bytes "\"") := by decide
  exact (quote.append (isText_flatMap_escape valid)).append quote

theorem isText_serializeItems {items : List JsonValue}
    (valid : ∀ item ∈ items, IsText (JsonValue.serialize pretty (level + 1) item)) :
    IsText (JsonValue.serializeItems pretty level items) := by
  have comma : IsText (bytes ",") := by decide
  induction items with
  | nil => exact isText_lineBreak pretty
  | cons item rest ih =>
      have later := ih fun other mem => valid other (List.mem_cons_of_mem _ mem)
      rw [JsonValue.serializeItems]
      exact (((comma.append (isText_lineBreak pretty)).append
        (isText_indentIf pretty (level + 1))).append (valid item (by simp))).append later

theorem isText_serializeMembers {members : JsonObject}
    (names : ∀ member ∈ members, isValid member.1 = true)
    (valid : ∀ member ∈ members, IsText (JsonValue.serialize pretty (level + 1) member.2)) :
    IsText (JsonValue.serializeMembers pretty level members) := by
  have comma : IsText (bytes ",") := by decide
  have colon : IsText (bytes ":") := by decide
  induction members with
  | nil => exact isText_lineBreak pretty
  | cons member rest ih =>
      rcases member with ⟨name, value⟩
      have later := ih (fun other mem => names other (List.mem_cons_of_mem _ mem))
        fun other mem => valid other (List.mem_cons_of_mem _ mem)
      rw [JsonValue.serializeMembers]
      exact ((((((comma.append (isText_lineBreak pretty)).append
        (isText_indentIf pretty (level + 1))).append
        (isText_serializeString (names (name, value) (by simp)))).append colon).append
        (isText_gap pretty)).append (valid (name, value) (by simp))).append later

theorem isText_serialize {value : JsonValue} (valid : ValidStrings value) :
    IsText (JsonValue.serialize pretty level value) := by
  have brackets : IsText (bytes "[") ∧ IsText (bytes "]") ∧ IsText (bytes "[]") ∧
      IsText (bytes "\x7b") ∧ IsText (bytes "\x7d") ∧ IsText (bytes "\x7b\x7d") ∧
      IsText (bytes ":") := by
    decide
  rcases brackets with ⟨left, right, emptyArray, leftBrace, rightBrace, emptyObject, colon⟩
  induction valid generalizing level with
  | null => exact show IsText (bytes "null") by decide
  | boolean value =>
      cases value
      · exact show IsText (bytes "false") by decide
      · exact show IsText (bytes "true") by decide
  | number isText => exact isText
  | string valid => exact isText_serializeString valid
  | @array items _ ih =>
      cases items with
      | nil => exact emptyArray
      | cons item rest =>
          have later := isText_serializeItems pretty level
            fun other mem => ih other (List.mem_cons_of_mem _ mem) (level + 1)
          rw [JsonValue.serialize]
          exact (((left.append (isText_lineBreak pretty)).append
            (((isText_indentIf pretty (level + 1)).append (ih item (by simp) (level + 1))).append
              later)).append (isText_indentIf pretty level)).append right
  | @object members names _ ih =>
      cases members with
      | nil => exact emptyObject
      | cons member rest =>
          rcases member with ⟨name, value⟩
          have later := isText_serializeMembers pretty level
            (fun other mem => names other (List.mem_cons_of_mem _ mem))
            fun other mem => ih other (List.mem_cons_of_mem _ mem) (level + 1)
          rw [JsonValue.serialize]
          exact (((leftBrace.append (isText_lineBreak pretty)).append
            ((((((isText_indentIf pretty (level + 1)).append
              (isText_serializeString (names (name, value) (by simp)))).append colon).append
              (isText_gap pretty)).append (ih (name, value) (by simp) (level + 1))).append
              later)).append (isText_indentIf pretty level)).append rightBrace

end Layout

end Serialized

end OsConfig.Utf8
