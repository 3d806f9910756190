import OsConfig.Common.Bytes
import OsConfig.Library.Buffers
import OsConfig.Library.PercentEncoding

/-!
# URL encoding

`UrlEncode` and `UrlDecode` fill a zeroed block of a size computed from the
length of their argument, which is a C string. Every store is checked against
the block here. A function has no result where the code would write outside of
its block, and the result `none` where the code returns a null pointer. The
allocations succeed.

Both functions do what percent encoding does with the unreserved characters as
its alphabet, and no store is ever outside.
-/

namespace OsConfig.UrlUtils

open Buffers ByteString PercentEncoding

/-- The characters that both functions leave as they are. -/
def isUnreserved (byte : UInt8) : Bool :=
  isAlnum byte || byte = 45 || byte = 95 || byte = 46 || byte = 126

section Code

/-- The loop of `UrlEncode` from the characters that are left and the index `j` on. -/
def encodeLoop (encodedLength : ℕ) :
    ByteString → ℕ → ByteString → Option (Option (ByteString × ℕ))
  | [], j, block => some (some (block, j))
  | byte :: rest, j, block =>
      if j < encodedLength - 1 then
        if isUnreserved byte then do
          let block ← store block j [byte]
          encodeLoop encodedLength rest (j + 1) block
        else if byte = 10 then
          if j + 3 < encodedLength then do
            let block ← store block j [37, 48, 65]
            encodeLoop encodedLength rest (j + 3) block
          else some none
        else
          if j + 3 < encodedLength then do
            -- `snprintf` stores its terminating zero as well
            let block ← store block j (escape byte ++ [0])
            encodeLoop encodedLength rest (j + 3) block
          else some none
      else some (some (block, j))

def urlEncode (target : ByteString) : Option (Option ByteString) :=
  if target = [] then some none
  else do
    let encodedLength := 3 * target.length + 1
    match ← encodeLoop encodedLength target 0 (List.replicate encodedLength 0) with
    | none => some none
    | some (block, j) => do
        let block ← store block j [0]
        return some (cString block)

/-- The loop of `UrlDecode` from the characters behind the index `j` and from the index `i` on. -/
def decodeLoop (targetSize : ℕ) : ByteString → ℕ → ByteString → Option (Option (ByteString × ℕ))
  | [], i, block => some (some (block, i))
  | byte :: rest, i, block =>
      if i < targetSize then
        if isUnreserved byte then do
          let block ← store block i [byte]
          decodeLoop targetSize rest (i + 1) block
        else if byte = 37 then
          match rest with
          | first :: second :: rest =>
              match hexValue first, hexValue second with
              | some high, some low => do
                  let block ← store block i [16 * high + low]
                  decodeLoop targetSize rest (i + 1) block
              | _, _ => some none
          | _ => some none
        else some none
      else some (some (block, i))

def urlDecode (target : ByteString) : Option (Option ByteString) :=
  if target = [] then some none
  else do
    match ← decodeLoop target.length target 0 (List.replicate (target.length + 1) 0) with
    | none => some none
    | some (block, i) => do
        let block ← store block i [0]
        return some (cString block)

end Code

section Encoding

theorem encodeLoop_cons {byte : UInt8} {rest block written : ByteString} {encodedLength : ℕ}
    (holds : Holds block written) (size : block.length = encodedLength)
    (room : written.length + 3 < encodedLength) :
    ∃ block', encodeLoop encodedLength (byte :: rest) written.length block =
        encodeLoop encodedLength rest (written ++ encodeByte isUnreserved byte).length block' ∧
      block'.length = block.length ∧ Holds block' (written ++ encodeByte isUnreserved byte) := by
  have index : written.length < encodedLength - 1 := by omega
  rw [encodeLoop, if_pos index, encodeByte, List.length_append]
  by_cases letter : isUnreserved byte = true
  · have fits : written.length + [byte].length ≤ block.length := by
      rw [List.length_singleton]
      omega
    rcases exists_store holds fits with ⟨block', stored, same, holds'⟩
    rw [if_pos letter, if_pos letter, stored]
    exact ⟨block', rfl, same, holds'⟩
  rw [if_neg letter, if_neg letter]
  by_cases newline : byte = 10
  · have fits : written.length + (escape byte).length ≤ block.length := by
      rw [escape, List.length_cons, List.length_cons, List.length_singleton]
      omega
    rcases exists_store holds fits with ⟨block', stored, same, holds'⟩
    have digits : escape byte = [37, 48, 65] := by
      rw [newline]
      rfl
    rw [if_pos newline, if_pos room]
    rw [digits] at stored holds' ⊢
    rw [stored]
    exact ⟨block', rfl, same, holds'⟩
  · have fits : written.length + (escape byte ++ [0]).length ≤ block.length := by
      rw [escape, List.length_append, List.length_cons, List.length_cons, List.length_singleton,
        List.length_singleton]
      omega
    rcases exists_store holds fits with ⟨block', stored, same, holds'⟩
    rw [if_neg newline, if_pos room, stored]
    rw [← List.append_assoc] at holds'
    exact ⟨block', rfl, same, holds'.of_append⟩

theorem encodeLoop_eq {rest block written : ByteString} {encodedLength : ℕ}
    (holds : Holds block written) (size : block.length = encodedLength)
    (room : written.length + 3 * rest.length < encodedLength) :
    ∃ block', encodeLoop encodedLength rest written.length block =
        some (some (block', (written ++ encode isUnreserved rest).length)) ∧
      block'.length = block.length ∧ Holds block' (written ++ encode isUnreserved rest) := by
  induction rest generalizing block written with
  | nil =>
      refine ⟨block, ?_, rfl, ?_⟩
      · rw [encode, List.flatMap_nil, List.append_nil]
        rfl
      · simpa [encode] using holds
  | cons byte rest ih =>
      rw [List.length_cons] at room
      have first : written.length + 3 < encodedLength := by omega
      rcases @encodeLoop_cons byte rest _ _ _ holds size first with
        ⟨block₁, one, same₁, holds₁⟩
      have shorter := length_encodeByte_le isUnreserved byte
      have left : (written ++ encodeByte isUnreserved byte).length + 3 * rest.length <
          encodedLength := by
        rw [List.length_append]
        omega
      rcases ih holds₁ (same₁.trans size) left with ⟨block₂, others, same₂, holds₂⟩
      rw [List.append_assoc, ← encode_cons] at others holds₂
      exact ⟨block₂, one.trans others, same₂.trans same₁, holds₂⟩

theorem zero_notMem_encode (text : ByteString) : 0 ∉ encode isUnreserved text :=
  notMem_encode (by decide) (by decide) (by decide) text

theorem urlEncode_eq {target : ByteString} (nonempty : target ≠ []) :
    urlEncode target = some (some (encode isUnreserved target)) := by
  have size : (List.replicate (3 * target.length + 1) (0 : UInt8)).length =
      3 * target.length + 1 := List.length_replicate
  have room : ([] : ByteString).length + 3 * target.length < 3 * target.length + 1 := by
    rw [List.length_nil]
    omega
  have short := length_encode_le isUnreserved target
  rcases encodeLoop_eq (holds_nil _) size room with ⟨block, run, same, holds⟩
  rw [List.nil_append] at run holds
  have last : (encode isUnreserved target).length < block.length := by
    rw [same, size]
    omega
  rcases @exists_store _ _ _ [0] holds last with ⟨block', stored, _, ends⟩
  have text_eq : cString block' = encode isUnreserved target :=
    ends.takeWhile.trans (cString_of_not_mem (zero_notMem_encode target))
  rw [List.length_nil] at run
  rw [urlEncode, if_neg nonempty]
  simp only [run, stored, text_eq, Option.bind_eq_bind, Option.bind_some, Option.pure_def]

end Encoding

section Decoding

variable {targetSize : ℕ}

/-- A loop ends without a block if nothing could be read, else with a block that holds what
was read behind what had been written. -/
def EndsWith (targetSize : ℕ) (outcome : Option (Option (ByteString × ℕ))) (written : ByteString) :
    Option ByteString → Prop
  | none => outcome = some none
  | some text => ∃ block, outcome = some (some (block, (written ++ text).length)) ∧
      block.length = targetSize + 1 ∧ Holds block (written ++ text)

/-- A byte that is stored comes in front of what the other rounds read. -/
theorem EndsWith.byte {outcome : Option (Option (ByteString × ℕ))} {written : ByteString}
    {byte : UInt8} {read : Option ByteString}
    (ends : EndsWith targetSize outcome (written ++ [byte]) read) :
    EndsWith targetSize outcome written (read.map (byte :: ·)) := by
  cases read with
  | none => exact ends
  | some text =>
      rcases ends with ⟨block, outcome_eq, size, holds⟩
      rw [List.append_assoc, List.singleton_append] at outcome_eq holds
      exact ⟨block, outcome_eq, size, holds⟩

theorem exists_store_byte {block written : ByteString} (holds : Holds block written)
    (size : block.length = targetSize + 1) (inside : written.length < targetSize) (byte : UInt8) :
    ∃ block', store block written.length [byte] = some block' ∧
      block'.length = targetSize + 1 ∧ Holds block' (written ++ [byte]) := by
  have room : written.length + [byte].length ≤ block.length := by
    rw [List.length_singleton, size]
    omega
  rcases exists_store holds room with ⟨block', stored, same, holds'⟩
  exact ⟨block', stored, same.trans size, holds'⟩

theorem decodeLoop_ends {rest block written : ByteString} (holds : Holds block written)
    (size : block.length = targetSize + 1) (room : written.length + rest.length ≤ targetSize) :
    EndsWith targetSize (decodeLoop targetSize rest written.length block) written
      (decode isUnreserved rest) := by
  fun_induction decode isUnreserved rest generalizing block written with
  | case1 => exact ⟨block, by simp [decodeLoop], size, by simpa using holds⟩
  | case2 byte rest letter ih =>
      rw [List.length_cons] at room
      have inside : written.length < targetSize := by omega
      rcases exists_store_byte holds size inside byte with ⟨block', stored, size', holds'⟩
      have left : (written ++ [byte]).length + rest.length ≤ targetSize := by
        rw [List.length_append, List.length_singleton]
        omega
      have next := ih holds' size' left
      rw [List.length_append, List.length_singleton] at next
      rw [decodeLoop.eq_def]
      simp only [if_pos inside, if_pos letter, stored, Option.bind_eq_bind, Option.bind_some]
      exact next.byte
  | case3 first second rest noLetter ih =>
      rw [List.length_cons, List.length_cons, List.length_cons] at room
      have inside : written.length < targetSize := by omega
      rw [decodeLoop.eq_def]
      simp only [if_pos inside, if_neg noLetter, if_true]
      rcases first_eq : hexValue first with _ | high
      · rfl
      rcases second_eq : hexValue second with _ | low
      · rfl
      rcases exists_store_byte holds size inside (16 * high + low) with
        ⟨block', stored, size', holds'⟩
      have left : (written ++ [16 * high + low]).length + rest.length ≤ targetSize := by
        rw [List.length_append, List.length_singleton]
        omega
      have next := (ih holds' size' left).byte
      rw [List.length_append, List.length_singleton] at next
      have read : (do
          let text ← decode isUnreserved rest
          return (16 * high + low) :: text) =
          (decode isUnreserved rest).map fun text => (16 * high + low) :: text := by
        cases decode isUnreserved rest with
        | none => rfl
        | some text => rfl
      simp only [stored, Option.bind_eq_bind, Option.bind_some] at read ⊢
      rw [read]
      exact next
  | case4 rest short noLetter =>
      rw [List.length_cons] at room
      have inside : written.length < targetSize := by omega
      rw [decodeLoop.eq_def]
      simp only [if_pos inside, if_neg noLetter, if_true]
      rfl
  | case5 byte rest noLetter noSign =>
      rw [List.length_cons] at room
      have inside : written.length < targetSize := by omega
      rw [decodeLoop.eq_def]
      simp only [if_pos inside, if_neg noLetter, if_neg noSign]
      rfl

/-- `UrlDecode` reads percent encoding. -/
theorem urlDecode_eq {target : ByteString} (nonempty : target ≠ []) :
    urlDecode target = some ((decode isUnreserved target).map cString) := by
  have size : (List.replicate (target.length + 1) (0 : UInt8)).length = target.length + 1 :=
    List.length_replicate
  have room : ([] : ByteString).length + target.length ≤ target.length := by
    rw [List.length_nil, Nat.zero_add]
  have ends := decodeLoop_ends (holds_nil _) size room
  rw [List.length_nil] at ends
  rw [urlDecode, if_neg nonempty]
  cases decoded : decode isUnreserved target with
  | none =>
      rw [decoded] at ends
      rw [ends]
      rfl
  | some text =>
      rw [decoded] at ends
      rcases ends with ⟨block, run, same, holds⟩
      rw [List.nil_append] at run holds
      have last : text.length < block.length := by
        rw [same]
        exact Nat.lt_succ_of_le (length_decode_le decoded)
      rcases @exists_store _ _ _ [0] holds last with ⟨block', stored, _, ends⟩
      have text_eq : cString block' = cString text := ends.takeWhile
      simp only [run, stored, text_eq, Option.bind_eq_bind, Option.bind_some, Option.pure_def,
        Option.map_some]

end Decoding

/-- Decoding gives back every text that was encoded, the encoded text has nothing but
unreserved characters and escapes, and no store of either function is outside of its block. -/
theorem urlDecode_urlEncode (target : ByteString) :
    urlEncode target ≠ none ∧ urlDecode target ≠ none ∧
      (target ≠ [] → 0 ∉ target → ∃ encoded, urlEncode target = some (some encoded) ∧
        Encoded isUnreserved encoded ∧ urlDecode encoded = some (some target)) := by
  by_cases empty : target = []
  · rw [empty]
    exact ⟨by simp [urlEncode], by simp [urlDecode], fun nonempty => absurd rfl nonempty⟩
  · rw [urlEncode_eq empty, urlDecode_eq empty]
    refine ⟨Option.some_ne_none _, Option.some_ne_none _, fun _ nulFree => ?_⟩
    refine ⟨encode isUnreserved target, rfl, encoded_encode isUnreserved target, ?_⟩
    have written : encode isUnreserved target ≠ [] := by
      intro nothing
      have back := @decode_encode isUnreserved (by decide) target
      rw [nothing] at back
      cases back
      exact empty rfl
    rw [urlDecode_eq written, decode_encode (by decide), Option.map_some,
      cString_of_not_mem nulFree]

example : urlEncode (bytes "a/b~") = some (some (bytes "a%2Fb~")) := by decide

end OsConfig.UrlUtils
