import OsConfig.Common.FileUtils.Options
import OsConfig.Library.Words

/-!
# Mount tables

An entry of a mount table is a line of six fields between blanks. What a blank,
a newline or a backslash in a field stands for is written as an escape sequence.
Lines that are blank or start with a `#` behind their blanks are passed over.
Fields that are missing are empty, and numbers that are missing are zero.
-/

namespace OsConfig

open ByteString CommonUtils

/-- `struct mntent` -/
structure MountEntry where
  fsname : ByteString
  dir : ByteString
  type : ByteString
  opts : ByteString
  freq : BitVec 32
  passno : BitVec 32
  deriving DecidableEq

namespace MountTable

def isBlank (byte : UInt8) : Bool :=
  byte = 32 || byte = 9

/-- The escape sequences of a field are replaced by what they stand for. -/
def decodeName : ByteString → ByteString
  | 92 :: 48 :: 52 :: 48 :: rest => 32 :: decodeName rest
  | 92 :: 48 :: 49 :: 49 :: rest => 9 :: decodeName rest
  | 92 :: 48 :: 49 :: 50 :: rest => 10 :: decodeName rest
  | 92 :: 92 :: rest => 92 :: decodeName rest
  | 92 :: 49 :: 51 :: 52 :: rest => 92 :: decodeName rest
  | byte :: rest => byte :: decodeName rest
  | [] => []

/-- `sscanf` with `%d`. -/
def scanInt (text : ByteString) : Option (BitVec 32 × ByteString) :=
  let digits := (readSign (text.dropWhile isSpace)).2
  if digits.takeWhile Numerals.isDecimal = [] then none
  else some (BitVec.ofInt 32 (strtol text), digits.dropWhile Numerals.isDecimal)

/-- `sscanf` with ` %d %d `. -/
def scanNumbers (text : ByteString) : BitVec 32 × BitVec 32 :=
  match scanInt text with
  | none => (0, 0)
  | some (freq, rest) =>
      match scanInt rest with
      | none => (freq, 0)
      | some (passno, _) => (freq, passno)

def fields (line : ByteString) : List ByteString :=
  Words.words isBlank (cString line)

/-- The entry that some fields make up. -/
def entryOfFields (texts : List ByteString) : MountEntry :=
  let numbers := scanNumbers ([32].intercalate (texts.drop 4))
  { fsname := decodeName (texts[0]?.getD [])
    dir := decodeName (texts[1]?.getD [])
    type := decodeName (texts[2]?.getD [])
    opts := decodeName (texts[3]?.getD [])
    freq := numbers.1
    passno := numbers.2 }

/-- The entry of a line, unless the line is blank or a comment. -/
def readEntry (line : ByteString) : Option MountEntry :=
  match fields line with
  | [] => none
  | first :: others => if first.head? = some 35 then none else some (entryOfFields (first :: others))

section Escapes

theorem length_decodeName_le (text : ByteString) : (decodeName text).length ≤ text.length := by
  fun_induction decodeName text with
  | case7 => rfl
  | _ => simp only [List.length_cons]; omega

/-- A field that does not become shorter has no escape sequence. -/
theorem decodeName_eq_self {text : ByteString}
    (same : text.length ≤ (decodeName text).length) : decodeName text = text := by
  fun_induction decodeName text with
  | case6 byte rest _ _ _ _ _ ih =>
      simp only [List.length_cons] at same
      rw [ih (by omega)]
  | case7 => rfl
  | case1 rest | case2 rest | case3 rest | case4 rest | case5 rest =>
      have shorter := length_decodeName_le rest
      simp only [List.length_cons] at same
      omega

theorem decodeName_of_notMem {text : ByteString} (unescaped : 92 ∉ text) :
    decodeName text = text := by
  fun_induction decodeName text with
  | case6 byte rest _ _ _ _ _ ih => rw [ih fun mem => unescaped (List.mem_cons_of_mem _ mem)]
  | case7 => rfl
  | case1 | case2 | case3 | case4 | case5 => simp at unescaped

theorem decodeName_eq_nil_iff {text : ByteString} : decodeName text = [] ↔ text = [] := by
  fun_cases decodeName text with
  | case7 => simp
  | _ => simp

/-- The first byte of a field is its first byte, unless an escape sequence stands there. -/
theorem head?_decodeName {text : ByteString} {byte : UInt8}
    (first : (decodeName text).head? = some byte) :
    text.head? = some byte ∨ byte ∈ ([32, 9, 10, 92] : ByteString) := by
  fun_induction decodeName text with
  | case7 => cases first
  | case6 => exact .inl first
  | _ =>
      rw [List.head?_cons, Option.some.injEq] at first
      subst first
      right
      decide

theorem notMem_decodeName {text : ByteString} {byte : UInt8} (absent : byte ∉ text)
    (other : byte ∉ ([32, 9, 10, 92] : ByteString)) : byte ∉ decodeName text := by
  simp only [List.mem_cons, List.not_mem_nil, or_false, not_or] at other
  fun_induction decodeName text with
  | case6 first rest _ _ _ _ _ ih =>
      rw [List.mem_cons, not_or] at absent ⊢
      exact ⟨absent.1, ih absent.2⟩
  | case7 => simp
  | _ => simp_all

/-- A text that starts in front of a byte ends there if the byte is not in it. -/
theorem isPrefix_of_isPrefix_append_cons {code before after : ByteString} {byte : UInt8}
    (begins : code <+: before ++ byte :: after) (absent : byte ∉ code) : code <+: before := by
  induction code generalizing before with
  | nil => exact List.nil_prefix
  | cons first code ih =>
      rw [List.mem_cons, not_or] at absent
      cases before with
      | nil =>
          rw [List.nil_append, List.cons_prefix_cons] at begins
          exact absurd begins.1.symm absent.1
      | cons other before =>
          rw [List.cons_append, List.cons_prefix_cons] at begins
          exact List.cons_prefix_cons.mpr ⟨begins.1, ih begins.2 absent.2⟩

/-- No escape sequence has a comma in it. -/
theorem decodeName_append_comma (before after : ByteString) :
    decodeName (before ++ 44 :: after) = decodeName before ++ 44 :: decodeName after := by
  fun_induction decodeName before with
  | case6 byte rest space tab newline backslash octal ih =>
      have inside {code : ByteString} (comma : 44 ∉ code) {others : ByteString}
          (begins : rest ++ 44 :: after = code ++ others) : ∃ others, rest = code ++ others :=
        let ⟨others, same⟩ := isPrefix_of_isPrefix_append_cons ⟨others, begins.symm⟩ comma
        ⟨others, same.symm⟩
      rw [List.cons_append, List.cons_append, ← ih]
      refine decodeName.eq_6 _ _ ?_ ?_ ?_ ?_ ?_
      · intro others escape begins
        obtain ⟨others, same⟩ := inside (show 44 ∉ [48, 52, 48] by decide) begins
        exact space others escape same
      · intro others escape begins
        obtain ⟨others, same⟩ := inside (show 44 ∉ [48, 49, 49] by decide) begins
        exact tab others escape same
      · intro others escape begins
        obtain ⟨others, same⟩ := inside (show 44 ∉ [48, 49, 50] by decide) begins
        exact newline others escape same
      · intro others escape begins
        obtain ⟨others, same⟩ := inside (show 44 ∉ [92] by decide) begins
        exact backslash others escape same
      · intro others escape begins
        obtain ⟨others, same⟩ := inside (show 44 ∉ [49, 51, 52] by decide) begins
        exact octal others escape same
  | case7 => rfl
  | _ => simp_all [decodeName]

end Escapes

section Numbers

theorem scanInt_space (text : ByteString) : scanInt (32 :: text) = scanInt text := rfl

/-- A printed number is read back where no digit follows. -/
theorem scanInt_printInt (number : BitVec 32) {rest : ByteString}
    (stops : ∀ byte ∈ rest.head?, Numerals.isDecimal byte = false) :
    scanInt (printInt number ++ rest) = some (number, rest) := by
  have digits : (readSign ((printInt number ++ rest).dropWhile isSpace)).2 =
      Numerals.render 10 number.toInt.natAbs ++ rest := by
    rw [printInt, Numerals.renderInt]
    split
    · rfl
    · exact congrArg Prod.snd (readSign_render number.toInt.natAbs rest)
  have taken := takeWhile_render number.toInt.natAbs stops
  have dropped : (Numerals.render 10 number.toInt.natAbs ++ rest).dropWhile Numerals.isDecimal =
      rest := by
    have whole := List.takeWhile_append_dropWhile (p := Numerals.isDecimal)
      (l := Numerals.render 10 number.toInt.natAbs ++ rest)
    rw [taken] at whole
    exact List.append_cancel_left whole
  rw [scanInt, digits, taken, dropped, if_neg (Numerals.render_ne_nil _), ofInt_strtol_printInt number stops]

theorem scanNumbers_printInt (freq passno : BitVec 32) :
    scanNumbers ([32].intercalate [printInt freq, printInt passno]) = (freq, passno) := by
  have text : ([32] : ByteString).intercalate [printInt freq, printInt passno] =
      printInt freq ++ 32 :: (printInt passno ++ []) := by
    simp [List.intercalate]
  rw [scanNumbers, text, scanInt_printInt freq (by simp; decide)]
  dsimp only
  rw [scanInt_space, scanInt_printInt passno (by simp)]

end Numbers

end MountTable

end OsConfig
