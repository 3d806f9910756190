import OsConfig.Library.Numerals

/-!
# Byte strings

Both `std::string` and C strings hold arbitrary bytes, and the code compares,
cuts and prints them byte by byte. They are modelled by lists of bytes. A C
string ends at its first NUL, so passing a byte string through `c_str()` cuts
it there.
-/

namespace OsConfig

/-- The contents of a `std::string`. -/
abbrev ByteString := List UInt8

instance : LawfulBEq ByteString :=
  inferInstance

/-- The bytes of a string literal of the source, in UTF-8. -/
def bytes (text : String) : ByteString :=
  text.toList.flatMap String.utf8EncodeChar

/-- What is said of all bytes of a text is decided on the text, not on all bytes that there are. -/
scoped instance (priority := 2000) decidableForallByte {property : UInt8 → Prop}
    [DecidablePred property] (text : ByteString) : Decidable (∀ byte ∈ text, property byte) :=
  List.decidableBAll property text

scoped instance (priority := 2000) decidableExistsByte {property : UInt8 → Prop}
    [DecidablePred property] (text : ByteString) : Decidable (∃ byte ∈ text, property byte) :=
  List.decidableBEx property text

/-- The characters of a literal are taken as they stand, so nothing has to be decoded to find out
about its bytes. -/
theorem bytes_ofList (characters : List Char) :
    bytes (String.ofList characters) = characters.flatMap String.utf8EncodeChar := by
  rw [bytes, String.toList_ofList]

namespace ByteString

/-- The C string a `std::string` is read as through `c_str()`. -/
def cString (text : ByteString) : ByteString :=
  text.takeWhile (· ≠ 0)

theorem cString_append_of_not_mem {text : ByteString} (nulFree : 0 ∉ text) (rest : ByteString) :
    cString (text ++ rest) = text ++ cString rest := by
  refine List.takeWhile_append_of_pos fun byte mem => ?_
  simp only [ne_eq, decide_not, Bool.not_eq_true', decide_eq_false_iff_not]
  rintro rfl
  exact nulFree mem

theorem cString_of_not_mem {text : ByteString} (nulFree : 0 ∉ text) : cString text = text := by
  simpa [cString] using cString_append_of_not_mem nulFree []

/-- `isspace` in the C locale. -/
def isSpace (byte : UInt8) : Bool :=
  byte = 32 || (9 ≤ byte && byte ≤ 13)

def isDigit (byte : UInt8) : Bool :=
  48 ≤ byte && byte ≤ 57

/-- `isalnum` in the C locale. -/
def isAlnum (byte : UInt8) : Bool :=
  isDigit byte || (65 ≤ byte && byte ≤ 90) || (97 ≤ byte && byte ≤ 122)

/-- `text.find(start) == 0`. -/
def startsWith (text start : ByteString) : Bool :=
  start.isPrefixOf text

end ByteString

/-- `std::to_string` on an unsigned number. -/
def toDecimal (number : ℕ) : ByteString :=
  Numerals.render 10 number

/-- An unsigned number printed with `std::oct`. -/
def toOctal (number : ℕ) : ByteString :=
  Numerals.render 8 number

end OsConfig
