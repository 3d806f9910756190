import OsConfig.Common.Bytes

/-!
# JSON values

The value type of the bundled JSON library and the part of its interface that
the modules use: typed accessors that answer nothing on a value of another
type, deep copies, UTF-8 validation of new strings and serialization. Allocation
is assumed to succeed. A number is kept as the text it is printed with.
-/

namespace OsConfig

/-- `json_value_t`; the members of an object are in insertion order. -/
inductive JsonValue where
  | null
  | boolean (value : Bool)
  | number (printed : ByteString)
  | string (text : ByteString)
  | array (items : List JsonValue)
  | object (members : List (ByteString × JsonValue))

/-- `json_object_t`. -/
abbrev JsonObject := List (ByteString × JsonValue)

namespace JsonValue

/-- `json_value_get_object`. -/
def getObject : JsonValue → Option JsonObject
  | .object members => some members
  | _ => none

/-- `json_value_get_string`, read as a C string. -/
def getString : JsonValue → Option ByteString
  | .string text => some text.cString
  | _ => none

end JsonValue

namespace JsonObject

/-- `json_object_get_value`: the first member of that name. -/
def getValue (object : JsonObject) (name : ByteString) : Option JsonValue :=
  List.lookup name object

/-- `json_object_get_string`. -/
def getString (object : JsonObject) (name : ByteString) : Option ByteString :=
  (getValue object name).bind JsonValue.getString

end JsonObject

namespace JsonValue

mutual

/-- `json_value_deep_copy`; nothing when an object repeats a name. -/
def deepCopy (value : JsonValue) : Option JsonValue :=
  match value with
  | .array items => (deepCopyItems items).map .array
  | .object members => (deepCopyMembers members []).map .object
  | .null => some .null
  | .boolean flag => some (.boolean flag)
  | .number printed => some (.number printed)
  | .string text => some (.string text)
termination_by structural value

def deepCopyItems (items : List JsonValue) : Option (List JsonValue) :=
  match items with
  | [] => some []
  | item :: rest => do
      let copy ← deepCopy item
      let copies ← deepCopyItems rest
      return copy :: copies
termination_by structural items

/-- Members are copied in order and added with `json_object_add`, which refuses
a name that `added` already holds. -/
def deepCopyMembers (members : List (ByteString × JsonValue)) (added : List ByteString) :
    Option (List (ByteString × JsonValue)) :=
  match members with
  | [] => some []
  | (name, value) :: rest => do
      let copy ← deepCopy value
      if name ∈ added then
        none
      else
        let copies ← deepCopyMembers rest (name :: added)
        return (name, copy) :: copies
termination_by structural members

end

mutual

theorem deepCopy_eq (value : JsonValue) :
    ∀ copy, value.deepCopy = some copy → copy = value := by
  intro copy copied
  cases value with
  | array items =>
      simp only [deepCopy, Option.map_eq_some_iff] at copied
      rcases copied with ⟨copies, items_copied, rfl⟩
      rw [deepCopyItems_eq items copies items_copied]
  | object members =>
      simp only [deepCopy, Option.map_eq_some_iff] at copied
      rcases copied with ⟨copies, members_copied, rfl⟩
      rw [deepCopyMembers_eq members [] copies members_copied]
  | null => simpa [deepCopy] using copied.symm
  | boolean flag => simpa [deepCopy] using copied.symm
  | number printed => simpa [deepCopy] using copied.symm
  | string text => simpa [deepCopy] using copied.symm
termination_by sizeOf value

theorem deepCopyItems_eq (items : List JsonValue) :
    ∀ copies, deepCopyItems items = some copies → copies = items := by
  intro copies copied
  cases items with
  | nil => simpa [deepCopyItems] using copied.symm
  | cons item rest =>
      simp only [deepCopyItems, Option.bind_eq_bind, Option.bind_eq_some_iff, Option.pure_def,
        Option.some.injEq] at copied
      rcases copied with ⟨copy, item_copied, others, rest_copied, rfl⟩
      rw [deepCopy_eq item copy item_copied, deepCopyItems_eq rest others rest_copied]
termination_by sizeOf items

theorem deepCopyMembers_eq (members : List (ByteString × JsonValue)) (added : List ByteString) :
    ∀ copies, deepCopyMembers members added = some copies → copies = members := by
  match members with
  | [] =>
      intro copies copied
      simpa [deepCopyMembers] using copied.symm
  | (name, value) :: rest =>
      intro copies copied
      simp only [deepCopyMembers, Option.bind_eq_bind, Option.bind_eq_some_iff,
        Option.pure_def] at copied
      rcases copied with ⟨copy, value_copied, rest_copied⟩
      split at rest_copied
      · simp at rest_copied
      · simp only [Option.bind_eq_some_iff, Option.some.injEq] at rest_copied
        rcases rest_copied with ⟨others, rest_copied, rfl⟩
        rw [deepCopy_eq value copy value_copied,
          deepCopyMembers_eq rest (name :: added) others rest_copied]
termination_by sizeOf members

end

end JsonValue

namespace Utf8

/-- `IS_CONT`. -/
def isContinuation (byte : UInt8) : Bool :=
  byte &&& 0xC0 = 0x80

/-- `num_bytes_in_utf8_sequence`. -/
def numBytesInSequence (byte : UInt8) : ℕ :=
  if byte = 0xC0 || byte = 0xC1 || byte > 0xF4 || isContinuation byte then 0
  else if byte &&& 0x80 = 0 then 1
  else if byte &&& 0xE0 = 0xC0 then 2
  else if byte &&& 0xF0 = 0xE0 then 3
  else if byte &&& 0xF8 = 0xF0 then 4
  else 0

/-- The code point of a sequence of the given length, its continuation bytes checked. -/
def codePoint (length : ℕ) (b0 b1 b2 b3 : UInt8) : Option ℕ :=
  if length = 1 then
    some b0.toNat
  else if length = 2 && isContinuation b1 then
    some ((b0 &&& 0x1F).toNat * 64 + (b1 &&& 0x3F).toNat)
  else if length = 3 && isContinuation b1 && isContinuation b2 then
    some (((b0 &&& 0xF).toNat * 64 + (b1 &&& 0x3F).toNat) * 64 + (b2 &&& 0x3F).toNat)
  else if length = 4 && isContinuation b1 && isContinuation b2 && isContinuation b3 then
    some ((((b0 &&& 0x7).toNat * 64 + (b1 &&& 0x3F).toNat) * 64 + (b2 &&& 0x3F).toNat) * 64 +
      (b3 &&& 0x3F).toNat)
  else
    none

/-- `verify_utf8_sequence`: the length of the sequence the text starts with.
Past the end of the text the C code reads the terminating NUL. -/
def verifySequence (text : ByteString) : Option ℕ :=
  let length := numBytesInSequence (text.getD 0 0)
  match codePoint length (text.getD 0 0) (text.getD 1 0) (text.getD 2 0) (text.getD 3 0) with
  | none => none
  | some point =>
      if (point < 0x80 && 1 < length) || (point < 0x800 && 2 < length) ||
          (point < 0x10000 && 3 < length) then none
      else if 0x10FFFF < point then none
      else if 0xD800 ≤ point && point ≤ 0xDFFF then none
      else some length

/-- The loop of `is_valid_utf8`; every round consumes at least one byte. -/
def isValidLoop : ℕ → ByteString → Bool
  | _, [] => true
  | 0, _ :: _ => false
  | fuel + 1, text =>
      match verifySequence text with
      | none => false
      | some length => isValidLoop fuel (text.drop length)

/-- `is_valid_utf8`. -/
def isValid (text : ByteString) : Bool :=
  isValidLoop text.length text

end Utf8

namespace JsonValue

/-- `json_value_init_string`: the text up to its first NUL, when that is valid UTF-8. -/
def initString (text : ByteString) : Option JsonValue :=
  if Utf8.isValid text.cString then some (.string text.cString) else none

/-- The hexadecimal digit of a value below sixteen. -/
def hexDigit (digit : UInt8) : UInt8 :=
  if digit < 10 then 48 + digit else 87 + digit

/-- One character of `json_serialize_string`, with slashes escaped. -/
def escape (byte : UInt8) : ByteString :=
  if byte = 34 then bytes "\\\""
  else if byte = 92 then bytes "\\\\"
  else if byte = 8 then bytes "\\b"
  else if byte = 12 then bytes "\\f"
  else if byte = 10 then bytes "\\n"
  else if byte = 13 then bytes "\\r"
  else if byte = 9 then bytes "\\t"
  else if byte < 32 then bytes "\\u00" ++ [hexDigit (byte / 16), hexDigit (byte % 16)]
  else if byte = 47 then bytes "\\/"
  else [byte]

/-- `json_serialize_string`. -/
def serializeString (text : ByteString) : ByteString :=
  bytes "\"" ++ text.flatMap escape ++ bytes "\""

/-- `append_indent`. -/
def indent (level : ℕ) : ByteString :=
  (List.replicate level (bytes "    ")).flatten

/-- A line break, written only by the pretty printer. -/
def lineBreak (pretty : Bool) : ByteString :=
  if pretty then bytes "\n" else []

/-- An indent, written only by the pretty printer. -/
def indentIf (pretty : Bool) (level : ℕ) : ByteString :=
  if pretty then indent level else []

mutual

/-- `json_serialize_to_buffer_r`. -/
def serialize (pretty : Bool) (level : ℕ) (value : JsonValue) : ByteString :=
  match value with
  | .array [] => bytes "[]"
  | .array (item :: rest) =>
      bytes "[" ++ lineBreak pretty ++
        (indentIf pretty (level + 1) ++ serialize pretty (level + 1) item ++
          serializeItems pretty level rest) ++
        indentIf pretty level ++ bytes "]"
  | .object [] => bytes "\x7b\x7d"
  | .object ((name, member) :: rest) =>
      bytes "\x7b" ++ lineBreak pretty ++
        (indentIf pretty (level + 1) ++ serializeString name ++ bytes ":" ++
          (if pretty then bytes " " else []) ++ serialize pretty (level + 1) member ++
          serializeMembers pretty level rest) ++
        indentIf pretty level ++ bytes "\x7d"
  | .string text => serializeString text
  | .boolean true => bytes "true"
  | .boolean false => bytes "false"
  | .number printed => printed
  | .null => bytes "null"
termination_by structural value

/-- The items after the first, each preceded by its comma, and the last line break. -/
def serializeItems (pretty : Bool) (level : ℕ) (items : List JsonValue) : ByteString :=
  match items with
  | [] => lineBreak pretty
  | item :: rest =>
      bytes "," ++ lineBreak pretty ++ indentIf pretty (level + 1) ++
        serialize pretty (level + 1) item ++ serializeItems pretty level rest
termination_by structural items

/-- The members after the first, each preceded by its comma, and the last line break. -/
def serializeMembers (pretty : Bool) (level : ℕ) (members : List (ByteString × JsonValue)) :
    ByteString :=
  match members with
  | [] => lineBreak pretty
  | (name, member) :: rest =>
      bytes "," ++ lineBreak pretty ++ indentIf pretty (level + 1) ++ serializeString name ++
        bytes ":" ++ (if pretty then bytes " " else []) ++ serialize pretty (level + 1) member ++
        serializeMembers pretty level rest
termination_by structural members

end

/-- `json_serialize_to_string`. -/
def serializeToString (value : JsonValue) : ByteString :=
  serialize false 0 value

/-- `json_serialize_to_string_pretty`. -/
def serializeToStringPretty (value : JsonValue) : ByteString :=
  serialize true 0 value

end JsonValue

end OsConfig
