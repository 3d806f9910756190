import OsConfig.Common.Parson

/-!
# The JSON parser

`json_parse_string` of the bundled library. It reads one value at the start of a
text and does not look at what follows. The text is a C string without its
terminator, so a position is what is left of it. Numbers are read by `strtod`,
which is kept as a parameter.
-/

namespace OsConfig.JsonValue

open ByteString

def maxNesting : ℕ := 2048

/-- What `strtod` finds at the start of a text: how many characters it takes and how the number
is printed. Nothing is found when the number is out of range or not finite. -/
abbrev Strtod := ByteString → Option (ℕ × ByteString)

def skipWhitespaces (text : ByteString) : ByteString :=
  text.dropWhile isSpace

section Strings

def hexCharToInt (byte : UInt8) : Option ℕ :=
  if 48 ≤ byte ∧ byte ≤ 57 then some (byte.toNat - 48)
  else if 97 ≤ byte ∧ byte ≤ 102 then some (byte.toNat - 97 + 10)
  else if 65 ≤ byte ∧ byte ≤ 70 then some (byte.toNat - 65 + 10)
  else none

/-- `parse_utf16_hex`; the end of the text is no digit. -/
def parseUtf16Hex (text : ByteString) : Option ℕ := do
  let x1 ← hexCharToInt (text.getD 0 0)
  let x2 ← hexCharToInt (text.getD 1 0)
  let x3 ← hexCharToInt (text.getD 2 0)
  let x4 ← hexCharToInt (text.getD 3 0)
  return x1 * 4096 + x2 * 256 + x3 * 16 + x4

/-- The six low bits of a number, as a continuation byte. -/
def continuation (number : ℕ) : UInt8 :=
  0x80 ||| UInt8.ofNat (number % 64)

/-- `parse_utf16` after the `u`: the bytes of the character, and what follows it. -/
def parseUtf16 (text : ByteString) : Option (ByteString × ByteString) := do
  let cp ← parseUtf16Hex text
  if cp < 0x80 then
    return ([UInt8.ofNat cp], text.drop 4)
  else if cp < 0x800 then
    return ([0xC0 ||| UInt8.ofNat (cp / 64 % 32), continuation cp], text.drop 4)
  else if cp < 0xD800 ∨ 0xDFFF < cp then
    return ([0xE0 ||| UInt8.ofNat (cp / 4096 % 16), continuation (cp / 64), continuation cp],
      text.drop 4)
  else if cp ≤ 0xDBFF then
    match text.drop 4 with
    | 92 :: 117 :: rest => do
        let trail ← parseUtf16Hex rest
        if trail < 0xDC00 ∨ 0xDFFF < trail then
          none
        else
          let cp := (cp - 0xD800) * 1024 + (trail - 0xDC00) + 0x10000
          return ([0xF0 ||| UInt8.ofNat (cp / 262144 % 8), continuation (cp / 4096),
            continuation (cp / 64), continuation cp], rest.drop 4)
    | _ => none
  else
    none

/-- The character an escape of one letter stands for. -/
def unescape (letter : UInt8) : Option UInt8 :=
  if letter = 34 then some 34
  else if letter = 92 then some 92
  else if letter = 47 then some 47
  else if letter = 98 then some 8
  else if letter = 102 then some 12
  else if letter = 110 then some 10
  else if letter = 114 then some 13
  else if letter = 116 then some 9
  else none

/-- The loop of `process_string`; every round consumes at least one character. -/
def processLoop : ℕ → ByteString → Option ByteString
  | _, [] => some []
  | 0, _ :: _ => none
  | fuel + 1, byte :: rest =>
      if byte = 92 then
        match rest with
        | [] => none
        | letter :: rest =>
            if letter = 117 then do
              let (character, rest) ← parseUtf16 rest
              let others ← processLoop fuel rest
              return character ++ others
            else do
              let character ← unescape letter
              let others ← processLoop fuel rest
              return character :: others
      else if byte < 32 then
        none
      else do
        let others ← processLoop fuel rest
        return byte :: others

def processString (input : ByteString) : Option ByteString :=
  processLoop input.length input

/-- `skip_quotes` after the opening quote: what stands before the closing quote and what
follows it. -/
def skipQuotes (text : ByteString) : Option (ByteString × ByteString) :=
  match text with
  | [] => none
  | byte :: rest =>
      if byte = 34 then
        some ([], rest)
      else if byte = 92 then
        match rest with
        | [] => none
        | letter :: rest => do
            let (content, rest) ← skipQuotes rest
            return (byte :: letter :: content, rest)
      else do
        let (content, rest) ← skipQuotes rest
        return (byte :: content, rest)

def getQuotedString (text : ByteString) : Option (ByteString × ByteString) :=
  match text with
  | 34 :: rest => do
      let (content, rest) ← skipQuotes rest
      let processed ← processString content
      return (processed, rest)
  | _ => none

end Strings

def isDecimal (text : ByteString) : Bool :=
  !(text.length > 1 && text.getD 0 0 = 48 && text.getD 1 0 ≠ 46) &&
  !(text.length > 2 && text.take 2 = bytes "-0" && text.getD 2 0 ≠ 46) &&
  !text.any (fun byte => byte = 120 || byte = 88)

def parseNumberValue (strtod : Strtod) (text : ByteString) : Option (JsonValue × ByteString) := do
  let (length, printed) ← strtod text
  if isDecimal (text.take length) then
    return (.number printed, text.drop length)
  else
    none

def parseBooleanValue (text : ByteString) : Option (JsonValue × ByteString) :=
  if startsWith text (bytes "true") then some (.boolean true, text.drop 4)
  else if startsWith text (bytes "false") then some (.boolean false, text.drop 5)
  else none

def parseNullValue (text : ByteString) : Option (JsonValue × ByteString) :=
  if startsWith text (bytes "null") then some (.null, text.drop 4) else none

def parseStringValue (text : ByteString) : Option (JsonValue × ByteString) := do
  let (content, rest) ← getQuotedString text
  return (.string content, rest)

/-- The loop of `parse_array_value`, which reads an item in every round. -/
def parseItems (parse : ByteString → Option (JsonValue × ByteString)) :
    ℕ → ByteString → Option (List JsonValue × ByteString)
  | 0, _ => none
  | fuel + 1, text => do
      let (item, rest) ← parse text
      match skipWhitespaces rest with
      | 44 :: rest => do
          let (items, rest) ← parseItems parse fuel (skipWhitespaces rest)
          return (item :: items, rest)
      | 93 :: rest => return ([item], rest)
      | _ => none

/-- The loop of `parse_object_value`. A name must not hold a NUL, nor be among the names that
have been added. -/
def parseMembers (parse : ByteString → Option (JsonValue × ByteString)) :
    ℕ → List ByteString → ByteString → Option (JsonObject × ByteString)
  | 0, _, _ => none
  | fuel + 1, added, text => do
      let (name, rest) ← getQuotedString text
      if 0 ∈ name then
        none
      else
        match skipWhitespaces rest with
        | 58 :: rest => do
            let (value, rest) ← parse rest
            if name ∈ added then
              none
            else
              match skipWhitespaces rest with
              | 44 :: rest => do
                  let (members, rest) ←
                    parseMembers parse fuel (name :: added) (skipWhitespaces rest)
                  return ((name, value) :: members, rest)
              | 125 :: rest => return ([(name, value)], rest)
              | _ => none
        | _ => none

def parseArrayValue (parse : ByteString → Option (JsonValue × ByteString)) (text : ByteString) :
    Option (JsonValue × ByteString) :=
  match skipWhitespaces text with
  | 93 :: rest => some (.array [], rest)
  | text => do
      let (items, rest) ← parseItems parse text.length text
      return (.array items, rest)

def parseObjectValue (parse : ByteString → Option (JsonValue × ByteString)) (text : ByteString) :
    Option (JsonValue × ByteString) :=
  match skipWhitespaces text with
  | 125 :: rest => some (.object [], rest)
  | text => do
      let (members, rest) ← parseMembers parse text.length [] text
      return (.object members, rest)

/-- `parse_value`; the first argument is the number of levels that may still be opened. -/
def parseValue (strtod : Strtod) : ℕ → ByteString → Option (JsonValue × ByteString)
  | 0, _ => none
  | levels + 1, text =>
      match skipWhitespaces text with
      | [] => none
      | byte :: rest =>
          if byte = 123 then parseObjectValue (parseValue strtod levels) rest
          else if byte = 91 then parseArrayValue (parseValue strtod levels) rest
          else if byte = 34 then parseStringValue (byte :: rest)
          else if byte = 102 ∨ byte = 116 then parseBooleanValue (byte :: rest)
          else if byte = 45 ∨ isDigit byte then parseNumberValue strtod (byte :: rest)
          else if byte = 110 then parseNullValue (byte :: rest)
          else none

def skipByteOrderMark (text : ByteString) : ByteString :=
  if startsWith text [0xEF, 0xBB, 0xBF] then text.drop 3 else text

/-- `json_parse_string`. -/
def parseString (strtod : Strtod) (text : ByteString) : Option JsonValue :=
  (parseValue strtod (maxNesting + 1) (skipByteOrderMark text)).map Prod.fst

end OsConfig.JsonValue
