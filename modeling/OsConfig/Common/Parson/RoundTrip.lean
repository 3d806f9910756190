import OsConfig.Common.Parson.Parser

/-!
# Reading back what was serialized

The parser reads a serialized value back and stops behind it, in both layouts and
at every indentation, as long as it may open enough levels. The printed form of a
number is what the C library makes of it, so a number must be one that the library
reads back.
-/

namespace OsConfig.JsonValue

open ByteString

section Whitespace

/-- All of the text is white space. -/
def Blank (text : ByteString) : Prop :=
  ∀ byte ∈ text, isSpace byte = true

theorem blank_lineBreak (pretty : Bool) : Blank (lineBreak pretty) := by
  cases pretty
  · intro byte mem
    simp [lineBreak] at mem
  · show ∀ byte ∈ bytes "\n", isSpace byte = true
    decide +kernel

theorem blank_indentIf (pretty : Bool) (level : ℕ) : Blank (indentIf pretty level) := by
  intro byte mem
  cases pretty
  · simp [indentIf] at mem
  · simp only [indentIf, indent, if_true, List.mem_flatten, List.mem_replicate] at mem
    rcases mem with ⟨line, ⟨-, rfl⟩, mem⟩
    revert byte
    decide +kernel

theorem skipWhitespaces_blank {blank : ByteString} (isBlank : Blank blank) (text : ByteString) :
    skipWhitespaces (blank ++ text) = skipWhitespaces text :=
  List.dropWhile_append_of_pos isBlank

theorem skipWhitespaces_cons {byte : UInt8} (black : isSpace byte = false) (rest : ByteString) :
    skipWhitespaces (byte :: rest) = byte :: rest := by
  simp [skipWhitespaces, black]

end Whitespace

section Strings

theorem hexCharToInt_hexDigit {digit : UInt8} (small : digit < 16) :
    hexCharToInt (hexDigit digit) = some digit.toNat := by
  revert digit
  decide +kernel

theorem nibbles_lt (byte : UInt8) : byte / 16 < 16 ∧ byte % 16 < 16 := by
  revert byte
  decide +kernel

theorem parseUtf16_control {byte : UInt8} (control : byte < 32) (rest : ByteString) :
    parseUtf16 (48 :: 48 :: hexDigit (byte / 16) :: hexDigit (byte % 16) :: rest) =
      some ([byte], rest) := by
  rcases nibbles_lt byte with ⟨high, low⟩
  have small : byte.toNat < 32 := by
    simpa [UInt8.lt_iff_toNat_lt] using control
  have zero : hexCharToInt 48 = some 0 := by decide
  have point : parseUtf16Hex
      (48 :: 48 :: hexDigit (byte / 16) :: hexDigit (byte % 16) :: rest) = some byte.toNat := by
    simp only [parseUtf16Hex, List.getD_cons_zero, List.getD_cons_succ, zero,
      hexCharToInt_hexDigit high, hexCharToInt_hexDigit low, Option.bind_eq_bind,
      Option.bind_some, Option.pure_def, UInt8.toNat_div, UInt8.toNat_mod, UInt8.reduceToNat,
      Option.some.injEq]
    omega
  simp only [parseUtf16, point, Option.bind_eq_bind, Option.bind_some]
  rw [if_pos (by omega)]
  simp

/-- The three ways in which a character is written. -/
theorem escape_cases (byte : UInt8) :
    (∃ letter, escape byte = [92, letter] ∧ letter ≠ 117 ∧ unescape letter = some byte) ∨
    (byte < 32 ∧
      escape byte = 92 :: 117 :: 48 :: 48 :: [hexDigit (byte / 16), hexDigit (byte % 16)]) ∨
    (escape byte = [byte] ∧ byte ≠ 92 ∧ byte ≠ 34 ∧ ¬byte < 32) := by
  have letters : bytes "\\\"" = [92, 34] ∧ bytes "\\\\" = [92, 92] ∧ bytes "\\b" = [92, 98] ∧
      bytes "\\f" = [92, 102] ∧ bytes "\\n" = [92, 110] ∧ bytes "\\r" = [92, 114] ∧
      bytes "\\t" = [92, 116] ∧ bytes "\\u00" = [92, 117, 48, 48] ∧
      bytes "\\/" = [92, 47] := by
    decide
  rcases letters with ⟨quote, backslash, b, f, n, r, t, u, slash⟩
  generalize written : escape byte = text
  rw [escape, quote, backslash, b, f, n, r, t, u, slash] at written
  by_cases h1 : byte = 34
  · rw [if_pos h1] at written
    exact .inl ⟨34, written.symm, by decide, by rw [h1]; decide⟩
  rw [if_neg h1] at written
  by_cases h2 : byte = 92
  · rw [if_pos h2] at written
    exact .inl ⟨92, written.symm, by decide, by rw [h2]; decide⟩
  rw [if_neg h2] at written
  by_cases h3 : byte = 8
  · rw [if_pos h3] at written
    exact .inl ⟨98, written.symm, by decide, by rw [h3]; decide⟩
  rw [if_neg h3] at written
  by_cases h4 : byte = 12
  · rw [if_pos h4] at written
    exact .inl ⟨102, written.symm, by decide, by rw [h4]; decide⟩
  rw [if_neg h4] at written
  by_cases h5 : byte = 10
  · rw [if_pos h5] at written
    exact .inl ⟨110, written.symm, by decide, by rw [h5]; decide⟩
  rw [if_neg h5] at written
  by_cases h6 : byte = 13
  · rw [if_pos h6] at written
    exact .inl ⟨114, written.symm, by decide, by rw [h6]; decide⟩
  rw [if_neg h6] at written
  by_cases h7 : byte = 9
  · rw [if_pos h7] at written
    exact .inl ⟨116, written.symm, by decide, by rw [h7]; decide⟩
  rw [if_neg h7] at written
  by_cases h8 : byte < 32
  · rw [if_pos h8] at written
    exact .inr (.inl ⟨h8, written.symm⟩)
  rw [if_neg h8] at written
  by_cases h9 : byte = 47
  · rw [if_pos h9] at written
    exact .inl ⟨47, written.symm, by decide, by rw [h9]; decide⟩
  rw [if_neg h9] at written
  exact .inr (.inr ⟨written.symm, h2, h1, h8⟩)

/-- An escaped character is read as the character. -/
theorem processLoop_escape (fuel : ℕ) (byte : UInt8) (rest : ByteString) :
    processLoop (fuel + 1) (escape byte ++ rest) = (processLoop fuel rest).map (byte :: ·) := by
  rcases escape_cases byte with ⟨letter, written, notU, read⟩ | ⟨control, written⟩ |
    ⟨written, notBackslash, -, printable⟩
  · rw [written]
    simp only [List.cons_append, List.nil_append, processLoop, if_true, if_neg notU, read]
    cases processLoop fuel rest <;> rfl
  · rw [written]
    simp only [List.cons_append, List.nil_append, processLoop, if_true,
      parseUtf16_control control, Option.bind_eq_bind, Option.bind_some]
    cases processLoop fuel rest <;> rfl
  · rw [written]
    simp only [List.cons_append, List.nil_append, processLoop, if_neg notBackslash,
      if_neg printable]
    cases processLoop fuel rest <;> rfl

theorem processLoop_escaped (text : ByteString) (fuel : ℕ) (enough : text.length ≤ fuel) :
    processLoop fuel (text.flatMap escape) = some text := by
  induction text generalizing fuel with
  | nil => simp [processLoop]
  | cons byte rest ih =>
      rcases fuel with _ | fuel
      · simp at enough
      · have later := ih fuel (by simpa using enough)
        rw [List.flatMap_cons, processLoop_escape, later]
        rfl

theorem length_le_escaped (text : ByteString) : text.length ≤ (text.flatMap escape).length := by
  induction text with
  | nil => simp
  | cons byte rest ih =>
      have written : 1 ≤ (escape byte).length := by
        rcases escape_cases byte with ⟨letter, written, -⟩ | ⟨-, written⟩ | ⟨written, -⟩ <;>
          simp [written]
      simp only [List.flatMap_cons, List.length_append, List.length_cons]
      omega

theorem skipQuotes_quote (rest : ByteString) : skipQuotes (34 :: rest) = some ([], rest) := by
  rw [skipQuotes.eq_def]
  exact if_pos rfl

theorem skipQuotes_backslash (letter : UInt8) (rest : ByteString) :
    skipQuotes (92 :: letter :: rest) =
      (skipQuotes rest).map fun split => (92 :: letter :: split.1, split.2) := by
  rw [skipQuotes, if_neg (by decide), if_pos rfl]
  cases skipQuotes rest <;> rfl

theorem skipQuotes_plain {byte : UInt8} (notQuote : byte ≠ 34) (notBackslash : byte ≠ 92)
    (rest : ByteString) :
    skipQuotes (byte :: rest) =
      (skipQuotes rest).map fun split => (byte :: split.1, split.2) := by
  rw [skipQuotes.eq_def]
  simp only [if_neg notQuote, if_neg notBackslash]
  cases skipQuotes rest <;> rfl

theorem skipQuotes_escape (byte : UInt8) (rest : ByteString) :
    skipQuotes (escape byte ++ rest) =
      (skipQuotes rest).map fun split => (escape byte ++ split.1, split.2) := by
  have hex : ∀ digit : UInt8, digit < 16 → hexDigit digit ≠ 34 ∧ hexDigit digit ≠ 92 := by
    decide +kernel
  rcases escape_cases byte with ⟨letter, written, -⟩ | ⟨-, written⟩ |
    ⟨written, notBackslash, notQuote, -⟩
  · rw [written]
    exact skipQuotes_backslash letter rest
  · rcases nibbles_lt byte with ⟨high, low⟩
    rw [written]
    simp only [List.cons_append, List.nil_append]
    rw [skipQuotes_backslash, skipQuotes_plain (by decide) (by decide),
      skipQuotes_plain (by decide) (by decide), skipQuotes_plain (hex _ high).1 (hex _ high).2,
      skipQuotes_plain (hex _ low).1 (hex _ low).2]
    cases skipQuotes rest <;> rfl
  · rw [written]
    exact skipQuotes_plain notQuote notBackslash rest

theorem skipQuotes_escaped (text rest : ByteString) :
    skipQuotes (text.flatMap escape ++ 34 :: rest) = some (text.flatMap escape, rest) := by
  induction text with
  | nil => exact skipQuotes_quote rest
  | cons byte others ih =>
      rw [List.flatMap_cons, List.append_assoc, skipQuotes_escape, ih]
      rfl

theorem getQuotedString_serialized (text rest : ByteString) :
    getQuotedString (serializeString text ++ rest) = some (text, rest) := by
  have quote : bytes "\"" = [34] := by decide
  have content := processLoop_escaped text _ (length_le_escaped text)
  rw [serializeString, quote]
  simp only [List.append_assoc, List.cons_append, List.nil_append, getQuotedString,
    skipQuotes_escaped, Option.bind_eq_bind, Option.bind_some, processString, content,
    Option.pure_def]

end Strings

/-- The values that are read back with the given number of levels: there are no numbers, and
the names of an object are distinct and hold no NUL. -/
inductive Readable : ℕ → JsonValue → Prop
  | null (levels : ℕ) : Readable (levels + 1) .null
  | boolean (levels : ℕ) (value : Bool) : Readable (levels + 1) (.boolean value)
  | string (levels : ℕ) (text : ByteString) : Readable (levels + 1) (.string text)
  | array {levels : ℕ} {items : List JsonValue}
      (readable : ∀ item ∈ items, Readable levels item) : Readable (levels + 1) (.array items)
  | object {levels : ℕ} {members : JsonObject} (distinct : (members.map Prod.fst).Nodup)
      (named : ∀ member ∈ members, 0 ∉ member.1)
      (readable : ∀ member ∈ members, Readable levels member.2) :
      Readable (levels + 1) (.object members)

theorem Readable.mono {levels more : ℕ} {value : JsonValue} (readable : Readable levels value)
    (fewer : levels ≤ more) : Readable more value := by
  induction readable generalizing more with
  | null levels =>
      cases more with
      | zero => simp at fewer
      | succ more => exact .null more
  | boolean levels value =>
      cases more with
      | zero => simp at fewer
      | succ more => exact .boolean more value
  | string levels text =>
      cases more with
      | zero => simp at fewer
      | succ more => exact .string more text
  | array _ ih =>
      cases more with
      | zero => simp at fewer
      | succ more => exact .array fun item mem => ih item mem (by omega)
  | object distinct named _ ih =>
      cases more with
      | zero => simp at fewer
      | succ more => exact .object distinct named fun member mem => ih member mem (by omega)

/-- The bytes that can stand behind a number. -/
def isDelimiter (byte : UInt8) : Bool :=
  isSpace byte || byte = 44 || byte = 93 || byte = 125

/-- A number in front of the text ends there. -/
def Ends (text : ByteString) : Prop :=
  ∀ byte ∈ text.head?, isDelimiter byte = true

theorem ends_cons {byte : UInt8} (delimiter : isDelimiter byte = true) (rest : ByteString) :
    Ends (byte :: rest) := by
  intro other first
  simp only [List.head?_cons, Option.mem_some_iff] at first
  rw [← first]
  exact delimiter

theorem Ends.blank {blank text : ByteString} (ends : Ends text) (isBlank : Blank blank) :
    Ends (blank ++ text) := by
  cases blank with
  | nil => exact ends
  | cons byte rest =>
      apply ends_cons
      simp [isDelimiter, isBlank byte (by simp)]

/-- A printed number that is read back wherever it ends. -/
def IsReadBack (strtod : Strtod) (printed : ByteString) : Prop :=
  (∃ byte ∈ printed.head?, byte = 45 ∨ isDigit byte = true) ∧ isDecimal printed = true ∧
    ∀ rest, Ends rest → strtod (printed ++ rest) = some (printed.length, printed)

/-- The values that are read back with the given number of levels. -/
inductive Legible (strtod : Strtod) : ℕ → JsonValue → Prop
  | null (levels : ℕ) : Legible strtod (levels + 1) .null
  | boolean (levels : ℕ) (value : Bool) : Legible strtod (levels + 1) (.boolean value)
  | number (levels : ℕ) {printed : ByteString} (readBack : IsReadBack strtod printed) :
      Legible strtod (levels + 1) (.number printed)
  | string (levels : ℕ) (text : ByteString) : Legible strtod (levels + 1) (.string text)
  | array {levels : ℕ} {items : List JsonValue}
      (legible : ∀ item ∈ items, Legible strtod levels item) :
      Legible strtod (levels + 1) (.array items)
  | object {levels : ℕ} {members : JsonObject} (distinct : (members.map Prod.fst).Nodup)
      (named : ∀ member ∈ members, 0 ∉ member.1)
      (legible : ∀ member ∈ members, Legible strtod levels member.2) :
      Legible strtod (levels + 1) (.object members)

theorem Readable.legible {levels : ℕ} {value : JsonValue} (readable : Readable levels value)
    (strtod : Strtod) : Legible strtod levels value := by
  induction readable with
  | null levels => exact .null levels
  | boolean levels value => exact .boolean levels value
  | string levels text => exact .string levels text
  | array _ ih => exact .array ih
  | object distinct named _ ih => exact .object distinct named ih

/-- A text that begins with a value: no white space, and no closing bracket. -/
def Begins (text : ByteString) : Prop :=
  ∃ byte rest, text = byte :: rest ∧ isSpace byte = false ∧ byte ≠ 93

theorem Begins.append {text : ByteString} (begins : Begins text) (rest : ByteString) :
    Begins (text ++ rest) := by
  rcases begins with ⟨byte, others, rfl, black, open_⟩
  exact ⟨byte, others ++ rest, rfl, black, open_⟩

theorem Begins.skip {text : ByteString} (begins : Begins text) :
    skipWhitespaces text = text := by
  rcases begins with ⟨byte, rest, rfl, black, -⟩
  exact skipWhitespaces_cons black rest

theorem begins_serialize {strtod : Strtod} {levels : ℕ} {value : JsonValue}
    (legible : Legible strtod levels value) (pretty : Bool) (level : ℕ) :
    Begins (serialize pretty level value) := by
  have opening : bytes "[" = [91] ∧ bytes "[]" = [91, 93] ∧ bytes "\x7b" = [123] ∧
      bytes "\x7b\x7d" = [123, 125] ∧ bytes "\"" = [34] ∧ bytes "true" = 116 :: bytes "rue" ∧
      bytes "false" = 102 :: bytes "alse" ∧ bytes "null" = 110 :: bytes "ull" := by
    decide
  rcases opening with ⟨array, emptyArray, object, emptyObject, quote, yes, no, null⟩
  cases legible with
  | null => exact ⟨110, _, null, by decide, by decide⟩
  | boolean _ value =>
      cases value
      · exact ⟨102, _, no, by decide, by decide⟩
      · exact ⟨116, _, yes, by decide, by decide⟩
  | number _ readBack =>
      rcases readBack.1 with ⟨byte, first, numeric⟩
      rcases List.head?_eq_some_iff.mp first with ⟨others, written⟩
      have black : ∀ byte : UInt8, (byte = 45 ∨ isDigit byte = true) →
          isSpace byte = false ∧ byte ≠ 93 := by
        decide +kernel
      rw [serialize]
      exact ⟨byte, others, written, black byte numeric⟩
  | string _ text =>
      rw [serialize, serializeString, quote]
      exact ⟨34, _, rfl, by decide, by decide⟩
  | @array _ items _ =>
      cases items with
      | nil => exact ⟨91, [93], emptyArray, by decide, by decide⟩
      | cons item rest =>
          rw [serialize, array]
          exact ⟨91, _, rfl, by decide, by decide⟩
  | @object _ members _ _ _ =>
      cases members with
      | nil => exact ⟨123, [125], emptyObject, by decide, by decide⟩
      | cons member rest =>
          rcases member with ⟨name, value⟩
          rw [serialize, object]
          exact ⟨123, _, rfl, by decide, by decide⟩

section Items

variable {parse : ByteString → Option (JsonValue × ByteString)} {pretty : Bool} {level : ℕ}

variable (pretty level) in
theorem ends_closing {closing : UInt8} (delimiter : isDelimiter closing = true)
    (rest : ByteString) :
    Ends (lineBreak pretty ++ (indentIf pretty level ++ closing :: rest)) :=
  ((ends_cons delimiter rest).blank (blank_indentIf pretty level)).blank (blank_lineBreak pretty)

variable (pretty level) in
theorem ends_serializeItems (items : List JsonValue) (rest : ByteString) :
    Ends (serializeItems pretty level items ++ (indentIf pretty level ++ 93 :: rest)) := by
  have comma : bytes "," = [44] := by decide
  cases items with
  | nil =>
      rw [serializeItems]
      exact ends_closing pretty level (by decide) rest
  | cons item more =>
      rw [serializeItems, comma]
      exact ends_cons (by decide) _

variable (pretty level) in
theorem ends_serializeMembers (members : JsonObject) (rest : ByteString) :
    Ends (serializeMembers pretty level members ++ (indentIf pretty level ++ 125 :: rest)) := by
  have comma : bytes "," = [44] := by decide
  cases members with
  | nil =>
      rw [serializeMembers]
      exact ends_closing pretty level (by decide) rest
  | cons member more =>
      rw [serializeMembers, comma]
      exact ends_cons (by decide) _

/-- The items of an array are read up to the closing bracket. -/
theorem parseItems_serialized (item : JsonValue) (others : List JsonValue)
    (begins : ∀ value ∈ item :: others, Begins (serialize pretty (level + 1) value))
    (parses : ∀ value ∈ item :: others, ∀ rest, Ends rest →
      parse (serialize pretty (level + 1) value ++ rest) = some (value, rest))
    (fuel : ℕ) (enough : others.length < fuel) (rest : ByteString) :
    parseItems parse fuel (serialize pretty (level + 1) item ++
      (serializeItems pretty level others ++ (indentIf pretty level ++ 93 :: rest))) =
        some (item :: others, rest) := by
  induction others generalizing item fuel with
  | nil =>
      rcases fuel with _ | fuel
      · simp at enough
      · have closing : skipWhitespaces (lineBreak pretty ++ (indentIf pretty level ++ 93 :: rest)) =
            93 :: rest := by
          rw [skipWhitespaces_blank (blank_lineBreak pretty),
            skipWhitespaces_blank (blank_indentIf pretty level),
            skipWhitespaces_cons (by decide)]
        have ends : Ends (lineBreak pretty ++ (indentIf pretty level ++ 93 :: rest)) :=
          ends_closing pretty level (by decide) rest
        have read := parses item (by simp) _ ends
        rw [serializeItems, parseItems, read]
        simp [closing]
  | cons next more ih =>
      rcases fuel with _ | fuel
      · simp at enough
      · have comma : bytes "," = [44] := by decide
        have later := ih next (fun value mem => begins value (List.mem_cons_of_mem _ mem))
          (fun value mem => parses value (List.mem_cons_of_mem _ mem)) fuel (by simpa using enough)
        have nextBegins := (begins next (by simp)).append
          (serializeItems pretty level more ++ (indentIf pretty level ++ 93 :: rest))
        have read := parses item (by simp) _ (ends_serializeItems pretty level (next :: more) rest)
        rw [parseItems, read, serializeItems, comma]
        simp only [List.append_assoc, List.cons_append, List.nil_append, Option.bind_eq_bind,
          Option.bind_some, skipWhitespaces_cons (show isSpace 44 = false by decide)]
        rw [skipWhitespaces_blank (blank_lineBreak pretty),
          skipWhitespaces_blank (blank_indentIf pretty (level + 1)), nextBegins.skip, later]
        rfl

/-- The members of an object are read up to the closing brace. -/
theorem parseMembers_serialized (name : ByteString) (value : JsonValue) (others : JsonObject)
    (added : List ByteString)
    (distinct : (((name, value) :: others).map Prod.fst).Nodup)
    (fresh : ∀ member ∈ (name, value) :: others, member.1 ∉ added)
    (named : ∀ member ∈ (name, value) :: others, 0 ∉ member.1)
    (parses : ∀ member ∈ (name, value) :: others, ∀ blank rest, Blank blank → Ends rest →
      parse (blank ++ (serialize pretty (level + 1) member.2 ++ rest)) = some (member.2, rest))
    (fuel : ℕ) (enough : others.length < fuel) (rest : ByteString) :
    parseMembers parse fuel added (serializeString name ++ (bytes ":" ++
      ((if pretty then bytes " " else []) ++ (serialize pretty (level + 1) value ++
        (serializeMembers pretty level others ++ (indentIf pretty level ++ 125 :: rest)))))) =
        some ((name, value) :: others, rest) := by
  have colon : bytes ":" = [58] := by decide
  have comma : bytes "," = [44] := by decide
  have gap : Blank (if pretty then bytes " " else []) := by
    cases pretty
    · intro byte mem
      simp at mem
    · show ∀ byte ∈ bytes " ", isSpace byte = true
      decide +kernel
  have here := fresh (name, value) (by simp)
  have nulFree := named (name, value) (by simp)
  induction others generalizing name value added fuel with
  | nil =>
      rcases fuel with _ | fuel
      · simp at enough
      · have closing : skipWhitespaces (lineBreak pretty ++ (indentIf pretty level ++ 125 :: rest)) =
            125 :: rest := by
          rw [skipWhitespaces_blank (blank_lineBreak pretty),
            skipWhitespaces_blank (blank_indentIf pretty level),
            skipWhitespaces_cons (by decide)]
        have ends : Ends (lineBreak pretty ++ (indentIf pretty level ++ 125 :: rest)) :=
          ends_closing pretty level (by decide) rest
        have read := parses (name, value) (by simp) _ _ gap ends
        rw [parseMembers, getQuotedString_serialized, colon]
        simp only [Option.bind_eq_bind, Option.bind_some, if_neg nulFree, List.cons_append,
          List.nil_append, skipWhitespaces_cons (show isSpace 58 = false by decide),
          serializeMembers, read, if_neg here, closing, Option.pure_def]
  | cons next more ih =>
      rcases fuel with _ | fuel
      · simp at enough
      · rcases next with ⟨nextName, nextValue⟩
        have laterFresh : ∀ member ∈ (nextName, nextValue) :: more,
            member.1 ∉ name :: added := by
          intro member mem
          rw [List.mem_cons, not_or]
          refine ⟨?_, fresh member (List.mem_cons_of_mem _ mem)⟩
          intro repeated
          exact (List.nodup_cons.mp distinct).1 (List.mem_map.mpr ⟨member, mem, repeated⟩)
        have later := ih nextName nextValue (name :: added) (List.nodup_cons.mp distinct).2
          laterFresh (fun member mem => named member (List.mem_cons_of_mem _ mem))
          (fun member mem => parses member (List.mem_cons_of_mem _ mem)) fuel
          (by simpa using enough) (laterFresh _ (by simp)) (named _ (by simp))
        have quoted : Begins (serializeString nextName ++ (bytes ":" ++
            ((if pretty then bytes " " else []) ++ (serialize pretty (level + 1) nextValue ++
              (serializeMembers pretty level more ++ (indentIf pretty level ++ 125 :: rest)))))) :=
          (begins_serialize ((Readable.string 0 nextName).legible fun _ => none) pretty
            level).append _
        have read := parses (name, value) (by simp) _ _ gap
          (ends_serializeMembers pretty level ((nextName, nextValue) :: more) rest)
        rw [parseMembers, getQuotedString_serialized, colon]
        simp only [Option.bind_eq_bind, Option.bind_some, if_neg nulFree, List.cons_append,
          List.nil_append, skipWhitespaces_cons (show isSpace 58 = false by decide),
          read, if_neg here]
        simp only [serializeMembers, comma, List.append_assoc, List.cons_append, List.nil_append,
          skipWhitespaces_cons (show isSpace 44 = false by decide)]
        rw [skipWhitespaces_blank (blank_lineBreak pretty),
          skipWhitespaces_blank (blank_indentIf pretty (level + 1)), quoted.skip, later]
        rfl

theorem length_le_serializeItems {items : List JsonValue}
    (begins : ∀ item ∈ items, Begins (serialize pretty (level + 1) item)) :
    items.length ≤ (serializeItems pretty level items).length := by
  induction items with
  | nil => simp
  | cons item rest ih =>
      have later := ih fun value mem => begins value (List.mem_cons_of_mem _ mem)
      rcases begins item (by simp) with ⟨byte, others, written, -⟩
      simp only [serializeItems, written, List.length_append, List.length_cons]
      omega

theorem length_le_serializeMembers (members : JsonObject) :
    members.length ≤ (serializeMembers pretty level members).length := by
  have comma : (bytes ",").length = 1 := by decide
  induction members with
  | nil => simp
  | cons member rest ih =>
      rcases member with ⟨name, value⟩
      simp only [serializeMembers, List.length_append, List.length_cons, comma]
      omega

theorem parseArrayValue_serialized {item : JsonValue} {others : List JsonValue}
    (begins : ∀ value ∈ item :: others, Begins (serialize pretty (level + 1) value))
    (parses : ∀ value ∈ item :: others, ∀ rest, Ends rest →
      parse (serialize pretty (level + 1) value ++ rest) = some (value, rest))
    (rest : ByteString) :
    parseArrayValue parse (lineBreak pretty ++ (indentIf pretty (level + 1) ++
      (serialize pretty (level + 1) item ++
        (serializeItems pretty level others ++ (indentIf pretty level ++ 93 :: rest))))) =
        some (.array (item :: others), rest) := by
  have counted : others.length ≤ (serializeItems pretty level others).length :=
    length_le_serializeItems fun value mem => begins value (List.mem_cons_of_mem _ mem)
  have items := parseItems_serialized item others begins parses
    (serialize pretty (level + 1) item ++
      (serializeItems pretty level others ++ (indentIf pretty level ++ 93 :: rest))).length
    (by simp only [List.length_append, List.length_cons]; omega) rest
  have here := (begins item (by simp)).append
    (serializeItems pretty level others ++ (indentIf pretty level ++ 93 :: rest))
  rw [parseArrayValue, skipWhitespaces_blank (blank_lineBreak pretty),
    skipWhitespaces_blank (blank_indentIf pretty (level + 1)), here.skip]
  rcases here with ⟨byte, remaining, text_eq, -, notClosing⟩
  rw [text_eq] at items ⊢
  split
  · simp_all
  · simp only [items, Option.bind_eq_bind, Option.bind_some, Option.pure_def]

theorem parseObjectValue_serialized {name : ByteString} {value : JsonValue} {others : JsonObject}
    (distinct : (((name, value) :: others).map Prod.fst).Nodup)
    (named : ∀ member ∈ (name, value) :: others, 0 ∉ member.1)
    (parses : ∀ member ∈ (name, value) :: others, ∀ blank rest, Blank blank → Ends rest →
      parse (blank ++ (serialize pretty (level + 1) member.2 ++ rest)) = some (member.2, rest))
    (rest : ByteString) :
    parseObjectValue parse (lineBreak pretty ++ (indentIf pretty (level + 1) ++
      (serializeString name ++ (bytes ":" ++ ((if pretty then bytes " " else []) ++
        (serialize pretty (level + 1) value ++
          (serializeMembers pretty level others ++ (indentIf pretty level ++ 125 :: rest)))))))) =
        some (.object ((name, value) :: others), rest) := by
  have counted : others.length ≤ (serializeMembers pretty level others).length :=
    length_le_serializeMembers others
  have members := parseMembers_serialized name value others [] distinct (by simp) named parses
    (serializeString name ++ (bytes ":" ++ ((if pretty then bytes " " else []) ++
      (serialize pretty (level + 1) value ++
        (serializeMembers pretty level others ++ (indentIf pretty level ++ 125 :: rest)))))).length
    (by simp only [List.length_append, List.length_cons]; omega) rest
  have here : ∃ remaining, serializeString name = 34 :: remaining := by
    have quote : bytes "\"" = [34] := by decide
    rw [serializeString, quote]
    exact ⟨_, rfl⟩
  rcases here with ⟨remaining, quoted⟩
  rw [parseObjectValue, skipWhitespaces_blank (blank_lineBreak pretty),
    skipWhitespaces_blank (blank_indentIf pretty (level + 1))]
  rw [quoted] at members ⊢
  rw [List.cons_append, skipWhitespaces_cons (by decide)]
  rw [List.cons_append] at members
  split
  · simp_all
  · simp only [members, Option.bind_eq_bind, Option.bind_some, Option.pure_def]

end Items

theorem parseValue_blank (strtod : Strtod) (levels : ℕ) {blank : ByteString}
    (isBlank : Blank blank) (text : ByteString) :
    parseValue strtod levels (blank ++ text) = parseValue strtod levels text := by
  cases levels with
  | zero => rfl
  | succ levels => rw [parseValue, parseValue, skipWhitespaces_blank isBlank]

theorem Legible.parseValue_serialize {strtod : Strtod} {levels : ℕ} {value : JsonValue}
    (legible : Legible strtod levels value) (pretty : Bool) (level : ℕ) (rest : ByteString)
    (ends : (∃ printed, value = .number printed) → Ends rest) :
    parseValue strtod levels (serialize pretty level value ++ rest) = some (value, rest) := by
  induction legible generalizing level rest with
  | null levels =>
      have null : bytes "null" = [110, 117, 108, 108] := by decide
      simp only [serialize, null, List.cons_append, List.nil_append, parseValue,
        skipWhitespaces_cons (show isSpace 110 = false by decide)]
      simp [parseNullValue, null, startsWith, isDigit]
  | boolean levels value =>
      have yes : bytes "true" = [116, 114, 117, 101] := by decide
      have no : bytes "false" = [102, 97, 108, 115, 101] := by decide
      cases value
      · simp only [serialize, no, List.cons_append, List.nil_append, parseValue,
          skipWhitespaces_cons (show isSpace 102 = false by decide)]
        simp [parseBooleanValue, yes, no, startsWith]
      · simp only [serialize, yes, List.cons_append, List.nil_append, parseValue,
          skipWhitespaces_cons (show isSpace 116 = false by decide)]
        simp [parseBooleanValue, yes, startsWith]
  | @number levels printed readBack =>
      rcases readBack with ⟨⟨byte, first, numeric⟩, decimal, read⟩
      rcases List.head?_eq_some_iff.mp first with ⟨others, written⟩
      have apart : ∀ byte : UInt8, (byte = 45 ∨ isDigit byte = true) → isSpace byte = false ∧
          byte ≠ 123 ∧ byte ≠ 91 ∧ byte ≠ 34 ∧ ¬(byte = 102 ∨ byte = 116) := by
        decide +kernel
      rcases apart byte numeric with ⟨black, object, array, quote, letter⟩
      have number := read rest (ends ⟨printed, rfl⟩)
      have whole : (printed ++ rest).take printed.length = printed := List.take_left
      have left : (printed ++ rest).drop printed.length = rest := List.drop_left
      have parsed : parseNumberValue strtod (printed ++ rest) = some (.number printed, rest) := by
        simp only [parseNumberValue, number, Option.bind_eq_bind, Option.bind_some, whole, decimal,
          if_true, left, Option.pure_def]
      rw [written, List.cons_append] at parsed
      simp only [serialize, written, List.cons_append, parseValue, skipWhitespaces_cons black,
        if_neg object, if_neg array, if_neg quote, if_neg letter, if_pos numeric]
      exact parsed
  | string levels text =>
      have quote : bytes "\"" = [34] := by decide
      have quoted := getQuotedString_serialized text rest
      rw [serializeString, quote] at quoted
      simp only [List.cons_append, List.nil_append] at quoted
      simp only [serialize, serializeString, quote, List.cons_append, List.nil_append, parseValue,
        skipWhitespaces_cons (show isSpace 34 = false by decide), parseStringValue, quoted]
      rfl
  | @array levels items legible ih =>
      have opening : bytes "[" = [91] ∧ bytes "]" = [93] ∧ bytes "[]" = [91, 93] := by
        decide
      rcases opening with ⟨left, right, empty⟩
      cases items with
      | nil =>
          simp only [serialize, empty, List.cons_append, List.nil_append, parseValue,
            skipWhitespaces_cons (show isSpace 91 = false by decide)]
          simp [parseArrayValue, skipWhitespaces_cons (show isSpace 93 = false by decide)]
      | cons item others =>
          have begins : ∀ value ∈ item :: others, Begins (serialize pretty (level + 1) value) :=
            fun value mem => begins_serialize (legible value mem) pretty (level + 1)
          have items := parseArrayValue_serialized begins
            (fun value mem rest ends => ih value mem (level + 1) rest fun _ => ends) rest
          simp only [serialize, left, right, List.append_assoc, List.cons_append, List.nil_append,
            parseValue, skipWhitespaces_cons (show isSpace 91 = false by decide)]
          exact items
  | @object levels members distinct named legible ih =>
      have opening : bytes "\x7b" = [123] ∧ bytes "\x7d" = [125] ∧
          bytes "\x7b\x7d" = [123, 125] := by
        decide
      rcases opening with ⟨left, right, empty⟩
      cases members with
      | nil =>
          simp only [serialize, empty, List.cons_append, List.nil_append, parseValue,
            skipWhitespaces_cons (show isSpace 123 = false by decide)]
          simp [parseObjectValue, skipWhitespaces_cons (show isSpace 125 = false by decide)]
      | cons member others =>
          rcases member with ⟨name, value⟩
          have parses : ∀ member ∈ (name, value) :: others, ∀ blank rest, Blank blank → Ends rest →
              parseValue strtod levels (blank ++ (serialize pretty (level + 1) member.2 ++ rest)) =
                some (member.2, rest) := by
            intro member mem blank rest isBlank ends
            rw [parseValue_blank strtod levels isBlank]
            exact ih member mem (level + 1) rest fun _ => ends
          have read := parseObjectValue_serialized distinct named parses rest
          simp only [serialize, left, right, List.append_assoc, List.cons_append, List.nil_append,
            parseValue, skipWhitespaces_cons (show isSpace 123 = false by decide)]
          exact read

theorem parseValue_serialize (strtod : Strtod) {levels : ℕ} {value : JsonValue}
    (readable : Readable levels value) (pretty : Bool) (level : ℕ) (rest : ByteString) :
    parseValue strtod levels (serialize pretty level value ++ rest) = some (value, rest) := by
  refine (readable.legible strtod).parseValue_serialize pretty level rest ?_
  rintro ⟨printed, rfl⟩
  cases readable

/-- `json_parse_string` reads back what was serialized: no value starts with a byte order mark. -/
theorem parseString_serialize (strtod : Strtod) {value : JsonValue}
    (readable : Readable (maxNesting + 1) value) (pretty : Bool) :
    parseString strtod (serialize pretty 0 value) = some value := by
  have read := parseValue_serialize strtod readable pretty 0 []
  rw [List.append_nil] at read
  have unmarked : skipByteOrderMark (serialize pretty 0 value) = serialize pretty 0 value := by
    rw [skipByteOrderMark, if_neg]
    intro marked
    rcases List.isPrefixOf_iff_prefix.mp marked with ⟨rest, text⟩
    rw [← text] at read
    simp only [List.cons_append, parseValue,
      skipWhitespaces_cons (show isSpace 0xEF = false by decide)] at read
    simp [isDigit] at read
  rw [parseString, unmarked, read, Option.map_some]

/-- Values with equal texts are equal. -/
theorem serialize_injective {levels : ℕ} {left right : JsonValue}
    (leftReadable : Readable levels left) (rightReadable : Readable levels right) {pretty : Bool}
    {level : ℕ} (same : serialize pretty level left = serialize pretty level right) :
    left = right := by
  have readLeft := parseValue_serialize (fun _ => none) leftReadable pretty level []
  have readRight := parseValue_serialize (fun _ => none) rightReadable pretty level []
  rw [same, readRight] at readLeft
  simpa using readLeft.symm

end OsConfig.JsonValue
