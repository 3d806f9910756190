import OsConfig.Common.Parson.RoundTrip

/-!
# What the parser looks at

The parser looks no further than to the end of the value that it reads, and one
byte further behind a number. It reads the same value whatever follows, and with
every number of levels that the value does not exceed.
-/

namespace OsConfig.JsonValue

open ByteString

section Depth

mutual

/-- The levels that are opened to read a value. -/
def depth (value : JsonValue) : ℕ :=
  match value with
  | .array items => depthOfItems items + 1
  | .object members => depthOfMembers members + 1
  | .null => 1
  | .boolean _ => 1
  | .number _ => 1
  | .string _ => 1
termination_by structural value

def depthOfItems (items : List JsonValue) : ℕ :=
  match items with
  | [] => 0
  | item :: rest => max (depth item) (depthOfItems rest)
termination_by structural items

def depthOfMembers (members : List (ByteString × JsonValue)) : ℕ :=
  match members with
  | [] => 0
  | (_, value) :: rest => max (depth value) (depthOfMembers rest)
termination_by structural members

end

variable {bound : ℕ}

theorem depthOfItems_le {items : List JsonValue} :
    depthOfItems items ≤ bound ↔ ∀ item ∈ items, depth item ≤ bound := by
  induction items with
  | nil => simp [depthOfItems]
  | cons item rest ih => rw [depthOfItems, max_le_iff, ih, List.forall_mem_cons]

theorem depthOfMembers_le {members : JsonObject} :
    depthOfMembers members ≤ bound ↔ ∀ member ∈ members, depth member.2 ≤ bound := by
  induction members with
  | nil => simp [depthOfMembers]
  | cons member rest ih =>
      rcases member with ⟨name, value⟩
      rw [depthOfMembers, max_le_iff, ih, List.forall_mem_cons]

theorem depth_pos (value : JsonValue) : 1 ≤ depth value := by
  cases value with
  | null => exact le_rfl
  | boolean => exact le_rfl
  | number => exact le_rfl
  | string => exact le_rfl
  | array items => exact Nat.le_add_left 1 _
  | object members => exact Nat.le_add_left 1 _

end Depth

section Inversion

variable {strtod : Strtod} {parse : ByteString → Option (JsonValue × ByteString)} {fuel : ℕ}
  {text rest : ByteString}

/-- One round of the loop of `parse_array_value`. -/
theorem parseItems_eq_some {items : List JsonValue} :
    parseItems parse (fuel + 1) text = some (items, rest) ↔
      ∃ item behind, parse text = some (item, behind) ∧
        ((∃ next others, skipWhitespaces behind = 44 :: next ∧
            parseItems parse fuel (skipWhitespaces next) = some (others, rest) ∧
            items = item :: others) ∨
          (skipWhitespaces behind = 93 :: rest ∧ items = [item])) := by
  rw [parseItems]
  simp only [Option.bind_eq_bind, Option.bind_eq_some_iff, Option.pure_def, Prod.exists]
  apply exists_congr
  intro item
  apply exists_congr
  intro behind
  apply and_congr_right
  intro _
  split
  next next skipped =>
    simp only [Option.bind_eq_some_iff, Option.some.injEq, Prod.mk.injEq, Prod.exists]
    constructor
    · rintro ⟨others, left, read, rfl, rfl⟩
      exact .inl ⟨next, others, skipped, read, rfl⟩
    · rintro (⟨other, others, same, read, rfl⟩ | ⟨closing, -⟩)
      · rw [skipped, List.cons.injEq] at same
        rw [← same.2] at read
        exact ⟨others, rest, read, rfl, rfl⟩
      · rw [skipped] at closing
        simp at closing
  next left skipped =>
    simp only [Option.some.injEq, Prod.mk.injEq]
    constructor
    · rintro ⟨rfl, rfl⟩
      exact .inr ⟨skipped, rfl⟩
    · rintro (⟨next, others, comma, -⟩ | ⟨same, rfl⟩)
      · rw [skipped] at comma
        simp at comma
      · rw [skipped, List.cons.injEq] at same
        exact ⟨rfl, same.2⟩
  next noComma noClosing =>
    constructor
    · rintro ⟨⟩
    · rintro (⟨next, others, comma, -⟩ | ⟨closing, -⟩)
      · exact absurd comma (noComma next)
      · exact absurd closing (noClosing rest)

/-- One round of the loop of `parse_object_value`. -/
theorem parseMembers_eq_some {members : JsonObject} {added : List ByteString} :
    parseMembers parse (fuel + 1) added text = some (members, rest) ↔
      ∃ name value colon unread behind, getQuotedString text = some (name, colon) ∧ 0 ∉ name ∧
        skipWhitespaces colon = 58 :: unread ∧ parse unread = some (value, behind) ∧
        name ∉ added ∧
        ((∃ next others, skipWhitespaces behind = 44 :: next ∧
            parseMembers parse fuel (name :: added) (skipWhitespaces next) = some (others, rest) ∧
            members = (name, value) :: others) ∨
          (skipWhitespaces behind = 125 :: rest ∧ members = [(name, value)])) := by
  rw [parseMembers]
  simp only [Option.bind_eq_bind, Option.bind_eq_some_iff, Prod.exists]
  constructor
  · rintro ⟨name, colon, quoted, read⟩
    split at read
    · cases read
    next named =>
      split at read
      next unread separated =>
        rcases Option.bind_eq_some_iff.mp read with ⟨⟨value, behind⟩, valueRead, read⟩
        refine ⟨name, value, colon, unread, behind, quoted, named, separated, valueRead, ?_⟩
        split at read
        · cases read
        next fresh =>
          refine ⟨fresh, ?_⟩
          split at read
          next next skipped =>
            rcases Option.bind_eq_some_iff.mp read with ⟨⟨others, left⟩, othersRead, read⟩
            simp only [Option.pure_def, Option.some.injEq, Prod.mk.injEq] at read
            rcases read with ⟨rfl, rfl⟩
            exact .inl ⟨next, others, skipped, othersRead, rfl⟩
          next left skipped =>
            simp only [Option.pure_def, Option.some.injEq, Prod.mk.injEq] at read
            rcases read with ⟨rfl, rfl⟩
            exact .inr ⟨skipped, rfl⟩
          next => cases read
      next => cases read
  · rintro ⟨name, value, colon, unread, behind, quoted, named, separated, valueRead, fresh, more⟩
    refine ⟨name, colon, quoted, ?_⟩
    rcases more with ⟨next, others, comma, othersRead, rfl⟩ | ⟨closing, rfl⟩
    · simp only [if_neg named, separated, valueRead, Option.bind_some, if_neg fresh, comma,
        othersRead, Option.pure_def]
    · simp only [if_neg named, separated, valueRead, Option.bind_some, if_neg fresh, closing,
        Option.pure_def]

theorem parseArrayValue_eq_some {value : JsonValue} :
    parseArrayValue parse text = some (value, rest) ↔
      (skipWhitespaces text = 93 :: rest ∧ value = .array []) ∨
      ((∀ left, skipWhitespaces text ≠ 93 :: left) ∧
        ∃ items, parseItems parse (skipWhitespaces text).length (skipWhitespaces text) =
          some (items, rest) ∧ value = .array items) := by
  rw [parseArrayValue]
  split
  next left skipped =>
    simp only [Option.some.injEq, Prod.mk.injEq]
    constructor
    · rintro ⟨rfl, rfl⟩
      exact .inl ⟨skipped, rfl⟩
    · rintro (⟨same, rfl⟩ | ⟨open_, -⟩)
      · rw [skipped, List.cons.injEq] at same
        exact ⟨rfl, same.2⟩
      · exact absurd skipped (open_ left)
  next open_ =>
    simp only [Option.bind_eq_bind, Option.bind_eq_some_iff, Option.pure_def, Option.some.injEq,
      Prod.mk.injEq, Prod.exists]
    constructor
    · rintro ⟨items, left, read, rfl, rfl⟩
      exact .inr ⟨open_, items, read, rfl⟩
    · rintro (⟨closing, -⟩ | ⟨-, items, read, rfl⟩)
      · exact absurd closing (open_ rest)
      · exact ⟨items, rest, read, rfl, rfl⟩

theorem parseObjectValue_eq_some {value : JsonValue} :
    parseObjectValue parse text = some (value, rest) ↔
      (skipWhitespaces text = 125 :: rest ∧ value = .object []) ∨
      ((∀ left, skipWhitespaces text ≠ 125 :: left) ∧
        ∃ members, parseMembers parse (skipWhitespaces text).length [] (skipWhitespaces text) =
          some (members, rest) ∧ value = .object members) := by
  rw [parseObjectValue]
  split
  next left skipped =>
    simp only [Option.some.injEq, Prod.mk.injEq]
    constructor
    · rintro ⟨rfl, rfl⟩
      exact .inl ⟨skipped, rfl⟩
    · rintro (⟨same, rfl⟩ | ⟨open_, -⟩)
      · rw [skipped, List.cons.injEq] at same
        exact ⟨rfl, same.2⟩
      · exact absurd skipped (open_ left)
  next open_ =>
    simp only [Option.bind_eq_bind, Option.bind_eq_some_iff, Option.pure_def, Option.some.injEq,
      Prod.mk.injEq, Prod.exists]
    constructor
    · rintro ⟨members, left, read, rfl, rfl⟩
      exact .inr ⟨open_, members, read, rfl⟩
    · rintro (⟨closing, -⟩ | ⟨-, members, read, rfl⟩)
      · exact absurd closing (open_ rest)
      · exact ⟨members, rest, read, rfl, rfl⟩

theorem parseValue_of_skip {levels : ℕ} {byte : UInt8} {others : ByteString}
    (skipped : skipWhitespaces text = byte :: others) :
    parseValue strtod (levels + 1) text =
      if byte = 123 then parseObjectValue (parseValue strtod levels) others
      else if byte = 91 then parseArrayValue (parseValue strtod levels) others
      else if byte = 34 then parseStringValue (byte :: others)
      else if byte = 102 ∨ byte = 116 then parseBooleanValue (byte :: others)
      else if byte = 45 ∨ isDigit byte then parseNumberValue strtod (byte :: others)
      else if byte = 110 then parseNullValue (byte :: others)
      else none := by
  rw [parseValue, skipped]

theorem exists_skip_of_parseValue {levels : ℕ} {value : JsonValue}
    (read : parseValue strtod levels text = some (value, rest)) :
    ∃ more byte others, levels = more + 1 ∧ skipWhitespaces text = byte :: others := by
  cases levels with
  | zero => cases read
  | succ more =>
      cases skipped : skipWhitespaces text with
      | nil =>
          rw [parseValue, skipped] at read
          cases read
      | cons byte others => exact ⟨more, byte, others, rfl, rfl⟩

end Inversion

section Results

variable {strtod : Strtod} {parse : ByteString → Option (JsonValue × ByteString)} {fuel : ℕ}
  {text rest : ByteString} {property : JsonValue → Prop}

theorem forall_of_parseItems
    (each : ∀ text value rest, parse text = some (value, rest) → property value)
    {items : List JsonValue} (read : parseItems parse fuel text = some (items, rest)) :
    ∀ item ∈ items, property item := by
  induction fuel generalizing text items with
  | zero => cases read
  | succ fuel ih =>
      rcases parseItems_eq_some.mp read with ⟨item, behind, here, more⟩
      have first := each text item behind here
      rcases more with ⟨next, others, -, later, rfl⟩ | ⟨-, rfl⟩
      · rw [List.forall_mem_cons]
        exact ⟨first, ih later⟩
      · rw [List.forall_mem_singleton]
        exact first

theorem forall_of_parseMembers
    (each : ∀ text value rest, parse text = some (value, rest) → property value)
    {members : JsonObject} {added : List ByteString}
    (read : parseMembers parse fuel added text = some (members, rest)) :
    ∀ member ∈ members, property member.2 := by
  induction fuel generalizing text members added with
  | zero => cases read
  | succ fuel ih =>
      rcases parseMembers_eq_some.mp read with
        ⟨name, value, colon, unread, behind, -, -, -, here, -, more⟩
      have first := each unread value behind here
      rcases more with ⟨next, others, -, later, rfl⟩ | ⟨-, rfl⟩
      · rw [List.forall_mem_cons]
        exact ⟨first, ih later⟩
      · rw [List.forall_mem_singleton]
        exact first

/-- The names are distinct, new and without a NUL. -/
theorem names_of_parseMembers {members : JsonObject} {added : List ByteString}
    (read : parseMembers parse fuel added text = some (members, rest)) :
    (members.map Prod.fst).Nodup ∧ ∀ member ∈ members, 0 ∉ member.1 ∧ member.1 ∉ added := by
  induction fuel generalizing text members added with
  | zero => cases read
  | succ fuel ih =>
      rcases parseMembers_eq_some.mp read with
        ⟨name, value, colon, unread, behind, -, named, -, -, fresh, more⟩
      rcases more with ⟨next, others, -, later, rfl⟩ | ⟨-, rfl⟩
      · have names := ih later
        rw [List.map_cons, List.nodup_cons, List.forall_mem_cons]
        refine ⟨⟨?_, names.1⟩, ⟨named, fresh⟩, fun member mem => ⟨(names.2 member mem).1, ?_⟩⟩
        · intro repeated
          rcases List.mem_map.mp repeated with ⟨member, mem, same⟩
          apply (names.2 member mem).2
          simp [same]
        · intro repeated
          exact (names.2 member mem).2 (List.mem_cons_of_mem name repeated)
      · rw [List.forall_mem_singleton]
        exact ⟨List.nodup_singleton name, named, fresh⟩

theorem parseValue_cases {levels : ℕ} {value : JsonValue}
    (read : parseValue strtod (levels + 1) text = some (value, rest)) :
    value = .null ∨ (∃ flag, value = .boolean flag) ∨ (∃ printed, value = .number printed) ∨
      (∃ content, value = .string content) ∨
      (∃ items, value = .array items ∧
        ∀ item ∈ items, ∃ text rest, parseValue strtod levels text = some (item, rest)) ∨
      (∃ members, value = .object members ∧ (members.map Prod.fst).Nodup ∧
        (∀ member ∈ members, 0 ∉ member.1) ∧
        ∀ member ∈ members, ∃ text rest, parseValue strtod levels text = some (member.2, rest)) := by
  have each : ∀ text value rest, parseValue strtod levels text = some (value, rest) →
      ∃ text rest, parseValue strtod levels text = some (value, rest) :=
    fun text value rest here => ⟨text, rest, here⟩
  rcases exists_skip_of_parseValue read with ⟨_, byte, others, -, skipped⟩
  rw [parseValue_of_skip skipped] at read
  split_ifs at read
  · rcases parseObjectValue_eq_some.mp read with ⟨-, rfl⟩ | ⟨-, members, inside, rfl⟩
    · simp
    · have names := names_of_parseMembers inside
      have values := forall_of_parseMembers each inside
      refine .inr (.inr (.inr (.inr (.inr ?_))))
      exact ⟨members, rfl, names.1, fun member mem => (names.2 member mem).1, values⟩
  · rcases parseArrayValue_eq_some.mp read with ⟨-, rfl⟩ | ⟨-, items, inside, rfl⟩
    · simp
    · have values := forall_of_parseItems each inside
      exact .inr (.inr (.inr (.inr (.inl ⟨items, rfl, values⟩))))
  · simp only [parseStringValue, Option.bind_eq_bind, Option.bind_eq_some_iff, Option.pure_def,
      Option.some.injEq, Prod.mk.injEq] at read
    rcases read with ⟨⟨content, left⟩, -, rfl, -⟩
    simp
  · unfold parseBooleanValue at read
    split_ifs at read
    · simp only [Option.some.injEq, Prod.mk.injEq] at read
      simp [← read.1]
    · simp only [Option.some.injEq, Prod.mk.injEq] at read
      simp [← read.1]
  · simp only [parseNumberValue, Option.bind_eq_bind, Option.bind_eq_some_iff, Option.pure_def,
      Option.ite_none_right_eq_some, Option.some.injEq, Prod.mk.injEq] at read
    rcases read with ⟨⟨length, printed⟩, -, -, rfl, -⟩
    simp
  · unfold parseNullValue at read
    split_ifs at read
    simp only [Option.some.injEq, Prod.mk.injEq] at read
    simp [← read.1]

theorem depth_le_of_parseValue {levels : ℕ} {value : JsonValue}
    (read : parseValue strtod levels text = some (value, rest)) : depth value ≤ levels := by
  induction levels generalizing text value rest with
  | zero => cases read
  | succ levels ih =>
      rcases parseValue_cases read with rfl | ⟨flag, rfl⟩ | ⟨printed, rfl⟩ | ⟨content, rfl⟩ |
        ⟨items, rfl, each⟩ | ⟨members, rfl, -, -, each⟩
      · exact Nat.le_add_left 1 levels
      · exact Nat.le_add_left 1 levels
      · exact Nat.le_add_left 1 levels
      · exact Nat.le_add_left 1 levels
      · apply Nat.succ_le_succ
        rw [depthOfItems_le]
        intro item mem
        rcases each item mem with ⟨text, rest, here⟩
        exact ih here
      · apply Nat.succ_le_succ
        rw [depthOfMembers_le]
        intro member mem
        rcases each member mem with ⟨text, rest, here⟩
        exact ih here

/-- All numbers of a value are read back from what they are printed as. -/
inductive NumbersReadBack (strtod : Strtod) : JsonValue → Prop
  | null : NumbersReadBack strtod .null
  | boolean (value : Bool) : NumbersReadBack strtod (.boolean value)
  | number {printed : ByteString} (readBack : IsReadBack strtod printed) :
      NumbersReadBack strtod (.number printed)
  | string (text : ByteString) : NumbersReadBack strtod (.string text)
  | array {items : List JsonValue} (readBack : ∀ item ∈ items, NumbersReadBack strtod item) :
      NumbersReadBack strtod (.array items)
  | object {members : JsonObject}
      (readBack : ∀ member ∈ members, NumbersReadBack strtod member.2) :
      NumbersReadBack strtod (.object members)

/-- A value that has been read once is read again, if its numbers are. -/
theorem legible_of_parseValue {levels : ℕ} {value : JsonValue}
    (read : parseValue strtod levels text = some (value, rest))
    (numbers : NumbersReadBack strtod value) : Legible strtod levels value := by
  induction levels generalizing text value rest with
  | zero => cases read
  | succ levels ih =>
      rcases parseValue_cases read with rfl | ⟨flag, rfl⟩ | ⟨printed, rfl⟩ | ⟨content, rfl⟩ |
        ⟨items, rfl, each⟩ | ⟨members, rfl, distinct, named, each⟩
      · exact .null levels
      · exact .boolean levels flag
      · cases numbers with
        | number readBack => exact .number levels readBack
      · exact .string levels content
      · cases numbers with
        | array readBack =>
            refine .array fun item mem => ?_
            rcases each item mem with ⟨text, rest, here⟩
            exact ih here (readBack item mem)
      · cases numbers with
        | object readBack =>
            refine .object distinct named fun member mem => ?_
            rcases each member mem with ⟨text, rest, here⟩
            exact ih here (readBack member mem)

end Results

section Continuation

theorem skipWhitespaces_append {text others : ByteString} {byte : UInt8}
    (skipped : skipWhitespaces text = byte :: others) (more : ByteString) :
    skipWhitespaces (text ++ more) = byte :: (others ++ more) := by
  rw [skipWhitespaces] at skipped ⊢
  rw [List.dropWhile_append, skipped]
  rfl

theorem skipQuotes_append {text content rest : ByteString}
    (read : skipQuotes text = some (content, rest)) (more : ByteString) :
    skipQuotes (text ++ more) = some (content, rest ++ more) := by
  induction text using skipQuotes.induct generalizing content with
  | case1 => cases read
  | case2 others =>
      rw [skipQuotes_quote, Option.some.injEq, Prod.mk.injEq] at read
      rcases read with ⟨rfl, rfl⟩
      rw [List.cons_append, skipQuotes_quote]
  | case3 =>
      rw [skipQuotes, if_neg (by decide), if_pos rfl] at read
      cases read
  | case4 letter others _ ih =>
      rw [skipQuotes_backslash, Option.map_eq_some_iff] at read
      rcases read with ⟨⟨inside, left⟩, found, same⟩
      rw [Prod.mk.injEq] at same
      rcases same with ⟨rfl, rfl⟩
      rw [List.cons_append, List.cons_append, skipQuotes_backslash, ih found]
      rfl
  | case5 byte others notQuote notBackslash ih =>
      rw [skipQuotes_plain notQuote notBackslash, Option.map_eq_some_iff] at read
      rcases read with ⟨⟨inside, left⟩, found, same⟩
      rw [Prod.mk.injEq] at same
      rcases same with ⟨rfl, rfl⟩
      rw [List.cons_append, skipQuotes_plain notQuote notBackslash, ih found]
      rfl

theorem getQuotedString_eq_some {text content rest : ByteString} :
    getQuotedString text = some (content, rest) ↔
      ∃ others raw, text = 34 :: others ∧ skipQuotes others = some (raw, rest) ∧
        processString raw = some content := by
  rw [getQuotedString.eq_def]
  split
  next others =>
    simp only [Option.bind_eq_bind, Option.bind_eq_some_iff, Option.pure_def, Option.some.injEq,
      Prod.mk.injEq, Prod.exists, List.cons.injEq, true_and]
    constructor
    · rintro ⟨raw, left, found, processed, read, rfl, rfl⟩
      exact ⟨others, raw, rfl, found, read⟩
    · rintro ⟨_, raw, rfl, found, read⟩
      exact ⟨raw, rest, found, content, read, rfl, rfl⟩
  next noQuote =>
    constructor
    · rintro ⟨⟩
    · rintro ⟨others, raw, rfl, -⟩
      exact absurd rfl (noQuote others)

theorem getQuotedString_append {text content rest : ByteString}
    (read : getQuotedString text = some (content, rest)) (more : ByteString) :
    getQuotedString (text ++ more) = some (content, rest ++ more) := by
  rcases getQuotedString_eq_some.mp read with ⟨others, raw, rfl, found, processed⟩
  rw [getQuotedString_eq_some]
  exact ⟨others ++ more, raw, rfl, skipQuotes_append found more, processed⟩

/-- What `strtod` promises in the C locale: it takes no more than there is, and a number ends
before the first delimiter. -/
structure StopsAtDelimiters (strtod : Strtod) : Prop where
  length_le : ∀ {text : ByteString} {length : ℕ} {printed : ByteString},
    strtod text = some (length, printed) → length ≤ text.length
  delimited : ∀ {byte : UInt8} {rest : ByteString}, isSpace byte = false →
    strtod (byte :: rest) = strtod ((byte :: rest).takeWhile fun other => !isDelimiter other)

variable {strtod : Strtod}

theorem StopsAtDelimiters.append (stops : StopsAtDelimiters strtod) {byte : UInt8}
    {rest printed more : ByteString} {length : ℕ} (black : isSpace byte = false)
    (read : strtod (byte :: rest) = some (length, printed))
    (ends : Ends ((byte :: rest).drop length ++ more)) :
    strtod (byte :: rest ++ more) = some (length, printed) := by
  have within := stops.length_le read
  have same : ((byte :: rest) ++ more).takeWhile (fun other => !isDelimiter other) =
      (byte :: rest).takeWhile fun other => !isDelimiter other := by
    rw [List.takeWhile_append]
    split
    next whole =>
      have taken := (List.takeWhile_prefix _).eq_of_length whole
      have free : ∀ other ∈ byte :: rest, isDelimiter other = false := by
        intro other mem
        rw [← taken] at mem
        simpa using List.mem_takeWhile_imp mem
      -- No delimiter stands in the text, so one follows it.
      have after : Ends more := by
        cases left : (byte :: rest).drop length with
        | nil => rwa [left, List.nil_append] at ends
        | cons first others =>
            have mem : first ∈ (byte :: rest).drop length := by simp [left]
            have delimiter : isDelimiter first = true := ends first (by simp [left])
            rw [free first (List.mem_of_mem_drop mem)] at delimiter
            cases delimiter
      rw [taken]
      cases more with
      | nil => simp
      | cons first others =>
          have delimiter : isDelimiter first = true := after first (by simp)
          simp [delimiter]
    next => rfl
  rw [List.cons_append] at same ⊢
  rw [stops.delimited black, same, ← stops.delimited black, read]

/-- The second parser goes on where the first one does, on values that are not too deep. -/
def Continues (parse other : ByteString → Option (JsonValue × ByteString)) (bound : ℕ)
    (more : ByteString) : Prop :=
  ∀ text value rest, parse text = some (value, rest) → depth value ≤ bound →
    ((∃ printed, value = .number printed) → more = [] ∨ Ends (rest ++ more)) →
    text ≠ [] ∧ other (text ++ more) = some (value, rest ++ more)

variable {parse other : ByteString → Option (JsonValue × ByteString)} {bound fuel larger : ℕ}
  {more text rest : ByteString}

theorem ends_of_skip {byte : UInt8} {others : ByteString} (delimiter : isDelimiter byte = true)
    (skipped : skipWhitespaces text = byte :: others) (more : ByteString) : Ends (text ++ more) := by
  cases text with
  | nil => cases skipped
  | cons first rest =>
      apply ends_cons
      cases space : isSpace first with
      | true => simp [isDelimiter, space]
      | false =>
          rw [skipWhitespaces_cons space, List.cons.injEq] at skipped
          rw [skipped.1]
          exact delimiter

theorem skipWhitespaces_append_of_ne_nil (black : skipWhitespaces text ≠ []) (more : ByteString) :
    skipWhitespaces (text ++ more) = skipWhitespaces text ++ more := by
  cases skipped : skipWhitespaces text with
  | nil => exact absurd skipped black
  | cons byte others => exact skipWhitespaces_append skipped more

theorem parseItems_append (continues : Continues parse other bound more) {items : List JsonValue}
    (read : parseItems parse fuel text = some (items, rest)) (enough : fuel ≤ larger)
    (shallow : ∀ item ∈ items, depth item ≤ bound) :
    text ≠ [] ∧ parseItems other larger (text ++ more) = some (items, rest ++ more) := by
  induction fuel generalizing text items larger with
  | zero => cases read
  | succ fuel ih =>
      rcases larger with _ | larger
      · simp at enough
      rcases parseItems_eq_some.mp read with ⟨item, behind, here, later⟩
      rw [parseItems_eq_some]
      rcases later with ⟨next, others, comma, later, rfl⟩ | ⟨closing, rfl⟩
      · rw [List.forall_mem_cons] at shallow
        have ends := ends_of_skip (by decide) comma more
        have first := continues text item behind here shallow.1 fun _ => .inr ends
        have following := ih later (Nat.le_of_succ_le_succ enough) shallow.2
        refine ⟨first.1, item, behind ++ more, first.2, .inl ⟨next ++ more, others, ?_, ?_, rfl⟩⟩
        · exact skipWhitespaces_append comma more
        · rw [skipWhitespaces_append_of_ne_nil following.1]
          exact following.2
      · have ends := ends_of_skip (by decide) closing more
        have first := continues text item behind here (shallow item (by simp)) fun _ => .inr ends
        exact ⟨first.1, item, behind ++ more, first.2,
          .inr ⟨skipWhitespaces_append closing more, rfl⟩⟩

theorem parseMembers_append (continues : Continues parse other bound more) {members : JsonObject}
    {added : List ByteString} (read : parseMembers parse fuel added text = some (members, rest))
    (enough : fuel ≤ larger) (shallow : ∀ member ∈ members, depth member.2 ≤ bound) :
    text ≠ [] ∧ parseMembers other larger added (text ++ more) = some (members, rest ++ more) := by
  induction fuel generalizing text members added larger with
  | zero => cases read
  | succ fuel ih =>
      rcases larger with _ | larger
      · simp at enough
      rcases parseMembers_eq_some.mp read with
        ⟨name, value, colon, unread, behind, quoted, named, separated, here, fresh, later⟩
      have nonempty : text ≠ [] := by
        rintro rfl
        cases quoted
      refine ⟨nonempty, ?_⟩
      rw [parseMembers_eq_some]
      refine ⟨name, value, colon ++ more, unread ++ more, behind ++ more,
        getQuotedString_append quoted more, named, skipWhitespaces_append separated more, ?_⟩
      rcases later with ⟨next, others, comma, later, rfl⟩ | ⟨closing, rfl⟩
      · rw [List.forall_mem_cons] at shallow
        have ends := ends_of_skip (by decide) comma more
        have first := continues unread value behind here shallow.1 fun _ => .inr ends
        have following := ih later (Nat.le_of_succ_le_succ enough) shallow.2
        refine ⟨first.2, fresh, .inl ⟨next ++ more, others, ?_, ?_, rfl⟩⟩
        · exact skipWhitespaces_append comma more
        · rw [skipWhitespaces_append_of_ne_nil following.1]
          exact following.2
      · have ends := ends_of_skip (by decide) closing more
        have first := continues unread value behind here (shallow (name, value) (by simp))
          fun _ => .inr ends
        exact ⟨first.2, fresh, .inr ⟨skipWhitespaces_append closing more, rfl⟩⟩

theorem parseArrayValue_append (continues : Continues parse other bound more) {value : JsonValue}
    (read : parseArrayValue parse text = some (value, rest)) (shallow : depth value ≤ bound + 1) :
    parseArrayValue other (text ++ more) = some (value, rest ++ more) := by
  rw [parseArrayValue_eq_some]
  rcases parseArrayValue_eq_some.mp read with ⟨closing, rfl⟩ | ⟨open_, items, inside, rfl⟩
  · exact .inl ⟨skipWhitespaces_append closing more, rfl⟩
  · have each := depthOfItems_le.mp (Nat.le_of_succ_le_succ shallow)
    have longer := parseItems_append continues inside
      (List.length_append ▸ Nat.le_add_right _ more.length) each
    rw [skipWhitespaces_append_of_ne_nil longer.1]
    refine .inr ⟨fun left same => ?_, items, longer.2, rfl⟩
    cases skipped : skipWhitespaces text with
    | nil => exact longer.1 skipped
    | cons byte others =>
        rw [skipped, List.cons_append, List.cons.injEq] at same
        exact open_ others (by rw [skipped, same.1])

theorem parseObjectValue_append (continues : Continues parse other bound more) {value : JsonValue}
    (read : parseObjectValue parse text = some (value, rest)) (shallow : depth value ≤ bound + 1) :
    parseObjectValue other (text ++ more) = some (value, rest ++ more) := by
  rw [parseObjectValue_eq_some]
  rcases parseObjectValue_eq_some.mp read with ⟨closing, rfl⟩ | ⟨open_, members, inside, rfl⟩
  · exact .inl ⟨skipWhitespaces_append closing more, rfl⟩
  · have each := depthOfMembers_le.mp (Nat.le_of_succ_le_succ shallow)
    have longer := parseMembers_append continues inside
      (List.length_append ▸ Nat.le_add_right _ more.length) each
    rw [skipWhitespaces_append_of_ne_nil longer.1]
    refine .inr ⟨fun left same => ?_, members, longer.2, rfl⟩
    cases skipped : skipWhitespaces text with
    | nil => exact longer.1 skipped
    | cons byte others =>
        rw [skipped, List.cons_append, List.cons.injEq] at same
        exact open_ others (by rw [skipped, same.1])

theorem startsWith_iff {text start : ByteString} :
    startsWith text start = true ↔ ∃ rest, text = start ++ rest := by
  rw [startsWith, List.isPrefixOf_iff_prefix]
  constructor
  · rintro ⟨rest, rfl⟩
    exact ⟨rest, rfl⟩
  · rintro ⟨rest, rfl⟩
    exact List.prefix_append start rest

theorem parseBooleanValue_eq_some {value : JsonValue} :
    parseBooleanValue text = some (value, rest) ↔
      (text = bytes "true" ++ rest ∧ value = .boolean true) ∨
      (text = bytes "false" ++ rest ∧ value = .boolean false) := by
  have yes : bytes "true" = [116, 114, 117, 101] := by decide
  have no : bytes "false" = [102, 97, 108, 115, 101] := by decide
  constructor
  · intro read
    unfold parseBooleanValue at read
    split_ifs at read with isTrue isFalse
    · rcases startsWith_iff.mp isTrue with ⟨left, rfl⟩
      simp only [Option.some.injEq, Prod.mk.injEq] at read
      rcases read with ⟨rfl, rfl⟩
      exact .inl ⟨by simp [yes], rfl⟩
    · rcases startsWith_iff.mp isFalse with ⟨left, rfl⟩
      simp only [Option.some.injEq, Prod.mk.injEq] at read
      rcases read with ⟨rfl, rfl⟩
      exact .inr ⟨by simp [no], rfl⟩
  · rintro (⟨rfl, rfl⟩ | ⟨rfl, rfl⟩)
    · simp [parseBooleanValue, startsWith, yes]
    · simp [parseBooleanValue, startsWith, yes, no]

theorem parseNullValue_eq_some {value : JsonValue} :
    parseNullValue text = some (value, rest) ↔ text = bytes "null" ++ rest ∧ value = .null := by
  have null : bytes "null" = [110, 117, 108, 108] := by decide
  constructor
  · intro read
    unfold parseNullValue at read
    split_ifs at read with isNull
    rcases startsWith_iff.mp isNull with ⟨left, rfl⟩
    simp only [Option.some.injEq, Prod.mk.injEq] at read
    rcases read with ⟨rfl, rfl⟩
    exact ⟨by simp [null], rfl⟩
  · rintro ⟨rfl, rfl⟩
    simp [parseNullValue, startsWith, null]

theorem parseNumberValue_append (stops : StopsAtDelimiters strtod) {byte : UInt8}
    {value : JsonValue} (black : isSpace byte = false)
    (read : parseNumberValue strtod (byte :: text) = some (value, rest))
    (ends : more = [] ∨ Ends (rest ++ more)) :
    parseNumberValue strtod (byte :: text ++ more) = some (value, rest ++ more) := by
  rcases ends with rfl | ends
  · rw [List.append_nil, List.append_nil, read]
  simp only [parseNumberValue, Option.bind_eq_bind, Option.bind_eq_some_iff, Option.pure_def,
    Option.ite_none_right_eq_some, Option.some.injEq, Prod.mk.injEq, Prod.exists] at read ⊢
  rcases read with ⟨length, printed, found, decimal, rfl, rfl⟩
  have within := stops.length_le found
  refine ⟨length, printed, stops.append black found ends, ?_, rfl, ?_⟩
  · rw [List.take_append_of_le_length within]
    exact decimal
  · exact List.drop_append_of_le_length within

/-- A value is read whatever follows it. -/
theorem parseValue_append (stops : StopsAtDelimiters strtod) {levels others : ℕ}
    {value : JsonValue} (read : parseValue strtod levels text = some (value, rest))
    (shallow : depth value ≤ others) (more : ByteString)
    (ends : (∃ printed, value = .number printed) → more = [] ∨ Ends (rest ++ more)) :
    text ≠ [] ∧ parseValue strtod others (text ++ more) = some (value, rest ++ more) := by
  induction levels generalizing text value rest others with
  | zero => cases read
  | succ levels ih =>
      rcases others with _ | others
      · exact absurd (depth_pos value) (by omega)
      rcases exists_skip_of_parseValue read with ⟨_, byte, tail, -, skipped⟩
      have continues : Continues (parseValue strtod levels) (parseValue strtod others) others more :=
        fun text value rest here shallow ends => ih here shallow ends
      refine ⟨fun empty => by simp [empty, skipWhitespaces] at skipped, ?_⟩
      rw [parseValue_of_skip skipped] at read
      rw [parseValue_of_skip (skipWhitespaces_append skipped more)]
      split_ifs at read with object array quote letter numeric null
      · rw [if_pos object]
        exact parseObjectValue_append continues read shallow
      · rw [if_neg object, if_pos array]
        exact parseArrayValue_append continues read shallow
      · rw [if_neg object, if_neg array, if_pos quote]
        simp only [parseStringValue, Option.bind_eq_bind, Option.bind_eq_some_iff, Option.pure_def,
          Option.some.injEq, Prod.mk.injEq, Prod.exists] at read ⊢
        rcases read with ⟨content, left, quoted, rfl, rfl⟩
        exact ⟨content, left ++ more, getQuotedString_append quoted more, rfl, rfl⟩
      · rw [if_neg object, if_neg array, if_neg quote, if_pos letter]
        rw [parseBooleanValue_eq_some] at read ⊢
        rcases read with ⟨text, rfl⟩ | ⟨text, rfl⟩
        · exact .inl ⟨by rw [← List.cons_append, text, List.append_assoc], rfl⟩
        · exact .inr ⟨by rw [← List.cons_append, text, List.append_assoc], rfl⟩
      · rw [if_neg object, if_neg array, if_neg quote, if_neg letter, if_pos numeric]
        have black : ∀ byte : UInt8, (byte = 45 ∨ isDigit byte = true) → isSpace byte = false := by
          decide +kernel
        have number : ∃ printed, value = .number printed := by
          simp only [parseNumberValue, Option.bind_eq_bind, Option.bind_eq_some_iff,
            Option.pure_def, Option.ite_none_right_eq_some, Option.some.injEq, Prod.mk.injEq,
            Prod.exists] at read
          rcases read with ⟨length, printed, -, -, rfl, -⟩
          exact ⟨printed, rfl⟩
        exact parseNumberValue_append stops (black byte numeric) read (ends number)
      · rw [if_neg object, if_neg array, if_neg quote, if_neg letter, if_neg numeric, if_pos null]
        rw [parseNullValue_eq_some] at read ⊢
        exact ⟨by rw [← List.cons_append, read.1, List.append_assoc], read.2⟩

theorem parseValue_of_depth_le (stops : StopsAtDelimiters strtod) {levels others : ℕ}
    {value : JsonValue} (read : parseValue strtod levels text = some (value, rest))
    (shallow : depth value ≤ others) : parseValue strtod others text = some (value, rest) := by
  have longer := (parseValue_append stops read shallow [] fun _ => .inl rfl).2
  rwa [List.append_nil, List.append_nil] at longer

theorem parseValue_unique (stops : StopsAtDelimiters strtod) {levels others : ℕ}
    {value second : JsonValue} {left : ByteString}
    (read : parseValue strtod levels text = some (value, rest))
    (again : parseValue strtod others text = some (second, left)) :
    value = second ∧ rest = left := by
  have shallow := depth_le_of_parseValue read
  have secondShallow := depth_le_of_parseValue again
  have here := parseValue_of_depth_le stops read (shallow.trans (le_max_left levels others))
  have there :=
    parseValue_of_depth_le stops again (secondShallow.trans (le_max_right levels others))
  rw [here, Option.some.injEq, Prod.mk.injEq] at there
  exact there

/-- The text is one JSON value, at any depth, and nothing else. -/
def Denotes (strtod : Strtod) (text : ByteString) (value : JsonValue) : Prop :=
  ∃ levels rest, parseValue strtod levels text = some (value, rest) ∧ Blank rest

theorem Denotes.unique (stops : StopsAtDelimiters strtod) {value second : JsonValue}
    (denotes : Denotes strtod text value) (again : Denotes strtod text second) :
    value = second := by
  rcases denotes with ⟨levels, rest, read, -⟩
  rcases again with ⟨others, left, secondRead, -⟩
  exact (parseValue_unique stops read secondRead).1

theorem Denotes.serialize {value : JsonValue} (denotes : Denotes strtod text value)
    (numbers : NumbersReadBack strtod value) :
    Denotes strtod value.serializeToString value := by
  rcases denotes with ⟨levels, rest, read, -⟩
  have legible := legible_of_parseValue read numbers
  have again := legible.parseValue_serialize false 0 [] fun _ => by simp [Ends]
  rw [List.append_nil] at again
  exact ⟨levels, [], again, by simp [Blank]⟩

end Continuation

end OsConfig.JsonValue
