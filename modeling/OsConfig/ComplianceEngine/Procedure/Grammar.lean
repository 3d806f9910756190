import OsConfig.Library.Quoting
import OsConfig.ComplianceEngine.Procedure.UserParameters

/-!
# The grammar of `key=value` pairs

A text of pairs is a sequence of items with spaces between them. An item is a
key and a bare or quoted value. The parser reads every text of the grammar, and
it reads one kind of text besides: it infers the end of a quoted value from the
character in front of the position that it has reached, and an escaped quote at
the end of the input looks like a closing one.
-/

namespace OsConfig.ComplianceEngine.ProcedureParameters

open ByteString

def KeyByte (byte : UInt8) : Prop :=
  isAlnum byte ∨ byte = 95

/-- A letter or an underscore, then letters, digits and underscores. -/
def IsKey : ByteString → Prop
  | [] => False
  | first :: rest => StartsKey first ∧ ∀ byte ∈ rest, KeyByte byte

def IsBlank (text : ByteString) : Prop :=
  ∀ byte ∈ text, isSpace byte

/-- The double and the single quote. -/
def IsQuote (byte : UInt8) : Prop :=
  byte = 34 ∨ byte = 39

instance (byte : UInt8) : Decidable (IsQuote byte) :=
  inferInstanceAs (Decidable (_ ∨ _))

/-- The body of a quoted value, with backslashes for escapes. -/
abbrev QuotedBody (quote : UInt8) : ByteString → ByteString → Prop :=
  Quoting.Body 92 quote

/-- The text of a value and the value. -/
inductive ValueText : ByteString → ByteString → Prop
  | bare {first : UInt8} {rest : ByteString} (unquoted : ¬ IsQuote first)
      (spaceFree : ∀ byte ∈ first :: rest, ¬ isSpace byte) : ValueText (first :: rest) (first :: rest)
  | quoted {quote : UInt8} {raw value : ByteString} (isQuote : IsQuote quote)
      (body : QuotedBody quote raw value) : ValueText (quote :: raw ++ [quote]) value

/-- What may follow an item: nothing, or a text that starts with a space. -/
def Separated (rest : ByteString) : Prop :=
  ∀ byte ∈ rest.head?, isSpace byte

/-- The texts of the grammar and their pairs. -/
inductive Pairs : ByteString → List (ByteString × ByteString) → Prop
  | blank {space : ByteString} (blank : IsBlank space) : Pairs space []
  | item {space key raw value rest : ByteString} {pairs : List (ByteString × ByteString)}
      (blank : IsBlank space) (isKey : IsKey key) (valueText : ValueText raw value)
      (separated : Separated rest) (following : Pairs rest pairs) :
      Pairs (space ++ (key ++ 61 :: (raw ++ rest))) ((key, value) :: pairs)

/-- Items, and at the end of the input a quoted value that ends in an escaped quote and is
never closed. -/
inductive EndsInEscapedQuote : ByteString → Prop
  | last {space key raw value : ByteString} {quote : UInt8} (blank : IsBlank space)
      (isKey : IsKey key) (isQuote : IsQuote quote) (body : QuotedBody quote raw value) :
      EndsInEscapedQuote (space ++ (key ++ 61 :: quote :: (raw ++ [92, quote])))
  | item {space key raw value rest : ByteString} (blank : IsBlank space) (isKey : IsKey key)
      (valueText : ValueText raw value) (separated : Separated rest)
      (following : EndsInEscapedQuote rest) :
      EndsInEscapedQuote (space ++ (key ++ 61 :: (raw ++ rest)))

theorem isBlank_nil : IsBlank [] := by
  simp [IsBlank]

theorem separated_nil : Separated [] := by
  simp [Separated]

/-- The map of a list of pairs. The first value of a key counts. -/
def collect (result : ParameterMap) (pairs : List (ByteString × ByteString)) : ParameterMap :=
  pairs.foldl (fun result pair => result.insertIfNew pair.1 pair.2) result

section Keys

theorem KeyByte.not_space {byte : UInt8} (keyByte : KeyByte byte) : ¬ isSpace byte := by
  have all : ∀ byte : UInt8, KeyByte byte → ¬ isSpace byte := by
    simp only [KeyByte]
    decide +kernel
  exact all byte keyByte

theorem KeyByte.ne_assignment {byte : UInt8} (keyByte : KeyByte byte) : byte ≠ 61 := by
  rintro rfl
  exact absurd keyByte (by simp only [KeyByte]; decide)

theorem StartsKey.keyByte {byte : UInt8} (starts : StartsKey byte) : KeyByte byte :=
  starts.1

theorem parseKey_append {key : ByteString} (keyBytes : ∀ byte ∈ key, KeyByte byte)
    {first : Bool} (starts : first → ∀ byte ∈ key.head?, ¬ isDigit byte) (rest : ByteString) :
    parseKey first (key ++ 61 :: rest) = .ok (key, 61 :: rest) := by
  induction key generalizing first with
  | nil => simp [parseKey]
  | cons byte key ih =>
      have keyByte := keyBytes byte List.mem_cons_self
      have noDigit : ¬ (first && isDigit byte) := by
        intro digit
        rw [Bool.and_eq_true] at digit
        exact starts digit.1 byte (by simp) digit.2
      have others : parseKey false (key ++ 61 :: rest) = .ok (key, 61 :: rest) :=
        ih (fun other mem => keyBytes other (by simp [mem])) (by simp)
      rw [List.cons_append, parseKey, if_neg, if_neg, if_neg noDigit, others]
      · rfl
      · rcases keyByte with alnum | underscore
        · simp [alnum]
        · simp [underscore]
      · simp [keyByte.not_space, keyByte.ne_assignment]

theorem IsKey.parseKey {key : ByteString} (isKey : IsKey key) (rest : ByteString) :
    parseKey true (key ++ 61 :: rest) = .ok (key, 61 :: rest) := by
  cases key with
  | nil => exact absurd isKey id
  | cons first key =>
      refine parseKey_append ?_ (by simpa using isKey.1.2) rest
      intro byte mem
      rcases List.mem_cons.mp mem with rfl | later
      · exact isKey.1.keyByte
      · exact isKey.2 byte later

theorem parseKey_ok {first : Bool} {input key rest : ByteString}
    (parsed : ProcedureParameters.parseKey first input = .ok (key, rest)) :
    input = key ++ rest ∧ (∀ byte ∈ key, KeyByte byte) ∧
      (first → ∀ byte ∈ key.head?, ¬ isDigit byte) := by
  induction input generalizing first key with
  | nil =>
      simp only [ProcedureParameters.parseKey, Except.ok.injEq, Prod.mk.injEq] at parsed
      simp [← parsed.1, ← parsed.2]
  | cons byte input ih =>
      rw [ProcedureParameters.parseKey] at parsed
      split at parsed
      · simp only [Except.ok.injEq, Prod.mk.injEq] at parsed
        simp [← parsed.1, ← parsed.2]
      · split at parsed
        · cases parsed
        next allowed =>
          split at parsed
          · cases parsed
          next noDigit =>
            cases others : ProcedureParameters.parseKey false input with
            | error failure => simp [others, bind, Except.bind] at parsed
            | ok found =>
                rcases found with ⟨others_key, others_rest⟩
                simp only [others, bind, Except.bind, pure, Except.pure, Except.ok.injEq,
                  Prod.mk.injEq] at parsed
                rcases parsed with ⟨rfl, rfl⟩
                rcases ih others with ⟨input_eq, keyBytes, -⟩
                have keyByte : KeyByte byte := by
                  simp only [Bool.and_eq_true, Bool.not_eq_true', decide_eq_true_eq, not_and,
                    ne_eq, not_not] at allowed
                  by_cases alnum : isAlnum byte
                  · exact .inl alnum
                  · exact .inr (allowed (by simpa using alnum))
                refine ⟨by rw [input_eq, List.cons_append], ?_, ?_⟩
                · intro other mem
                  rcases List.mem_cons.mp mem with rfl | later
                  · exact keyByte
                  · exact keyBytes other later
                · rintro isFirst other mem
                  simp only [List.head?_cons, Option.mem_def, Option.some.injEq] at mem
                  subst mem
                  simpa [isFirst] using noDigit

/-- The key of a pair starts with a letter or an underscore. -/
theorem isKey_of_parseKey {input key rest : ByteString}
    (parsed : ProcedureParameters.parseKey true input = .ok (key, rest)) (nonempty : key ≠ []) :
    IsKey key := by
  rcases parseKey_ok parsed with ⟨-, keyBytes, starts⟩
  cases key with
  | nil => exact absurd rfl nonempty
  | cons first key =>
      refine ⟨⟨keyBytes first (by simp), starts rfl first (by simp)⟩, ?_⟩
      intro byte mem
      exact keyBytes byte (by simp [mem])

end Keys

section Values

theorem IsQuote.ne_escape {quote : UInt8} (isQuote : IsQuote quote) : quote ≠ 92 := by
  rcases isQuote with rfl | rfl <;> decide

theorem IsQuote.not_space {quote : UInt8} (isQuote : IsQuote quote) : ¬ isSpace quote := by
  rcases isQuote with rfl | rfl <;> decide

variable {quote : UInt8}

theorem parseQuotedValue_letter {letter : UInt8} (unescaped : letter ≠ 92)
    (unquoted : letter ≠ quote) (previous : UInt8) (read text : ByteString) :
    parseQuotedValue quote previous read (letter :: text) =
      parseQuotedValue quote letter (read ++ [letter]) text := by
  cases text <;> simp [parseQuotedValue, unescaped, unquoted]

theorem parseQuotedValue_escaped {letter : UInt8} (special : letter = 92 ∨ letter = quote)
    (previous : UInt8) (read text : ByteString) :
    parseQuotedValue quote previous read (92 :: letter :: text) =
      parseQuotedValue quote letter (read ++ [letter]) text := by
  rcases special with rfl | rfl
  · simp [parseQuotedValue]
  · by_cases escape : letter = 92 <;> simp [parseQuotedValue, escape]

theorem parseQuotedValue_close (distinct : quote ≠ 92) (previous : UInt8)
    (read text : ByteString) :
    parseQuotedValue quote previous read (quote :: text) =
      { value := read, remaining := text, previous := quote } := by
  cases text <;> simp [parseQuotedValue, distinct]

theorem parseQuotedValue_body {raw value : ByteString} (body : QuotedBody quote raw value)
    (previous : UInt8) (read rest : ByteString) :
    ∃ previous', parseQuotedValue quote previous read (raw ++ rest) =
      parseQuotedValue quote previous' (read ++ value) rest := by
  induction body generalizing previous read with
  | nil => exact ⟨previous, by simp⟩
  | @letter letter raw value unescaped unquoted _ ih =>
      rcases ih letter (read ++ [letter]) with ⟨previous', same⟩
      refine ⟨previous', ?_⟩
      rw [List.cons_append, parseQuotedValue_letter unescaped unquoted, same]
      simp
  | @escaped letter raw value special _ ih =>
      rcases ih letter (read ++ [letter]) with ⟨previous', same⟩
      refine ⟨previous', ?_⟩
      rw [List.cons_append, List.cons_append, parseQuotedValue_escaped special, same]
      simp

/-- How the parser may have come to a position behind a quote: the value is closed, nothing has
been read, or the input ends in an escaped quote. -/
inductive BehindQuote (quote previous : UInt8) (read : ByteString) : ByteString → QuotedValue → Prop
  | closed {raw value rest : ByteString} (body : QuotedBody quote raw value) :
      BehindQuote quote previous read (raw ++ quote :: rest)
        { value := read ++ value, remaining := rest, previous := quote }
  | unread (opened : previous = quote) :
      BehindQuote quote previous read [] { value := read, remaining := [], previous }
  | escaped {raw value : ByteString} (body : QuotedBody quote raw value) :
      BehindQuote quote previous read (raw ++ [92, quote])
        { value := read ++ value ++ [quote], remaining := [], previous := quote }

theorem BehindQuote.letter {letter previous : UInt8} {read text : ByteString}
    {result : QuotedValue} (unescaped : letter ≠ 92) (unquoted : letter ≠ quote)
    (behind : BehindQuote quote letter (read ++ [letter]) text result) :
    BehindQuote quote previous read (letter :: text) result := by
  cases behind with
  | @closed raw value rest body =>
      have longer : BehindQuote quote previous read ((letter :: raw) ++ quote :: rest) _ :=
        .closed (body.letter unescaped unquoted)
      simpa using longer
  | unread opened => exact absurd opened unquoted
  | @escaped raw value body =>
      have longer : BehindQuote quote previous read _ _ := .escaped (body.letter unescaped unquoted)
      simpa using longer

theorem BehindQuote.special {letter previous : UInt8} {read text : ByteString}
    {result : QuotedValue} (special : letter = 92 ∨ letter = quote)
    (behind : BehindQuote quote letter (read ++ [letter]) text result) :
    BehindQuote quote previous read (92 :: letter :: text) result := by
  cases behind with
  | @closed raw value rest body =>
      have longer : BehindQuote quote previous read ((92 :: letter :: raw) ++ quote :: rest) _ :=
        .closed (body.escaped special)
      simpa using longer
  | unread opened =>
      subst opened
      have first : BehindQuote letter previous read _ _ := .escaped .nil
      simpa using first
  | @escaped raw value body =>
      have longer : BehindQuote quote previous read _ _ := .escaped (body.escaped special)
      simpa using longer

theorem behindQuote_of_previous (distinct : quote ≠ 92) {previous : UInt8}
    {read input : ByteString}
    (ends : (parseQuotedValue quote previous read input).previous = quote) :
    BehindQuote quote previous read input (parseQuotedValue quote previous read input) := by
  -- an escape takes two characters, so the induction is on the length of the input
  induction length_eq : input.length using Nat.strong_induction_on
    generalizing previous read input with
  | _ length ih =>
      subst length_eq
      cases input with
      | nil =>
          simp only [parseQuotedValue] at ends ⊢
          exact .unread ends
      | cons letter text =>
          by_cases escape : letter = 92
          · subst escape
            cases text with
            | nil =>
                simp only [parseQuotedValue, if_pos] at ends
                exact absurd ends.symm distinct
            | cons next rest =>
                by_cases special : next = 92 ∨ next = quote
                · rw [parseQuotedValue_escaped special] at ends ⊢
                  exact .special special (ih rest.length (by simp) ends rfl)
                · rw [not_or] at special
                  simp only [parseQuotedValue, if_pos, if_neg special.1, if_neg special.2] at ends
                  exact absurd ends.symm distinct
          · by_cases closes : letter = quote
            · subst closes
              rw [parseQuotedValue_close distinct]
              have closed : BehindQuote letter previous read ([] ++ letter :: text) _ :=
                .closed .nil
              simpa using closed
            · rw [parseQuotedValue_letter escape closes] at ends ⊢
              exact .letter escape closes (ih text.length (by simp) ends rfl)

theorem separated_iff {rest : ByteString} :
    Separated rest ↔ ¬ rest.head?.any (!isSpace ·) := by
  cases rest <;> simp [Separated]

theorem parseValue_append {raw value rest : ByteString} (valueText : ValueText raw value)
    (separated : Separated rest) : parseValue (raw ++ rest) = .ok (value, rest) := by
  cases valueText with
  | @bare first others unquoted spaceFree =>
      have noQuote : ¬ (first = 34 || first = 39) := by simpa [IsQuote] using unquoted
      have letters : ∀ byte ∈ first :: others, (!isSpace byte) = true := by
        intro byte mem
        simpa using spaceFree byte mem
      have ends : rest.takeWhile (!isSpace ·) = [] ∧ rest.dropWhile (!isSpace ·) = rest := by
        cases rest with
        | nil => simp
        | cons byte rest =>
            have space : isSpace byte = true := separated byte (by simp)
            simp [space]
      rw [List.cons_append, parseValue, if_neg (spaceFree first List.mem_cons_self), if_neg noQuote,
        ← List.cons_append, List.takeWhile_append_of_pos letters,
        List.dropWhile_append_of_pos letters, ends.1, ends.2, List.append_nil]
  | @quoted quote raw value isQuote body =>
      rcases parseQuotedValue_body body quote [] (quote :: rest) with ⟨previous, same⟩
      rw [parseQuotedValue_close isQuote.ne_escape, List.nil_append] at same
      have isQuote' : (quote = 34 || quote = 39) = true := by simpa [IsQuote] using isQuote
      have shape : quote :: raw ++ [quote] ++ rest = quote :: (raw ++ quote :: rest) := by simp
      rw [shape, parseValue, if_neg isQuote.not_space, if_pos isQuote']
      simp only [same]
      rw [if_neg (by simp), if_neg (by simp), if_neg (separated_iff.mp separated)]

theorem parseValue_escaped {quote : UInt8} {raw value : ByteString} (isQuote : IsQuote quote)
    (body : QuotedBody quote raw value) :
    parseValue (quote :: (raw ++ [92, quote])) = .ok (value ++ [quote], []) := by
  rcases parseQuotedValue_body body quote [] [92, quote] with ⟨previous, same⟩
  rw [parseQuotedValue_escaped (.inr rfl), parseQuotedValue, List.nil_append] at same
  have isQuote' : (quote = 34 || quote = 39) = true := by simpa [IsQuote] using isQuote
  rw [parseValue, if_neg isQuote.not_space, if_pos isQuote']
  simp only [same]
  rw [if_neg (by simp), if_neg (by simp), if_neg (by simp)]

theorem parseValue_ok {input value rest : ByteString}
    (parsed : parseValue input = .ok (value, rest)) :
    (∃ raw, ValueText raw value ∧ input = raw ++ rest ∧ Separated rest) ∨
      ∃ quote raw value', IsQuote quote ∧ QuotedBody quote raw value' ∧
        input = quote :: (raw ++ [92, quote]) ∧ value = value' ++ [quote] ∧ rest = [] := by
  cases input with
  | nil => cases parsed
  | cons byte input =>
      rw [parseValue] at parsed
      split at parsed
      · cases parsed
      next noSpace =>
        split at parsed
        next isQuote =>
          have isQuote' : IsQuote byte := by simpa [IsQuote] using isQuote
          dsimp only at parsed
          split at parsed
          · cases parsed
          next ends =>
            split at parsed
            · cases parsed
            next nonempty =>
              split at parsed
              · cases parsed
              next separated =>
                simp only [Except.ok.injEq, Prod.mk.injEq] at parsed
                rcases parsed with ⟨rfl, rfl⟩
                have behind := behindQuote_of_previous isQuote'.ne_escape (not_not.mp ends)
                generalize parseQuotedValue byte byte [] input = result at behind separated ⊢
                cases behind with
                | @closed raw value rest body =>
                    left
                    refine ⟨byte :: raw ++ [byte], .quoted isQuote' body, by simp, ?_⟩
                    exact separated_iff.mpr separated
                | unread _ => exact absurd rfl nonempty
                | @escaped raw value body =>
                    right
                    exact ⟨byte, raw, value, isQuote', body, rfl, rfl, rfl⟩
        next unquoted =>
          simp only [Except.ok.injEq, Prod.mk.injEq] at parsed
          rcases parsed with ⟨rfl, rfl⟩
          left
          refine ⟨(byte :: input).takeWhile (!isSpace ·), ?_, ?_, ?_⟩
          · have starts : (byte :: input).takeWhile (!isSpace ·) =
                byte :: input.takeWhile (!isSpace ·) := by
              simp [noSpace]
            rw [starts]
            refine .bare (by simpa [IsQuote] using unquoted) ?_
            intro other mem
            rw [← starts] at mem
            simpa using List.mem_takeWhile_imp mem
          · rw [List.takeWhile_append_dropWhile]
          · intro other mem
            have stops := List.head?_dropWhile_not (!isSpace ·) (byte :: input)
            rw [Option.mem_def.mp mem] at stops
            simpa using stops

end Values

section Items

theorem parsePair_append {key : ByteString} (isKey : IsKey key) (text : ByteString) :
    parsePair (key ++ 61 :: text) =
      (parseValue text).map fun found => ((key, found.1), found.2) := by
  have nonempty : key ≠ [] := by
    rintro rfl
    exact isKey
  rw [parsePair, isKey.parseKey]
  simp only [bind, Except.bind, if_neg nonempty]
  cases parseValue text <;> rfl

theorem parsePair_ok {input key value rest : ByteString}
    (parsed : parsePair input = .ok ((key, value), rest)) :
    ∃ text, IsKey key ∧ input = key ++ 61 :: text ∧ parseValue text = .ok (value, rest) := by
  rw [parsePair] at parsed
  cases keyed : parseKey true input with
  | error failure => simp [keyed, bind, Except.bind] at parsed
  | ok found =>
      rcases found with ⟨key', afterKey⟩
      simp only [keyed, bind, Except.bind] at parsed
      split at parsed
      · cases parsed
      next nonempty =>
        split at parsed
        next text =>
          cases valued : parseValue text with
          | error failure => simp [valued] at parsed
          | ok found =>
              simp only [valued, pure, Except.pure, Except.ok.injEq, Prod.mk.injEq] at parsed
              rcases parsed with ⟨⟨rfl, rfl⟩, rfl⟩
              exact ⟨text, isKey_of_parseKey keyed nonempty, (parseKey_ok keyed).1, valued⟩
        · cases parsed

theorem skipSpaces_append {space : ByteString} (blank : IsBlank space) (text : ByteString) :
    skipSpaces (space ++ text) = skipSpaces text :=
  List.dropWhile_append_of_pos blank

theorem skipSpaces_key {key : ByteString} (isKey : IsKey key) (text : ByteString) :
    skipSpaces (key ++ text) = key ++ text := by
  cases key with
  | nil => exact absurd isKey id
  | cons first key => simp [skipSpaces, isKey.1.keyByte.not_space]

theorem Pairs.parsePair {key raw value rest : ByteString} (isKey : IsKey key)
    (valueText : ValueText raw value) (separated : Separated rest) :
    ProcedureParameters.parsePair (key ++ 61 :: (raw ++ rest)) = .ok ((key, value), rest) := by
  rw [parsePair_append isKey, parseValue_append valueText separated]
  rfl

theorem EndsInEscapedQuote.parsePair {key raw value : ByteString} {quote : UInt8}
    (isKey : IsKey key) (isQuote : IsQuote quote) (body : QuotedBody quote raw value) :
    ProcedureParameters.parsePair (key ++ 61 :: quote :: (raw ++ [92, quote])) =
      .ok ((key, value ++ [quote]), []) := by
  rw [parsePair_append isKey, parseValue_escaped isQuote body]
  rfl

theorem parsePairs_item {space key text value rest : ByteString} (blank : IsBlank space)
    (isKey : IsKey key) (parsed : parsePair (key ++ 61 :: text) = .ok ((key, value), rest))
    {fuel : ℕ} (result : ParameterMap) :
    parsePairs (fuel + 1) (space ++ (key ++ 61 :: text)) result =
      parsePairs fuel rest (result.insertIfNew key value) := by
  have starts : ∃ first others, key ++ 61 :: text = first :: others := by
    cases key with
    | nil => exact absurd isKey id
    | cons first key => exact ⟨first, key ++ 61 :: text, rfl⟩
  rcases starts with ⟨first, others, starts⟩
  rw [parsePairs, skipSpaces_append blank, skipSpaces_key isKey]
  simp only [starts] at parsed ⊢
  rw [parsed]

theorem skipSpaces_blank {space : ByteString} (blank : IsBlank space) : skipSpaces space = [] := by
  have skipped := skipSpaces_append blank []
  rwa [List.append_nil] at skipped

theorem parsePairs_blank {space : ByteString} (blank : IsBlank space) (fuel : ℕ)
    (result : ParameterMap) : parsePairs fuel space result = .ok result := by
  cases fuel with
  | zero => rfl
  | succ fuel => rw [parsePairs, skipSpaces_blank blank]

theorem Pairs.parsePairs {text : ByteString} {pairs : List (ByteString × ByteString)}
    (grammatical : Pairs text pairs) {fuel : ℕ} (enough : text.length ≤ fuel)
    (result : ParameterMap) :
    ProcedureParameters.parsePairs fuel text result = .ok (collect result pairs) := by
  induction grammatical generalizing fuel result with
  | blank blank => exact parsePairs_blank blank fuel result
  | item blank isKey valueText separated _ ih =>
      cases fuel with
      | zero => simp at enough
      | succ fuel =>
          rw [parsePairs_item blank isKey (Pairs.parsePair isKey valueText separated)]
          apply ih
          simp only [List.length_append, List.length_cons] at enough
          omega

theorem EndsInEscapedQuote.parsePairs {text : ByteString} (ends : EndsInEscapedQuote text)
    {fuel : ℕ} (enough : text.length ≤ fuel) (result : ParameterMap) :
    ∃ final, ProcedureParameters.parsePairs fuel text result = .ok final := by
  induction ends generalizing fuel result with
  | @last space key raw value quote blank isKey isQuote body =>
      cases fuel with
      | zero => simp at enough
      | succ fuel =>
          rw [parsePairs_item blank isKey (EndsInEscapedQuote.parsePair isKey isQuote body)]
          exact ⟨_, parsePairs_blank isBlank_nil fuel _⟩
  | item blank isKey valueText separated _ ih =>
      cases fuel with
      | zero => simp at enough
      | succ fuel =>
          rw [parsePairs_item blank isKey (Pairs.parsePair isKey valueText separated)]
          apply ih
          simp only [List.length_append, List.length_cons] at enough
          omega

/-- The parser reads nothing else. -/
theorem parsePairs_ok {fuel : ℕ} {text : ByteString} (enough : text.length ≤ fuel)
    {result final : ParameterMap} (parsed : parsePairs fuel text result = .ok final) :
    (∃ pairs, Pairs text pairs) ∨ EndsInEscapedQuote text := by
  induction fuel generalizing text result with
  | zero =>
      have empty : text = [] := List.length_eq_zero_iff.mp (by omega)
      subst empty
      exact .inl ⟨[], .blank isBlank_nil⟩
  | succ fuel ih =>
      have parts : text.takeWhile isSpace ++ skipSpaces text = text :=
        List.takeWhile_append_dropWhile
      have blank : IsBlank (text.takeWhile isSpace) := by
        intro byte mem
        exact List.mem_takeWhile_imp mem
      have shorter : (skipSpaces text).length ≤ text.length :=
        List.length_dropWhile_le isSpace text
      rw [parsePairs] at parsed
      generalize text.takeWhile isSpace = space at parts blank
      generalize skipSpaces text = input at parsed parts shorter
      subst parts
      split at parsed
      · rw [List.append_nil]
        exact .inl ⟨[], .blank blank⟩
      next byte input =>
        split at parsed
        · cases parsed
        next key value rest paired =>
          rcases parsePair_ok paired with ⟨text, isKey, input_eq, valued⟩
          rw [input_eq] at enough shorter ⊢
          rcases parseValue_ok valued with
            ⟨raw, valueText, rfl, separated⟩ | ⟨quote, raw, value', isQuote, body, rfl, rfl, rfl⟩
          · have fits : rest.length ≤ fuel := by
              simp only [List.length_append, List.length_cons] at enough
              omega
            rcases ih fits parsed with ⟨pairs, following⟩ | ends
            · exact .inl ⟨_, .item blank isKey valueText separated following⟩
            · exact .inr (.item blank isKey valueText separated ends)
          · exact .inr (.last blank isKey isQuote body)

end Items

section Grammar

theorem item_unique {space space' key key' text text' value value' rest rest' : ByteString}
    (blank : IsBlank space) (blank' : IsBlank space') (isKey : IsKey key) (isKey' : IsKey key')
    (same : space ++ (key ++ 61 :: text) = space' ++ (key' ++ 61 :: text'))
    (parsed : parsePair (key ++ 61 :: text) = .ok ((key, value), rest))
    (parsed' : parsePair (key' ++ 61 :: text') = .ok ((key', value'), rest')) :
    text = text' ∧ rest = rest' := by
  have items : key ++ 61 :: text = key' ++ 61 :: text' := by
    have skipped := congrArg skipSpaces same
    rwa [skipSpaces_append blank, skipSpaces_append blank', skipSpaces_key isKey,
      skipSpaces_key isKey'] at skipped
  rw [items, parsed', Except.ok.injEq, Prod.mk.injEq, Prod.mk.injEq] at parsed
  rcases parsed with ⟨⟨rfl, -⟩, rfl⟩
  rw [List.append_cancel_left_eq, List.cons.injEq] at items
  exact ⟨items.2, rfl⟩

theorem EndsInEscapedQuote.not_pairs {text : ByteString} (ends : EndsInEscapedQuote text)
    (pairs : List (ByteString × ByteString)) : ¬ Pairs text pairs := by
  intro grammatical
  induction ends generalizing pairs with
  | @last space key raw value quote blank isKey isQuote body =>
      generalize text_eq : space ++ (key ++ 61 :: quote :: (raw ++ [92, quote])) = text
        at grammatical
      cases grammatical with
      | blank blank' =>
          have skipped := congrArg skipSpaces text_eq
          rw [skipSpaces_blank blank', skipSpaces_append blank, skipSpaces_key isKey] at skipped
          simp at skipped
      | @item space' key' raw' value' rest' pairs' blank' isKey' valueText' separated' _ =>
          rcases item_unique blank blank' isKey isKey' text_eq
            (EndsInEscapedQuote.parsePair isKey isQuote body)
            (Pairs.parsePair isKey' valueText' separated') with ⟨values, rfl⟩
          rw [List.append_nil] at values
          cases valueText' with
          | bare unquoted _ =>
              injection values with heads _
              subst heads
              exact unquoted isQuote
          | @quoted quote' raw' value' _ body' =>
              injection values with heads tails
              subst heads
              have whole : QuotedBody quote (raw ++ [92, quote]) (value ++ [quote]) :=
                body.append (.escaped (.inr rfl) .nil)
              exact body'.not_closed isQuote.ne_escape whole tails
  | @item space key raw value rest blank isKey valueText separated _ ih =>
      generalize text_eq : space ++ (key ++ 61 :: (raw ++ rest)) = text at grammatical
      cases grammatical with
      | blank blank' =>
          have skipped := congrArg skipSpaces text_eq
          rw [skipSpaces_blank blank', skipSpaces_append blank, skipSpaces_key isKey] at skipped
          simp at skipped
      | @item space' key' raw' value' rest' pairs' blank' isKey' valueText' separated' following =>
          rcases item_unique blank blank' isKey isKey' text_eq
            (Pairs.parsePair isKey valueText separated)
            (Pairs.parsePair isKey' valueText' separated') with ⟨-, rfl⟩
          exact ih pairs' following

theorem parseString_of_pairs {text : ByteString} {pairs : List (ByteString × ByteString)}
    (grammatical : Pairs text pairs) : parseString text = .ok (collect ∅ pairs) :=
  grammatical.parsePairs le_rfl ∅

/-- The parser accepts exactly the grammar on a text if and only if the text does not end in an
escaped quote. -/
theorem parseString_iff_pairs (text : ByteString) :
    (∀ result, parseString text = .ok result ↔ ∃ pairs, Pairs text pairs ∧ collect ∅ pairs = result) ↔
      ¬ EndsInEscapedQuote text := by
  constructor
  · intro exactly ends
    rcases ends.parsePairs le_rfl ∅ with ⟨final, parsed⟩
    rcases (exactly final).mp parsed with ⟨pairs, grammatical, -⟩
    exact ends.not_pairs pairs grammatical
  · intro closed result
    constructor
    · intro parsed
      rcases parsePairs_ok le_rfl parsed with ⟨pairs, grammatical⟩ | ends
      · refine ⟨pairs, grammatical, ?_⟩
        rw [parseString_of_pairs grammatical, Except.ok.injEq] at parsed
        exact parsed
      · exact absurd ends closed
    · rintro ⟨pairs, grammatical, rfl⟩
      exact parseString_of_pairs grammatical

/-- The text `k="a\"` is read, and it is not in the grammar. -/
theorem parseString_escaped_end :
    ¬ ((∃ result, parseString (bytes "k=\"a\\\"") = .ok result) ↔
      ∃ pairs, Pairs (bytes "k=\"a\\\"") pairs) := by
  have ends : EndsInEscapedQuote (bytes "k=\"a\\\"") := by
    have body : QuotedBody 34 [97] [97] := .letter (by decide) (by decide) .nil
    have isKey : IsKey [107] := ⟨⟨by decide, by decide⟩, by simp⟩
    exact .last isBlank_nil isKey (.inl rfl) body
  intro accepts
  rcases accepts.mp (ends.parsePairs le_rfl ∅) with ⟨pairs, grammatical⟩
  exact ends.not_pairs pairs grammatical

end Grammar

end OsConfig.ComplianceEngine.ProcedureParameters
