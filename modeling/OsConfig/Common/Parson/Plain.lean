import OsConfig.Common.Parson.Locality

/-!
# Texts between quotes

A text that is put between quotes without being escaped is read back if all of its
characters stand for themselves. Reading never makes a text longer, so no other
text is read back from where it was put.
-/

namespace OsConfig.JsonValue

open ByteString

/-- All characters stand for themselves in a JSON string. -/
def IsPlain (text : ByteString) : Prop :=
  ∀ byte ∈ text, byte ≠ 34 ∧ byte ≠ 92 ∧ ¬byte < 32

instance (text : ByteString) : Decidable (IsPlain text) :=
  inferInstanceAs (Decidable (∀ byte ∈ text, _))

section Plain

variable {text rest : ByteString}

theorem IsPlain.nul_notMem (plain : IsPlain text) : 0 ∉ text :=
  fun nul => (plain 0 nul).2.2 (by decide)

theorem skipQuotes_of_isPlain (plain : IsPlain text) (rest : ByteString) :
    skipQuotes (text ++ 34 :: rest) = some (text, rest) := by
  induction text with
  | nil => exact skipQuotes_quote rest
  | cons byte others ih =>
      have here := plain byte (by simp)
      have later := ih fun other mem => plain other (List.mem_cons_of_mem _ mem)
      rw [List.cons_append, skipQuotes_plain here.1 here.2.1, later]
      rfl

theorem processLoop_of_isPlain (plain : IsPlain text) {fuel : ℕ} (enough : text.length ≤ fuel) :
    processLoop fuel text = some text := by
  induction text generalizing fuel with
  | nil => simp [processLoop]
  | cons byte others ih =>
      rcases fuel with _ | fuel
      · simp at enough
      have here := plain byte (by simp)
      have later := ih (fun other mem => plain other (List.mem_cons_of_mem _ mem))
        (Nat.le_of_succ_le_succ enough)
      simp only [processLoop, if_neg here.2.1, if_neg here.2.2, later, Option.bind_eq_bind,
        Option.bind_some, Option.pure_def]

theorem getQuotedString_of_isPlain (plain : IsPlain text) (rest : ByteString) :
    getQuotedString (34 :: (text ++ 34 :: rest)) = some (text, rest) := by
  rw [getQuotedString_eq_some]
  exact ⟨_, text, rfl, skipQuotes_of_isPlain plain rest, processLoop_of_isPlain plain le_rfl⟩

end Plain

section Shrinking

theorem parseUtf16Hex_eq_some {text : ByteString} {point : ℕ}
    (read : parseUtf16Hex text = some point) :
    ∃ first second third fourth rest, text = first :: second :: third :: fourth :: rest ∧
      (hexCharToInt fourth).isSome := by
  simp only [parseUtf16Hex, Option.bind_eq_bind, Option.bind_eq_some_iff, Option.pure_def] at read
  rcases read with ⟨x1, -, x2, -, x3, -, x4, last, -⟩
  have long : 4 ≤ text.length := by
    by_contra short
    rw [List.getD_eq_default _ _ (by omega)] at last
    cases last
  match text, long with
  | first :: second :: third :: fourth :: rest, _ =>
      exact ⟨first, second, third, fourth, rest, rfl, by simp_all⟩

theorem continuation_ne_zero (number : ℕ) : continuation number ≠ 0 := by
  have set : ∀ byte : UInt8, 0x80 ||| byte ≠ 0 := by
    decide +kernel
  exact set _

/-- A character is shorter than its escape, and a NUL is by far. -/
theorem parseUtf16_shrinks {text character rest : ByteString}
    (read : parseUtf16 text = some (character, rest)) :
    ∃ taken last, text = taken ++ last :: rest ∧ (hexCharToInt last).isSome ∧
      character ≠ [] ∧ character.length ≤ taken.length ∧
      (0 ∈ character → character.length + 2 ≤ taken.length) := by
  have leads : ∀ byte : UInt8, 0 ≠ 0xC0 ||| byte ∧ 0 ≠ 0xE0 ||| byte ∧ 0 ≠ 0xF0 ||| byte := by
    decide +kernel
  have continues (number : ℕ) : 0 ≠ continuation number := (continuation_ne_zero number).symm
  simp only [parseUtf16, Option.bind_eq_bind, Option.bind_eq_some_iff, Option.pure_def] at read
  rcases read with ⟨cp, point, read⟩
  rcases parseUtf16Hex_eq_some point with ⟨first, second, third, fourth, left, rfl, digit⟩
  simp only [List.drop_succ_cons, List.drop_zero] at read
  split_ifs at read
  · simp only [Option.some.injEq, Prod.mk.injEq] at read
    rcases read with ⟨rfl, rfl⟩
    exact ⟨[first, second, third], fourth, rfl, digit, by simp, by simp, by simp⟩
  · simp only [Option.some.injEq, Prod.mk.injEq] at read
    rcases read with ⟨rfl, rfl⟩
    exact ⟨[first, second, third], fourth, rfl, digit, by simp, by simp,
      by simp [leads, continues]⟩
  · simp only [Option.some.injEq, Prod.mk.injEq] at read
    rcases read with ⟨rfl, rfl⟩
    exact ⟨[first, second, third], fourth, rfl, digit, by simp, by simp,
      by simp [leads, continues]⟩
  · split at read
    next trailing =>
      simp only [Option.bind_eq_some_iff] at read
      rcases read with ⟨trail, second, read⟩
      split_ifs at read
      rcases parseUtf16Hex_eq_some second with ⟨fifth, sixth, seventh, eighth, left, rfl, last⟩
      simp only [List.drop_succ_cons, List.drop_zero, Option.some.injEq, Prod.mk.injEq] at read
      rcases read with ⟨rfl, rfl⟩
      exact ⟨[first, _, third, fourth, 92, 117, fifth, sixth, seventh], eighth, rfl, last, by simp,
        by simp, by simp [leads, continues]⟩
    next => cases read

/-- A character that stands for itself, or an escape and what it stands for. -/
def IsRound (taken character : ByteString) : Prop :=
  (∃ byte, taken = [byte] ∧ character = [byte] ∧ byte ≠ 92 ∧ ¬byte < 32) ∨
    (character ≠ [] ∧ character.length < taken.length ∧ taken.getLast? ≠ some 32 ∧
      (0 ∈ character → character.length + 5 ≤ taken.length))

theorem processLoop_round {fuel : ℕ} {byte : UInt8} {rest output : ByteString}
    (read : processLoop (fuel + 1) (byte :: rest) = some output) :
    ∃ taken left character others, byte :: rest = taken ++ left ∧ IsRound taken character ∧
      processLoop fuel left = some others ∧ output = character ++ others := by
  have letters : ∀ letter : UInt8, unescape 32 = none ∧ unescape letter ≠ some 0 := by
    decide +kernel
  simp only [processLoop] at read
  split_ifs at read with escaped control
  · subst escaped
    split at read
    next => cases read
    next letter left =>
      split_ifs at read with utf16
      · simp only [Option.bind_eq_bind, Option.bind_eq_some_iff, Option.pure_def,
          Option.some.injEq, Prod.exists] at read
        rcases read with ⟨character, behind, found, others, later, rfl⟩
        rcases parseUtf16_shrinks found with ⟨taken, last, rfl, digit, some_, shorter, nul⟩
        have notSpace : last ≠ 32 := by
          rintro rfl
          cases digit
        refine ⟨92 :: letter :: (taken ++ [last]), behind, character, others, by simp, ?_, later,
          rfl⟩
        refine .inr ⟨some_, ?_, ?_, fun mem => ?_⟩
        · simp only [List.length_cons, List.length_append, List.length_nil]
          omega
        · rw [← List.cons_append, ← List.cons_append, List.getLast?_concat]
          simpa using notSpace
        · have few := nul mem
          simp only [List.length_cons, List.length_append, List.length_nil]
          omega
      · simp only [Option.bind_eq_bind, Option.bind_eq_some_iff, Option.pure_def,
          Option.some.injEq] at read
        rcases read with ⟨character, found, others, later, rfl⟩
        refine ⟨[92, letter], left, [character], others, rfl, .inr ?_, later, rfl⟩
        refine ⟨by simp, by simp, ?_, ?_⟩
        · intro space
          simp only [List.getLast?_cons_cons, List.getLast?_singleton, Option.some.injEq] at space
          rw [space, (letters 0).1] at found
          cases found
        · intro nul
          rw [← List.mem_singleton.mp nul] at found
          exact absurd found (letters letter).2
  · simp only [Option.bind_eq_bind, Option.bind_eq_some_iff, Option.pure_def,
      Option.some.injEq] at read
    rcases read with ⟨others, later, rfl⟩
    exact ⟨[byte], rest, [byte], others, rfl, .inl ⟨byte, rfl, rfl, escaped, control⟩, later, rfl⟩

/-- The rounds of `process_string` over a text. -/
inductive Rounds : ByteString → ByteString → Prop
  | nil : Rounds [] []
  | cons {taken character left others : ByteString} (round : IsRound taken character)
      (rounds : Rounds left others) : Rounds (taken ++ left) (character ++ others)

variable {raw output : ByteString}

theorem rounds_of_processLoop {fuel : ℕ} (read : processLoop fuel raw = some output) :
    Rounds raw output := by
  induction fuel generalizing raw output with
  | zero =>
      cases raw with
      | nil =>
          rw [processLoop, Option.some.injEq] at read
          rw [← read]
          exact .nil
      | cons byte rest => cases read
  | succ fuel ih =>
      cases raw with
      | nil =>
          rw [processLoop, Option.some.injEq] at read
          rw [← read]
          exact .nil
      | cons byte rest =>
          rcases processLoop_round read with ⟨taken, left, character, others, split, round, later, rfl⟩
          rw [split]
          exact .cons round (ih later)

theorem IsRound.length_le {taken character : ByteString} (round : IsRound taken character) :
    character.length ≤ taken.length := by
  rcases round with ⟨byte, rfl, rfl, -⟩ | ⟨-, shorter, -⟩
  · exact le_rfl
  · exact shorter.le

theorem Rounds.length_le (rounds : Rounds raw output) : output.length ≤ raw.length := by
  induction rounds with
  | nil => exact le_rfl
  | cons round _ ih =>
      have here := round.length_le
      simp only [List.length_append]
      omega

/-- Nothing has become shorter only if nothing was escaped. -/
theorem Rounds.eq_of_length_eq (rounds : Rounds raw output)
    (same : output.length = raw.length) :
    output = raw ∧ ∀ byte ∈ raw, byte ≠ 92 ∧ ¬byte < 32 := by
  induction rounds with
  | nil => simp
  | @cons taken character left others round later ih =>
      have rest := later.length_le
      simp only [List.length_append] at same
      rcases round with ⟨byte, rfl, rfl, unescaped⟩ | ⟨-, shorter, -⟩
      · have tail := ih (by simpa using same)
        refine ⟨by rw [tail.1], ?_⟩
        rw [List.singleton_append, List.forall_mem_cons]
        exact ⟨unescaped, tail.2⟩
      · omega

/-- A NUL has been escaped. -/
theorem Rounds.length_of_nul (rounds : Rounds raw output) (nul : 0 ∈ output) :
    output.length + 5 ≤ raw.length := by
  induction rounds with
  | nil => simp at nul
  | @cons taken character left others round later ih =>
      have here := round.length_le
      have rest := later.length_le
      simp only [List.length_append]
      rcases List.mem_append.mp nul with nul | nul
      · rcases round with ⟨byte, rfl, rfl, -, printable⟩ | ⟨-, -, -, escaped⟩
        · rw [← List.mem_singleton.mp nul] at printable
          exact absurd (by decide) printable
        · have few := escaped nul
          omega
      · have few := ih nul
        omega

/-- A space at the end is not part of an escape. -/
theorem Rounds.getLast?_eq_space (rounds : Rounds raw output) (space : raw.getLast? = some 32) :
    output.getLast? = some 32 := by
  induction rounds with
  | nil => exact space
  | @cons taken character left others round later ih =>
      rw [List.getLast?_append] at space ⊢
      cases last : left.getLast? with
      | some byte =>
          rw [last, Option.some_or] at space
          rw [ih (last.trans space), Option.some_or]
      | none =>
          rw [List.getLast?_eq_none_iff] at last
          have nothing := later.length_le
          rw [last, List.length_nil, Nat.le_zero, List.length_eq_zero_iff] at nothing
          rw [last, List.getLast?_nil, Option.none_or] at space
          rw [nothing, List.getLast?_nil, Option.none_or]
          rcases round with ⟨byte, rfl, rfl, -⟩ | ⟨-, -, notSpace, -⟩
          · exact space
          · exact absurd space notSpace

end Shrinking

section Delivered

/-- What stands in front of the next quote ends a text: the text itself, less of it, or, when its
last backslash hides the quote behind it, the characters up to the next one too. -/
theorem skipQuotes_cases {text raw rest more : ByteString}
    (read : skipQuotes (text ++ 34 :: 44 :: 32 :: 34 :: more) = some (raw, rest)) :
    raw.length < text.length ∨ raw = text ∨
      (raw = text ++ [34, 44, 32] ∧ text.getLast? = some 92) := by
  induction text using skipQuotes.induct generalizing raw with
  | case1 =>
      rw [List.nil_append, skipQuotes_quote, Option.some.injEq, Prod.mk.injEq] at read
      exact .inr (.inl read.1.symm)
  | case2 others =>
      rw [List.cons_append, skipQuotes_quote, Option.some.injEq, Prod.mk.injEq] at read
      rw [← read.1]
      exact .inl (by simp)
  | case3 =>
      rw [List.singleton_append, skipQuotes_backslash,
        skipQuotes_plain (by decide) (by decide), skipQuotes_plain (by decide) (by decide),
        skipQuotes_quote] at read
      simp only [Option.map_some, Option.some.injEq, Prod.mk.injEq] at read
      rw [← read.1]
      exact .inr (.inr ⟨rfl, rfl⟩)
  | case4 letter others _ ih =>
      rw [List.cons_append, List.cons_append, skipQuotes_backslash, Option.map_eq_some_iff] at read
      rcases read with ⟨⟨inside, left⟩, found, same⟩
      rw [Prod.mk.injEq] at same
      rcases same with ⟨rfl, rfl⟩
      rcases ih found with shorter | rfl | ⟨rfl, last⟩
      · exact .inl (by simpa using shorter)
      · exact .inr (.inl rfl)
      · refine .inr (.inr ⟨rfl, ?_⟩)
        rw [List.getLast?_cons, List.getLast?_cons, last]
        rfl
  | case5 byte others notQuote notBackslash ih =>
      rw [List.cons_append, skipQuotes_plain notQuote notBackslash, Option.map_eq_some_iff] at read
      rcases read with ⟨⟨inside, left⟩, found, same⟩
      rw [Prod.mk.injEq] at same
      rcases same with ⟨rfl, rfl⟩
      rcases ih found with shorter | rfl | ⟨rfl, last⟩
      · exact .inl (by simpa using shorter)
      · exact .inr (.inl rfl)
      · refine .inr (.inr ⟨rfl, ?_⟩)
        rw [List.getLast?_cons, last]
        rfl

theorem quote_notMem_of_skipQuotes {text raw rest : ByteString}
    (read : skipQuotes text = some (raw, rest)) (unescaped : 92 ∉ raw) : 34 ∉ raw := by
  induction text using skipQuotes.induct generalizing raw with
  | case1 => cases read
  | case2 others =>
      rw [skipQuotes_quote, Option.some.injEq, Prod.mk.injEq] at read
      rw [← read.1]
      exact List.not_mem_nil
  | case3 =>
      rw [skipQuotes, if_neg (by decide), if_pos rfl] at read
      cases read
  | case4 letter others _ ih =>
      rw [skipQuotes_backslash, Option.map_eq_some_iff] at read
      rcases read with ⟨⟨inside, left⟩, -, same⟩
      rw [Prod.mk.injEq] at same
      rw [← same.1] at unescaped
      exact absurd List.mem_cons_self unescaped
  | case5 byte others notQuote notBackslash ih =>
      rw [skipQuotes_plain notQuote notBackslash, Option.map_eq_some_iff] at read
      rcases read with ⟨⟨inside, left⟩, found, same⟩
      rw [Prod.mk.injEq] at same
      rcases same with ⟨rfl, rfl⟩
      rw [List.mem_cons, not_or] at unescaped ⊢
      exact ⟨Ne.symm notQuote, ih found unescaped.2⟩

theorem isPlain_of_delivered {text content rest more : ByteString}
    (read : getQuotedString (34 :: (text ++ 34 :: 44 :: 32 :: 34 :: more)) = some (content, rest))
    (same : content.cString = text) : IsPlain text := by
  rcases getQuotedString_eq_some.mp read with ⟨_, raw, shape, found, processed⟩
  rw [List.cons.injEq] at shape
  rw [← shape.2] at found
  have rounds := rounds_of_processLoop processed
  have shorter := rounds.length_le
  have atLeast : text.length ≤ content.length := by
    rw [← same]
    exact (List.takeWhile_prefix _).length_le
  rcases skipQuotes_cases found with less | rfl | ⟨rfl, last⟩
  · omega
  · have plain := (rounds.eq_of_length_eq (by omega)).2
    have unescaped : 92 ∉ raw := fun mem => (plain 92 mem).1 rfl
    have unquoted := quote_notMem_of_skipQuotes found unescaped
    intro byte mem
    refine ⟨?_, plain byte mem⟩
    rintro rfl
    exact unquoted mem
  · -- The text ends in a backslash, but what is read ends in a space.
    have noNul : 0 ∉ content := by
      intro nul
      have few := rounds.length_of_nul nul
      simp only [List.length_append, List.length_cons, List.length_nil] at few
      omega
    rw [cString_of_not_mem noNul] at same
    have space := rounds.getLast?_eq_space (by simp)
    rw [same, last] at space
    cases space

end Delivered

section Members

variable {strtod : Strtod} {levels fuel : ℕ} {text rest : ByteString}

theorem parseMembers_field {parse : ByteString → Option (JsonValue × ByteString)}
    {name : ByteString} {added : List ByteString} {members : JsonObject} (plain : IsPlain name) :
    parseMembers parse (fuel + 1) added (34 :: (name ++ 34 :: 58 :: text)) = some (members, rest) ↔
      ∃ value behind, parse text = some (value, behind) ∧ name ∉ added ∧
        ((∃ next others, skipWhitespaces behind = 44 :: next ∧
            parseMembers parse fuel (name :: added) (skipWhitespaces next) = some (others, rest) ∧
            members = (name, value) :: others) ∨
          (skipWhitespaces behind = 125 :: rest ∧ members = [(name, value)])) := by
  have quoted := getQuotedString_of_isPlain plain (58 :: text)
  have separated : skipWhitespaces (58 :: text) = 58 :: text := skipWhitespaces_cons (by decide) text
  rw [parseMembers_eq_some]
  constructor
  · rintro ⟨other, value, colon, unread, behind, found, -, same, read, fresh, more⟩
    rw [quoted, Option.some.injEq, Prod.mk.injEq] at found
    rcases found with ⟨rfl, rfl⟩
    rw [separated, List.cons.injEq] at same
    rcases same with ⟨-, rfl⟩
    exact ⟨value, behind, read, fresh, more⟩
  · rintro ⟨value, behind, read, fresh, more⟩
    exact ⟨name, value, 58 :: text, text, behind, quoted, plain.nul_notMem, separated, read, fresh,
      more⟩

theorem parseMembers_next {parse : ByteString → Option (JsonValue × ByteString)}
    {name next : ByteString} {added : List ByteString} {value : JsonValue} {others : JsonObject}
    (plain : IsPlain name) (fresh : name ∉ added)
    (read : parse text = some (value, 44 :: 32 :: 34 :: next))
    (later : parseMembers parse fuel (name :: added) (34 :: next) = some (others, rest)) :
    parseMembers parse (fuel + 1) added (34 :: (name ++ 34 :: 58 :: text)) =
      some ((name, value) :: others, rest) := by
  rw [parseMembers_field plain]
  exact ⟨value, _, read, fresh, .inl ⟨32 :: 34 :: next, others, rfl, later, rfl⟩⟩

theorem parseMembers_next_inv {parse : ByteString → Option (JsonValue × ByteString)}
    {name next : ByteString} {added : List ByteString} {value : JsonValue} {members : JsonObject}
    (plain : IsPlain name) (here : parse text = some (value, 44 :: 32 :: 34 :: next))
    (read : parseMembers parse fuel added (34 :: (name ++ 34 :: 58 :: text)) =
      some (members, rest)) :
    ∃ fewer others, parseMembers parse fewer (name :: added) (34 :: next) = some (others, rest) ∧
      members = (name, value) :: others := by
  cases fuel with
  | zero => cases read
  | succ fuel =>
      rcases (parseMembers_field plain).mp read with ⟨other, behind, again, -, more⟩
      rw [here, Option.some.injEq, Prod.mk.injEq] at again
      rcases again with ⟨rfl, rfl⟩
      rcases more with ⟨unread, others, comma, later, rfl⟩ | ⟨closing, -⟩
      · have skipped : skipWhitespaces (44 :: 32 :: 34 :: next) = 44 :: 32 :: 34 :: next := rfl
        rw [skipped, List.cons.injEq] at comma
        rw [← comma.2] at later
        exact ⟨fuel, others, later, rfl⟩
      · cases closing

theorem parseMembers_last {parse : ByteString → Option (JsonValue × ByteString)}
    {name behind : ByteString} {added : List ByteString} {value : JsonValue}
    (plain : IsPlain name) (fresh : name ∉ added) (read : parse text = some (value, behind))
    (closing : skipWhitespaces behind = 125 :: rest) :
    parseMembers parse 1 added (34 :: (name ++ 34 :: 58 :: text)) = some ([(name, value)], rest) := by
  rw [parseMembers_field plain]
  exact ⟨value, behind, read, fresh, .inr ⟨closing, rfl⟩⟩

theorem parseValue_string {value : JsonValue} :
    parseValue strtod (levels + 1) (32 :: 34 :: text) = some (value, rest) ↔
      ∃ content, getQuotedString (34 :: text) = some (content, rest) ∧ value = .string content := by
  have skipped : skipWhitespaces (32 :: 34 :: text) = 34 :: text := rfl
  rw [parseValue_of_skip skipped, if_neg (by decide), if_neg (by decide), if_pos rfl]
  simp only [parseStringValue, Option.bind_eq_bind, Option.bind_eq_some_iff, Option.pure_def,
    Option.some.injEq, Prod.mk.injEq, Prod.exists]
  constructor
  · rintro ⟨content, left, quoted, rfl, rfl⟩
    exact ⟨content, quoted, rfl⟩
  · rintro ⟨content, quoted, rfl⟩
    exact ⟨content, rest, quoted, rfl, rfl⟩

theorem parseMembers_string_inv {name : ByteString} {added : List ByteString}
    {members : JsonObject} (plain : IsPlain name)
    (read : parseMembers (parseValue strtod (levels + 1)) fuel added
      (34 :: (name ++ 34 :: 58 :: 32 :: 34 :: text)) = some (members, rest)) :
    ∃ content behind others, getQuotedString (34 :: text) = some (content, behind) ∧
      members = (name, .string content) :: others := by
  cases fuel with
  | zero => cases read
  | succ fuel =>
      rcases (parseMembers_field plain).mp read with ⟨value, behind, here, -, more⟩
      rcases parseValue_string.mp here with ⟨content, quoted, rfl⟩
      rcases more with ⟨-, others, -, -, rfl⟩ | ⟨-, rfl⟩
      · exact ⟨content, behind, others, quoted, rfl⟩
      · exact ⟨content, behind, [], quoted, rfl⟩

theorem parseValue_object {value : JsonValue} :
    parseValue strtod (levels + 1) (123 :: 32 :: 34 :: text) = some (value, rest) ↔
      ∃ members, parseMembers (parseValue strtod levels) (text.length + 1) [] (34 :: text) =
        some (members, rest) ∧ value = .object members := by
  have skipped : skipWhitespaces (123 :: 32 :: 34 :: text) = 123 :: 32 :: 34 :: text := rfl
  have inside : skipWhitespaces (32 :: 34 :: text) = 34 :: text := rfl
  rw [parseValue_of_skip skipped, if_pos rfl, parseObjectValue_eq_some, inside]
  constructor
  · rintro (⟨closing, -⟩ | ⟨-, members, read, rfl⟩)
    · cases closing
    · exact ⟨members, read, rfl⟩
  · rintro ⟨members, read, rfl⟩
    exact .inr ⟨fun left same => (by cases same), members, read, rfl⟩

theorem parseValue_object_of_parseMembers (stops : StopsAtDelimiters strtod)
    {members : JsonObject}
    (read : parseMembers (parseValue strtod levels) fuel [] (34 :: text) = some (members, rest))
    (enough : fuel ≤ text.length + 1) :
    parseValue strtod (levels + 1) (123 :: 32 :: 34 :: text) = some (.object members, rest) := by
  have continues : Continues (parseValue strtod levels) (parseValue strtod levels) levels [] :=
    fun text value rest here shallow ends => parseValue_append stops here shallow [] ends
  have shallow := forall_of_parseMembers (fun text value rest here => depth_le_of_parseValue here)
    read
  have longer := (parseMembers_append continues read enough shallow).2
  rw [List.append_nil, List.append_nil] at longer
  exact parseValue_object.mpr ⟨members, longer, rfl⟩

/-- No byte order mark stands in front of an object. -/
theorem parseString_object {members : JsonObject} {request more : ByteString}
    (front : request ++ more = 123 :: text) :
    parseString strtod request = some (.object members) ↔
      ∃ rest, parseValue strtod (maxNesting + 1) request = some (.object members, rest) := by
  have unmarked : skipByteOrderMark request = request := by
    rw [skipByteOrderMark, if_neg]
    intro marked
    rcases startsWith_iff.mp marked with ⟨rest, rfl⟩
    cases front
  rw [parseString, unmarked, Option.map_eq_some_iff]
  constructor
  · rintro ⟨⟨value, rest⟩, read, same⟩
    dsimp only at same
    rw [same] at read
    exact ⟨rest, read⟩
  · rintro ⟨rest, read⟩
    exact ⟨_, read, rfl⟩

/-- A payload between a space and the end of an object. -/
theorem parseValue_payload (stops : StopsAtDelimiters strtod) {value : JsonValue}
    (denotes : Denotes strtod text value) (shallow : depth value ≤ levels) :
    ∃ behind, parseValue strtod levels (32 :: (text ++ [32, 125])) = some (value, behind) ∧
      skipWhitespaces behind = [125] := by
  rcases denotes with ⟨others, blank, read, isBlank⟩
  have ends : Ends (blank ++ [32, 125]) := (ends_cons (by decide) _).blank isBlank
  have longer := (parseValue_append stops read shallow [32, 125] fun _ => .inr ends).2
  have space : Blank [32] := by
    intro byte mem
    rw [List.mem_singleton.mp mem]
    rfl
  refine ⟨blank ++ [32, 125], ?_, ?_⟩
  · exact (parseValue_blank strtod levels space (text ++ [32, 125])).trans longer
  · rw [skipWhitespaces_blank isBlank]
    rfl

theorem depth_le_of_payload (stops : StopsAtDelimiters strtod) {value other : JsonValue}
    (denotes : Denotes strtod text value)
    (read : parseValue strtod levels (32 :: (text ++ [32, 125])) = some (other, rest)) :
    other = value ∧ depth value ≤ levels := by
  rcases parseValue_payload stops denotes le_rfl with ⟨behind, alone, -⟩
  have same := (parseValue_unique stops read alone).1
  have shallow := depth_le_of_parseValue read
  rw [same] at shallow
  exact ⟨same, shallow⟩

end Members

end OsConfig.JsonValue
