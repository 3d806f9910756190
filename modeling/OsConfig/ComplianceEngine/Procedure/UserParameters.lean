import OsConfig.ComplianceEngine.Procedure
import OsConfig.Common.Parson.Parser

/-!
# Two syntaxes for user parameters

`UpdateUserParameters` tries JSON first and `key=value` pairs after that. A text
of pairs starts with a letter or an underscore, and the JSON parser reads a word
as soon as a text starts with it. So a text of pairs is taken for JSON exactly
if its first key starts with one of the words `true`, `false` and `null`, and a
word is not an object.
-/

namespace OsConfig.ComplianceEngine

open ByteString

namespace ProcedureParameters

def StartsKey (byte : UInt8) : Prop :=
  (isAlnum byte ∨ byte = 95) ∧ ¬ isDigit byte

theorem parseKey_starts {byte : UInt8} {rest key remaining : ByteString}
    (parsed : parseKey true (byte :: rest) = .ok (key, remaining)) (nonempty : key ≠ []) :
    StartsKey byte := by
  rw [parseKey] at parsed
  split at parsed
  · simp only [Except.ok.injEq, Prod.mk.injEq] at parsed
    exact absurd parsed.1.symm nonempty
  · split at parsed
    · simp at parsed
    · split at parsed
      · simp at parsed
      · rename_i allowed noDigit
        constructor
        · by_contra neither
          apply allowed
          simp only [not_or, Bool.not_eq_true] at neither
          simp [neither.1, neither.2]
        · simpa using noDigit

theorem parseString_starts {input : ByteString} {pairs : ParameterMap}
    (parsed : parseString input = .ok pairs) (nonempty : pairs ≠ ∅) :
    ∃ byte rest, skipSpaces input = byte :: rest ∧ StartsKey byte := by
  rw [parseString] at parsed
  cases fuel_eq : input.length with
  | zero =>
      rw [fuel_eq, parsePairs, Except.ok.injEq] at parsed
      exact absurd parsed.symm nonempty
  | succ fuel =>
      rw [fuel_eq, parsePairs] at parsed
      cases skipped : skipSpaces input with
      | nil =>
          rw [skipped] at parsed
          simp only [Except.ok.injEq] at parsed
          exact absurd parsed.symm nonempty
      | cons byte rest =>
          refine ⟨byte, rest, rfl, ?_⟩
          rw [skipped] at parsed
          simp only [parsePair] at parsed
          cases key_eq : parseKey true (byte :: rest) with
          | error failure => simp [key_eq, bind, Except.bind] at parsed
          | ok found =>
              rcases found with ⟨key, remaining⟩
              by_cases empty : key = []
              · simp [key_eq, bind, Except.bind, empty] at parsed
              · exact parseKey_starts key_eq empty

theorem distinct_keys (map : ParameterMap) :
    map.toList.Pairwise fun first second => first.1 ≠ second.1 := by
  refine Std.ExtTreeMap.distinct_keys_toList.imp ?_
  intro first second different same
  apply different
  rw [same]
  exact Std.ReflCmp.compare_self

end ProcedureParameters

/-- The words that the JSON parser reads at the start of a text. -/
def jsonWords : List ByteString := [bytes "true", bytes "false", bytes "null"]

/-- The text starts with a word of JSON, spaces aside. -/
def StartsWithWord (text : ByteString) : Prop :=
  ∃ word ∈ jsonWords, startsWith (ProcedureParameters.skipSpaces text) word

instance (text : ByteString) : Decidable (StartsWithWord text) :=
  inferInstanceAs (Decidable (∃ word ∈ jsonWords, _))

section CString

theorem skipSpaces_cString (text : ByteString) :
    JsonValue.skipWhitespaces text.cString =
      (ProcedureParameters.skipSpaces text).cString := by
  induction text with
  | nil => rfl
  | cons byte rest ih =>
      by_cases space : isSpace byte
      · have notNul : byte ≠ 0 := by
          rintro rfl
          simp [isSpace] at space
        simpa [JsonValue.skipWhitespaces, ProcedureParameters.skipSpaces, cString, notNul, space]
          using ih
      · by_cases nul : byte = 0
        · simp [JsonValue.skipWhitespaces, ProcedureParameters.skipSpaces, cString, nul,
            show isSpace 0 = false from rfl]
        · simp [JsonValue.skipWhitespaces, ProcedureParameters.skipSpaces, cString, nul, space]

theorem startsWith_cString {word : ByteString} (nulFree : 0 ∉ word) (text : ByteString) :
    startsWith text.cString word = startsWith text word := by
  induction word generalizing text with
  | nil => rfl
  | cons byte rest ih =>
      simp only [List.mem_cons, not_or] at nulFree
      cases text with
      | nil => rfl
      | cons first others =>
          by_cases nul : first = 0
          · subst nul
            simp [startsWith, cString, List.isPrefixOf, beq_eq_false_iff_ne.mpr (Ne.symm nulFree.1)]
          · have rest_eq := ih nulFree.2 others
            have kept : cString (first :: others) = first :: cString others := by
              simp [cString, nul]
            simp only [startsWith] at rest_eq ⊢
            rw [kept, List.isPrefixOf, List.isPrefixOf, rest_eq]

end CString

theorem parseValue_of_startsKey (strtod : JsonValue.Strtod) (levels : ℕ) {text : ByteString}
    {byte : UInt8} {rest : ByteString} (skipped : JsonValue.skipWhitespaces text = byte :: rest)
    (starts : ProcedureParameters.StartsKey byte) :
    JsonValue.parseValue strtod (levels + 1) text =
      if byte = 102 ∨ byte = 116 then JsonValue.parseBooleanValue (byte :: rest)
      else if byte = 110 then JsonValue.parseNullValue (byte :: rest)
      else none := by
  have noObject : byte ≠ 123 := by
    rintro rfl
    exact absurd starts.1 (by decide)
  have noArray : byte ≠ 91 := by
    rintro rfl
    exact absurd starts.1 (by decide)
  have noString : byte ≠ 34 := by
    rintro rfl
    exact absurd starts.1 (by decide)
  have noNumber : ¬ (byte = 45 ∨ isDigit byte) := by
    rintro (rfl | digit)
    · exact absurd starts.1 (by decide)
    · exact starts.2 digit
  rw [JsonValue.parseValue, skipped]
  simp only [if_neg noObject, if_neg noArray, if_neg noString, if_neg noNumber]

theorem startsWith_head {byte first : UInt8} {rest others : ByteString}
    (starts : startsWith (byte :: rest) (first :: others)) : byte = first := by
  simp only [startsWith, List.isPrefixOf, Bool.and_eq_true, beq_iff_eq] at starts
  exact starts.1.symm

theorem parseString_of_startsKey (strtod : JsonValue.Strtod) {text : ByteString} {byte : UInt8}
    {rest : ByteString} (skipped : ProcedureParameters.skipSpaces text = byte :: rest)
    (starts : ProcedureParameters.StartsKey byte) :
    (StartsWithWord text ∧
      ∃ json, JsonValue.parseString strtod text.cString = some json ∧ json.getObject = none) ∨
    (¬ StartsWithWord text ∧ JsonValue.parseString strtod text.cString = none) := by
  have notNul : byte ≠ 0 := by
    rintro rfl
    exact absurd starts.1 (by decide)
  have skipped' : JsonValue.skipWhitespaces text.cString = byte :: rest.cString := by
    rw [skipSpaces_cString, skipped]
    simp [cString, notNul]
  have unmarked : JsonValue.skipByteOrderMark text.cString = text.cString := by
    rw [JsonValue.skipByteOrderMark, startsWith_cString (by decide), if_neg]
    intro marked
    cases text with
    | nil => simp [startsWith, List.isPrefixOf] at marked
    | cons first others =>
        have first_eq := startsWith_head marked
        subst first_eq
        have byte_eq : byte = 0xEF := by
          have heads := congrArg List.head? skipped
          simpa [ProcedureParameters.skipSpaces, isSpace] using heads.symm
        subst byte_eq
        exact absurd starts.1 (by decide)
  have words : StartsWithWord text ↔ startsWith (byte :: rest.cString) (bytes "true") ∨
      startsWith (byte :: rest.cString) (bytes "false") ∨
      startsWith (byte :: rest.cString) (bytes "null") := by
    have nulFree : ∀ word ∈ jsonWords, 0 ∉ word := by decide
    rw [← skipped', skipSpaces_cString]
    simp only [StartsWithWord]
    rw [startsWith_cString (nulFree _ (by simp [jsonWords])),
      startsWith_cString (nulFree _ (by simp [jsonWords])),
      startsWith_cString (nulFree _ (by simp [jsonWords]))]
    simp [jsonWords]
  have true_letter : startsWith (byte :: rest.cString) (bytes "true") → byte = 116 :=
    startsWith_head
  have false_letter : startsWith (byte :: rest.cString) (bytes "false") → byte = 102 :=
    startsWith_head
  have null_letter : startsWith (byte :: rest.cString) (bytes "null") → byte = 110 :=
    startsWith_head
  rw [words, JsonValue.parseString, unmarked, parseValue_of_startsKey strtod _ skipped' starts]
  by_cases isTrue : startsWith (byte :: rest.cString) (bytes "true")
  · left
    refine ⟨.inl isTrue, .boolean true, ?_, rfl⟩
    rw [if_pos (.inr (true_letter isTrue)), JsonValue.parseBooleanValue, if_pos isTrue]
    rfl
  · by_cases isFalse : startsWith (byte :: rest.cString) (bytes "false")
    · left
      refine ⟨.inr (.inl isFalse), .boolean false, ?_, rfl⟩
      rw [if_pos (.inl (false_letter isFalse)), JsonValue.parseBooleanValue, if_neg isTrue,
        if_pos isFalse]
      rfl
    · by_cases isNull : startsWith (byte :: rest.cString) (bytes "null")
      · left
        refine ⟨.inr (.inr isNull), .null, ?_, rfl⟩
        rw [if_neg (by rw [null_letter isNull]; decide), if_pos (null_letter isNull),
          JsonValue.parseNullValue, if_pos isNull]
        rfl
      · right
        refine ⟨by simp [isTrue, isFalse, isNull], ?_⟩
        rw [JsonValue.parseBooleanValue, if_neg isTrue, if_neg isFalse, JsonValue.parseNullValue,
          if_neg isNull]
        simp

namespace Procedure

/-- Updating with declared keys only sets every key to its value and changes nothing else. -/
theorem updateEntries_declared {entries : List (ByteString × ByteString)}
    {parameters : ParameterMap} (declared : ∀ entry ∈ entries, entry.1 ∈ parameters)
    (distinct : entries.Pairwise fun first second => first.1 ≠ second.1) :
    ∃ updated, updateEntries entries parameters = (none, updated) ∧
      (∀ entry ∈ entries, updated[entry.1]? = some entry.2) ∧
      ∀ key, (∀ entry ∈ entries, entry.1 ≠ key) → updated[key]? = parameters[key]? := by
  induction entries generalizing parameters with
  | nil => exact ⟨parameters, rfl, by simp, fun _ _ => rfl⟩
  | cons entry rest ih =>
      rcases entry with ⟨key, value⟩
      rcases List.pairwise_cons.mp distinct with ⟨fresh, rest_distinct⟩
      have rest_declared : ∀ entry ∈ rest, entry.1 ∈ parameters.insert key value := by
        intro entry entry_mem
        rw [Std.ExtTreeMap.mem_insert]
        exact .inr (declared entry (by simp [entry_mem]))
      rcases ih rest_declared rest_distinct with ⟨updated, updated_eq, sets, keeps⟩
      refine ⟨updated, ?_, ?_, ?_⟩
      · rw [updateEntries, if_pos (declared (key, value) (by simp)), updated_eq]
      · intro entry entry_mem
        rcases List.mem_cons.mp entry_mem with rfl | later
        · rw [keeps key fun other other_mem => (fresh other other_mem).symm]
          simp
        · exact sets entry later
      · intro other absent
        have key_ne : key ≠ other := absent (key, value) (by simp)
        rw [keeps other fun entry entry_mem => absent entry (by simp [entry_mem])]
        rw [Std.ExtTreeMap.getElem?_insert, if_neg]
        intro same
        exact key_ne (Std.LawfulEqCmp.eq_of_compare same)

/-- The update gives every key of the pairs its value and keeps everything else. -/
def Updates (pairs : ParameterMap) (procedure procedure' : Procedure) : Prop :=
  (∀ key : ByteString,
      procedure'.parameters[key]? = pairs[key]?.or procedure.parameters[key]?) ∧
    procedure'.auditRule = procedure.auditRule ∧
    procedure'.remediationRule = procedure.remediationRule

/-- A text of pairs with declared keys is understood as such exactly if it does not start with
a word of JSON. -/
theorem updateUserParameters_pairs_iff (strtod : JsonValue.Strtod) {text : ByteString}
    {pairs : ParameterMap} (parsed : ProcedureParameters.parseString text = .ok pairs)
    (nonempty : pairs ≠ ∅) {procedure : Procedure}
    (declared : ∀ key ∈ pairs, key ∈ procedure.parameters) :
    (∃ procedure', updateUserParameters (JsonValue.parseString strtod) text procedure =
        (none, procedure') ∧ Updates pairs procedure procedure') ↔
      ¬ StartsWithWord text := by
  rcases ProcedureParameters.parseString_starts parsed nonempty with
    ⟨byte, rest, skipped, starts⟩
  rcases parseString_of_startsKey strtod skipped starts with
    ⟨word, json, json_eq, noObject⟩ | ⟨noWord, refused⟩
  · refine iff_of_false ?_ (not_not_intro word)
    rintro ⟨procedure', updated, -⟩
    simp [updateUserParameters, parseUserParameters, JsonWrapper.fromString, json_eq,
      noObject] at updated
  · refine iff_of_true ?_ noWord
    have entries_declared : ∀ entry ∈ pairs.toList, entry.1 ∈ procedure.parameters := by
      intro entry entry_mem
      apply declared
      rw [Std.ExtTreeMap.mem_iff_isSome_getElem?,
        Std.ExtTreeMap.mem_toList_iff_getElem?_eq_some.mp entry_mem]
      rfl
    rcases updateEntries_declared entries_declared (ProcedureParameters.distinct_keys pairs) with
      ⟨updated, updated_eq, sets, keeps⟩
    refine ⟨{ procedure with parameters := updated }, ?_, ?_, rfl, rfl⟩
    · simp [updateUserParameters, parseUserParameters, JsonWrapper.fromString, refused, parsed,
        updated_eq]
    · intro key
      cases found : pairs[key]? with
      | some value =>
          exact sets (key, value) (Std.ExtTreeMap.mem_toList_iff_getElem?_eq_some.mpr found)
      | none =>
          apply keeps key
          rintro ⟨other, value⟩ entry_mem rfl
          rw [Std.ExtTreeMap.mem_toList_iff_getElem?_eq_some.mp entry_mem] at found
          cases found

/-- A procedure with one parameter. -/
def declaring (key value : ByteString) : Procedure where
  parameters := (∅ : ParameterMap).insert key value

theorem mem_declaring {key value other : ByteString} {value' : ByteString}
    (mem : other ∈ (∅ : ParameterMap).insert key value) :
    other ∈ (declaring key value').parameters := by
  simpa [declaring] using mem

/-- The key `KEY` is no word of JSON. -/
theorem updateUserParameters_plain_key :
    ∃ procedure', updateUserParameters (JsonValue.parseString fun _ => none) (bytes "KEY=value")
        (declaring (bytes "KEY") (bytes "VALUE")) = (none, procedure') ∧
      Updates ((∅ : ParameterMap).insert (bytes "KEY") (bytes "value"))
        (declaring (bytes "KEY") (bytes "VALUE")) procedure' := by
  have parsed : ProcedureParameters.parseString (bytes "KEY=value") =
      .ok ((∅ : ParameterMap).insert (bytes "KEY") (bytes "value")) := by
    decide
  apply (updateUserParameters_pairs_iff (fun _ => none) parsed (by simp)
    fun key mem => mem_declaring mem).mpr
  decide

/-- The text `nullable=1` is taken for the word `null`. -/
theorem updateUserParameters_nullable :
    ∃ pairs, ProcedureParameters.parseString (bytes "nullable=1") = .ok pairs ∧ pairs ≠ ∅ ∧
      (∀ key ∈ pairs, key ∈ (declaring (bytes "nullable") (bytes "0")).parameters) ∧
      ∀ strtod, updateUserParameters (JsonValue.parseString strtod) (bytes "nullable=1")
          (declaring (bytes "nullable") (bytes "0")) =
        (some { message := bytes "A JSON object expected", code := Errno.EINVAL },
          declaring (bytes "nullable") (bytes "0")) := by
  refine ⟨(∅ : ParameterMap).insert (bytes "nullable") (bytes "1"), ?_, ?_, ?_, ?_⟩
  · decide
  · simp
  · exact fun key mem => mem_declaring mem
  · intro strtod
    have word : JsonValue.parseString strtod (bytes "nullable=1").cString = some .null := by
      rfl
    simp [updateUserParameters, parseUserParameters, JsonWrapper.fromString, word,
      JsonValue.getObject]

end Procedure

end OsConfig.ComplianceEngine
