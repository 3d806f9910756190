import OsConfig.ComplianceEngine.Engine
import OsConfig.ComplianceEngine.Base64.RoundTrip
import OsConfig.Common.Parson.Parser

/-!
# Plain and encoded payloads

`SetProcedure` takes a payload in base64 or as plain JSON, and tries base64
first. A text that starts with a brace is never base64, and decoding inverts the
encoding, so both spellings of such a text give the same JSON value. Where the
text is not JSON, the encoded spelling is read once more as JSON, and may even
be accepted as a number or a word; but it has no brace, so it is not an object.
-/

namespace OsConfig.ComplianceEngine

open ByteString

namespace Engine

def StartsWithBrace (text : ByteString) : Prop :=
  ∃ rest, ProcedureParameters.skipSpaces text = 123 :: rest

theorem mem_of_startsWithBrace {text : ByteString} (starts : StartsWithBrace text) :
    123 ∈ text := by
  rcases starts with ⟨rest, skipped⟩
  apply List.dropWhile_subset
  rw [ProcedureParameters.skipSpaces] at skipped
  rw [skipped]
  simp

theorem getObject_parseValue {strtod : JsonValue.Strtod} {levels : ℕ} {text rest : ByteString}
    {json : JsonValue} (noBrace : 123 ∉ text)
    (parsed : JsonValue.parseValue strtod levels text = some (json, rest)) :
    json.getObject = none := by
  cases levels with
  | zero => simp [JsonValue.parseValue] at parsed
  | succ levels =>
      rw [JsonValue.parseValue] at parsed
      cases skipped : JsonValue.skipWhitespaces text with
      | nil => simp [skipped] at parsed
      | cons byte others =>
          have byte_ne : byte ≠ 123 := by
            rintro rfl
            apply noBrace
            apply List.dropWhile_subset isSpace
            rw [JsonValue.skipWhitespaces] at skipped
            rw [skipped]
            simp
          simp only [skipped, if_neg byte_ne] at parsed
          split at parsed
          · rw [JsonValue.parseArrayValue] at parsed
            split at parsed
            · simp only [Option.some.injEq, Prod.mk.injEq] at parsed
              rw [← parsed.1]
              rfl
            · simp only [Option.bind_eq_bind, Option.bind_eq_some_iff, Option.pure_def,
                Option.some.injEq, Prod.mk.injEq] at parsed
              rcases parsed with ⟨_, _, rfl, _⟩
              rfl
          · split at parsed
            · simp only [JsonValue.parseStringValue, Option.bind_eq_bind,
                Option.bind_eq_some_iff, Option.pure_def, Option.some.injEq,
                Prod.mk.injEq] at parsed
              rcases parsed with ⟨_, _, rfl, _⟩
              rfl
            · split at parsed
              · rw [JsonValue.parseBooleanValue] at parsed
                split at parsed
                · simp only [Option.some.injEq, Prod.mk.injEq] at parsed
                  rw [← parsed.1]
                  rfl
                · split at parsed
                  · simp only [Option.some.injEq, Prod.mk.injEq] at parsed
                    rw [← parsed.1]
                    rfl
                  · simp at parsed
              · split at parsed
                · simp only [JsonValue.parseNumberValue, Option.bind_eq_bind,
                    Option.bind_eq_some_iff] at parsed
                  rcases parsed with ⟨_, _, printed⟩
                  split at printed
                  · simp only [Option.pure_def, Option.some.injEq, Prod.mk.injEq] at printed
                    rw [← printed.1]
                    rfl
                  · simp at printed
                · split at parsed
                  · rw [JsonValue.parseNullValue] at parsed
                    split at parsed
                    · simp only [Option.some.injEq, Prod.mk.injEq] at parsed
                      rw [← parsed.1]
                      rfl
                    · simp at parsed
                  · simp at parsed

theorem getObject_parseString {strtod : JsonValue.Strtod} {text : ByteString} {json : JsonValue}
    (noBrace : 123 ∉ text) (parsed : JsonValue.parseString strtod text = some json) :
    json.getObject = none := by
  rw [JsonValue.parseString, Option.map_eq_some_iff] at parsed
  rcases parsed with ⟨⟨read, rest⟩, parsed, rfl⟩
  refine getObject_parseValue ?_ parsed
  rw [JsonValue.skipByteOrderMark]
  split
  · exact fun mem => noBrace (List.mem_of_mem_drop mem)
  · exact noBrace

theorem parsePayload_plain (jsonParse : JsonParser) {payload : ByteString}
    (starts : StartsWithBrace payload) :
    parsePayload jsonParse payload = JsonWrapper.fromString jsonParse payload := by
  rcases Base64.base64Decode_refused (mem_of_startsWithBrace starts) (by rfl) with
    ⟨failure, refused⟩
  simp only [parsePayload, JsonWrapper.fromBase64, refused]
  rfl

theorem parsePayload_encode (jsonParse : JsonParser) (payload : ByteString) :
    parsePayload jsonParse (Base64.encode payload) =
      match JsonWrapper.fromString jsonParse payload with
      | .ok json => .ok json
      | .error _ => JsonWrapper.fromString jsonParse (Base64.encode payload) := by
  have decoded : JsonWrapper.fromBase64 jsonParse (Base64.encode payload) =
      JsonWrapper.fromString jsonParse payload := by
    rw [JsonWrapper.fromBase64, Base64.base64Decode_encode]
    rfl
  cases read : JsonWrapper.fromString jsonParse payload with
  | ok json => simp only [parsePayload, decoded, read]
  | error failure => simp only [parsePayload, decoded, read]

/-- The second reading of an encoded payload never gives an object. -/
theorem fromString_encode (strtod : JsonValue.Strtod) (payload : ByteString) {json : JsonValue}
    (read : JsonWrapper.fromString (JsonValue.parseString strtod) (Base64.encode payload) =
      .ok json) : json.getObject = none := by
  have noBrace : 123 ∉ (Base64.encode payload).cString := by
    intro mem
    have inAlphabet := List.all_eq_true.mp (Base64.all_encode payload) 123
      (List.takeWhile_subset _ mem)
    exact absurd inAlphabet (by decide)
  rw [JsonWrapper.fromString] at read
  cases parsed : JsonValue.parseString strtod (Base64.encode payload).cString with
  | none => simp [parsed] at read
  | some value =>
      simp only [parsed, Except.ok.injEq] at read
      subst read
      exact getObject_parseString noBrace parsed

/-- The encoded payload describes the same procedure, or both describe none. -/
theorem readProcedure_encode (strtod : JsonValue.Strtod) (payload : ByteString)
    (starts : StartsWithBrace payload) :
    readProcedure (JsonValue.parseString strtod) (Base64.encode payload) =
        readProcedure (JsonValue.parseString strtod) payload ∨
      ∃ failure failure',
        readProcedure (JsonValue.parseString strtod) payload = .error failure ∧
        readProcedure (JsonValue.parseString strtod) (Base64.encode payload) = .error failure' := by
  rw [readProcedure, readProcedure, parsePayload_plain _ starts, parsePayload_encode]
  cases JsonWrapper.fromString (JsonValue.parseString strtod) payload with
  | ok json => exact .inl rfl
  | error failure =>
      right
      cases again : JsonWrapper.fromString (JsonValue.parseString strtod)
          (Base64.encode payload) with
      | error failure' => exact ⟨failure, failure', rfl, rfl⟩
      | ok json =>
          simp only [fromString_encode strtod payload again]
          exact ⟨_, _, rfl, rfl⟩

variable {σ : Type}

/-- A payload that starts with a brace is not taken for base64, and encoding it changes neither
whether `SetProcedure` succeeds nor what it does to the database. -/
theorem setProcedure_encode (setup : EngineSetup σ) (strtod : JsonValue.Strtod)
    (parser_eq : setup.jsonParse = JsonValue.parseString strtod) (engine : Engine σ)
    (ruleName : ByteString) {payload : ByteString} (starts : StartsWithBrace payload) :
    (∃ failure, Base64.base64Decode payload = .error failure) ∧
    (engine.setProcedure setup ruleName (Base64.encode payload)).2 =
      (engine.setProcedure setup ruleName payload).2 ∧
    (((engine.setProcedure setup ruleName payload).1 = .value .compliant ∧
        (engine.setProcedure setup ruleName (Base64.encode payload)).1 = .value .compliant) ∨
      ∃ failure failure', (engine.setProcedure setup ruleName payload).1 = .error failure ∧
        (engine.setProcedure setup ruleName (Base64.encode payload)).1 = .error failure') := by
  refine ⟨Base64.base64Decode_refused (mem_of_startsWithBrace starts) (by rfl), ?_⟩
  rw [setProcedure, setProcedure, parser_eq]
  split
  · exact ⟨rfl, .inr ⟨_, _, rfl, rfl⟩⟩
  · rcases readProcedure_encode strtod payload starts with same | ⟨_, _, refused, refused'⟩
    · rw [same]
      cases readProcedure (JsonValue.parseString strtod) payload with
      | error failure => exact ⟨rfl, .inr ⟨_, _, rfl, rfl⟩⟩
      | ok procedure => exact ⟨rfl, .inl ⟨rfl, rfl⟩⟩
    · rw [refused, refused']
      exact ⟨rfl, .inr ⟨_, _, rfl, rfl⟩⟩

/-- The payload of a rule without procedures, and what a client makes of it. -/
theorem setProcedure_encode_empty_audit :
    Base64.encode (bytes "\x7b\"audit\":\x7b\x7d\x7d") = bytes "eyJhdWRpdCI6e319" ∧
    (({ context := () } : Engine Unit).setProcedure
        { env := ⟨∅, fun _ _ => .error []⟩, jsonParse := JsonValue.parseString fun _ => none,
          formatter := .debug } (bytes "rule") (bytes "eyJhdWRpdCI6e319")).2 =
      (({ context := () } : Engine Unit).setProcedure
        { env := ⟨∅, fun _ _ => .error []⟩, jsonParse := JsonValue.parseString fun _ => none,
          formatter := .debug } (bytes "rule") (bytes "\x7b\"audit\":\x7b\x7d\x7d")).2 := by
  have encoded : Base64.encode (bytes "\x7b\"audit\":\x7b\x7d\x7d") =
      bytes "eyJhdWRpdCI6e319" := by
    decide
  refine ⟨encoded, ?_⟩
  rw [← encoded]
  exact (setProcedure_encode _ (fun _ => none) rfl _ (bytes "rule") ⟨_, rfl⟩).2.1

end Engine

end OsConfig.ComplianceEngine
