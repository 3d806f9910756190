import OsConfig.ComplianceEngine.Engine
import OsConfig.ComplianceEngine.Evaluator.Recording

/-!
# The module interface

What clients of the module see. The client decides from the beginning of the
returned JSON string whether the audit passed, so no payload of a failed audit
may begin like that of a passed one, whatever names and messages it carries.
-/

namespace OsConfig.ComplianceEngine.Interface

variable {σ : Type}

def moduleTestClientName : ByteString := bytes "ModuleTestClient"

def nrpClientName : ByteString := bytes "ComplianceEngine"

/-- `g_criticalErrors`. -/
def criticalErrors : List ℤ := [Errno.ENOMEM]

/-- The formatter `ComplianceEngineMmiOpen` selects. -/
def selectFormatter (clientName : ByteString) : PayloadFormatter :=
  if clientName = moduleTestClientName then .debug
  else if clientName = nrpClientName then .nestedList
  else .json

/-- A client session: the engine and what it was built over. -/
structure Session (σ : Type) where
  setup : EngineSetup σ
  engine : Engine σ

/-- `ComplianceEngineMmiOpen`; the distribution info is loaded, or its error closes the session. -/
def mmiOpen (env : Environment σ) (jsonParse : JsonParser) (context : σ)
    (distributionError : Option Error) (clientName : ByteString) : Option (Session σ) :=
  match distributionError with
  | some _ => none
  | none =>
      some { setup := { env, jsonParse, formatter := selectFormatter clientName }
             engine := { context } }

/-- The conversion of a length to `int`. -/
def toInt (length : ℕ) : ℤ :=
  Int.bmod length (2 ^ 32)

/-- What `ComplianceEngineMmiGet` returns and writes. -/
structure GetResult where
  code : ℤ
  payload : Option ByteString := none
  payloadSizeBytes : ℤ := 0
  deriving DecidableEq

/-- The audit result that `ComplianceEngineMmiGet` reports: a non-critical error is a failed
audit. -/
def reported (outcome : Outcome AuditResult) : Outcome AuditResult :=
  match outcome with
  | .error failure =>
      if failure.code ∈ criticalErrors then .error failure
      else
        .value { status := .nonCompliant
                 payload := bytes "Audit failed with a non-critical error: " ++ failure.message }
  | other => other

def verdictText (result : AuditResult) : ByteString :=
  if result.status = .compliant ∨ result.status = .notApplicable then
    bytes "PASS" ++ result.payload
  else result.payload

/-- The last part of `ComplianceEngineMmiGet`: the text as a JSON string. -/
def respond (result : AuditResult) : GetResult :=
  match JsonValue.initString (verdictText result) with
  | none => { code := Errno.ENOMEM }
  | some json =>
      { code := 0
        payload := some json.serializeToString
        payloadSizeBytes := toInt json.serializeToString.length }

/-- `ComplianceEngineMmiGet`; the flags say that the two result pointers are not null. -/
def mmiGet (clientSession : Option (Session σ)) (componentName objectName : Option ByteString)
    (payload payloadSizeBytes : Bool) : Outcome GetResult × Option (Session σ) :=
  match clientSession, componentName, objectName with
  | some session, some componentName, some objectName =>
      if !payload || !payloadSizeBytes || componentName ≠ bytes "ComplianceEngine" then
        (.value { code := Errno.EINVAL }, some session)
      else
        let audited := session.engine.mmiGet session.setup (some objectName)
        let after := some { session with engine := audited.2 }
        match reported audited.1 with
        | .value result => (.value (respond result), after)
        | .error failure => (.value { code := failure.code }, after)
        | .thrown _ => (.value { code := -1 }, after)
        | .aborted => (.aborted, after)
  | session, _, _ => (.value { code := Errno.EINVAL }, session)

/-- The first letter of the verdict that clients look for. -/
def LooksPassed (text : ByteString) : Prop :=
  text.head? = some 80

theorem looksPassed_of_startsWith {text : ByteString}
    (passes : ByteString.startsWith text (bytes "PASS") = true) : LooksPassed text := by
  rw [ByteString.startsWith, List.isPrefixOf_iff_prefix] at passes
  rcases passes with ⟨rest, rfl⟩
  rfl

theorem not_looksPassed_nestedList {root : Node} {text : ByteString}
    (formatted : NestedListFormatter.format root = .value text) : ¬LooksPassed text := by
  rw [NestedListFormatter.format] at formatted
  split at formatted
  · simp at formatted
  · simp only [Outcome.value.injEq] at formatted
    subst formatted
    cases root.status <;> exact Option.some_injective _ |>.ne (by decide)

theorem not_looksPassed_json {root : Node} {text : ByteString}
    (formatted : JsonFormatter.format root = .value text) : ¬LooksPassed text := by
  rw [JsonFormatter.format] at formatted
  split at formatted
  · simp at formatted
  · rename_i entries entries_eq
    simp only [Outcome.value.injEq] at formatted
    subst formatted
    cases entries <;> exact Option.some_injective _ |>.ne (by decide)

theorem not_looksPassed_debugNode {node : Node} {text : ByteString}
    (formatted : DebugFormatter.formatNode node = some text) : ¬LooksPassed text := by
  have opening : ∃ rest, text = 123 :: rest := by
    rcases node with ⟨data, children⟩
    rw [DebugFormatter.formatNode] at formatted
    split at formatted
    · simp only [Option.bind_eq_bind, Option.bind_eq_some_iff, Option.pure_def,
        Option.some.injEq] at formatted
      rcases formatted with ⟨operands, -, rfl⟩
      exact ⟨_, rfl⟩
    · split at formatted
      · simp only [Option.bind_eq_bind, Option.bind_eq_some_iff, Option.pure_def,
          Option.some.injEq] at formatted
        rcases formatted with ⟨operand, -, rfl⟩
        exact ⟨_, rfl⟩
      · simp only [Option.some.injEq] at formatted
        exact ⟨_, formatted.symm⟩
  rcases opening with ⟨rest, rfl⟩
  exact Option.some_injective _ |>.ne (by decide)

theorem not_looksPassed_format {clientName text : ByteString} {tree : IndicatorsTree}
    (formatted : (selectFormatter clientName).format tree = .value text) :
    ¬LooksPassed text := by
  rw [PayloadFormatter.format] at formatted
  cases root_eq : tree.root with
  | none => simp [root_eq] at formatted
  | some root =>
      simp only [root_eq, selectFormatter] at formatted
      split at formatted
      · simp only [PayloadFormatter.formatRoot, DebugFormatter.format] at formatted
        split at formatted
        · simp at formatted
        · split at formatted
          · simp at formatted
          · rename_i nodeText nodeText_eq
            simp only [Outcome.value.injEq] at formatted
            subst formatted
            exact not_looksPassed_debugNode nodeText_eq
      · split at formatted
        · exact not_looksPassed_nestedList formatted
        · exact not_looksPassed_json formatted

theorem not_looksPassed_mmiGet {setup : EngineSetup σ} {clientName : ByteString}
    (selected : setup.formatter = selectFormatter clientName) {engine : Engine σ}
    {objectName : Option ByteString} {result : AuditResult}
    (audited : (engine.mmiGet setup objectName).1 = .value result) :
    ¬LooksPassed result.payload := by
  rcases Engine.mmiGet_eq_value audited with ⟨name, procedure, rule, -, -, -, ran⟩
  rw [selected] at ran
  rcases Evaluator.executeAudit_eq_value ran with
    ⟨state, -, formatted | ⟨failure, -, payload_eq⟩⟩
  · exact not_looksPassed_format formatted
  · rw [payload_eq]
    exact Option.some_injective _ |>.ne (by decide)

/-- Escaping does not produce the letter. -/
theorem head_escape (byte : UInt8) (rest : ByteString) :
    ((JsonValue.escape byte ++ rest).head? = some 80) ↔ byte = 80 := by
  constructor
  · intro head_eq
    by_contra different
    revert head_eq
    rw [JsonValue.escape]
    repeat' split
    all_goals first
      | exact Option.some_injective _ |>.ne (by decide)
      | simpa using different
  · rintro rfl
    rfl

/-- The reported JSON string begins with the verdict exactly if the text does. -/
theorem startsWith_serialize {result : AuditResult} (notPassed : ¬LooksPassed result.payload) :
    ByteString.startsWith
        (JsonValue.serializeToString (.string (verdictText result).cString)) (bytes "\"PASS") ↔
      result.status = .compliant ∨ result.status = .notApplicable := by
  rw [verdictText]
  constructor
  · intro passes
    by_contra failed
    rw [if_neg failed] at passes
    apply notPassed
    rw [ByteString.startsWith, List.isPrefixOf_iff_prefix] at passes
    rcases passes with ⟨rest, serialized⟩
    -- the letter after the opening quote
    have letter := congrArg (fun text => text.tail.head?) serialized
    cases text_eq : result.payload.cString with
    | nil =>
        rw [text_eq] at letter
        exact absurd letter (Option.some_injective _ |>.ne (by decide))
    | cons byte others =>
        rw [text_eq] at letter
        have byte_eq : byte = 80 := by
          apply (head_escape byte (others.flatMap JsonValue.escape ++ bytes "\"")).mp
          rw [← List.append_assoc, ← List.flatMap_cons]
          exact letter.symm
        have payload_head : result.payload.head? = result.payload.cString.head? := by
          rw [ByteString.cString] at text_eq ⊢
          cases payload_eq : result.payload with
          | nil => rfl
          | cons first later =>
              rw [payload_eq, List.takeWhile_cons] at text_eq
              split at text_eq
              · rename_i nonzero
                rw [List.takeWhile_cons, if_pos nonzero]
                rfl
              · simp at text_eq
        rw [LooksPassed, payload_head, text_eq, byte_eq]
        rfl
  · intro passed
    rw [if_pos passed]
    rfl

/-- When the audit yields a status, the reported string begins with `PASS` exactly if the rule
is compliant or does not apply; and no output of a selectable formatter begins so itself. -/
theorem mmiGet_pass_iff {session : Session σ} {clientName : ByteString}
    (opened : session.setup.formatter = selectFormatter clientName) {objectName : ByteString}
    {result : AuditResult}
    (audited : (session.engine.mmiGet session.setup (some objectName)).1 = .value result)
    {reply : GetResult} {payload : ByteString}
    (replied : (mmiGet (some session) (some (bytes "ComplianceEngine")) (some objectName) true
      true).1 = .value reply)
    (produced : reply.payload = some payload) :
    (ByteString.startsWith payload (bytes "\"PASS") ↔
      result.status = .compliant ∨ result.status = .notApplicable) ∧
    ∀ tree text, session.setup.formatter.format tree = .value text →
      ¬ByteString.startsWith text (bytes "PASS") := by
  constructor
  · simp only [mmiGet, audited, reported, ne_eq, not_true_eq_false, decide_false,
      Bool.not_true, Bool.or_self, Bool.false_eq_true, if_false, Outcome.value.injEq] at replied
    rw [← replied, respond] at produced
    rw [← startsWith_serialize (not_looksPassed_mmiGet opened audited)]
    rw [JsonValue.initString] at produced
    split at produced
    · simp at produced
    · rename_i json json_eq
      split at json_eq
      · simp only [Option.some.injEq] at json_eq produced
        rw [← produced, ← json_eq]
      · simp at json_eq
  · intro tree text formatted passes
    rw [opened] at formatted
    exact not_looksPassed_format formatted (looksPassed_of_startsWith passes)

/-- A session with one stored rule that fails. -/
def failingSession : Session Unit where
  setup := { env := Evaluator.answering [(bytes "A", .nonCompliant)]
             jsonParse := fun _ => none
             formatter := selectFormatter nrpClientName }
  engine := { database := (∅ : Std.ExtTreeMap ByteString Procedure).insert (bytes "r")
                { auditRule := some (.object [(bytes "A", .object [])]) }
              context := () }

theorem mmiGet_pass_iff_failing :
    (mmiGet (some failingSession) (some (bytes "ComplianceEngine")) (some (bytes "auditr")) true
      true).1 = .value { code := 0
                         payload := some (bytes "\"\u274c r\\n\\t\u274c A\\n\"")
                         payloadSizeBytes := 18 } ∧
    ¬ByteString.startsWith (bytes "\"\u274c r\\n\\t\u274c A\\n\"") (bytes "\"PASS") := by
  have audited : (failingSession.engine.mmiGet failingSession.setup (some (bytes "auditr"))).1 =
      .value { status := .nonCompliant, payload := bytes "\u274c r\n\t\u274c A\n" } := by
    decide
  have replied : (mmiGet (some failingSession) (some (bytes "ComplianceEngine"))
      (some (bytes "auditr")) true true).1 =
        .value { code := 0
                 payload := some (bytes "\"\u274c r\\n\\t\u274c A\\n\"")
                 payloadSizeBytes := 18 } := by
    decide
  have opened : failingSession.setup.formatter = selectFormatter nrpClientName := rfl
  refine ⟨replied, ?_⟩
  rw [(mmiGet_pass_iff opened audited replied rfl).1]
  decide

end OsConfig.ComplianceEngine.Interface
