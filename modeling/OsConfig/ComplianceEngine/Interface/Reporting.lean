import OsConfig.ComplianceEngine.Interface
import OsConfig.Common.Parson.Validity

/-!
# Which audits are reported

`ComplianceEngineMmiGet` wraps the payload of an audit into a JSON string. The
library refuses bytes that are not valid UTF-8, and the refusal is answered as if
memory had run out. What the payload is made of besides fixed texts are names and
messages, and messages quote what is found on the machine. So an audit is
reported exactly if the names and messages that are shown are valid, up to the
first NUL. `JsonFormatter` checks its strings itself and shows only valid ones.
-/

namespace OsConfig.ComplianceEngine

open Utf8 (IsText Writes ValidUpToNul)

namespace NestedListFormatter

def shownMessages (shown : ℕ) (indicators : List Indicator) : List ByteString :=
  match indicators with
  | [] => []
  | indicator :: rest =>
      if maxNodeCompliantIndicators < countCompliant shown indicator.status then
        shownMessages (countCompliant shown indicator.status) rest
      else
        indicator.message :: shownMessages (countCompliant shown indicator.status) rest

mutual

/-- The names and messages that are shown below a node. -/
def shownNode (node : Node) : List ByteString :=
  match node with
  | ⟨data, children⟩ => shownChildren 0 children ++ shownMessages 0 data.indicators
termination_by structural node

def shownChildren (shown : ℕ) (children : List Node) : List ByteString :=
  match children with
  | [] => []
  | child :: rest =>
      if maxNodeCompliantIndicators < countCompliant shown (Node.status child) then
        shownChildren (countCompliant shown (Node.status child)) rest
      else
        Node.procedureName child :: shownNode child ++
          shownChildren (countCompliant shown (Node.status child)) rest
termination_by structural children

end

theorem isText_lead (depth : ℕ) (status : Status) (ignored : Ignored) :
    IsText (List.replicate depth 9 ++ emoji status ignored ++ bytes " ") := by
  have tabs : IsText (List.replicate depth 9) := by
    refine Utf8.isText_ascii fun byte mem => ?_
    rw [(List.mem_replicate.mp mem).2]
    decide
  have symbol : IsText (emoji status ignored ++ bytes " ") := by
    cases status <;> cases ignored <;> decide
  rw [List.append_assoc]
  exact tabs.append symbol

theorem writes_line (depth : ℕ) (status : Status) (ignored : Ignored) (text : ByteString) :
    Writes [text] (line depth status ignored text) := by
  have newline : bytes "\n" = [10] := by decide
  rw [line, newline, List.append_assoc]
  exact .fixed (isText_lead depth status ignored) (.text text (by decide) (by decide) .nil)

theorem writes_formatIndicators (depth : ℕ) (ignored : Ignored) (shown : ℕ)
    (indicators : List Indicator) :
    Writes (shownMessages shown indicators)
      (formatIndicators depth ignored shown indicators) := by
  induction indicators generalizing shown with
  | nil => exact .nil
  | cons indicator rest ih =>
      rw [shownMessages, formatIndicators]
      split
      · exact ih _
      · exact (writes_line depth indicator.status ignored indicator.message).append (ih _)

theorem writes_formatChildren {parent : ByteString} {depth : ℕ} {ignored : Ignored}
    {children : List Node} (shown : ℕ)
    (written : ∀ child ∈ children, ∀ depth ignored lines,
      formatNode depth ignored child = some lines → Writes (shownNode child) lines)
    (lines : ByteString)
    (formatted : formatChildren parent depth ignored shown children = some lines) :
    Writes (shownChildren shown children) lines := by
  induction children generalizing shown lines with
  | nil =>
      simp only [formatChildren, Option.some.injEq] at formatted
      subst formatted
      exact .nil
  | cons child rest ih =>
      have later := fun shown =>
        ih shown fun other mem => written other (List.mem_cons_of_mem _ mem)
      rw [formatChildren] at formatted
      rw [shownChildren]
      split at formatted
      · rename_i skipped
        rw [if_pos skipped]
        exact later _ _ formatted
      · rename_i kept
        rw [if_neg kept]
        split at formatted
        · simp at formatted
        · simp only [Option.bind_eq_bind, Option.bind_eq_some_iff, Option.pure_def,
            Option.some.injEq] at formatted
          rcases formatted with ⟨childLines, childFormatted, others, othersFormatted, rfl⟩
          have here := writes_line depth child.status
            (childIgnored parent rest.isEmpty child.status ignored) child.procedureName
          exact (here.append (written child (by simp) _ _ _ childFormatted)).append
            (later _ _ othersFormatted)

theorem writes_formatNode (node : Node) (depth : ℕ) (ignored : Ignored) (lines : ByteString)
    (formatted : formatNode depth ignored node = some lines) : Writes (shownNode node) lines := by
  induction node using RoseTree.childInduction generalizing depth ignored lines with
  | step data children ih =>
      simp only [formatNode, Option.bind_eq_bind, Option.bind_eq_some_iff, Option.pure_def,
        Option.some.injEq] at formatted
      rcases formatted with ⟨childLines, childrenFormatted, rfl⟩
      rw [shownNode]
      exact (writes_formatChildren 0 ih childLines childrenFormatted).append
        (writes_formatIndicators depth ignored 0 data.indicators)

theorem writes_format {root : Node} {payload : ByteString}
    (formatted : format root = .value payload) :
    Writes (root.procedureName :: shownNode root) payload := by
  rw [format] at formatted
  split at formatted
  · simp at formatted
  · rename_i lines lines_eq
    simp only [Outcome.value.injEq] at formatted
    subst formatted
    exact (writes_line 0 root.status .no root.procedureName).append
      (writes_formatNode root 1 .no lines lines_eq)

end NestedListFormatter

namespace DebugFormatter

mutual

/-- The names and messages that are shown of a node. -/
def shownNode (node : Node) : List ByteString :=
  match node with
  | ⟨data, children⟩ =>
      if data.procedureName = anyOfName ∨ data.procedureName = allOfName then
        data.procedureName :: shownChildren children
      else if data.procedureName = notName then
        data.procedureName :: shownFirst children
      else
        data.procedureName :: data.indicators.map Indicator.message
termination_by structural node

def shownChildren (children : List Node) : List ByteString :=
  match children with
  | [] => []
  | child :: rest => shownNode child ++ shownChildren rest
termination_by structural children

def shownFirst (children : List Node) : List ByteString :=
  match children with
  | [] => []
  | child :: _ => shownNode child
termination_by structural children

end

/-- Only the first child of the root is shown. -/
def shown (root : Node) : List ByteString :=
  shownFirst root.children

theorem isText_verdict (status : Status) : IsText (verdict status) := by
  cases status <;> decide

theorem writes_messages (indicators : List Indicator) {rest : ByteString}
    (later : Writes [] rest) :
    Writes (indicators.map Indicator.message) (messages indicators ++ (32 :: rest)) := by
  have comma : bytes ", " = [44, 32] := by decide
  induction indicators with
  | nil =>
      have gap : IsText [32] := by decide
      show Writes [] ([32] ++ rest)
      exact .fixed gap later
  | cons indicator others ih =>
      cases others with
      | nil =>
          simp only [messages, List.map_cons, List.map_nil, List.intersperse, List.flatten_cons,
            List.flatten_nil, List.append_nil]
          exact .text indicator.message (by decide) (by decide) later
      | cons next more =>
          have split : messages (indicator :: next :: more) =
              indicator.message ++ 44 :: ([32] ++ messages (next :: more)) := by
            simp [messages, comma]
          rw [split, List.append_assoc, List.cons_append, List.append_assoc]
          exact .text indicator.message (by decide) (by decide)
            (.fixed (show IsText [32] by decide) ih)

theorem writes_formatChildren {children : List Node}
    (written : ∀ child ∈ children, ∀ text, formatNode child = some text →
      Writes (shownNode child) text) (first : Bool) (text : ByteString)
    (formatted : formatChildren first children = some text) :
    Writes (shownChildren children) text := by
  induction children generalizing first text with
  | nil =>
      simp only [formatChildren, Option.some.injEq] at formatted
      subst formatted
      exact .nil
  | cons child rest ih =>
      have comma : IsText (if first then [] else bytes ", ") := by
        cases first <;> decide
      simp only [formatChildren, Option.bind_eq_bind, Option.bind_eq_some_iff, Option.pure_def,
        Option.some.injEq] at formatted
      rcases formatted with ⟨childText, childFormatted, others, othersFormatted, rfl⟩
      have later := ih (fun other mem => written other (List.mem_cons_of_mem _ mem)) false others
        othersFormatted
      rw [shownChildren, List.append_assoc]
      exact .fixed comma ((written child (by simp) _ childFormatted).append later)

theorem writes_formatNode (node : Node) (text : ByteString)
    (formatted : formatNode node = some text) : Writes (shownNode node) text := by
  have fixed : IsText (bytes "\x7b ") ∧ IsText (bytes " [") ∧ IsText (bytes "]\x7d == ") ∧
      IsText (bytes " ") ∧ IsText (bytes "\x7d == ") := by
    decide
  have colons : bytes ": [" = 58 :: bytes " [" ∧ bytes ": " = 58 :: bytes " " ∧
      bytes " \x7d == " = 32 :: bytes "\x7d == " := by
    decide
  rcases fixed with ⟨opening, bracket, closing, gap, closingBrace⟩
  rcases colons with ⟨colonBracket, colon, closingGap⟩
  induction node using RoseTree.childInduction generalizing text with
  | step data children ih =>
      have ending (part : ByteString) (isText : IsText part) :
          Writes [] (part ++ verdict data.status) :=
        .fixed isText (Utf8.writes_fixed (isText_verdict data.status))
      rw [formatNode] at formatted
      rw [shownNode]
      split at formatted
      · rename_i isList
        simp only [Option.bind_eq_bind, Option.bind_eq_some_iff, Option.pure_def,
          Option.some.injEq] at formatted
        rcases formatted with ⟨operands, operandsFormatted, rfl⟩
        have inner := writes_formatChildren ih true operands operandsFormatted
        rw [if_pos isList, colonBracket]
        simp only [List.append_assoc, List.cons_append]
        refine .fixed opening (.text data.procedureName (by decide) (by decide) ?_)
        simpa using Writes.fixed bracket (inner.append (ending _ closing))
      · rename_i notList
        rw [if_neg notList]
        split at formatted
        · rename_i isNot
          simp only [Option.bind_eq_bind, Option.bind_eq_some_iff, Option.pure_def,
            Option.some.injEq] at formatted
          rcases formatted with ⟨operand, operandFormatted, rfl⟩
          rw [if_pos isNot, colon]
          simp only [List.append_assoc, List.cons_append]
          cases children with
          | nil => simp [formatFirst] at operandFormatted
          | cons child rest =>
              have inner := ih child (by simp) operand operandFormatted
              refine .fixed opening (.text data.procedureName (by decide) (by decide) ?_)
              simpa [shownFirst] using Writes.fixed gap (inner.append (ending _ closingBrace))
        · rename_i notNot
          simp only [Option.some.injEq] at formatted
          subst formatted
          rw [if_neg notNot, colon, closingGap]
          simp only [List.append_assoc, List.cons_append]
          refine .fixed opening (.text data.procedureName (by decide) (by decide) ?_)
          exact .fixed gap (writes_messages data.indicators (ending _ closingBrace))

theorem writes_format {root : Node} {payload : ByteString}
    (formatted : format root = .value payload) : Writes (shown root) payload := by
  rw [format] at formatted
  rw [shown]
  split at formatted
  · simp at formatted
  · rename_i child rest children_eq
    split at formatted
    · simp at formatted
    · rename_i text text_eq
      simp only [Outcome.value.injEq] at formatted
      subst formatted
      rw [children_eq, shownFirst]
      exact writes_formatNode child text text_eq

theorem writes_failure {root : Node} {failure : Error} (failed : format root = .error failure) :
    shown root = [] ∧ IsText failure.message := by
  rw [format] at failed
  split at failed
  · rename_i children_eq
    simp only [Outcome.error.injEq] at failed
    subst failed
    refine ⟨by rw [shown, children_eq, shownFirst], ?_⟩
    exact show IsText (bytes "No children found") by decide
  · split at failed <;> simp at failed

end DebugFormatter

namespace JsonFormatter

open Utf8 (ValidStrings)

theorem validStrings_setString {text : ByteString} {value : JsonValue}
    (stored : setString text = .ok value) : ValidStrings value := by
  rw [setString, JsonValue.initString] at stored
  by_cases valid : Utf8.isValid text.cString = true
  · simp only [if_pos valid, Except.ok.injEq] at stored
    subst stored
    exact .string valid
  · simp [if_neg valid] at stored

theorem setString_failure {text : ByteString} {failure : Error}
    (failed : setString text = .error failure) : IsText failure.message := by
  rw [setString, JsonValue.initString] at failed
  by_cases valid : Utf8.isValid text.cString = true
  · simp [if_pos valid] at failed
  · simp only [if_neg valid, Except.error.injEq] at failed
    subst failed
    exact show IsText (bytes "Failed to set JSON object string") by decide

/-- What a step of the formatter may return: values with valid strings, or a textual failure. -/
def Sound {α : Type} (valid : α → Prop) (result : Result α) : Prop :=
  (∀ value, result = .ok value → valid value) ∧
    ∀ failure, result = .error failure → IsText failure.message

theorem Sound.bind {α β : Type} {valid : α → Prop} {others : β → Prop} {result : Result α}
    {next : α → Result β} (sound : Sound valid result)
    (continues : ∀ value, valid value → Sound others (next value)) :
    Sound others (result >>= next) := by
  cases result with
  | ok value => exact continues value (sound.1 value rfl)
  | error failure =>
      refine ⟨fun value equal => ?_, fun other equal => ?_⟩
      · cases equal
      · cases equal
        exact sound.2 _ rfl

theorem sound_ok {α : Type} {valid : α → Prop} {value : α} (here : valid value) :
    Sound valid (.ok value) := by
  refine ⟨fun other equal => ?_, fun failure equal => ?_⟩
  · cases equal
    exact here
  · cases equal

theorem sound_setString (text : ByteString) : Sound ValidStrings (setString text) :=
  ⟨fun _ => validStrings_setString, fun _ => setString_failure⟩

theorem validStrings_members {members : JsonObject}
    (valid : ∀ member ∈ members, IsText member.1 ∧ ValidStrings member.2) :
    ValidStrings (.object members) :=
  .object (fun member mem => (valid member mem).1.1) fun member mem => (valid member mem).2

theorem sound_indicatorValue (indicator : Indicator) :
    Sound ValidStrings (indicatorValue indicator) := by
  have names : IsText (bytes "message") ∧ IsText (bytes "status") := by decide
  refine (sound_setString _).bind fun message validMessage => ?_
  refine (sound_setString _).bind fun status validStatus => ?_
  refine sound_ok (validStrings_members ?_)
  simp [names.1, names.2, validMessage, validStatus]

theorem sound_indicators (indicators : List Indicator) :
    Sound (fun values => ∀ value ∈ values, ValidStrings value)
      (indicators.mapM indicatorValue) := by
  induction indicators with
  | nil => exact sound_ok (by simp)
  | cons indicator rest ih =>
      rw [List.mapM_cons]
      refine (sound_indicatorValue indicator).bind fun value valid => ih.bind fun values others => ?_
      refine sound_ok ?_
      simpa [valid] using others

theorem sound_formatChildren {children : List Node}
    (sound : ∀ child ∈ children,
      Sound (fun values => ∀ value ∈ values, ValidStrings value) (formatNode child)) :
    Sound (fun values => ∀ value ∈ values, ValidStrings value) (formatChildren children) := by
  have names : IsText (bytes "procedure") ∧ IsText (bytes "status") ∧
      IsText (bytes "indicators") := by
    decide
  induction children with
  | nil => exact sound_ok (by simp)
  | cons child rest ih =>
      have later := ih fun other mem => sound other (List.mem_cons_of_mem _ mem)
      rw [formatChildren]
      refine (sound_setString _).bind fun procedure validProcedure => ?_
      refine (sound_setString _).bind fun status validStatus => ?_
      refine (sound child (by simp)).bind fun entries validEntries => ?_
      refine later.bind fun others validOthers => sound_ok ?_
      have here : ValidStrings (.object [(bytes "procedure", procedure), (bytes "status", status),
          (bytes "indicators", .array entries)]) := by
        refine validStrings_members ?_
        simp [names.1, names.2.1, names.2.2, validProcedure, validStatus,
          ValidStrings.array validEntries]
      simpa [here] using validOthers

theorem sound_formatNode (node : Node) :
    Sound (fun values => ∀ value ∈ values, ValidStrings value) (formatNode node) := by
  induction node using RoseTree.childInduction with
  | step data children ih =>
      rw [formatNode]
      refine (sound_formatChildren ih).bind fun entries validEntries => ?_
      refine (sound_indicators data.indicators).bind fun values validValues => sound_ok ?_
      intro value mem
      rcases List.mem_append.mp mem with mem | mem
      · exact validEntries value mem
      · exact validValues value mem

/-- Nothing invalid is written. -/
theorem writes_format {root : Node} {payload : ByteString}
    (formatted : format root = .value payload) : Writes [] payload := by
  rw [format] at formatted
  split at formatted
  · simp at formatted
  · rename_i entries entries_eq
    simp only [Outcome.value.injEq] at formatted
    subst formatted
    have valid := (sound_formatNode root).1 entries entries_eq
    exact Utf8.writes_fixed (Utf8.isText_serialize true 0 (.array valid))

theorem writes_failure {root : Node} {failure : Error} (failed : format root = .error failure) :
    IsText failure.message := by
  rw [format] at failed
  split at failed
  · rename_i failure' failure_eq
    simp only [Outcome.error.injEq] at failed
    subst failed
    exact (sound_formatNode root).2 _ failure_eq
  · simp at failed

end JsonFormatter

namespace Engine

variable {σ : Type}

/-- The tree an audit leaves, with the rule name at its root. -/
def auditedRoot (setup : EngineSetup σ) (objectName : ByteString) (engine : Engine σ) :
    Option Node :=
  let ruleName := objectName.drop auditPrefix.length
  engine.database[ruleName]?.bind fun procedure =>
    procedure.audit.bind fun rule =>
      (Evaluator.execute setup.env procedure.parameters ruleName (.object rule) .audit
        engine.context).2.indicators.root

end Engine

namespace Interface

variable {σ : Type}

def shownTexts (clientName : ByteString) (root : Node) : List ByteString :=
  if clientName = moduleTestClientName then DebugFormatter.shown root
  else if clientName = nrpClientName then
    root.procedureName :: NestedListFormatter.shownNode root
  else []

theorem writes_formatRoot {clientName : ByteString} {root : Node} {payload : ByteString}
    (formatted : (selectFormatter clientName).formatRoot root = .value payload) :
    Writes (shownTexts clientName root) payload := by
  rw [selectFormatter] at formatted
  rw [shownTexts]
  split_ifs at formatted ⊢ with isTest isNrp
  · exact DebugFormatter.writes_format formatted
  · exact NestedListFormatter.writes_format formatted
  · exact JsonFormatter.writes_format formatted

theorem formatRoot_failure {clientName : ByteString} {root : Node} {failure : Error}
    (failed : (selectFormatter clientName).formatRoot root = .error failure) :
    shownTexts clientName root = [] ∧ IsText failure.message := by
  rw [selectFormatter] at failed
  rw [shownTexts]
  split_ifs at failed ⊢ with isTest isNrp
  · exact DebugFormatter.writes_failure failed
  · rw [PayloadFormatter.formatRoot, NestedListFormatter.format] at failed
    split at failed <;> simp at failed
  · exact ⟨rfl, JsonFormatter.writes_failure failed⟩

theorem writes_verdictText {setup : EngineSetup σ} {engine : Engine σ}
    {clientName objectName : ByteString} {result : AuditResult}
    (selected : setup.formatter = selectFormatter clientName)
    (audited : (engine.mmiGet setup (some objectName)).1 = .value result) :
    ∃ root, engine.auditedRoot setup objectName = some root ∧
      Writes (shownTexts clientName root) (verdictText result) := by
  rcases Engine.mmiGet_eq_value audited with ⟨name, procedure, rule, name_eq, found, rule_eq, ran⟩
  cases name_eq
  rcases Evaluator.executeAudit_eq_value ran with ⟨state, executed, ended⟩
  have rooted : ∃ root, state.indicators.root = some root := by
    cases root_eq : state.indicators.root with
    | none => simp [PayloadFormatter.format, root_eq] at ended
    | some root => exact ⟨root, rfl⟩
  rcases rooted with ⟨root, root_eq⟩
  simp only [PayloadFormatter.format, root_eq, selected] at ended
  have payload_writes : Writes (shownTexts clientName root) result.payload := by
    rcases ended with formatted | ⟨failure, failed, payload_eq⟩
    · exact writes_formatRoot formatted
    · rcases formatRoot_failure failed with ⟨nothing, isText⟩
      have opening : IsText (bytes "Failed to format payload: ") := by decide
      rw [nothing, payload_eq]
      exact Utf8.writes_fixed (opening.append isText)
  refine ⟨root, ?_, ?_⟩
  · simp [Engine.auditedRoot, found, rule_eq, executed, root_eq]
  · rw [verdictText]
    split_ifs
    · exact .fixed (by decide) payload_writes
    · exact payload_writes

/-- The reply is a success whose payload tells the verdict. -/
def Carries (reply : GetResult) (status : Status) : Prop :=
  reply.code = 0 ∧ ∃ payload, reply.payload = some payload ∧
    (ByteString.startsWith payload (bytes "\"PASS") ↔
      status = .compliant ∨ status = .notApplicable)

/-- An audit that has returned a status is reported exactly if the names and messages shown to
the client are valid UTF-8 up to the first NUL among them. -/
theorem mmiGet_reports_iff {session : Session σ} {clientName : ByteString}
    (opened : session.setup.formatter = selectFormatter clientName) {objectName : ByteString}
    {result : AuditResult}
    (audited : (session.engine.mmiGet session.setup (some objectName)).1 = .value result) :
    (∃ reply, (mmiGet (some session) (some (bytes "ComplianceEngine")) (some objectName) true
        true).1 = .value reply ∧ Carries reply result.status) ↔
      ∃ root, session.engine.auditedRoot session.setup objectName = some root ∧
        ValidUpToNul (shownTexts clientName root) := by
  have replied : (mmiGet (some session) (some (bytes "ComplianceEngine")) (some objectName) true
      true).1 = .value (respond result) := by
    simp [mmiGet, audited, reported]
  rcases writes_verdictText opened audited with ⟨root, root_eq, writes⟩
  have valid_iff := Utf8.isValid_writes writes
  simp only [replied, Outcome.value.injEq, exists_eq_left', root_eq, Option.some.injEq]
  rw [← valid_iff]
  by_cases valid : Utf8.isValid (verdictText result).cString = true
  · refine iff_of_true ?_ valid
    simp only [respond, JsonValue.initString, if_pos valid]
    exact ⟨rfl, _, rfl, startsWith_serialize (not_looksPassed_mmiGet opened audited)⟩
  · refine iff_of_false ?_ valid
    simp only [respond, JsonValue.initString, if_neg valid]
    rintro ⟨code_eq, -⟩
    exact absurd code_eq (by decide)

/-- An audit that passes and quotes a message. -/
def quoting (message : ByteString) : Handler Unit where
  run _ context :=
    { outcome := .value .compliant, ops := [.addIndicator message .compliant], context }
  opsScoped _ _ := rfl
  opsNames _ _ _ mem := by simp at mem

/-- A session of the universal client with one stored rule, whose audit quotes a message. -/
def quotingSession (message : ByteString) : Session Unit where
  setup := { env := { procedureMap := (∅ : ProcedureMap Unit).insert (bytes "A")
                        { audit := some (quoting message), remediate := none }
                      luaLoad := fun _ _ => .error [] }
             jsonParse := fun _ => none
             formatter := selectFormatter nrpClientName }
  engine := { database := (∅ : Std.ExtTreeMap ByteString Procedure).insert (bytes "r")
                { auditRule := some (.object [(bytes "A", .object [])]) }
              context := () }

theorem quotingSession_plain_reported :
    ∃ reply, (mmiGet (some (quotingSession (bytes "root"))) (some (bytes "ComplianceEngine"))
      (some (bytes "auditr")) true true).1 = .value reply ∧ Carries reply .compliant := by
  have audited : ((quotingSession (bytes "root")).engine.mmiGet
      (quotingSession (bytes "root")).setup (some (bytes "auditr"))).1 = .value
        { status := .compliant
          payload := bytes "\u2705 r\n\t\u2705 A\n\t\t\u2705 root\n" } := by
    decide
  have opened : (quotingSession (bytes "root")).setup.formatter = selectFormatter nrpClientName :=
    rfl
  refine (mmiGet_reports_iff opened audited).mpr ⟨_, rfl, ?_⟩
  refine ⟨by decide, fun _ => ⟨by decide, fun _ => ⟨by decide, fun _ => ?_⟩⟩⟩
  exact trivial

/-- A name in Latin-1 in a message: the audit has passed and nothing is reported. -/
theorem quotingSession_latin_lost :
    ((quotingSession [0x4A, 0xF6, 0x72, 0x67]).engine.mmiGet
        (quotingSession [0x4A, 0xF6, 0x72, 0x67]).setup (some (bytes "auditr"))).1 = .value
          { status := .compliant
            payload := bytes "\u2705 r\n\t\u2705 A\n\t\t\u2705 " ++ [0x4A, 0xF6, 0x72, 0x67, 10] } ∧
    (mmiGet (some (quotingSession [0x4A, 0xF6, 0x72, 0x67])) (some (bytes "ComplianceEngine"))
        (some (bytes "auditr")) true true).1 = .value { code := Errno.ENOMEM } ∧
    ¬∃ reply, (mmiGet (some (quotingSession [0x4A, 0xF6, 0x72, 0x67]))
        (some (bytes "ComplianceEngine")) (some (bytes "auditr")) true true).1 = .value reply ∧
          Carries reply .compliant := by
  have replied : (mmiGet (some (quotingSession [0x4A, 0xF6, 0x72, 0x67]))
      (some (bytes "ComplianceEngine")) (some (bytes "auditr")) true true).1 =
        .value { code := Errno.ENOMEM } := by
    decide
  refine ⟨by decide, replied, ?_⟩
  rintro ⟨reply, replied', code_eq, -⟩
  rw [replied, Outcome.value.injEq] at replied'
  subst replied'
  exact absurd code_eq (by decide)

end Interface

end OsConfig.ComplianceEngine
