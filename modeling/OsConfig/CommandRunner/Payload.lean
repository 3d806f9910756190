import OsConfig.CommandRunner.PersistedCache
import OsConfig.Common.CommandUtils

/-!
# The size of reports

`Execute` limits the output of a command so that the report of it fits into the
payload that the client has room for. It estimates the rest of the report from a
status without output and with a result code of one digit, and counts the bytes
of the output as they are read. In the report a line feed takes two bytes, and
the result code may be longer.
-/

namespace OsConfig.CommandRunner

open Transitions

section Output

/-- The byte that `ExecuteCommand` stores for one that it has read. Bytes from 128 on are negative
where `char` is signed, and below a blank. -/
def shown (replaceEol : Bool) (byte : UInt8) : UInt8 :=
  if (replaceEol && byte = 10) || ((byte < 32 || 128 ≤ byte) && byte ≠ 10) || byte = 127 ||
      (byte = 34 || byte = 9 || byte = 92) then 32
  else byte

/-- What `ExecuteCommand` does with the bytes of one call of `read`, when it has stored some text.
Where the sum of the sizes does not fit into an `unsigned int` it shrinks the buffer below the
position to which it writes later. -/
def store (maxTextResultBytes : ℕ) (replaceEol : Bool) (text buffer : ByteString) :
    Option ByteString :=
  if 0 < maxTextResultBytes ∧ text.length = maxTextResultBytes then some text
  else
    let needed := buffer.length + text.length
    if needed < 2 ^ 32 then
      let outputBufferSize :=
        if 0 < maxTextResultBytes ∧ maxTextResultBytes - 1 < needed then maxTextResultBytes - 1
        else needed
      some (text ++ (buffer.take (outputBufferSize - text.length)).map (shown replaceEol))
    else none

/-- The text result after the given calls of `read`. -/
def textResult (maxTextResultBytes : ℕ) (replaceEol : Bool) (buffers : List ByteString) :
    Option ByteString :=
  buffers.foldlM (store maxTextResultBytes replaceEol) []

/-- What is kept of the output does not depend on how it was read. -/
theorem textResult_eq {maxTextResultBytes : ℕ} (limited : 0 < maxTextResultBytes)
    {replaceEol : Bool} {buffers : List ByteString} {text : ByteString}
    (read : textResult maxTextResultBytes replaceEol buffers = some text) :
    text = (buffers.flatten.take (maxTextResultBytes - 1)).map (shown replaceEol) := by
  -- The text that has been stored stands for the output before the buffers.
  have generalized : ∀ (buffers : List ByteString) (before stored text : ByteString),
      stored = (before.take (maxTextResultBytes - 1)).map (shown replaceEol) →
      buffers.foldlM (store maxTextResultBytes replaceEol) stored = some text →
      text = ((before ++ buffers.flatten).take (maxTextResultBytes - 1)).map
        (shown replaceEol) := by
    intro buffers
    induction buffers with
    | nil =>
        intro before stored text stored_eq read
        cases read
        rw [List.flatten_nil, List.append_nil]
        exact stored_eq
    | cons buffer rest ih =>
        intro before stored text stored_eq read
        rw [List.foldlM_cons] at read
        rcases Option.bind_eq_some_iff.mp read with ⟨next, next_eq, later⟩
        rw [List.flatten_cons, ← List.append_assoc]
        refine ih (before ++ buffer) next text ?_ later
        have length_eq : stored.length = min (maxTextResultBytes - 1) before.length := by
          rw [stored_eq, List.length_map, List.length_take]
        rw [store, if_neg (by omega)] at next_eq
        simp only at next_eq
        split at next_eq
        · cases next_eq
          rw [stored_eq, ← List.map_append, List.take_append, List.length_map, List.length_take]
          congr 2
          have buffer_take : ∀ n, buffer.length ≤ n → buffer.take n = buffer :=
            fun n le => List.take_of_length_le le
          split
          · congr 1
            omega
          · rw [buffer_take _ (by omega), buffer_take _ (by omega)]
        · cases next_eq
  have whole := generalized buffers [] [] text (by simp) read
  rwa [List.nil_append] at whole

end Output

section Reports

/-- The escape sequence of a character in a JSON text, or the character itself. -/
def escaped (byte : UInt8) : ByteString :=
  if byte = 34 then bytes "\\\""
  else if byte = 92 then bytes "\\\\"
  else if byte = 8 then bytes "\\b"
  else if byte = 9 then bytes "\\t"
  else if byte = 10 then bytes "\\n"
  else if byte = 12 then bytes "\\f"
  else if byte = 13 then bytes "\\r"
  else if byte < 32 then
    bytes "\\u00" ++ [if byte < 16 then 48 else 49, (bytes "0123456789abcdef").getD (byte.toNat % 16) 0]
  else [byte]

/-- What is taken from `nlohmann::json::dump` without indentation: members with their names and
values, ASCII texts with escape sequences, and decimal numbers. -/
structure Dumps (dump : Json → ByteString) : Prop where
  object : ∀ members, dump (.object members) =
    bytes "\x7b" ++ ((members.map fun member =>
      dump (.string member.1) ++ bytes ":" ++ dump member.2).intersperse (bytes ",")).flatten ++
      bytes "\x7d"
  string : ∀ text : ByteString, (∀ byte ∈ text, byte < 128) →
    dump (.string text) = bytes "\"" ++ text.flatMap escaped ++ bytes "\""
  number : ∀ value : ℤ, -2 ^ 63 ≤ value → value < 2 ^ 63 →
    dump (.ofInt value) = Numerals.renderInt 10 value

variable {dump : Json → ByteString}

/-- The status from which `Execute` estimates the size of a report. -/
def emptyStatus (id : ByteString) : Status :=
  ⟨id, 0, [], .unknown⟩

/-- The limit that `Execute` passes to `ExecuteCommand`. -/
def maxTextResultSize (dump : Json → ByteString) (maxPayloadSizeBytes : ℕ) (id : ByteString) : ℕ :=
  if 0 < maxPayloadSizeBytes then
    let estimatedSize := (dump ((emptyStatus id).toJson true)).length % 2 ^ 32
    if estimatedSize < maxPayloadSizeBytes then maxPayloadSizeBytes - estimatedSize else 1
  else 0

/-- `Get`, with the status it returns and the payload. -/
def Runner.get (dump : Json → ByteString) (state : Runner) (componentName objectName : ByteString) :
    ℤ × Option ByteString :=
  if componentName = bytes "CommandRunner" then
    if objectName = bytes "commandStatus" then
      (0, some (dump (state.getReportedStatus.toJson true)))
    else (einval, none)
  else (einval, none)

/-- A report is as long as its fields and the names of them. -/
theorem length_dump_toJson (dumps : Dumps dump) (status : Status) :
    (dump (status.toJson true)).length =
      (dump (.string status.id)).length + (dump (.ofInt status.state.toInt)).length +
        (dump (.ofInt status.exitCode)).length + (dump (.string status.textResult)).length +
        58 := by
  have names : ∀ name ∈ [bytes "commandId", bytes "currentState", bytes "resultCode",
      bytes "textResult"], dump (.string name) = bytes "\"" ++ name ++ bytes "\"" := by
    intro name mem
    have plain : name.flatMap escaped = name ∧ ∀ byte ∈ name, byte < 128 := by
      revert mem name
      decide +kernel
    rw [dumps.string name plain.2, plain.1]
  have sizes : (bytes "commandId").length = 9 ∧ (bytes "currentState").length = 12 ∧
      (bytes "resultCode").length = 10 ∧ (bytes "textResult").length = 10 := by
    decide
  have marks : (bytes "\"").length = 1 ∧ (bytes ":").length = 1 ∧ (bytes ",").length = 1 ∧
      (bytes "\x7b").length = 1 ∧ (bytes "\x7d").length = 1 := by
    decide
  rw [Status.toJson, dumps.object]
  simp only [if_true, List.cons_append, List.nil_append, List.map_cons, List.map_nil,
    List.intersperse, List.flatten_cons, List.flatten_nil, List.append_nil, List.length_append,
    names _ (List.mem_cons_self), names (bytes "currentState") (by simp),
    names (bytes "resultCode") (by simp), names (bytes "textResult") (by simp)]
  omega

/-- A byte that is stored is no special character but a line feed, which is kept if it was
read and is not to be replaced. -/
theorem length_escaped_shown (replaceEol : Bool) (byte : UInt8) :
    shown replaceEol byte < 128 ∧
      (escaped (shown replaceEol byte)).length =
        1 + if replaceEol = false ∧ byte = 10 then 1 else 0 := by
  revert replaceEol byte
  decide +kernel

/-- The size of the text in a report. -/
theorem length_flatMap_shown (replaceEol : Bool) (output : ByteString) :
    ((output.map (shown replaceEol)).flatMap escaped).length =
      output.length + if replaceEol then 0 else output.count 10 := by
  induction output with
  | nil => cases replaceEol <;> rfl
  | cons byte rest ih =>
      rw [List.map_cons, List.flatMap_cons, List.length_append, ih,
        (length_escaped_shown replaceEol byte).2, List.length_cons, List.count_cons]
      cases replaceEol with
      | true =>
          simp only [if_true, Bool.true_eq_false, false_and, if_false]
          omega
      | false =>
          by_cases lf : byte = 10
          · simp only [lf, and_self, if_true, Bool.false_eq_true, if_false, beq_self_eq_true]
            omega
          · simp only [lf, and_false, if_false, Bool.false_eq_true, beq_eq_false_iff_ne.mpr lf]
            omega

/-- The bytes that a report has beyond the estimate and the kept output: one for each line feed
that is not replaced, and those of the result code from the second on. -/
def surplus (replaceEol : Bool) (kept : ByteString) (exitCode : ℤ) : ℕ :=
  (if replaceEol then 0 else kept.count 10) + ((Numerals.renderInt 10 exitCode).length - 1)

theorem renderInt_ofExitCode (exitCode : ℤ) :
    (Numerals.renderInt 10 (State.ofExitCode exitCode).toInt).length = 1 ∧
      -2 ^ 63 ≤ (State.ofExitCode exitCode).toInt ∧ (State.ofExitCode exitCode).toInt < 2 ^ 63 := by
  rw [State.ofExitCode]
  split_ifs <;> decide

/-- The size of the report of a command that has been executed. -/
theorem length_report (dumps : Dumps dump) {id output : ByteString} {exitCode : ℤ}
    (int : -2 ^ 31 ≤ exitCode ∧ exitCode < 2 ^ 31) (replaceEol : Bool) :
    (dump (Status.toJson ⟨id, exitCode, output.map (shown replaceEol), .ofExitCode exitCode⟩
        true)).length =
      (dump ((emptyStatus id).toJson true)).length + output.length +
        surplus replaceEol output exitCode := by
  have zero : dump (.ofInt 0) = Numerals.renderInt 10 0 := dumps.number 0 (by norm_num) (by norm_num)
  have zeroSize : (Numerals.renderInt 10 0).length = 1 := by decide
  have quotes : (bytes "\"").length = 1 := by decide
  have nothing : dump (.string []) = bytes "\"" ++ ([] : ByteString).flatMap escaped ++ bytes "\"" :=
    dumps.string [] (by simp)
  have text := dumps.string (output.map (shown replaceEol)) (by
    intro byte mem
    rcases List.mem_map.mp mem with ⟨read, -, rfl⟩
    exact (length_escaped_shown replaceEol read).1)
  rcases renderInt_ofExitCode exitCode with ⟨stateSize, stateAbove, stateBelow⟩
  have code := dumps.number exitCode (by omega) (by omega)
  have codeSize : 0 < (Numerals.renderInt 10 exitCode).length := by
    rw [Numerals.renderInt]
    split
    · simp
    · exact List.length_pos_of_ne_nil (Numerals.render_ne_nil _)
  rw [length_dump_toJson dumps, length_dump_toJson dumps, surplus, emptyStatus, State.toInt, zero,
    zeroSize, nothing, text, dumps.number _ stateAbove stateBelow, stateSize, code]
  simp only [List.length_append, length_flatMap_shown, quotes, List.flatMap_nil, List.length_nil]
  omega

end Reports

/-- A command has been executed and is reported. The report is not larger than the client allows if
and only if what it has beyond the estimate and the kept output fits into the room that the output
leaves. One byte of it is always left. -/
theorem report_within_limit_iff {dump : Json → ByteString} (dumps : Dumps dump)
    {maxPayloadSizeBytes : ℕ} (unsigned : maxPayloadSizeBytes < 2 ^ 32) {state state' : Runner}
    {ref : Ref} (command : (state.object ref).kind = .command)
    (larger : (dump ((emptyStatus (state.idOf ref)).toJson true)).length + 1 < maxPayloadSizeBytes)
    {buffers : List ByteString} {text : ByteString}
    (read : textResult (maxTextResultSize dump maxPayloadSizeBytes (state.idOf ref))
      (state.object ref).replaceEol buffers = some text)
    {exitCode : ℤ} (int : -2 ^ 31 ≤ exitCode ∧ exitCode < 2 ^ 31)
    (returned : state.worker = .returned ref exitCode text) {outcome : Runner.Outcome}
    (taken : state.workerStep outcome = some state')
    (reported : state.commandMap[state.reportedStatusId]? = some ref) :
    ∃ payload, state'.get dump (bytes "CommandRunner") (bytes "commandStatus") = (0, some payload) ∧
      (payload.length ≤ maxPayloadSizeBytes ↔
        surplus (state.object ref).replaceEol
            (buffers.flatten.take (maxPayloadSizeBytes -
              (dump ((emptyStatus (state.idOf ref)).toJson true)).length - 1)) exitCode ≤
          max 1 (maxPayloadSizeBytes -
            (dump ((emptyStatus (state.idOf ref)).toJson true)).length - buffers.flatten.length)) := by
  have size : maxTextResultSize dump maxPayloadSizeBytes (state.idOf ref) =
      maxPayloadSizeBytes - (dump ((emptyStatus (state.idOf ref)).toJson true)).length := by
    rw [maxTextResultSize, if_pos (by omega), Nat.mod_eq_of_lt (by omega), if_pos (by omega)]
  rw [size] at read
  have text_eq := textResult_eq (by omega) read
  simp only [Runner.workerStep, returned, command, Option.some.injEq] at taken
  subst taken
  have status : ((state.setStatus ref exitCode text (.ofExitCode exitCode)).finish
      ref).getReportedStatus = ⟨state.idOf ref, exitCode, text, .ofExitCode exitCode⟩ := by
    simp [Runner.getReportedStatus, Runner.finish, Runner.setStatus, reported, Command.setStatus,
      Runner.idOf, Command.id]
  refine ⟨dump (Status.toJson ⟨state.idOf ref, exitCode, text, .ofExitCode exitCode⟩ true), ?_, ?_⟩
  · rw [Runner.get, if_pos rfl, if_pos rfl, status]
  · rw [text_eq, length_report dumps int, List.length_take]
    omega

section Samples

mutual

/-- Texts without indentation, of values that have no fractions. -/
def compact : Json → ByteString
  | .null => bytes "null"
  | .boolean value => bytes (if value then "true" else "false")
  | .integer value => Numerals.renderInt 10 value.toInt
  | .unsigned value => Numerals.renderInt 10 value.toNat
  | .float => bytes "0.0"
  | .string text => bytes "\"" ++ text.flatMap escaped ++ bytes "\""
  | .array values => bytes "[" ++ ((compactValues values).intersperse (bytes ",")).flatten ++ bytes "]"
  | .object members =>
      bytes "\x7b" ++ ((compactMembers members).intersperse (bytes ",")).flatten ++ bytes "\x7d"

def compactValues : List Json → List ByteString
  | [] => []
  | value :: values => compact value :: compactValues values

def compactMembers : List (ByteString × Json) → List ByteString
  | [] => []
  | (name, value) :: members =>
      ((bytes "\"" ++ name.flatMap escaped ++ bytes "\"") ++ bytes ":" ++ compact value) ::
        compactMembers members

end

theorem dumps_compact : Dumps compact where
  object members := by
    have members_eq : compactMembers members = members.map fun member =>
        compact (.string member.1) ++ bytes ":" ++ compact member.2 := by
      induction members with
      | nil => rfl
      | cons member members ih =>
          rcases member with ⟨name, value⟩
          rw [compactMembers, ih, List.map_cons, compact]
    rw [compact, members_eq]
  string text _ := by rw [compact]
  number value above below := by
    rw [Json.ofInt]
    split
    · rw [compact, BitVec.toInt_ofInt_eq_self (by decide) (by simpa using above) (by simpa using below)]
    · rename_i nonnegative
      rw [compact, BitVec.toNat_ofInt, Int.emod_eq_of_lt (by omega) (by omega), Int.toNat_of_nonneg (by omega)]

/-- A request whose text result may have several lines. -/
def linesRequest : ByteString × Json :=
  (bytes "\x7b\"commandId\":\"1\",\"arguments\":\"./lines\",\"action\":3,\"singleLineTextResult\":false\x7d",
    .object [(bytes "action", .unsigned 3), (bytes "arguments", .string (bytes "./lines")),
      (bytes "commandId", .string (bytes "1")), (bytes "singleLineTextResult", .boolean false)])

end Samples

/-- The steps up to the return of `ExecuteCommand`. -/
def linesMoves (text : ByteString) : List Move :=
  clientGoesOn :: runRequest linesRequest ++ List.replicate 3 (workerGoesOn 0) ++
    [.worker (.exits 0 text)]

/-- The client has room for six bytes beyond the estimate, and five of the output are kept. -/
theorem report_within_limit_iff_hello :
    ∃ state state',
      Run (Taken (step (sampleEnvironment [linesRequest])) fun _ move => inSession move)
        (start (sampleEnvironment [linesRequest]) 0 [] none) state ∧
      state.worker = .returned 0 0 (bytes "hello") ∧
      state.workerStep (.exits 0 []) = some state' ∧
      ∃ payload, state'.get compact (bytes "CommandRunner") (bytes "commandStatus") =
        (0, some payload) ∧ payload.length ≤ 71 := by
  have reached : ∃ state,
      Run (Taken (step (sampleEnvironment [linesRequest])) fun _ move => inSession move)
        (start (sampleEnvironment [linesRequest]) 0 [] none) state ∧
      decide ((state.worker = .returned 0 0 (bytes "hello") ∧
        state.commandMap[state.reportedStatusId]? = some 0) ∧
        (state.object 0).kind = .command ∧ (state.object 0).replaceEol = false ∧
        state.idOf 0 = bytes "1") = true :=
    exists_run_of_follow (linesMoves (bytes "hello")) (by decide +kernel)
  rcases reached with ⟨state, run, passed⟩
  rw [decide_eq_true_eq] at passed
  rcases passed with ⟨⟨returned, reported⟩, command, replaceEol, id_eq⟩
  have estimate : (compact ((emptyStatus (bytes "1")).toJson true)).length = 65 := by
    decide
  have size : maxTextResultSize compact 71 (bytes "1") = 6 := by decide
  have taken : state.workerStep (.exits 0 []) =
      some ((state.setStatus 0 0 (bytes "hello") (.ofExitCode 0)).finish 0) := by
    simp only [Runner.workerStep, returned, command]
  have unsigned : 71 < 2 ^ 32 := by norm_num
  have larger : (compact ((emptyStatus (state.idOf 0)).toJson true)).length + 1 < 71 := by
    rw [id_eq, estimate]
    norm_num
  have read : textResult (maxTextResultSize compact 71 (state.idOf 0)) (state.object 0).replaceEol
      [bytes "hello", bytes " world\n"] = some (bytes "hello") := by
    rw [id_eq, size, replaceEol]
    decide
  rcases report_within_limit_iff dumps_compact unsigned command larger read (by norm_num) returned
    taken reported with ⟨payload, payload_eq, within⟩
  refine ⟨state, _, run, returned, taken, payload, payload_eq, within.mpr ?_⟩
  rw [id_eq, estimate, replaceEol]
  decide

/-- The client has room for three bytes beyond the estimate, and the output consists of two line
feeds. -/
theorem report_exceeds_limit :
    textResult (maxTextResultSize compact 68 (bytes "1")) false [bytes "\n\n"] =
        some (bytes "\n\n") ∧
      (compact ((emptyStatus (bytes "1")).toJson true)).length + 1 < 68 ∧
      ∃ state state',
        Run (Taken (step (sampleEnvironment [linesRequest])) fun _ move => inSession move)
          (start (sampleEnvironment [linesRequest]) 0 [] none) state ∧
        (state.worker = .returned 0 0 (bytes "\n\n") ∧ state.idOf 0 = bytes "1" ∧
          (state.object 0).replaceEol = false) ∧
        state.workerStep (.exits 0 []) = some state' ∧
        ∃ payload, state'.get compact (bytes "CommandRunner") (bytes "commandStatus") =
          (0, some payload) ∧ payload.length = 69 := by
  refine ⟨by decide, by decide, ?_⟩
  have reached : ∃ state,
      Run (Taken (step (sampleEnvironment [linesRequest])) fun _ move => inSession move)
        (start (sampleEnvironment [linesRequest]) 0 [] none) state ∧
      decide ((state.worker = .returned 0 0 (bytes "\n\n") ∧ state.idOf 0 = bytes "1" ∧
          (state.object 0).replaceEol = false) ∧
        (state.workerStep (.exits 0 [])).any fun state' =>
          (state'.get compact (bytes "CommandRunner") (bytes "commandStatus")).1 = 0 ∧
            (state'.get compact (bytes "CommandRunner") (bytes "commandStatus")).2.any fun payload =>
              payload.length = 69) = true :=
    exists_run_of_follow (linesMoves (bytes "\n\n")) (by decide +kernel)
  rcases reached with ⟨state, run, passed⟩
  rw [decide_eq_true_eq, Option.any_eq_true] at passed
  rcases passed with ⟨returned, state', taken, answered⟩
  rw [decide_eq_true_eq, Option.any_eq_true] at answered
  rcases answered with ⟨status, payload, payload_eq, length⟩
  rw [decide_eq_true_eq] at length
  refine ⟨state, state', run, returned, taken, payload, ?_, length⟩
  rw [← status, ← payload_eq]

end OsConfig.CommandRunner
