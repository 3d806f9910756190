import OsConfig.Common.Parson.RoundTrip
import OsConfig.Library.Fallible
import OsConfig.Platform.Transport

/-!
# From the handlers to the callers

A call travels from a client function through `CallMpi`, the worker and
`HandleMpiCall` to a handler, and its status and payload travel back. A status
other than `MPI_OK` is sent as an HTTP error with the number in its body.
-/

namespace OsConfig.MpiServer

open CommonUtils MpiClient
open Fallible (exists_of_bind_ok)

section Composition

variable {σ : Type} (strtod : JsonValue.Strtod) (toInt : ByteString → BitVec 32)
  (handlers : MpiCalls σ) (errno : ℤ) (server client : ℕ → ℕ)

/-- `CallMpi` with the worker at the other end of the socket. -/
def callMpi (name request : ByteString) (state : σ) : (ℤ × Option ByteString × BitVec 32) × σ :=
  match callMpiData name request with
  | none => ((enomem, none, 0), state)
  | some data =>
      let ((status, responseBody, responseSize), state) :=
        match readRequest ⟨data, server⟩ with
        | .ok (uri, requestBody) => handleMpiCall strtod toInt handlers uri requestBody state
        | .error status => ((status, none, 0), state)
      (returnedResponse errno status responseBody responseSize client, state)

/-- The calls of the client that return a status. -/
inductive ClientCall where
  | set (componentName propertyName payload : ByteString) (payloadSizeBytes : BitVec 32)
  | get (componentName propertyName : ByteString)
  | setDesired (payload : ByteString) (payloadSizeBytes : BitVec 32)
  | getReported

namespace ClientCall

def name : ClientCall → ByteString
  | .set .. => bytes "MpiSet"
  | .get .. => bytes "MpiGet"
  | .setDesired .. => bytes "MpiSetDesired"
  | .getReported => bytes "MpiGetReported"

/-- What the client function returns, for a session with this handle. -/
def run (mpiHandle : ByteString)
    (send : ByteString → ByteString → σ → (ℤ × Option ByteString × BitVec 32) × σ) :
    ClientCall → σ → (ℤ × Option ByteString × BitVec 32) × σ
  | .set componentName propertyName payload payloadSizeBytes, state =>
      let (status, state) := callMpiSet strtod send mpiHandle componentName propertyName payload
        payloadSizeBytes state
      ((status, none, 0), state)
  | .get componentName propertyName, state =>
      callMpiGet strtod send mpiHandle componentName propertyName state
  | .setDesired payload payloadSizeBytes, state =>
      let (status, state) := callMpiSetDesired strtod send mpiHandle payload payloadSizeBytes state
      ((status, none, 0), state)
  | .getReported, state => callMpiGetReported strtod send mpiHandle state

/-- The request that it makes, if its arguments are in order. -/
def request (mpiHandle : ByteString) : ClientCall → Option ByteString
  | .set componentName propertyName payload payloadSizeBytes =>
      if mpiHandle = [] ∨ payloadSizeBytes.toInt ≤ 0 then none
      else
        printInto
          (BitVec.ofInt 32 (setSize mpiHandle componentName propertyName payloadSizeBytes))
          (setText mpiHandle componentName propertyName payload)
  | .get componentName propertyName =>
      if mpiHandle = [] then none
      else
        printInto (BitVec.ofNat 32 (getSize mpiHandle componentName propertyName))
          (getText mpiHandle componentName propertyName)
  | .setDesired payload payloadSizeBytes =>
      if mpiHandle = [] ∨ payloadSizeBytes.toInt ≤ 0 then none
      else
        printInto (BitVec.ofInt 32 (setDesiredSize mpiHandle payloadSizeBytes))
          (setDesiredText mpiHandle payload)
  | .getReported =>
      if mpiHandle = [] then none
      else printInto (BitVec.ofNat 32 (getReportedSize mpiHandle)) (getReportedText mpiHandle)

/-- Whether it returns a payload. -/
def hasPayload : ClientCall → Bool
  | .set .. => false
  | .get .. => true
  | .setDesired .. => false
  | .getReported => true

end ClientCall

end Composition

section Statuses

variable {strtod : JsonValue.Strtod} {status : BitVec 32}

theorem escape_digit {byte : UInt8} (digit : Numerals.isDecimal byte = true) :
    JsonValue.escape byte = [byte] := by
  rw [Numerals.isDecimal, Bool.and_eq_true, decide_eq_true_eq, decide_eq_true_eq,
    UInt8.le_iff_toNat_le, UInt8.le_iff_toNat_le] at digit
  change 48 ≤ byte.toNat ∧ byte.toNat ≤ 57 at digit
  have apart : ∀ other : UInt8, other.toNat < 48 ∨ 57 < other.toNat → byte ≠ other := by
    rintro other out rfl
    omega
  have printable : ¬ byte < 32 := by
    rw [UInt8.lt_iff_toNat_lt]
    change ¬ byte.toNat < 32
    omega
  simp [JsonValue.escape, apart 34, apart 92, apart 8, apart 12, apart 10, apart 13, apart 9,
    apart 47, printable]

theorem serializeString_printInt (number : BitVec 32) :
    JsonValue.serializeString (printInt number) =
      bytes "\"" ++ printInt number ++ bytes "\"" := by
  have same : ∀ byte ∈ printInt number, JsonValue.escape byte = [byte] := by
    intro byte mem
    rcases mem_printInt mem with rfl | digit
    · decide
    · exact escape_digit digit
  rw [JsonValue.serializeString, List.flatMap_congr same, List.flatMap_singleton']

theorem nul_notMem_printInt (number : BitVec 32) : 0 ∉ printInt number := by
  intro nul
  rcases mem_printInt nul with minus | digit
  · cases minus
  · exact absurd digit (by decide)

def errorText (mpiStatus : BitVec 32) : ByteString :=
  bytes "\"" ++ printInt mpiStatus ++ bytes "\""

theorem nul_notMem_errorText (mpiStatus : BitVec 32) : 0 ∉ errorText mpiStatus := by
  simp only [errorText, List.mem_append, not_or]
  exact ⟨⟨by decide, nul_notMem_printInt mpiStatus⟩, by decide⟩

theorem length_errorText (mpiStatus : BitVec 32) :
    0 < (errorText mpiStatus).length ∧ (errorText mpiStatus).length ≤ 13 := by
  have quote : (bytes "\"").length = 1 := by decide
  have digits := length_printInt_le mpiStatus
  simp only [errorText, List.length_append, quote]
  omega

theorem statusFromResponse_errorText (strtod : JsonValue.Strtod) (mpiStatus : BitVec 32) :
    statusFromResponse strtod (errorText mpiStatus) = mpiStatus.toInt := by
  have quoted : errorText mpiStatus =
      JsonValue.serialize false 0 (.string (printInt mpiStatus)) := by
    rw [JsonValue.serialize, serializeString_printInt, errorText]
  have read := JsonValue.parseString_serialize strtod
    (JsonValue.Readable.string JsonValue.maxNesting (printInt mpiStatus)) false
  rw [← quoted] at read
  have alone : BitVec.ofInt 32 (strtol (printInt mpiStatus ++ [])) = mpiStatus :=
    ofInt_strtol_printInt mpiStatus (by simp)
  rw [List.append_nil] at alone
  rw [statusFromResponse, ByteString.cString_of_not_mem (nul_notMem_errorText mpiStatus),
    MpiClient.parseString, read]
  simp only [Option.bind_some, JsonValue.getString,
    ByteString.cString_of_not_mem (nul_notMem_printInt mpiStatus), atoi, alone]

end Statuses

section Responses

variable {errno : ℤ} {portions : ℕ → ℕ} {size : BitVec 32} {payload : ByteString}

/-- Every read is given all that it asks for, which an `int` can say. -/
def Complete (portions : ℕ → ℕ) : Prop :=
  ∀ read, 2 ^ 31 ≤ portions read + 1

theorem returnedResponse_complete {status : HttpStatus} {responseBody : Option ByteString}
    (complete : Complete portions) (sized : size.toInt = (responseBody.getD []).length)
    (noNul : 0 ∉ responseBody.getD []) (fits : estimatedSize status size < 2 ^ 31) :
    returnedResponse errno status responseBody size portions =
      (returnedStatus status, some (responseBody.getD []), size) := by
  have upper := BitVec.toInt_lt (x := size)
  rw [returnedResponse_iff sized noNul]
  refine ⟨fits, .inr ?_, ?_⟩
  · have whole := complete 9
    omega
  · have whole := complete ((responseHeader status size).length + 1 - min 3 (portions 9 + 1))
    omega

/-- A status other than `MPI_OK` comes back as the error text. -/
theorem returnedResponse_error {mpiStatus : BitVec 32} (complete : Complete portions) :
    returnedResponse errno .internalServerError (some (errorText mpiStatus))
        (BitVec.ofNat 32 (errorText mpiStatus).length) portions =
      (500, some (errorText mpiStatus), BitVec.ofNat 32 (errorText mpiStatus).length) := by
  have short := length_errorText mpiStatus
  have toInt : (BitVec.ofNat 32 (errorText mpiStatus).length).toInt = (errorText mpiStatus).length :=
    toInt_ofNat (by omega)
  have fits : estimatedSize .internalServerError
      (BitVec.ofNat 32 (errorText mpiStatus).length) < 2 ^ 31 := by
    have reason := length_reason_le .internalServerError
    rw [estimatedSize, length_responseFormat, toInt]
    omega
  exact returnedResponse_complete complete toInt (nul_notMem_errorText mpiStatus) fits

theorem returnedResponse_payload (complete : Complete portions) (sized : size.toInt = payload.length)
    (noNul : 0 ∉ payload) :
    returnedResponse errno .ok (some payload) size portions =
      if estimatedSize .ok size < 2 ^ 31 then (0, some payload, size) else (404, some [], 0) := by
  split
  next fits => exact returnedResponse_complete complete sized noNul fits
  next large =>
    rw [returnedResponse, writeResponse_eq_none sized large, Option.getD_none, callMpiResponse_nil]

/-- Without a payload nothing comes back. -/
theorem returnedResponse_ok (complete : Complete portions) :
    returnedResponse errno .ok none 0 portions = (0, some [], 0) := by
  apply returnedResponse_complete complete
  · decide
  · decide
  · have reason := length_reason_le .ok
    have zero : (0 : BitVec 32).toInt = 0 := by decide
    rw [estimatedSize, length_responseFormat, zero]
    omega

end Responses

section Calls

variable {σ : Type} {strtod : JsonValue.Strtod} {toInt : ByteString → BitVec 32}
  {handlers : MpiCalls σ} {errno : ℤ} {server client : ℕ → ℕ}

/-- What the handler of a call returns: its status, and a payload with its size if it has one.
Sessions are opened and closed without a status. -/
def handlerOutcome (handlers : MpiCalls σ) : MpiCall → σ →
    Option ((BitVec 32 × Option ByteString × BitVec 32) × σ)
  | .open .., _ => none
  | .close .., _ => none
  | .set client component object payload, state =>
      let (mpiStatus, state) := handlers.mpiSet client component object payload
        (BitVec.ofNat 32 payload.length) state
      some ((mpiStatus, none, 0), state)
  | .get client component object, state => some (handlers.mpiGet client component object state)
  | .setDesired client payload, state =>
      let (mpiStatus, state) := handlers.mpiSetDesired client payload
        (BitVec.ofNat 32 payload.length) state
      some ((mpiStatus, none, 0), state)
  | .getReported client, state => some (handlers.mpiGetReported client state)

theorem callHandler_eq {call : MpiCall} {state after : σ}
    {outcome : BitVec 32 × Option ByteString × BitVec 32}
    (returned : handlerOutcome handlers call state = some (outcome, after)) :
    callHandler handlers call state = (payloadResponse outcome, after) := by
  cases call with
  | «open» => cases returned
  | close => cases returned
  | set =>
      simp only [handlerOutcome, Option.some.injEq, Prod.mk.injEq] at returned
      simp only [callHandler, ← returned.1, ← returned.2]
      rfl
  | get =>
      simp only [handlerOutcome, Option.some.injEq] at returned
      simp only [callHandler, returned]
  | setDesired =>
      simp only [handlerOutcome, Option.some.injEq, Prod.mk.injEq] at returned
      simp only [callHandler, ← returned.1, ← returned.2]
      rfl
  | getReported =>
      simp only [handlerOutcome, Option.some.injEq] at returned
      simp only [callHandler, returned]

theorem setErrorResponse_eq (mpiStatus : BitVec 32) : setErrorResponse mpiStatus =
    (.internalServerError, some (errorText mpiStatus),
      BitVec.ofNat 32 (errorText mpiStatus).length) := by
  rw [setErrorResponse, errorText]

theorem callMpi_of_response {name request data uri : ByteString} {requestBody : Option ByteString}
    {response : HttpStatus × Option ByteString × BitVec 32} {state after : σ}
    (sent : callMpiData name request = some data)
    (delivered : readRequest ⟨data, server⟩ = .ok (uri, requestBody))
    (handled : handleMpiCall strtod toInt handlers uri requestBody state = (response, after)) :
    callMpi strtod toInt handlers errno server client name request state =
      (returnedResponse errno response.1 response.2.1 response.2.2 client, after) := by
  delta callMpi
  rw [sent]
  simp only [delivered, handled]

theorem callMpi_eq {name request : ByteString} {call : MpiCall} {state after : σ}
    {mpiStatus : BitVec 32} {payload : Option ByteString} {size : BitVec 32}
    (passed : passedCall name request server = some (name, some request))
    (read : readMpiCall strtod toInt name (some request) = .ok call)
    (returned : handlerOutcome handlers call state = some ((mpiStatus, payload, size), after)) :
    callMpi strtod toInt handlers errno server client name request state =
      (if mpiStatus ≠ 0 then
        returnedResponse errno .internalServerError (some (errorText mpiStatus))
          (BitVec.ofNat 32 (errorText mpiStatus).length) client
      else returnedResponse errno .ok payload size client, after) := by
  rcases Option.bind_eq_some_iff.mp passed with ⟨data, sent, taken⟩
  have delivered : readRequest ⟨data, server⟩ = .ok (name, some request) := by
    cases outcome : readRequest ⟨data, server⟩ with
    | error status =>
        rw [outcome] at taken
        cases taken
    | ok other =>
        rw [outcome, Except.toOption, Option.some.injEq] at taken
        rw [taken]
  have handled : handleMpiCall strtod toInt handlers name (some request) state =
      (payloadResponse (mpiStatus, payload, size), after) := by
    rw [handleMpiCall, read]
    exact callHandler_eq returned
  rw [callMpi_of_response sent delivered handled, payloadResponse]
  split
  · rw [setErrorResponse_eq]
  · rfl

/-- What the client makes of a returned status and payload. -/
def received (mpiStatus : BitVec 32) (payload : Option ByteString) (size : BitVec 32) :
    ℤ × Option ByteString × BitVec 32 :=
  if mpiStatus ≠ 0 then (mpiStatus.toInt, none, 0) else (0, payload, size)

variable {call : ClientCall} {mpiHandle request : ByteString}
  {send : ByteString → ByteString → σ → (ℤ × Option ByteString × BitVec 32) × σ} {state after : σ}

theorem run_of_status {status : ℤ} {response : ByteString} {size : BitVec 32}
    (statusOnly : call.hasPayload = false) (made : call.request mpiHandle = some request)
    (sent : send call.name request state = ((status, some response, size), after)) :
    call.run strtod mpiHandle send state =
      ((if 0 < size.toInt then statusFromResponse strtod response else status, none, 0), after) := by
  cases call with
  | set componentName propertyName payload payloadSizeBytes =>
      rw [ClientCall.request] at made
      split at made
      · cases made
      next proper =>
        rw [not_or] at proper
        rw [ClientCall.name] at sent
        simp only [ClientCall.run, callMpiSet, proper.1, proper.2, if_false, made, sent]
  | setDesired payload payloadSizeBytes =>
      rw [ClientCall.request] at made
      split at made
      · cases made
      next proper =>
        rw [not_or] at proper
        rw [ClientCall.name] at sent
        simp only [ClientCall.run, callMpiSetDesired, proper.1, proper.2, if_false, made, sent]
  | get => cases statusOnly
  | getReported => cases statusOnly

/-- A function that returns a payload checks its size, unless there was an error. -/
theorem run_of_payload {status : ℤ} {payload : ByteString} {size : BitVec 32}
    (withPayload : call.hasPayload = true) (made : call.request mpiHandle = some request)
    (sent : send call.name request state = ((status, some payload, size), after))
    (noError : status ≠ 500) :
    call.run strtod mpiHandle send state =
      (if size.toInt ≠ payload.cString.length then ((einval, none, 0), after)
      else ((status, some payload, size), after)) := by
  cases call with
  | set => cases withPayload
  | setDesired => cases withPayload
  | get componentName propertyName =>
      rw [ClientCall.request] at made
      split at made
      · cases made
      next proper =>
        rw [ClientCall.name] at sent
        simp only [ClientCall.run, callMpiGet, proper, if_false, made, sent, noError]
  | getReported =>
      rw [ClientCall.request] at made
      split at made
      · cases made
      next proper =>
        rw [ClientCall.name] at sent
        simp only [ClientCall.run, callMpiGetReported, proper, if_false, made, sent, noError]

theorem run_of_error {response : ByteString} {size : BitVec 32}
    (withPayload : call.hasPayload = true) (made : call.request mpiHandle = some request)
    (sent : send call.name request state = ((500, some response, size), after))
    (some_response : 0 < size.toInt) :
    call.run strtod mpiHandle send state =
      ((statusFromResponse strtod response, none, 0), after) := by
  cases call with
  | set => cases withPayload
  | setDesired => cases withPayload
  | get componentName propertyName =>
      rw [ClientCall.request] at made
      split at made
      · cases made
      next proper =>
        rw [ClientCall.name] at sent
        simp only [ClientCall.run, callMpiGet, proper, if_false, made, sent, some_response, if_true]
  | getReported =>
      rw [ClientCall.request] at made
      split at made
      · cases made
      next proper =>
        rw [ClientCall.name] at sent
        simp only [ClientCall.run, callMpiGetReported, proper, if_false, made, sent, some_response,
          if_true]

theorem run_errorText {mpiStatus : BitVec 32} (made : call.request mpiHandle = some request)
    (sent : send call.name request state =
      ((500, some (errorText mpiStatus), BitVec.ofNat 32 (errorText mpiStatus).length), after)) :
    call.run strtod mpiHandle send state = ((mpiStatus.toInt, none, 0), after) := by
  have short := length_errorText mpiStatus
  have long : 0 < (BitVec.ofNat 32 (errorText mpiStatus).length).toInt := by
    rw [toInt_ofNat (by omega)]
    omega
  cases kind : call.hasPayload with
  | false => rw [run_of_status kind made sent, if_pos long, statusFromResponse_errorText]
  | true => rw [run_of_error kind made sent long, statusFromResponse_errorText]

theorem readMpiCall_set {body : Option ByteString} {serverCall : MpiCall}
    (read : readMpiCall strtod toInt (bytes "MpiSet") body = .ok serverCall) :
    ∃ client component object payload, serverCall = .set client component object payload := by
  unfold readMpiCall at read
  split at read
  · cases read
  · rw [if_neg (by decide), if_neg (by decide), if_pos (.inl rfl)] at read
    rcases exists_of_bind_ok read with ⟨client, -, read⟩
    rcases exists_of_bind_ok read with ⟨component, -, read⟩
    rcases exists_of_bind_ok read with ⟨object, -, read⟩
    rw [if_pos rfl] at read
    rcases exists_of_bind_ok read with ⟨payload, -, read⟩
    cases read
    exact ⟨client, component, object, payload, rfl⟩

theorem readMpiCall_setDesired {body : Option ByteString} {serverCall : MpiCall}
    (read : readMpiCall strtod toInt (bytes "MpiSetDesired") body = .ok serverCall) :
    ∃ client payload, serverCall = .setDesired client payload := by
  unfold readMpiCall at read
  split at read
  · cases read
  · rw [if_neg (by decide), if_neg (by decide), if_neg (by decide), if_pos rfl] at read
    rcases exists_of_bind_ok read with ⟨client, -, read⟩
    rcases exists_of_bind_ok read with ⟨payload, -, read⟩
    cases read
    exact ⟨client, payload, rfl⟩

theorem outcome_of_status {serverCall : MpiCall} {mpiStatus : BitVec 32}
    {payload : Option ByteString} {size : BitVec 32} (statusOnly : call.hasPayload = false)
    (read : readMpiCall strtod toInt call.name (some request) = .ok serverCall)
    (returned : handlerOutcome handlers serverCall state = some ((mpiStatus, payload, size), after)) :
    payload = none ∧ size = 0 := by
  cases call with
  | set componentName propertyName sentPayload payloadSizeBytes =>
      rcases readMpiCall_set read with ⟨client, component, object, text, rfl⟩
      simp only [handlerOutcome, Option.some.injEq, Prod.mk.injEq] at returned
      exact ⟨returned.1.2.1.symm, returned.1.2.2.symm⟩
  | setDesired sentPayload payloadSizeBytes =>
      rcases readMpiCall_setDesired read with ⟨client, text, rfl⟩
      simp only [handlerOutcome, Option.some.injEq, Prod.mk.injEq] at returned
      exact ⟨returned.1.2.1.symm, returned.1.2.2.symm⟩
  | get => cases statusOnly
  | getReported => cases statusOnly

/-- A payload with which the size of the response goes round does not come back. -/
theorem run_of_large {serverCall : MpiCall} {text : ByteString} {size : BitVec 32}
    (complete : Complete client) (withPayload : call.hasPayload = true)
    (made : call.request mpiHandle = some request)
    (passed : passedCall call.name request server = some (call.name, some request))
    (read : readMpiCall strtod toInt call.name (some request) = .ok serverCall)
    (returned : handlerOutcome handlers serverCall state = some ((0, some text, size), after))
    (noNul : 0 ∉ text) (sized : size.toInt = text.length)
    (large : ¬ estimatedSize .ok size < 2 ^ 31) :
    call.run strtod mpiHandle (callMpi strtod toInt handlers errno server client) state ≠
      ((0, some text, size), after) := by
  have sent : callMpi strtod toInt handlers errno server client call.name request state = _ :=
    callMpi_eq passed read returned
  rw [if_neg (by simp), returnedResponse_payload complete sized noNul, if_neg large] at sent
  rw [run_of_payload withPayload made sent (by decide)]
  split
  · simp [einval]
  · simp

/-- What comes back is the status that the handler has returned, and its payload, exactly if the
response fits: it does unless the payload is so long that its size goes round. -/
theorem transparent_iff {serverCall : MpiCall} {mpiStatus : BitVec 32}
    {payload : Option ByteString} {size : BitVec 32} (complete : Complete client)
    (made : call.request mpiHandle = some request)
    (passed : passedCall call.name request server = some (call.name, some request))
    (read : readMpiCall strtod toInt call.name (some request) = .ok serverCall)
    (returned : handlerOutcome handlers serverCall state = some ((mpiStatus, payload, size), after))
    (sized : mpiStatus = 0 → call.hasPayload = true →
      ∃ text, payload = some text ∧ 0 ∉ text ∧ size.toInt = text.length) :
    call.run strtod mpiHandle (callMpi strtod toInt handlers errno server client) state =
        (received mpiStatus payload size, after) ↔
      (mpiStatus = 0 → estimatedSize .ok size < 2 ^ 31) := by
  have sent : callMpi strtod toInt handlers errno server client call.name request state = _ :=
    callMpi_eq passed read returned
  by_cases failed : mpiStatus = 0
  · subst failed
    rw [if_neg (by simp)] at sent
    rw [received, if_neg (by simp), forall_prop_of_true rfl]
    cases kind : call.hasPayload with
    | false =>
        rcases outcome_of_status kind read returned with ⟨rfl, rfl⟩
        rw [returnedResponse_ok complete] at sent
        rw [run_of_status kind made sent, if_neg (by decide)]
        exact iff_of_true rfl (by decide)
    | true =>
        rcases sized rfl kind with ⟨text, rfl, noNul, length⟩
        rw [returnedResponse_payload complete length noNul] at sent
        by_cases fits : estimatedSize .ok size < 2 ^ 31
        · rw [if_pos fits] at sent
          rw [run_of_payload kind made sent (by decide), ByteString.cString_of_not_mem noNul,
            if_neg (not_not.mpr length)]
          exact iff_of_true rfl fits
        · exact iff_of_false
            (run_of_large complete kind made passed read returned noNul length fits) fits
  · rw [if_pos failed, returnedResponse_error complete] at sent
    rw [run_errorText made sent, received, if_pos failed]
    exact iff_of_true rfl fun succeeded => absurd succeeded failed

/-- Handlers that answer a request for what is reported, and no other one. -/
def reporting (payload : ByteString) (size : BitVec 32) : MpiCalls Unit where
  mpiOpen _ _ state := (none, state)
  mpiClose _ state := state
  mpiSet _ _ _ _ _ state := (22, state)
  mpiGet _ _ _ state := ((22, none, 0), state)
  mpiSetDesired _ _ _ state := (22, state)
  mpiGetReported _ state := ((0, some payload, size), state)

/-- The request of a session whose handle is the string 1. -/
def reportedRequest : ByteString :=
  bytes "\x7b \"ClientSession\": \"1\" \x7d"

set_option maxRecDepth 4000 in
theorem passedCall_reportedRequest :
    passedCall (bytes "MpiGetReported") reportedRequest (fun _ => 2 ^ 31) =
      some (bytes "MpiGetReported", some reportedRequest) := by
  have size := length_dataFormat
  have short : reportedRequest.length = 24 := by decide
  have label := length_printInt_le (BitVec.ofNat 32 reportedRequest.length)
  have name : (bytes "MpiGetReported").length = 14 := by decide
  rw [passedCall_iff (by decide) (by decide)]
  refine ⟨by decide, ?_, ?_⟩
  · rw [estimatedDataSize, size, name]
    omega
  · rw [short]
    omega

theorem readMpiCall_reportedRequest :
    readMpiCall (fun _ => none) (fun _ => 0) (bytes "MpiGetReported") (some reportedRequest) =
      .ok (.getReported (bytes "1")) := by
  decide +kernel

set_option maxRecDepth 4000 in
theorem made_reportedRequest :
    ClientCall.getReported.request (bytes "\"1\"") = some reportedRequest := by
  decide

theorem transparent_iff_reported :
    ClientCall.getReported.run (fun _ => none) (bytes "\"1\"")
          (callMpi (fun _ => none) (fun _ => 0) (reporting (bytes "[]") 2) 0 (fun _ => 2 ^ 31)
            (fun _ => 2 ^ 31)) () =
        (received 0 (some (bytes "[]")) 2, ()) ↔
      ((0 : BitVec 32) = 0 → estimatedSize .ok 2 < 2 ^ 31) :=
  transparent_iff (fun _ => by decide) made_reportedRequest passedCall_reportedRequest
    readMpiCall_reportedRequest rfl fun _ _ => ⟨bytes "[]", rfl, by decide, by decide⟩

/-- The longest payload that an `int` can tell the size of. -/
theorem longest_payload_lost :
    ¬ ClientCall.getReported.run (fun _ => none) (bytes "\"1\"")
          (callMpi (fun _ => none) (fun _ => 0)
            (reporting (List.replicate 2147483647 97) 2147483647) 0 (fun _ => 2 ^ 31)
            (fun _ => 2 ^ 31)) () =
        (received 0 (some (List.replicate 2147483647 97)) 2147483647, ()) := by
  have noNul : 0 ∉ List.replicate 2147483647 (97 : UInt8) := by
    intro nul
    have letter := List.eq_of_mem_replicate nul
    cases letter
  have size : (2147483647 : BitVec 32).toInt = 2147483647 := by decide
  have sized : (2147483647 : BitVec 32).toInt = (List.replicate 2147483647 (97 : UInt8)).length := by
    rw [List.length_replicate, size]
    rfl
  have large : ¬ estimatedSize .ok 2147483647 < 2 ^ 31 := by
    rw [estimatedSize, length_responseFormat, size]
    omega
  exact run_of_large (fun _ => by decide) rfl made_reportedRequest passedCall_reportedRequest
    readMpiCall_reportedRequest rfl noNul sized large

end Calls

end OsConfig.MpiServer
