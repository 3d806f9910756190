import OsConfig.Common.Parson.Parser
import OsConfig.Common.Sockets

/-!
# Calls of the management platform

A call sends its name and a body as an HTTP request and reads the response from
the same socket. The socket is protected and connected, and a message is sent as
a whole. Sizes are computed as 32-bit numbers.
-/

namespace OsConfig.MpiClient

open CommonUtils

def eio : ℤ := 5

/-- The lines of a request from its version on, up to the content length. -/
def requestLines : ByteString :=
  bytes " HTTP/1.1\r\nHost: OSConfig\r\nUser-Agent: OSConfig\r\nAccept: */*\r\nContent-Type: application/json\r\n"

/-- `dataFormat` of `CallMpi`. -/
def dataFormat : ByteString :=
  bytes "POST /%s/" ++ requestLines ++ bytes "Content-Length: %d\r\n\r\n%s"

/-- What the format makes of a call up to its body. -/
def requestHeader (name : ByteString) (contentLength : BitVec 32) : ByteString :=
  bytes "POST /" ++ name ++ bytes "/" ++ requestLines ++ bytes "Content-Length: " ++
    printInt contentLength ++ bytes "\r\n\r\n"

/-- The size that is computed for the request, before it is stored in an `int`. -/
def estimatedDataSize (name request : ByteString) : ℕ :=
  name.length + dataFormat.length + request.length +
    (printInt (BitVec.ofNat 32 request.length)).length + 1

/-- `snprintf` into a buffer of this size, if that can be allocated. -/
def printInto (size : BitVec 32) (text : ByteString) : Option ByteString :=
  if size.toInt < 0 then none else some (text.take (size.toNat - 1))

/-- The data that `CallMpi` sends, if it can be allocated. -/
def callMpiData (name request : ByteString) : Option ByteString :=
  printInto (BitVec.ofNat 32 (estimatedDataSize name request))
    (requestHeader name (BitVec.ofNat 32 request.length) ++ request)

/-- Whether there is memory for as many bytes and a NUL. -/
def isAllocated (size : BitVec 32) : Bool :=
  0 ≤ size.toInt && size.toInt + 1 < 2 ^ 31

theorem toNat_lt_of_nonneg {size : BitVec 32} (nonneg : 0 ≤ size.toInt) : size.toNat < 2 ^ 31 := by
  rw [BitVec.toInt_eq_toNat_cond] at nonneg
  have bound := size.isLt
  split at nonneg
  · omega
  · omega

theorem toNat_lt_of_isAllocated {size : BitVec 32} (allocated : isAllocated size = true) :
    size.toNat < 2 ^ 31 := by
  rw [isAllocated, Bool.and_eq_true, decide_eq_true_eq] at allocated
  exact toNat_lt_of_nonneg allocated.1

/-- What `CallMpi` makes of the response: the status, and the response with its size. -/
def callMpiResponse (errno : ℤ) (socket : Socket) : ℤ × Option ByteString × BitVec 32 :=
  let (httpStatus, socket) := readHttpStatusFromSocket socket
  let status : ℤ := if httpStatus = 200 then 0 else httpStatus
  let (responseSize, socket) := readHttpContentLengthFromSocket socket
  if isAllocated responseSize then
    let (given, _) := socket.read responseSize.toNat
    let response := given ++ List.replicate (responseSize.toNat - given.length) 0
    if given.length ≠ responseSize.toNat then
      (if errno ≠ 0 then errno else eio, some response, responseSize)
    else (status, some response, responseSize)
  else (enomem, none, 0)

section Calls

variable {σ : Type} (strtod : JsonValue.Strtod)
  (callMpi : ByteString → ByteString → σ → (ℤ × Option ByteString × BitVec 32) × σ)

def eperm : ℤ := 1

def parseString (jsonString : ByteString) : Option ByteString :=
  (JsonValue.parseString strtod jsonString).bind JsonValue.getString

/-- The status in a response that says nothing else. -/
def statusFromResponse (response : ByteString) : ℤ :=
  match parseString strtod response.cString with
  | some status => (atoi status).toInt
  | none => einval

/-- The text that `CallMpiOpen` makes its request of. -/
def openText (clientName : ByteString) (maxPayloadSizeBytes : BitVec 32) : ByteString :=
  bytes "\x7b \"ClientName\": \"" ++ clientName ++ bytes "\", \"MaxPayloadSizeBytes\": " ++
    printInt maxPayloadSizeBytes ++ bytes " \x7d"

def openSize (clientName : ByteString) (maxPayloadSizeBytes : BitVec 32) : ℕ :=
  (bytes "\x7b \"ClientName\": \"%s\", \"MaxPayloadSizeBytes\": %d \x7d").length + clientName.length +
    (printInt maxPayloadSizeBytes).length + 1

/-- `CallMpiOpen`, which returns the handle as it stands in the response. -/
def callMpiOpen (clientName : ByteString) (maxPayloadSizeBytes : BitVec 32) (state : σ) :
    Option ByteString × σ :=
  match printInto (BitVec.ofNat 32 (openSize clientName maxPayloadSizeBytes))
      (openText clientName maxPayloadSizeBytes) with
  | none => (none, state)
  | some request =>
      match callMpi (bytes "MpiOpen") request state with
      | ((status, some response, _), state) =>
          if status = 0 ∧ (parseString strtod response.cString).isSome then
            (some response.cString, state)
          else (none, state)
      | ((_, none, _), state) => (none, state)

/-- The text that `CallMpiSet` makes its request of. -/
def setText (mpiHandle componentName propertyName payload : ByteString) : ByteString :=
  bytes "\x7b \"ClientSession\": " ++ mpiHandle ++ bytes ", \"ComponentName\": \"" ++
    componentName ++ bytes "\", \"ObjectName\": \"" ++ propertyName ++ bytes "\", \"Payload\": " ++
    payload ++ bytes " \x7d"

def setSize (mpiHandle componentName propertyName : ByteString) (payloadSizeBytes : BitVec 32) : ℤ :=
  (bytes "\x7b \"ClientSession\": %s, \"ComponentName\": \"%s\", \"ObjectName\": \"%s\", \"Payload\": %s \x7d").length +
    mpiHandle.length + componentName.length + propertyName.length + payloadSizeBytes.toInt + 1

/-- `CallMpiSet` with the handle of the session. -/
def callMpiSet (mpiHandle componentName propertyName payload : ByteString)
    (payloadSizeBytes : BitVec 32) (state : σ) : ℤ × σ :=
  if mpiHandle = [] then (eperm, state)
  else if payloadSizeBytes.toInt ≤ 0 then (einval, state)
  else
    match printInto
        (BitVec.ofInt 32 (setSize mpiHandle componentName propertyName payloadSizeBytes))
        (setText mpiHandle componentName propertyName payload) with
    | none => (enomem, state)
    | some request =>
        match callMpi (bytes "MpiSet") request state with
        | ((status, some response, responseSize), state) =>
            (if 0 < responseSize.toInt then statusFromResponse strtod response else status, state)
        | ((status, none, _), state) => (status, state)

def getText (mpiHandle componentName propertyName : ByteString) : ByteString :=
  bytes "\x7b \"ClientSession\": " ++ mpiHandle ++ bytes ", \"ComponentName\": \"" ++
    componentName ++ bytes "\", \"ObjectName\": \"" ++ propertyName ++ bytes "\" \x7d"

def getSize (mpiHandle componentName propertyName : ByteString) : ℕ :=
  (bytes "\x7b \"ClientSession\": %s, \"ComponentName\": \"%s\", \"ObjectName\": \"%s\" \x7d").length +
    mpiHandle.length + componentName.length + propertyName.length + 1

/-- `CallMpiGet` with the handle of the session: the status, and the payload with its size. -/
def callMpiGet (mpiHandle componentName propertyName : ByteString) (state : σ) :
    (ℤ × Option ByteString × BitVec 32) × σ :=
  if mpiHandle = [] then ((eperm, none, 0), state)
  else
    match printInto (BitVec.ofNat 32 (getSize mpiHandle componentName propertyName))
        (getText mpiHandle componentName propertyName) with
    | none => ((enomem, none, 0), state)
    | some request =>
        let ((status, payload, payloadSizeBytes), state) := callMpi (bytes "MpiGet") request state
        if status = 500 then
          match payload with
          | some payload =>
              if 0 < payloadSizeBytes.toInt then
                ((statusFromResponse strtod payload, none, 0), state)
              else ((einval, some payload, payloadSizeBytes), state)
          | none => ((einval, none, payloadSizeBytes), state)
        else
          match payload with
          | some payload =>
              if payloadSizeBytes.toInt ≠ payload.cString.length then ((einval, none, 0), state)
              else ((status, some payload, payloadSizeBytes), state)
          | none => ((status, none, payloadSizeBytes), state)

def setDesiredText (mpiHandle payload : ByteString) : ByteString :=
  bytes "\x7b \"ClientSession\": " ++ mpiHandle ++ bytes ", \"Payload\": " ++ payload ++
    bytes " \x7d"

def setDesiredSize (mpiHandle : ByteString) (payloadSizeBytes : BitVec 32) : ℤ :=
  (bytes "\x7b \"ClientSession\": %s, \"Payload\": %s \x7d").length + mpiHandle.length +
    payloadSizeBytes.toInt + 1

/-- `CallMpiSetDesired` with the handle of the session. -/
def callMpiSetDesired (mpiHandle payload : ByteString) (payloadSizeBytes : BitVec 32) (state : σ) :
    ℤ × σ :=
  if mpiHandle = [] then (eperm, state)
  else if payloadSizeBytes.toInt ≤ 0 then (einval, state)
  else
    match printInto (BitVec.ofInt 32 (setDesiredSize mpiHandle payloadSizeBytes))
        (setDesiredText mpiHandle payload) with
    | none => (enomem, state)
    | some request =>
        match callMpi (bytes "MpiSetDesired") request state with
        | ((status, some response, responseSize), state) =>
            (if 0 < responseSize.toInt then statusFromResponse strtod response else status, state)
        | ((status, none, _), state) => (status, state)

def getReportedText (mpiHandle : ByteString) : ByteString :=
  bytes "\x7b \"ClientSession\": " ++ mpiHandle ++ bytes " \x7d"

def getReportedSize (mpiHandle : ByteString) : ℕ :=
  (bytes "\x7b \"ClientSession\": %s \x7d").length + mpiHandle.length + 1

/-- `CallMpiGetReported` with the handle of the session. -/
def callMpiGetReported (mpiHandle : ByteString) (state : σ) :
    (ℤ × Option ByteString × BitVec 32) × σ :=
  if mpiHandle = [] then ((eperm, none, 0), state)
  else
    match printInto (BitVec.ofNat 32 (getReportedSize mpiHandle)) (getReportedText mpiHandle) with
    | none => ((enomem, none, 0), state)
    | some request =>
        let ((status, payload, payloadSizeBytes), state) :=
          callMpi (bytes "MpiGetReported") request state
        if status = 500 then
          -- The payload is freed in every case.
          match payload with
          | some payload =>
              if 0 < payloadSizeBytes.toInt then
                ((statusFromResponse strtod payload, none, 0), state)
              else ((einval, none, 0), state)
          | none => ((einval, none, 0), state)
        else
          match payload with
          | some payload =>
              if payloadSizeBytes.toInt ≠ payload.cString.length then ((einval, none, 0), state)
              else ((status, some payload, payloadSizeBytes), state)
          | none => ((status, none, payloadSizeBytes), state)

end Calls

end OsConfig.MpiClient
