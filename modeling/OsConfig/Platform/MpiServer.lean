import OsConfig.Platform.MpiClient

/-!
# The server of the management platform

The worker takes one request at a time off its socket, passes the call to
`HandleMpiCall` and writes the response.
-/

namespace OsConfig.MpiServer

open CommonUtils

/-- `HTTP_STATUS` -/
inductive HttpStatus where
  | ok
  | badRequest
  | notFound
  | internalServerError
  deriving DecidableEq

def HttpStatus.code : HttpStatus → BitVec 32
  | .ok => 200
  | .badRequest => 400
  | .notFound => 404
  | .internalServerError => 500

def httpReasonAsString : HttpStatus → ByteString
  | .ok => bytes "OK"
  | .badRequest => bytes "Bad Request"
  | .notFound => bytes "Not Found"
  | .internalServerError => bytes "Internal Server Error"

section Calls

variable {σ : Type}

/-- `MPI_CALLS`, on the state of the modules. Payloads come with their sizes. -/
structure MpiCalls (σ : Type) where
  mpiOpen : ByteString → BitVec 32 → σ → Option ByteString × σ
  mpiClose : ByteString → σ → σ
  mpiSet : ByteString → ByteString → ByteString → ByteString → BitVec 32 → σ → BitVec 32 × σ
  mpiGet : ByteString → ByteString → ByteString → σ →
    (BitVec 32 × Option ByteString × BitVec 32) × σ
  mpiSetDesired : ByteString → ByteString → BitVec 32 → σ → BitVec 32 × σ
  mpiGetReported : ByteString → σ → (BitVec 32 × Option ByteString × BitVec 32) × σ

/-- A call as it is read off a request. -/
inductive MpiCall where
  | open (client : ByteString) (maxPayloadSizeBytes : BitVec 32)
  | close (client : ByteString)
  | set (client component object payload : ByteString)
  | get (client component object : ByteString)
  | setDesired (client payload : ByteString)
  | getReported (client : ByteString)
  deriving DecidableEq

/-- A member that must be a string. -/
def requireString (object : JsonObject) (name : ByteString) : Except HttpStatus ByteString :=
  match (object.getValue name).bind JsonValue.getString with
  | some text => .ok text
  | none => .error .badRequest

/-- The payload as it is serialized for the handler. -/
def requirePayload (object : JsonObject) : Except HttpStatus ByteString :=
  match object.getValue (bytes "Payload") with
  | some payload => .ok payload.serializeToString
  | none => .error .badRequest

/-- What `HandleMpiCall` reads off a request before it calls a handler. A number is made an `int` by
the parameter. -/
def readMpiCall (strtod : JsonValue.Strtod) (toInt : ByteString → BitVec 32) (uri : ByteString)
    (requestBody : Option ByteString) : Except HttpStatus MpiCall :=
  match (requestBody.bind (JsonValue.parseString strtod)).bind JsonValue.getObject with
  | none => .error .badRequest
  | some root =>
      if uri = bytes "MpiOpen" then do
        let client ← requireString root (bytes "ClientName")
        match root.getValue (bytes "MaxPayloadSizeBytes") with
        | some (.number printed) =>
            if (toInt printed).toInt < 0 then .error .badRequest
            else return .open client (toInt printed)
        | _ => .error .badRequest
      else if uri = bytes "MpiClose" then do
        let client ← requireString root (bytes "ClientSession")
        return .close client
      else if uri = bytes "MpiSet" ∨ uri = bytes "MpiGet" then do
        let client ← requireString root (bytes "ClientSession")
        let component ← requireString root (bytes "ComponentName")
        let object ← requireString root (bytes "ObjectName")
        if uri = bytes "MpiSet" then do
          let payload ← requirePayload root
          return .set client component object payload
        else return .get client component object
      else if uri = bytes "MpiSetDesired" then do
        let client ← requireString root (bytes "ClientSession")
        let payload ← requirePayload root
        return .setDesired client payload
      else if uri = bytes "MpiGetReported" then do
        let client ← requireString root (bytes "ClientSession")
        return .getReported client
      else .error .notFound

/-- `SetErrorResponse`, for a status that is not `MPI_OK`. -/
def setErrorResponse (mpiStatus : BitVec 32) : HttpStatus × Option ByteString × BitVec 32 :=
  let response := bytes "\"" ++ printInt mpiStatus ++ bytes "\""
  (.internalServerError, some response, BitVec.ofNat 32 response.length)

/-- The response to a status: there is one for errors only. -/
def statusResponse (mpiStatus : BitVec 32) : HttpStatus × Option ByteString × BitVec 32 :=
  if mpiStatus ≠ 0 then setErrorResponse mpiStatus else (.ok, none, 0)

def payloadResponse : BitVec 32 × Option ByteString × BitVec 32 →
    HttpStatus × Option ByteString × BitVec 32
  | (mpiStatus, payload, payloadSize) =>
      if mpiStatus ≠ 0 then setErrorResponse mpiStatus else (.ok, payload, payloadSize)

/-- The call of a handler, and the response to what it returns. -/
def callHandler (handlers : MpiCalls σ) : MpiCall → σ →
    (HttpStatus × Option ByteString × BitVec 32) × σ
  | .open client maxPayloadSizeBytes, state =>
      match handlers.mpiOpen client maxPayloadSizeBytes state with
      | (some uuid, state) =>
          let response := bytes "\"" ++ uuid ++ bytes "\""
          ((.ok, some response, BitVec.ofNat 32 response.length), state)
      | (none, state) => ((.internalServerError, none, 0), state)
  | .close client, state => ((.ok, none, 0), handlers.mpiClose client state)
  | .set client component object payload, state =>
      let (mpiStatus, state) := handlers.mpiSet client component object payload
        (BitVec.ofNat 32 payload.length) state
      (statusResponse mpiStatus, state)
  | .get client component object, state =>
      let (outcome, state) := handlers.mpiGet client component object state
      (payloadResponse outcome, state)
  | .setDesired client payload, state =>
      let (mpiStatus, state) := handlers.mpiSetDesired client payload
        (BitVec.ofNat 32 payload.length) state
      (statusResponse mpiStatus, state)
  | .getReported client, state =>
      let (outcome, state) := handlers.mpiGetReported client state
      (payloadResponse outcome, state)

/-- `HandleMpiCall` with no response yet. -/
def handleMpiCall (strtod : JsonValue.Strtod) (toInt : ByteString → BitVec 32)
    (handlers : MpiCalls σ) (uri : ByteString) (requestBody : Option ByteString) (state : σ) :
    (HttpStatus × Option ByteString × BitVec 32) × σ :=
  match readMpiCall strtod toInt uri requestBody with
  | .ok call => callHandler handlers call state
  | .error status => ((status, none, 0), state)

end Calls

section Worker

/-- What the worker reads of a request: the call name and the body that it passes to
`HandleMpiCall`. Without a content length there is no body. -/
def readRequest (socket : Socket) : Except HttpStatus (ByteString × Option ByteString) :=
  match readUriFromSocket socket with
  | (none, _) => .error .badRequest
  | (some uri, socket) =>
      let (contentLength, socket) := readHttpContentLengthFromSocket socket
      if contentLength = 0 then .ok (uri, none)
      else if MpiClient.isAllocated contentLength then
        let (requestBody, _) := socket.read contentLength.toNat
        if requestBody.length ≠ contentLength.toNat then .error .badRequest
        else .ok (uri, some requestBody.cString)
      else .error .badRequest

/-- The lines of a response behind its reason, up to the content length. -/
def responseLines : ByteString :=
  bytes "\r\nServer: OSConfig\r\nContent-Type: application/json\r\n"

/-- `responseFormat` of `MpiServerWorker`. -/
def responseFormat : ByteString :=
  bytes "HTTP/1.1 %d %s" ++ responseLines ++ bytes "Content-Length: %d\r\n\r\n%.*s"

/-- What the format makes of a response up to its body. -/
def responseHeader (status : HttpStatus) (responseSize : BitVec 32) : ByteString :=
  bytes "HTTP/1.1 " ++ printInt status.code ++ bytes " " ++ httpReasonAsString status ++
    responseLines ++ bytes "Content-Length: " ++ printInt responseSize ++ bytes "\r\n\r\n"

/-- The size that is computed for the response, before it is stored in an `int`. -/
def estimatedSize (status : HttpStatus) (responseSize : BitVec 32) : ℤ :=
  -- `MAX_STATUS_CODE_LENGTH` and `MAX_CONTENTLENGTH_LENGTH`
  responseFormat.length + 3 + (httpReasonAsString status).length + 16 + responseSize.toInt + 1

/-- The part of the body that is printed with a precision. A negative one does not count. -/
def printed (precision : BitVec 32) (body : ByteString) : ByteString :=
  if precision.toInt < 0 then body else body.take precision.toNat

/-- The response that the worker writes, if it can be allocated. -/
def writeResponse (status : HttpStatus) (responseBody : Option ByteString)
    (responseSize : BitVec 32) : Option ByteString :=
  MpiClient.printInto (BitVec.ofInt 32 (estimatedSize status responseSize))
    (responseHeader status responseSize ++ printed responseSize (responseBody.getD []).cString)

end Worker

end OsConfig.MpiServer
