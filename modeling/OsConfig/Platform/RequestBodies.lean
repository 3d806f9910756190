import OsConfig.Common.Parson.Plain
import OsConfig.Platform.Transparency

/-!
# The bodies of requests

The client puts names between quotes and a payload behind a colon without looking
at them. `HandleMpiCall` parses the body. A body reaches the handler with what was
put into it exactly if the names are plain, the payload is not too deep for a
member of the body, and the body is written whole.
-/

namespace OsConfig.MpiServer

open CommonUtils MpiClient
open Fallible (exists_of_bind_ok)
open JsonValue (Strtod Denotes NumbersReadBack IsPlain StopsAtDelimiters)

section Model

/-- A call of the client that carries names. -/
inductive NamedCall where
  | open (clientName : ByteString) (maxPayloadSizeBytes : BitVec 32)
  | set (mpiHandle componentName propertyName payload : ByteString) (payloadSizeBytes : BitVec 32)

/-- `CallMpi` as a note of its arguments. -/
def noteRequest (name request : ByteString) (sent : List (ByteString × ByteString)) :
    (ℤ × Option ByteString × BitVec 32) × List (ByteString × ByteString) :=
  ((eio, none, 0), sent ++ [(name, request)])

def NamedCall.requests (strtod : Strtod) : NamedCall → List (ByteString × ByteString)
  | .open clientName maxPayloadSizeBytes =>
      (callMpiOpen strtod noteRequest clientName maxPayloadSizeBytes []).2
  | .set mpiHandle componentName propertyName payload payloadSizeBytes =>
      (callMpiSet strtod noteRequest mpiHandle componentName propertyName payload payloadSizeBytes
        []).2

variable {σ : Type}

def noting (handlers : MpiCalls σ) : MpiCalls (σ × List MpiCall) where
  mpiOpen client maxPayloadSizeBytes := fun (state, calls) =>
    let (uuid, state) := handlers.mpiOpen client maxPayloadSizeBytes state
    (uuid, state, calls ++ [.open client maxPayloadSizeBytes])
  mpiClose client := fun (state, calls) =>
    (handlers.mpiClose client state, calls ++ [.close client])
  mpiSet client component object payload payloadSize := fun (state, calls) =>
    let (status, state) := handlers.mpiSet client component object payload payloadSize state
    (status, state, calls ++ [.set client component object payload])
  mpiGet client component object := fun (state, calls) =>
    let (outcome, state) := handlers.mpiGet client component object state
    (outcome, state, calls ++ [.get client component object])
  mpiSetDesired client payload payloadSize := fun (state, calls) =>
    let (status, state) := handlers.mpiSetDesired client payload payloadSize state
    (status, state, calls ++ [.setDesired client payload])
  mpiGetReported client := fun (state, calls) =>
    let (outcome, state) := handlers.mpiGetReported client state
    (outcome, state, calls ++ [.getReported client])

def handlerCalls (strtod : Strtod) (toInt : ByteString → BitVec 32) (handlers : MpiCalls σ)
    (state : σ) (name request : ByteString) : List MpiCall :=
  (handleMpiCall strtod toInt (noting handlers) name (some request) (state, [])).2.2

def MpiCall.uri : MpiCall → ByteString
  | .open _ _ => bytes "MpiOpen"
  | .close _ => bytes "MpiClose"
  | .set _ _ _ _ => bytes "MpiSet"
  | .get _ _ _ => bytes "MpiGet"
  | .setDesired _ _ => bytes "MpiSetDesired"
  | .getReported _ => bytes "MpiGetReported"

/-- The member is a string, and the text is what a C string holds of it. -/
def HasString (root : JsonObject) (name text : ByteString) : Prop :=
  ∃ content, root.getValue name = some (.string content) ∧ ByteString.cString content = text

/-- The payload is the member as it is serialized. -/
def HasPayload (root : JsonObject) (text : ByteString) : Prop :=
  ∃ value, root.getValue (bytes "Payload") = some value ∧ value.serializeToString = text

/-- The object has the fields that the call takes, and these are their values. -/
def MpiCall.IsCarriedBy (toInt : ByteString → BitVec 32) (root : JsonObject) : MpiCall → Prop
  | .open client maxPayloadSizeBytes =>
      HasString root (bytes "ClientName") client ∧
        (∃ printed, root.getValue (bytes "MaxPayloadSizeBytes") = some (.number printed) ∧
          toInt printed = maxPayloadSizeBytes) ∧ 0 ≤ maxPayloadSizeBytes.toInt
  | .close client => HasString root (bytes "ClientSession") client
  | .set client component object payload =>
      HasString root (bytes "ClientSession") client ∧
        HasString root (bytes "ComponentName") component ∧
        HasString root (bytes "ObjectName") object ∧ HasPayload root payload
  | .get client component object =>
      HasString root (bytes "ClientSession") client ∧
        HasString root (bytes "ComponentName") component ∧
        HasString root (bytes "ObjectName") object
  | .setDesired client payload =>
      HasString root (bytes "ClientSession") client ∧ HasPayload root payload
  | .getReported client => HasString root (bytes "ClientSession") client

/-- The text is the same JSON value as the payload. -/
def IsSamePayload (strtod : Strtod) (payload text : ByteString) : Prop :=
  ∀ value, Denotes strtod payload value →
    text = value.serializeToString ∧
      (NumbersReadBack strtod value → Denotes strtod text value)

/-- The handler's call has the arguments of the client's call. -/
def NamedCall.Matches (strtod : Strtod) : NamedCall → MpiCall → Prop
  | .open clientName maxPayloadSizeBytes, .open client size =>
      client = clientName ∧ size = maxPayloadSizeBytes
  | .set mpiHandle componentName propertyName payload _, .set client component object text =>
      MpiClient.parseString strtod mpiHandle = some client ∧ component = componentName ∧
        object = propertyName ∧ IsSamePayload strtod payload text
  | _, _ => False

/-- The handle is a string, as `MpiOpen` responds, and the payload is JSON of the size that is
given. -/
def NamedCall.IsProper (strtod : Strtod) : NamedCall → Prop
  | .open _ _ => True
  | .set mpiHandle _ _ payload payloadSizeBytes =>
      (∃ session, JsonValue.getQuotedString mpiHandle = some (session, [])) ∧
        (∃ value, Denotes strtod payload value) ∧ payloadSizeBytes.toInt = payload.length

/-- The names are plain, the number has no sign, the payload is not too deep, and an `int` holds
the size. -/
def NamedCall.IsEncodable (strtod : Strtod) : NamedCall → Prop
  | .open clientName maxPayloadSizeBytes =>
      IsPlain clientName ∧ 0 ≤ maxPayloadSizeBytes.toInt ∧
        openSize clientName maxPayloadSizeBytes < 2 ^ 31
  | .set mpiHandle componentName propertyName payload payloadSizeBytes =>
      IsPlain componentName ∧ IsPlain propertyName ∧
        (∀ value, Denotes strtod payload value → value.depth ≤ JsonValue.maxNesting) ∧
        setSize mpiHandle componentName propertyName payloadSizeBytes < 2 ^ 31

/-- What the C library makes of a printed number: all of it is read, and its value is the
number. -/
def ReadsIntegers (strtod : Strtod) (toInt : ByteString → BitVec 32) : Prop :=
  ∀ number : BitVec 32, ∃ printed,
    strtod (printInt number) = some ((printInt number).length, printed) ∧ toInt printed = number

end Model

section Handlers

variable {σ : Type} {strtod : Strtod} {toInt : ByteString → BitVec 32} {handlers : MpiCalls σ}
  {state : σ} {name request : ByteString}

theorem callHandler_noting (call : MpiCall) (calls : List MpiCall) :
    callHandler (noting handlers) call (state, calls) =
      ((callHandler handlers call state).1, (callHandler handlers call state).2,
        calls ++ [call]) := by
  cases call with
  | «open» client size =>
      have noted : (noting handlers).mpiOpen client size (state, calls) =
          ((handlers.mpiOpen client size state).1, (handlers.mpiOpen client size state).2,
            calls ++ [.open client size]) := rfl
      simp only [callHandler, noted]
      generalize handlers.mpiOpen client size state = outcome
      rcases outcome with ⟨_ | uuid, after⟩
      · rfl
      · rfl
  | close => rfl
  | set => rfl
  | get => rfl
  | setDesired => rfl
  | getReported => rfl

theorem handlerCalls_eq_singleton {call : MpiCall} :
    handlerCalls strtod toInt handlers state name request = [call] ↔
      readMpiCall strtod toInt name (some request) = .ok call := by
  rw [handlerCalls, handleMpiCall]
  cases readMpiCall strtod toInt name (some request) with
  | error status => simp
  | ok other =>
      simp only [callHandler_noting]
      simp

theorem getObject_eq_some {value : Option JsonValue} {root : JsonObject} :
    value.bind JsonValue.getObject = some root ↔ value = some (.object root) := by
  rcases value with _ | _ | _ | _ | _ | _ | _ <;> simp [JsonValue.getObject]

theorem requireString_eq_ok {root : JsonObject} {key text : ByteString} :
    requireString root key = .ok text ↔ HasString root key text := by
  rw [requireString, HasString]
  rcases JsonObject.getValue root key with _ | _ | _ | _ | _ | _ | _ <;>
    simp [JsonValue.getString]

theorem requirePayload_eq_ok {root : JsonObject} {text : ByteString} :
    requirePayload root = .ok text ↔ HasPayload root text := by
  rw [requirePayload, HasPayload]
  cases JsonObject.getValue root (bytes "Payload") with
  | none => simp
  | some value => simp

theorem readMpiCall_eq_ok {uri : ByteString} {body : Option ByteString} {call : MpiCall} :
    readMpiCall strtod toInt uri body = .ok call ↔
      uri = call.uri ∧ ∃ root, body.bind (JsonValue.parseString strtod) = some (.object root) ∧
        call.IsCarriedBy toInt root := by
  constructor
  · intro read
    unfold readMpiCall at read
    split at read
    · cases read
    next root parsed =>
      rw [getObject_eq_some] at parsed
      split_ifs at read with isOpen isClose isPair isSet isSetDesired isGetReported
      · rcases exists_of_bind_ok read with ⟨client, named, read⟩
        split at read
        next printed number =>
          split_ifs at read with negative
          cases read
          exact ⟨isOpen, root, parsed, requireString_eq_ok.mp named, ⟨printed, number, rfl⟩,
            not_lt.mp negative⟩
        next => cases read
      · rcases exists_of_bind_ok read with ⟨client, session, read⟩
        cases read
        exact ⟨isClose, root, parsed, requireString_eq_ok.mp session⟩
      · rcases exists_of_bind_ok read with ⟨client, session, read⟩
        rcases exists_of_bind_ok read with ⟨component, named, read⟩
        rcases exists_of_bind_ok read with ⟨object, objectNamed, read⟩
        rcases exists_of_bind_ok read with ⟨payload, serialized, read⟩
        cases read
        exact ⟨isSet, root, parsed, requireString_eq_ok.mp session, requireString_eq_ok.mp named,
          requireString_eq_ok.mp objectNamed, requirePayload_eq_ok.mp serialized⟩
      · rcases exists_of_bind_ok read with ⟨client, session, read⟩
        rcases exists_of_bind_ok read with ⟨component, named, read⟩
        rcases exists_of_bind_ok read with ⟨object, objectNamed, read⟩
        cases read
        exact ⟨isPair.resolve_left isSet, root, parsed, requireString_eq_ok.mp session,
          requireString_eq_ok.mp named, requireString_eq_ok.mp objectNamed⟩
      · rcases exists_of_bind_ok read with ⟨client, session, read⟩
        rcases exists_of_bind_ok read with ⟨payload, serialized, read⟩
        cases read
        exact ⟨isSetDesired, root, parsed, requireString_eq_ok.mp session,
          requirePayload_eq_ok.mp serialized⟩
      · rcases exists_of_bind_ok read with ⟨client, session, read⟩
        cases read
        exact ⟨isGetReported, root, parsed, requireString_eq_ok.mp session⟩
  · rintro ⟨rfl, root, parsed, carried⟩
    have isObject := getObject_eq_some.mpr parsed
    cases call with
    | «open» client size =>
        rcases carried with ⟨named, ⟨printed, number, rfl⟩, positive⟩
        simp only [readMpiCall, isObject, MpiCall.uri, if_true, requireString_eq_ok.mpr named, number,
          if_neg (not_lt.mpr positive)]
        rfl
    | close client =>
        simp only [readMpiCall, isObject, requireString_eq_ok.mpr carried]
        rfl
    | set client component object payload =>
        rcases carried with ⟨session, named, objectNamed, serialized⟩
        simp only [readMpiCall, isObject, requireString_eq_ok.mpr session,
          requireString_eq_ok.mpr named, requireString_eq_ok.mpr objectNamed,
          requirePayload_eq_ok.mpr serialized]
        rfl
    | get client component object =>
        rcases carried with ⟨session, named, objectNamed⟩
        simp only [readMpiCall, isObject, requireString_eq_ok.mpr session,
          requireString_eq_ok.mpr named, requireString_eq_ok.mpr objectNamed]
        rfl
    | setDesired client payload =>
        rcases carried with ⟨session, serialized⟩
        simp only [readMpiCall, isObject, requireString_eq_ok.mpr session,
          requirePayload_eq_ok.mpr serialized]
        rfl
    | getReported client =>
        simp only [readMpiCall, isObject, requireString_eq_ok.mpr carried]
        rfl

end Handlers

section Numbers

variable {strtod : Strtod} {toInt : ByteString → BitVec 32}

/-- A printed number is one or more digits without a leading zero, and perhaps a sign. -/
theorem printInt_cases (number : BitVec 32) :
    printInt number = [48] ∨ ∃ digit digits, digit ≠ 48 ∧
      (printInt number = digit :: digits ∧ Numerals.isDecimal digit = true ∨
        printInt number = 45 :: digit :: digits) := by
  have printed : printInt number = if number.toInt < 0
      then 45 :: Numerals.render 10 number.toInt.natAbs
      else Numerals.render 10 number.toInt.natAbs := rfl
  by_cases zero : number.toInt = 0
  · left
    rw [printed, zero]
    rfl
  · have nonzero : number.toInt.natAbs ≠ 0 := Int.natAbs_ne_zero.mpr zero
    rcases Numerals.render_eq_cons nonzero with ⟨digit, digits, numeral, leading⟩
    refine .inr ⟨digit, digits, leading, ?_⟩
    rw [printed, numeral]
    split
    · exact .inr rfl
    · have mem : digit ∈ Numerals.render 10 number.toInt.natAbs := by simp [numeral]
      exact .inl ⟨rfl, Numerals.isDecimal_of_mem_render mem⟩

theorem isDecimal_printInt (number : BitVec 32) : JsonValue.isDecimal (printInt number) = true := by
  have noX : ∀ byte ∈ printInt number, ¬(byte = 120 ∨ byte = 88) := by
    intro byte mem
    have digits : ∀ byte : UInt8, Numerals.isDecimal byte = true → ¬(byte = 120 ∨ byte = 88) := by
      decide +kernel
    rcases mem_printInt mem with rfl | digit
    · decide
    · exact digits byte digit
  have minus : bytes "-0" = [45, 48] := by decide
  have any : (printInt number).any (fun byte => byte = 120 || byte = 88) = false := by
    simpa using noX
  rw [JsonValue.isDecimal, any, minus]
  rcases printInt_cases number with zero | ⟨digit, digits, leading, ⟨text, numeric⟩ | text⟩
  · simp [zero]
  · have notMinus : digit ≠ 45 := by
      rintro rfl
      cases numeric
    simp [text, leading, notMinus]
  · simp [text, leading]

/-- A printed number behind a colon, up to the end of an object. -/
theorem parseValue_printInt (stops : StopsAtDelimiters strtod) (integers : ReadsIntegers strtod toInt)
    (levels : ℕ) (number : BitVec 32) :
    ∃ printed, JsonValue.parseValue strtod (levels + 1) (32 :: (printInt number ++ [32, 125])) =
      some (.number printed, [32, 125]) ∧ toInt printed = number := by
  rcases integers number with ⟨printed, read, value⟩
  refine ⟨printed, ?_, value⟩
  have numeric : ∃ byte rest, printInt number = byte :: rest ∧
      (byte = 45 ∨ ByteString.isDigit byte = true) := by
    rcases printInt_cases number with zero | ⟨digit, digits, -, ⟨text, numeric⟩ | text⟩
    · exact ⟨48, [], zero, .inr rfl⟩
    · exact ⟨digit, digits, text, .inr numeric⟩
    · exact ⟨45, digit :: digits, text, .inl rfl⟩
  rcases numeric with ⟨byte, rest, text, numeric⟩
  have apart : ∀ byte : UInt8, (byte = 45 ∨ ByteString.isDigit byte = true) →
      ByteString.isSpace byte = false ∧ byte ≠ 123 ∧ byte ≠ 91 ∧ byte ≠ 34 ∧
        ¬(byte = 102 ∨ byte = 116) := by
    decide +kernel
  rcases apart byte numeric with ⟨black, object, array, quote, letter⟩
  have alone : JsonValue.parseNumberValue strtod (byte :: rest) = some (.number printed, []) := by
    have decimal := isDecimal_printInt number
    rw [text] at read decimal
    simp only [JsonValue.parseNumberValue, read, Option.bind_eq_bind, Option.bind_some,
      List.take_length, decimal, if_true, List.drop_length, Option.pure_def]
  have followed : JsonValue.parseNumberValue strtod (byte :: rest ++ [32, 125]) =
      some (.number printed, [32, 125]) :=
    JsonValue.parseNumberValue_append stops black alone (.inr (JsonValue.ends_cons (by decide) _))
  have skipped : JsonValue.skipWhitespaces (32 :: (byte :: rest ++ [32, 125])) =
      byte :: (rest ++ [32, 125]) := JsonValue.skipWhitespaces_cons black _
  rw [text, JsonValue.parseValue_of_skip skipped, if_neg object, if_neg array, if_neg quote,
    if_neg letter, if_pos numeric]
  exact followed

end Numbers

section Sizes

variable {text request : ByteString} {size : ℤ}

/-- A request is written whole if an `int` holds its size, and else cut. -/
theorem printInto_cases (built : printInto (BitVec.ofInt 32 size) text = some request)
    (larger : text.length < size) (near : size ≤ text.length + 2 ^ 31) :
    ∃ more, request ++ more = text ∧ (size < 2 ^ 31 ↔ more = []) := by
  rw [printInto, Option.ite_none_left_eq_some] at built
  rcases built with ⟨positive, same⟩
  rw [Option.some.injEq] at same
  have small := toNat_lt_of_nonneg (not_lt.mp positive)
  have toNat : ((BitVec.ofInt 32 size).toNat : ℤ) = size % 2 ^ 32 := by
    rw [BitVec.toNat_ofInt]
    omega
  refine ⟨text.drop ((BitVec.ofInt 32 size).toNat - 1), ?_, ?_⟩
  · rw [← same, List.take_append_drop]
  · rw [List.drop_eq_nil_iff]
    omega

end Sizes

set_option maxRecDepth 4000 in
theorem isPlain_members : ∀ member ∈ [bytes "ClientName", bytes "MaxPayloadSizeBytes",
    bytes "ClientSession", bytes "ComponentName", bytes "ObjectName", bytes "Payload"],
    IsPlain member := by
  decide

theorem exists_maxNesting_eq : ∃ levels, JsonValue.maxNesting = levels + 1 :=
  ⟨2047, rfl⟩

/-- What is read off a cut request is read off the whole one. -/
theorem exists_parseValue_whole {strtod : Strtod} {request more others : ByteString}
    {root : JsonObject} (stops : StopsAtDelimiters strtod) (front : request ++ more = 123 :: others)
    (parsed : JsonValue.parseString strtod request = some (.object root)) :
    ∃ rest, JsonValue.parseValue strtod (JsonValue.maxNesting + 1) (123 :: others) =
      some (.object root, rest ++ more) := by
  rcases (JsonValue.parseString_object front).mp parsed with ⟨rest, read⟩
  have longer := JsonValue.parseValue_append stops read (JsonValue.depth_le_of_parseValue read) more
    (by rintro ⟨_, number⟩; cases number)
  rw [front] at longer
  exact ⟨rest, longer.2⟩

theorem getValue_of_ne {name key : ByteString} {value : JsonValue} {others : JsonObject}
    (apart : key ≠ name) :
    JsonObject.getValue ((name, value) :: others) key = JsonObject.getValue others key := by
  have unequal : (key == name) = false := by simpa using apart
  rw [JsonObject.getValue, List.lookup_cons, unequal]
  rfl

theorem isPlain_of_hasString {root : JsonObject} {key text content behind more : ByteString}
    (quoted : JsonValue.getQuotedString (34 :: (text ++ 34 :: 44 :: 32 :: 34 :: more)) =
      some (content, behind))
    (delivered : HasString root key text)
    (found : JsonObject.getValue root key = some (.string content)) : IsPlain text := by
  rcases delivered with ⟨other, again, same⟩
  rw [found, Option.some.injEq, JsonValue.string.injEq] at again
  rw [← again] at same
  exact JsonValue.isPlain_of_delivered quoted same

section Open

variable {strtod : Strtod} {toInt : ByteString → BitVec 32} {clientName : ByteString}
  {maxPayloadSizeBytes : BitVec 32} {name request : ByteString}

theorem openText_eq : openText clientName maxPayloadSizeBytes =
    123 :: 32 :: 34 :: (bytes "ClientName" ++ 34 :: 58 :: 32 :: 34 :: (clientName ++
      34 :: 44 :: 32 :: 34 :: (bytes "MaxPayloadSizeBytes" ++ 34 :: 58 :: 32 ::
        (printInt maxPayloadSizeBytes ++ [32, 125])))) := by
  have first : bytes "\x7b \"ClientName\": \"" =
      123 :: 32 :: 34 :: (bytes "ClientName" ++ [34, 58, 32, 34]) := by
    decide
  have second : bytes "\", \"MaxPayloadSizeBytes\": " =
      34 :: 44 :: 32 :: 34 :: (bytes "MaxPayloadSizeBytes" ++ [34, 58, 32]) := by
    decide
  have last : bytes " \x7d" = [32, 125] := by decide
  rw [openText, first, second, last]
  simp only [List.append_assoc, List.cons_append, List.nil_append]

theorem openSize_eq : openSize clientName maxPayloadSizeBytes =
    (openText clientName maxPayloadSizeBytes).length + 5 := by
  have format : (bytes "\x7b \"ClientName\": \"%s\", \"MaxPayloadSizeBytes\": %d \x7d").length =
      49 := by
    decide
  have parts : (bytes "\x7b \"ClientName\": \"").length = 17 ∧
      (bytes "\", \"MaxPayloadSizeBytes\": ").length = 26 ∧ (bytes " \x7d").length = 2 := by
    decide
  simp only [openSize, openText, List.length_append, format, parts.1, parts.2.1, parts.2.2]
  omega

theorem request_of_open (built : (NamedCall.open clientName maxPayloadSizeBytes).requests strtod =
      [(name, request)]) :
    name = bytes "MpiOpen" ∧
      printInto (BitVec.ofNat 32 (openSize clientName maxPayloadSizeBytes))
        (openText clientName maxPayloadSizeBytes) = some request := by
  rw [NamedCall.requests] at built
  delta callMpiOpen at built
  split at built
  · cases built
  next body made =>
    simp only [noteRequest, List.nil_append, List.cons.injEq, Prod.mk.injEq, and_true] at built
    rw [← built.2, made]
    exact ⟨built.1.symm, rfl⟩

theorem requests_open (fits : openSize clientName maxPayloadSizeBytes < 2 ^ 31) :
    (NamedCall.open clientName maxPayloadSizeBytes).requests strtod =
      [(bytes "MpiOpen", openText clientName maxPayloadSizeBytes)] := by
  have size : openSize clientName maxPayloadSizeBytes =
      (openText clientName maxPayloadSizeBytes).length + 5 := openSize_eq
  have toNat : (BitVec.ofNat 32 (openSize clientName maxPayloadSizeBytes)).toNat =
      openSize clientName maxPayloadSizeBytes := by
    rw [BitVec.toNat_ofNat]
    omega
  have written : printInto (BitVec.ofNat 32 (openSize clientName maxPayloadSizeBytes))
      (openText clientName maxPayloadSizeBytes) =
        some (openText clientName maxPayloadSizeBytes) := by
    rw [printInto, if_neg, toNat, List.take_of_length_le (by omega)]
    rw [toInt_ofNat fits]
    omega
  rw [NamedCall.requests]
  delta callMpiOpen
  simp only [written]
  rfl

theorem parseValue_openText (stops : StopsAtDelimiters strtod)
    (integers : ReadsIntegers strtod toInt) (plain : IsPlain clientName) :
    ∃ printed, JsonValue.parseValue strtod (JsonValue.maxNesting + 1)
        (openText clientName maxPayloadSizeBytes) =
      some (.object [(bytes "ClientName", .string clientName),
        (bytes "MaxPayloadSizeBytes", .number printed)], []) ∧
      toInt printed = maxPayloadSizeBytes := by
  rcases exists_maxNesting_eq with ⟨levels, nesting⟩
  rcases parseValue_printInt stops integers levels maxPayloadSizeBytes with
    ⟨printed, number, value⟩
  refine ⟨printed, ?_, value⟩
  have fresh : bytes "MaxPayloadSizeBytes" ∉ [bytes "ClientName"] := by decide
  have quoted := JsonValue.getQuotedString_of_isPlain plain
    (44 :: 32 :: 34 :: (bytes "MaxPayloadSizeBytes" ++ 34 :: 58 :: 32 ::
      (printInt maxPayloadSizeBytes ++ [32, 125])))
  have members := JsonValue.parseMembers_next (isPlain_members (bytes "ClientName") (by simp))
    List.not_mem_nil (JsonValue.parseValue_string.mpr ⟨_, quoted, rfl⟩)
    (JsonValue.parseMembers_last (isPlain_members _ (by simp)) fresh number rfl)
  rw [openText_eq, nesting]
  apply JsonValue.parseValue_object_of_parseMembers stops members
  simp only [List.length_append, List.length_cons]
  omega

theorem isPlain_of_openText {root : JsonObject} {rest : ByteString}
    (read : JsonValue.parseValue strtod (JsonValue.maxNesting + 1)
      (openText clientName maxPayloadSizeBytes) = some (.object root, rest))
    (named : HasString root (bytes "ClientName") clientName) : IsPlain clientName := by
  have label : IsPlain (bytes "ClientName") := isPlain_members _ (by simp)
  rcases exists_maxNesting_eq with ⟨levels, nesting⟩
  rw [openText_eq, JsonValue.parseValue_object, nesting] at read
  rcases read with ⟨members, read, same⟩
  rw [JsonValue.object.injEq] at same
  subst same
  rcases JsonValue.parseMembers_string_inv label read with ⟨content, behind, others, quoted, rfl⟩
  exact isPlain_of_hasString quoted named List.lookup_cons_self

theorem open_matches_iff {σ : Type} {handlers : MpiCalls σ} {state : σ}
    (stops : StopsAtDelimiters strtod) (integers : ReadsIntegers strtod toInt)
    (built : (NamedCall.open clientName maxPayloadSizeBytes).requests strtod =
      [(name, request)]) :
    (∃ call, handlerCalls strtod toInt handlers state name request = [call] ∧
        (NamedCall.open clientName maxPayloadSizeBytes).Matches strtod call) ↔
      (NamedCall.open clientName maxPayloadSizeBytes).IsEncodable strtod := by
  rcases request_of_open built with ⟨rfl, made⟩
  have size : (openSize clientName maxPayloadSizeBytes : ℤ) =
      (openText clientName maxPayloadSizeBytes).length + 5 := by
    exact_mod_cast openSize_eq
  rw [← BitVec.ofInt_natCast] at made
  rcases printInto_cases made (by omega) (by omega) with ⟨more, whole, fits⟩
  have front := whole.trans openText_eq
  rw [NamedCall.IsEncodable]
  constructor
  · rintro ⟨call, called, same⟩
    rw [handlerCalls_eq_singleton] at called
    cases call with
    | «open» client size =>
        rcases same with ⟨rfl, rfl⟩
        rcases readMpiCall_eq_ok.mp called with ⟨-, root, parsed, named, -, positive⟩
        rcases exists_parseValue_whole stops front parsed with ⟨rest, read⟩
        rw [← openText_eq] at read
        have plain := isPlain_of_openText read named
        rcases parseValue_openText stops integers plain with ⟨other, complete, -⟩
        rw [complete, Option.some.injEq, Prod.mk.injEq] at read
        have all := List.append_eq_nil_iff.mp read.2.symm
        have small := fits.mpr all.2
        exact ⟨plain, positive, by omega⟩
    | _ => cases same
  · rintro ⟨plain, positive, small⟩
    have all : more = [] := fits.mp (by omega)
    rcases parseValue_openText stops integers plain with ⟨printed, complete, value⟩
    rw [all, List.append_nil] at front whole
    have parsed := (JsonValue.parseString_object ((List.append_nil _).trans front)).mpr
      ⟨[], whole ▸ complete⟩
    refine ⟨.open clientName maxPayloadSizeBytes, ?_, rfl, rfl⟩
    rw [handlerCalls_eq_singleton, readMpiCall_eq_ok]
    refine ⟨rfl, _, parsed, ⟨clientName, ?_, ?_⟩, ⟨printed, ?_, value⟩, positive⟩
    · exact List.lookup_cons_self
    · exact ByteString.cString_of_not_mem plain.nul_notMem
    · rfl

end Open

section Set

variable {strtod : Strtod} {toInt : ByteString → BitVec 32}
  {mpiHandle componentName propertyName payload session : ByteString}
  {payloadSizeBytes : BitVec 32} {name request : ByteString} {value : JsonValue}

/-- The members of the body behind the session. -/
def setMembers (componentName propertyName payload : ByteString) : ByteString :=
  bytes "ComponentName" ++ 34 :: 58 :: 32 :: 34 :: (componentName ++
    34 :: 44 :: 32 :: 34 :: (bytes "ObjectName" ++ 34 :: 58 :: 32 :: 34 :: (propertyName ++
      34 :: 44 :: 32 :: 34 :: (bytes "Payload" ++ 34 :: 58 :: 32 :: (payload ++ [32, 125])))))

theorem setText_eq : setText mpiHandle componentName propertyName payload =
    123 :: 32 :: 34 :: (bytes "ClientSession" ++ 34 :: 58 :: 32 :: (mpiHandle ++
      44 :: 32 :: 34 :: setMembers componentName propertyName payload)) := by
  have first : bytes "\x7b \"ClientSession\": " =
      123 :: 32 :: 34 :: (bytes "ClientSession" ++ [34, 58, 32]) := by
    decide
  have second : bytes ", \"ComponentName\": \"" =
      44 :: 32 :: 34 :: (bytes "ComponentName" ++ [34, 58, 32, 34]) := by
    decide
  have third : bytes "\", \"ObjectName\": \"" =
      34 :: 44 :: 32 :: 34 :: (bytes "ObjectName" ++ [34, 58, 32, 34]) := by
    decide
  have fourth : bytes "\", \"Payload\": " =
      34 :: 44 :: 32 :: 34 :: (bytes "Payload" ++ [34, 58, 32]) := by
    decide
  have last : bytes " \x7d" = [32, 125] := by decide
  rw [setText, first, second, third, fourth, last]
  simp only [setMembers, List.append_assoc, List.cons_append, List.nil_append]

set_option maxRecDepth 1000 in
theorem setSize_eq (sized : payloadSizeBytes.toInt = payload.length) :
    setSize mpiHandle componentName propertyName payloadSizeBytes =
      (setText mpiHandle componentName propertyName payload).length + 9 := by
  have format : (bytes "\x7b \"ClientSession\": %s, \"ComponentName\": \"%s\", \"ObjectName\": \"%s\", \"Payload\": %s \x7d").length =
      81 := by
    decide
  have parts : (bytes "\x7b \"ClientSession\": ").length = 19 ∧
      (bytes ", \"ComponentName\": \"").length = 20 ∧
      (bytes "\", \"ObjectName\": \"").length = 18 ∧
      (bytes "\", \"Payload\": ").length = 14 ∧ (bytes " \x7d").length = 2 := by
    decide
  simp only [setSize, setText, List.length_append, format, parts, sized]
  omega

theorem request_of_set (built : (NamedCall.set mpiHandle componentName propertyName payload
      payloadSizeBytes).requests strtod = [(name, request)]) :
    name = bytes "MpiSet" ∧
      printInto (BitVec.ofInt 32 (setSize mpiHandle componentName propertyName payloadSizeBytes))
        (setText mpiHandle componentName propertyName payload) = some request := by
  rw [NamedCall.requests, callMpiSet] at built
  split at built
  · cases built
  split at built
  · cases built
  split at built
  · cases built
  next body made =>
    simp only [noteRequest, List.nil_append, List.cons.injEq, Prod.mk.injEq, and_true] at built
    rw [← built.2, made]
    exact ⟨built.1.symm, rfl⟩

theorem parseValue_handle (quoted : JsonValue.getQuotedString mpiHandle = some (session, []))
    (levels : ℕ) (behind : ByteString) :
    JsonValue.parseValue strtod (levels + 1) (32 :: (mpiHandle ++ behind)) =
      some (.string session, behind) := by
  have longer := JsonValue.getQuotedString_append quoted behind
  rcases JsonValue.getQuotedString_eq_some.mp quoted with ⟨others, raw, rfl, -, -⟩
  exact JsonValue.parseValue_string.mpr ⟨session, longer, rfl⟩

theorem parseString_handle (quoted : JsonValue.getQuotedString mpiHandle = some (session, [])) :
    MpiClient.parseString strtod mpiHandle = some session.cString := by
  rcases JsonValue.getQuotedString_eq_some.mp quoted with ⟨others, raw, rfl, -, -⟩
  have read : JsonValue.parseValue strtod (JsonValue.maxNesting + 1) (34 :: others) =
      some (.string session, []) := by
    have skipped : JsonValue.skipWhitespaces (34 :: others) = 34 :: others := rfl
    rw [JsonValue.parseValue_of_skip skipped, if_neg (by decide), if_neg (by decide), if_pos rfl,
      JsonValue.parseStringValue, quoted]
    rfl
  have unmarked : JsonValue.skipByteOrderMark (34 :: others) = 34 :: others := rfl
  rw [MpiClient.parseString, JsonValue.parseString, unmarked, read]
  rfl

theorem parseValue_plain {text : ByteString} (plain : IsPlain text) (levels : ℕ)
    (behind : ByteString) :
    JsonValue.parseValue strtod (levels + 1) (32 :: 34 :: (text ++ 34 :: behind)) =
      some (.string text, behind) :=
  JsonValue.parseValue_string.mpr
    ⟨text, JsonValue.getQuotedString_of_isPlain plain behind, rfl⟩

/-- The body of plain names and a payload that is not too deep is read to its end. -/
theorem parseValue_setText (stops : StopsAtDelimiters strtod)
    (quoted : JsonValue.getQuotedString mpiHandle = some (session, []))
    (denotes : Denotes strtod payload value) (component : IsPlain componentName)
    (property : IsPlain propertyName) (shallow : value.depth ≤ JsonValue.maxNesting) :
    JsonValue.parseValue strtod (JsonValue.maxNesting + 1)
        (setText mpiHandle componentName propertyName payload) =
      some (.object [(bytes "ClientSession", .string session),
        (bytes "ComponentName", .string componentName),
        (bytes "ObjectName", .string propertyName), (bytes "Payload", value)], []) := by
  rcases exists_maxNesting_eq with ⟨levels, nesting⟩
  have distinct : [bytes "Payload", bytes "ObjectName", bytes "ComponentName",
      bytes "ClientSession"].Nodup := by
    decide
  rw [List.nodup_cons, List.nodup_cons, List.nodup_cons] at distinct
  rcases distinct with ⟨payloadFresh, propertyFresh, componentFresh, -⟩
  rw [nesting] at shallow
  rcases JsonValue.parseValue_payload stops denotes shallow with ⟨behind, payloadRead, closing⟩
  have componentQuoted := JsonValue.getQuotedString_of_isPlain component
    (44 :: 32 :: 34 :: (bytes "ObjectName" ++ 34 :: 58 :: 32 :: 34 :: (propertyName ++
      34 :: 44 :: 32 :: 34 :: (bytes "Payload" ++ 34 :: 58 :: 32 :: (payload ++ [32, 125])))))
  have propertyQuoted := JsonValue.getQuotedString_of_isPlain property
    (44 :: 32 :: 34 :: (bytes "Payload" ++ 34 :: 58 :: 32 :: (payload ++ [32, 125])))
  have fourth := JsonValue.parseMembers_last (isPlain_members (bytes "Payload") (by simp))
    payloadFresh payloadRead closing
  have third := JsonValue.parseMembers_next (isPlain_members (bytes "ObjectName") (by simp))
    propertyFresh (JsonValue.parseValue_string.mpr ⟨_, propertyQuoted, rfl⟩) fourth
  have second := JsonValue.parseMembers_next (isPlain_members (bytes "ComponentName") (by simp))
    componentFresh (JsonValue.parseValue_string.mpr ⟨_, componentQuoted, rfl⟩) third
  have members := JsonValue.parseMembers_next (isPlain_members (bytes "ClientSession") (by simp))
    List.not_mem_nil (parseValue_handle quoted levels _) second
  rw [setText_eq, nesting]
  apply JsonValue.parseValue_object_of_parseMembers stops members
  simp only [List.length_append, List.length_cons]
  omega

theorem isPlain_of_setText (stops : StopsAtDelimiters strtod) {root : JsonObject}
    {rest : ByteString}
    (quoted : JsonValue.getQuotedString mpiHandle = some (session, []))
    (denotes : Denotes strtod payload value)
    (read : JsonValue.parseValue strtod (JsonValue.maxNesting + 1)
      (setText mpiHandle componentName propertyName payload) = some (.object root, rest))
    (component : HasString root (bytes "ComponentName") componentName)
    (property : HasString root (bytes "ObjectName") propertyName) :
    IsPlain componentName ∧ IsPlain propertyName ∧ value.depth ≤ JsonValue.maxNesting := by
  rcases exists_maxNesting_eq with ⟨levels, nesting⟩
  rw [nesting] at read ⊢
  rw [setText_eq, JsonValue.parseValue_object] at read
  rcases read with ⟨members, read, same⟩
  rw [JsonValue.object.injEq] at same
  subst same
  rcases JsonValue.parseMembers_next_inv (isPlain_members (bytes "ClientSession") (by simp))
    (parseValue_handle quoted levels _) read with ⟨fewer, others, components, rfl⟩
  rw [setMembers] at components
  have componentIsPlain : IsPlain componentName := by
    rcases JsonValue.parseMembers_string_inv (isPlain_members (bytes "ComponentName") (by simp))
      components with ⟨content, behind, later, delivered, rfl⟩
    apply isPlain_of_hasString delivered component
    rw [getValue_of_ne (by decide)]
    exact List.lookup_cons_self
  rcases JsonValue.parseMembers_next_inv (isPlain_members (bytes "ComponentName") (by simp))
    (parseValue_plain componentIsPlain levels _) components with ⟨fewer, others, properties, rfl⟩
  have propertyIsPlain : IsPlain propertyName := by
    rcases JsonValue.parseMembers_string_inv (isPlain_members (bytes "ObjectName") (by simp))
      properties with ⟨content, behind, later, delivered, rfl⟩
    apply isPlain_of_hasString delivered property
    rw [getValue_of_ne (by decide), getValue_of_ne (by decide)]
    exact List.lookup_cons_self
  rcases JsonValue.parseMembers_next_inv (isPlain_members (bytes "ObjectName") (by simp))
    (parseValue_plain propertyIsPlain levels _) properties with ⟨fewer, others, payloads, rfl⟩
  refine ⟨componentIsPlain, propertyIsPlain, ?_⟩
  cases fewer with
  | zero => cases payloads
  | succ fewer =>
      rcases (JsonValue.parseMembers_field (isPlain_members (bytes "Payload") (by simp))).mp
        payloads with ⟨other, behind, payloadRead, -⟩
      exact (JsonValue.depth_le_of_payload stops denotes payloadRead).2

theorem set_matches_iff {σ : Type} {handlers : MpiCalls σ} {state : σ}
    (stops : StopsAtDelimiters strtod)
    (proper : (NamedCall.set mpiHandle componentName propertyName payload
      payloadSizeBytes).IsProper strtod)
    (built : (NamedCall.set mpiHandle componentName propertyName payload
      payloadSizeBytes).requests strtod = [(name, request)]) :
    (∃ call, handlerCalls strtod toInt handlers state name request = [call] ∧
        (NamedCall.set mpiHandle componentName propertyName payload payloadSizeBytes).Matches strtod
          call) ↔
      (NamedCall.set mpiHandle componentName propertyName payload payloadSizeBytes).IsEncodable
        strtod := by
  rcases proper with ⟨⟨session, quoted⟩, ⟨value, denotes⟩, sized⟩
  rcases request_of_set built with ⟨rfl, made⟩
  have size : setSize mpiHandle componentName propertyName payloadSizeBytes =
      (setText mpiHandle componentName propertyName payload).length + 9 := setSize_eq sized
  rcases printInto_cases made (by omega) (by omega) with ⟨more, whole, fits⟩
  have front := whole.trans setText_eq
  rw [NamedCall.IsEncodable]
  constructor
  · rintro ⟨call, called, same⟩
    rw [handlerCalls_eq_singleton] at called
    cases call with
    | set client component property text =>
        rcases same with ⟨-, rfl, rfl, -⟩
        rcases readMpiCall_eq_ok.mp called with ⟨-, root, parsed, -, component, property, -⟩
        rcases exists_parseValue_whole stops front parsed with ⟨rest, read⟩
        rw [← setText_eq] at read
        rcases isPlain_of_setText stops quoted denotes read component property with
          ⟨componentIsPlain, propertyIsPlain, shallow⟩
        have complete := parseValue_setText stops quoted denotes componentIsPlain propertyIsPlain
          shallow
        rw [complete, Option.some.injEq, Prod.mk.injEq] at read
        have all := List.append_eq_nil_iff.mp read.2.symm
        refine ⟨componentIsPlain, propertyIsPlain, fun other again => ?_, fits.mpr all.2⟩
        rw [again.unique stops denotes]
        exact shallow
    | _ => cases same
  · rintro ⟨component, property, shallow, small⟩
    have all : more = [] := fits.mp small
    have complete := parseValue_setText stops quoted denotes component property
      (shallow value denotes)
    rw [all, List.append_nil] at front whole
    have parsed := (JsonValue.parseString_object ((List.append_nil _).trans front)).mpr
      ⟨[], whole ▸ complete⟩
    refine ⟨.set session.cString componentName propertyName value.serializeToString, ?_, ?_, rfl,
      rfl, fun other again => ?_⟩
    · rw [handlerCalls_eq_singleton, readMpiCall_eq_ok]
      refine ⟨rfl, _, parsed, ⟨session, ?_, rfl⟩, ⟨componentName, ?_, ?_⟩, ⟨propertyName, ?_, ?_⟩,
        ⟨value, ?_, rfl⟩⟩
      · exact List.lookup_cons_self
      · rw [getValue_of_ne (by decide)]
        exact List.lookup_cons_self
      · exact ByteString.cString_of_not_mem component.nul_notMem
      · rw [getValue_of_ne (by decide), getValue_of_ne (by decide)]
        exact List.lookup_cons_self
      · exact ByteString.cString_of_not_mem property.nul_notMem
      · rw [getValue_of_ne (by decide), getValue_of_ne (by decide), getValue_of_ne (by decide)]
        exact List.lookup_cons_self
    · exact parseString_handle quoted
    · rw [again.unique stops denotes]
      exact ⟨rfl, denotes.serialize⟩

end Set

section Requests

variable {σ : Type} {strtod : Strtod} {toInt : ByteString → BitVec 32} {handlers : MpiCalls σ}
  {state : σ} {name request : ByteString} {call : NamedCall}

/-- A reader of integers, which are printed as they are read. -/
def strtodOfIntegers : Strtod := fun text =>
  let digits := text.takeWhile fun byte => byte = 45 || ByteString.isDigit byte
  some (digits.length, digits)

theorem stopsAtDelimiters_strtodOfIntegers : StopsAtDelimiters strtodOfIntegers := by
  have apart : ∀ byte : UInt8, (byte = 45 ∨ ByteString.isDigit byte = true) →
      JsonValue.isDelimiter byte = false := by
    decide +kernel
  constructor
  · intro text length printed read
    simp only [strtodOfIntegers, Option.some.injEq, Prod.mk.injEq] at read
    rw [← read.1]
    exact (List.takeWhile_prefix _).length_le
  · intro byte rest _
    have same (text : ByteString) :
        (text.takeWhile fun other => !JsonValue.isDelimiter other).takeWhile
            (fun other => other = 45 || ByteString.isDigit other) =
          text.takeWhile fun other => other = 45 || ByteString.isDigit other := by
      rw [List.takeWhile_takeWhile]
      congr 1
      funext other
      cases numeric : decide (other = 45) || ByteString.isDigit other with
      | false => simp
      | true => simp [apart other (by simpa using numeric)]
    simp only [strtodOfIntegers, same]

theorem readsIntegers_strtodOfIntegers : ReadsIntegers strtodOfIntegers atoi := by
  intro number
  have whole : (printInt number).takeWhile
      (fun byte => byte = 45 || ByteString.isDigit byte) = printInt number := by
    apply List.takeWhile_eq_self_iff.mpr
    intro byte mem
    rcases mem_printInt mem with rfl | digit
    · rfl
    · simp only [Bool.or_eq_true, decide_eq_true_eq]
      exact .inr digit
  refine ⟨printInt number, ?_, ?_⟩
  · simp only [strtodOfIntegers, whole]
  · have value : BitVec.ofInt 32 (strtol (printInt number ++ [])) = number :=
      ofInt_strtol_printInt number (by simp)
    rw [List.append_nil] at value
    exact value

/-- A call with a number in its payload. -/
def setCall : NamedCall :=
  .set (bytes "\"1\"") (bytes "Tpm") (bytes "Status") (bytes "[7]") 3

def setRequest : ByteString :=
  setText (bytes "\"1\"") (bytes "Tpm") (bytes "Status") (bytes "[7]")

theorem requests_setCall :
    setCall.requests strtodOfIntegers = [(bytes "MpiSet", setRequest)] := by
  rfl

theorem isProper_setCall : setCall.IsProper strtodOfIntegers := by
  have read : JsonValue.parseValue strtodOfIntegers 2 (bytes "[7]") =
      some (.array [.number (bytes "7")], []) := by
    rfl
  exact ⟨⟨bytes "1", rfl⟩, ⟨_, 2, [], read, by simp [JsonValue.Blank]⟩, by decide⟩

end Requests

end OsConfig.MpiServer
