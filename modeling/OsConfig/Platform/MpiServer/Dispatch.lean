import OsConfig.Platform.RequestBodies

/-!
# Calls of the server

A request leads to one call of a handler or to none. The call is the one that the
URI names, with the fields of the object that the body begins with, and the
response is 200 exactly if that handler succeeds.
-/

namespace OsConfig.MpiServer

open CommonUtils
open JsonValue (Strtod Denotes)

section Dispatch

variable {σ : Type}

/-- The handler returns a session or `MPI_OK`. A session is always closed. -/
def MpiCalls.Succeeds (handlers : MpiCalls σ) (state : σ) : MpiCall → Prop
  | .open client maxPayloadSizeBytes =>
      (handlers.mpiOpen client maxPayloadSizeBytes state).1 ≠ none
  | .close _ => True
  | .set client component object payload =>
      (handlers.mpiSet client component object payload (BitVec.ofNat 32 payload.length) state).1 = 0
  | .get client component object => (handlers.mpiGet client component object state).1.1 = 0
  | .setDesired client payload =>
      (handlers.mpiSetDesired client payload (BitVec.ofNat 32 payload.length) state).1 = 0
  | .getReported client => (handlers.mpiGetReported client state).1.1 = 0

/-- A response with an HTTP error. -/
def IsRefused (status : HttpStatus) : Prop :=
  status = .badRequest ∨ status = .notFound

variable {strtod : Strtod} {toInt : ByteString → BitVec 32} {handlers : MpiCalls σ} {state : σ}
  {uri : ByteString} {requestBody : Option ByteString} {status : HttpStatus}

theorem statusResponse_fst_eq_ok {mpiStatus : BitVec 32} :
    (statusResponse mpiStatus).1 = .ok ↔ mpiStatus = 0 := by
  rw [statusResponse]
  split_ifs with failed
  · exact iff_of_false (by simp [setErrorResponse]) failed
  · exact iff_of_true rfl (not_not.mp failed)

theorem payloadResponse_fst_eq_ok {outcome : BitVec 32 × Option ByteString × BitVec 32} :
    (payloadResponse outcome).1 = .ok ↔ outcome.1 = 0 := by
  rcases outcome with ⟨mpiStatus, payload, payloadSize⟩
  dsimp only [payloadResponse]
  split_ifs with failed
  · exact iff_of_false (by simp [setErrorResponse]) failed
  · exact iff_of_true rfl (not_not.mp failed)

theorem callHandler_status (call : MpiCall) :
    (callHandler handlers call state).1.1 = .ok ↔ handlers.Succeeds state call := by
  cases call with
  | «open» client size =>
      simp only [callHandler, MpiCalls.Succeeds]
      rcases handlers.mpiOpen client size state with ⟨_ | uuid, after⟩
      · simp
      · simp
  | close client => exact iff_of_true rfl trivial
  | set => exact statusResponse_fst_eq_ok
  | get => exact payloadResponse_fst_eq_ok
  | setDesired => exact statusResponse_fst_eq_ok
  | getReported => exact payloadResponse_fst_eq_ok

section Refusals

variable {α : Type} {root : JsonObject} {name : ByteString}

theorem isRefused_of_bind {first : Except HttpStatus α} {next : α → Except HttpStatus MpiCall}
    (head : ∀ status, first = .error status → IsRefused status)
    (tail : ∀ value status, next value = .error status → IsRefused status)
    (refused : first >>= next = .error status) : IsRefused status := by
  cases first with
  | error other =>
      cases refused
      exact head _ rfl
  | ok value => exact tail value status refused

theorem isRefused_of_requireString (status : HttpStatus)
    (refused : requireString root name = .error status) : IsRefused status := by
  unfold requireString at refused
  split at refused
  · cases refused
  · cases refused
    exact .inl rfl

theorem isRefused_of_requirePayload (status : HttpStatus)
    (refused : requirePayload root = .error status) : IsRefused status := by
  unfold requirePayload at refused
  split at refused
  · cases refused
  · cases refused
    exact .inl rfl

theorem isRefused_of_readMpiCall
    (refused : readMpiCall strtod toInt uri requestBody = .error status) : IsRefused status := by
  unfold readMpiCall at refused
  split at refused
  · cases refused
    exact .inl rfl
  split_ifs at refused
  · refine isRefused_of_bind isRefused_of_requireString (fun client status read => ?_) refused
    split at read
    · split_ifs at read
      · cases read
        exact .inl rfl
      · cases read
    · cases read
      exact .inl rfl
  · refine isRefused_of_bind isRefused_of_requireString (fun client status read => ?_) refused
    cases read
  · refine isRefused_of_bind isRefused_of_requireString (fun client status read => ?_) refused
    refine isRefused_of_bind isRefused_of_requireString (fun component status read => ?_) read
    refine isRefused_of_bind isRefused_of_requireString (fun object status read => ?_) read
    refine isRefused_of_bind isRefused_of_requirePayload (fun payload status read => ?_) read
    cases read
  · refine isRefused_of_bind isRefused_of_requireString (fun client status read => ?_) refused
    refine isRefused_of_bind isRefused_of_requireString (fun component status read => ?_) read
    refine isRefused_of_bind isRefused_of_requireString (fun object status read => ?_) read
    cases read
  · refine isRefused_of_bind isRefused_of_requireString (fun client status read => ?_) refused
    refine isRefused_of_bind isRefused_of_requirePayload (fun payload status read => ?_) read
    cases read
  · refine isRefused_of_bind isRefused_of_requireString (fun client status read => ?_) refused
    cases read
  · cases refused
    exact .inr rfl

end Refusals

/-- A request leads to the call that its URI names, where its body begins with an object that
carries the call, and to no other one. The response is that of the handler, 200 exactly if the
handler succeeds. Without a call the response is an error, and the modules are left alone. -/
theorem handleMpiCall_dispatches (strtod : Strtod) (toInt : ByteString → BitVec 32)
    (handlers : MpiCalls σ) (uri : ByteString) (requestBody : Option ByteString) (state : σ) :
    ∃ response after calls,
      handleMpiCall strtod toInt handlers uri requestBody state = (response, after) ∧
      handleMpiCall strtod toInt (noting handlers) uri requestBody (state, []) =
        (response, after, calls) ∧
      calls.length ≤ 1 ∧
      (∀ call, call ∈ calls ↔ uri = call.uri ∧
        ∃ root, requestBody.bind (JsonValue.parseString strtod) = some (.object root) ∧
          call.IsCarriedBy toInt root) ∧
      (∀ call ∈ calls, response.1 = .ok ↔ handlers.Succeeds state call) ∧
      (calls = [] → IsRefused response.1 ∧ after = state) := by
  have which (call : MpiCall) := @readMpiCall_eq_ok strtod toInt uri requestBody call
  cases read : readMpiCall strtod toInt uri requestBody with
  | error status =>
      refine ⟨(status, none, 0), state, [], ?_, ?_, Nat.zero_le 1, fun call => ?_, ?_, ?_⟩
      · rw [handleMpiCall, read]
      · rw [handleMpiCall, read]
      · rw [← which, read]
        simp
      · simp
      · exact fun _ => ⟨isRefused_of_readMpiCall read, rfl⟩
  | ok call =>
      refine ⟨(callHandler handlers call state).1, (callHandler handlers call state).2, [call], ?_,
        ?_, le_rfl, fun other => ?_, ?_, ?_⟩
      · rw [handleMpiCall, read]
      · rw [handleMpiCall, read]
        exact callHandler_noting call []
      · rw [← which, read, List.mem_singleton, Except.ok.injEq]
        exact eq_comm
      · intro other mem
        rw [List.mem_singleton.mp mem]
        exact callHandler_status call
      · exact fun none => absurd none (List.cons_ne_nil _ _)

theorem handlerCalls_eq_nil {name request : ByteString} :
    handlerCalls strtod toInt handlers state name request = [] ↔
      ∃ status, readMpiCall strtod toInt name (some request) = .error status := by
  rw [handlerCalls, handleMpiCall]
  cases readMpiCall strtod toInt name (some request) with
  | error status => simp
  | ok call => simp [callHandler_noting]

/-- A reader of numbers with a point, which are printed as they are read. -/
def strtodOfDecimals : Strtod := fun text =>
  let digits := text.takeWhile fun byte => byte = 45 || byte = 46 || ByteString.isDigit byte
  some (digits.length, digits)

/-- A handler is called for a body with text behind its object. A name ends at its first NUL, a
fraction is cut off, and a negative size leads to no call. -/
theorem handlerCalls_not_strict :
    (handlerCalls strtodOfIntegers atoi (reporting (bytes "[]") 2) () (bytes "MpiClose")
          (bytes "\x7b\"ClientSession\":\"a\"\x7d]") = [.close (bytes "a")] ∧
        ¬ ∃ value, Denotes strtodOfIntegers (bytes "\x7b\"ClientSession\":\"a\"\x7d]") value) ∧
      handlerCalls strtodOfIntegers atoi (reporting (bytes "[]") 2) () (bytes "MpiClose")
          (bytes "\x7b\"ClientSession\":\"a\\u0000b\"\x7d") = [.close (bytes "a")] ∧
      handlerCalls strtodOfDecimals atoi (reporting (bytes "[]") 2) () (bytes "MpiOpen")
          (bytes "\x7b\"ClientName\":\"a\",\"MaxPayloadSizeBytes\":1.5\x7d") =
        [.open (bytes "a") 1] ∧
      handlerCalls strtodOfDecimals atoi (reporting (bytes "[]") 2) () (bytes "MpiOpen")
          (bytes "\x7b\"ClientName\":\"a\",\"MaxPayloadSizeBytes\":-1\x7d") = [] := by
  refine ⟨⟨handlerCalls_eq_singleton.mpr (by decide +kernel), ?_⟩,
    handlerCalls_eq_singleton.mpr (by decide +kernel),
    handlerCalls_eq_singleton.mpr (by decide +kernel),
    handlerCalls_eq_nil.mpr ⟨.badRequest, by decide +kernel⟩⟩
  rintro ⟨value, levels, rest, read, blank⟩
  have behind : (JsonValue.parseValue strtodOfIntegers 2
      (bytes "\x7b\"ClientSession\":\"a\"\x7d]")).map Prod.snd = some (bytes "]") := by
    decide +kernel
  rcases Option.map_eq_some_iff.mp behind with ⟨⟨second, left⟩, again, same⟩
  have rests := (JsonValue.parseValue_unique stopsAtDelimiters_strtodOfIntegers read again).2
  dsimp only at same
  rw [rests, same] at blank
  exact absurd (blank 93 (List.mem_singleton_self _)) (by decide)

end Dispatch

end OsConfig.MpiServer
