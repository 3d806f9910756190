import OsConfig.Platform.MpiServer

/-!
# Requests and responses on the wire

What the two ends read of what the other one has written. Headers arrive whole
however they are delivered. The status and the bodies are taken with one read
each, so they arrive if that read is given all of them.
-/

namespace OsConfig.MpiServer

open CommonUtils MpiClient

section Headers

variable {socket : Socket} {front rest : ByteString}

/-- The part of a header in front of its content length. -/
def IsHeaderFront (front : ByteString) : Prop :=
  0 ∉ front ∧ front.getLast? = some 10 ∧ ¬ bytes "Content-Length: " <:+: front ∧
    ¬ bytes "\r\n\r\n" <:+: front ++ bytes "Content-Length: "

instance (front : ByteString) : Decidable (IsHeaderFront front) :=
  inferInstanceAs (Decidable (_ ∧ _))

theorem isDigit_of_mem_printInt {number : BitVec 32} {byte : UInt8} (positive : 0 ≤ number.toInt)
    (mem : byte ∈ printInt number) : ByteString.isDigit byte = true := by
  rw [printInt, Numerals.renderInt, if_neg (by omega)] at mem
  exact Numerals.isDecimal_of_mem_render mem

/-- The content length as it stands in a header. -/
def lengthLine (front : ByteString) (number : BitVec 32) : ByteString :=
  front ++ (bytes "Content-Length: " ++ (printInt number ++ bytes "\r\n\r\n"))

/-- A digit is in neither of the texts that a header is searched for. -/
theorem digit_notMem {byte : UInt8} (digit : ByteString.isDigit byte = true) :
    byte ∉ bytes "\r\n\r\n" := by
  intro mem
  have none_digit : (bytes "\r\n\r\n").all (fun other => !ByteString.isDigit other) = true := by
    decide
  have other := List.all_eq_true.mp none_digit byte mem
  simp [digit] at other

theorem contentLengthOf_eq {number : BitVec 32} (positive : 0 ≤ number.toInt)
    (isFront : IsHeaderFront front) : contentLengthOf (lengthLine front number) = number := by
  rcases isFront with ⟨noNul, last, absent, -⟩
  have digits : ∀ byte ∈ printInt number, ByteString.isDigit byte = true := fun byte =>
    isDigit_of_mem_printInt positive
  have some_front : front ≠ [] := by
    rintro rfl
    cases last
  have split_eq : front = front.dropLast ++ [10] := by
    rw [List.getLast?_eq_some_getLast some_front, Option.some.injEq] at last
    rw [← last, List.dropLast_concat_getLast some_front]
  have whole : (lengthLine front number).cString = lengthLine front number := by
    apply ByteString.cString_of_not_mem
    simp only [lengthLine, List.mem_append, not_or]
    refine ⟨noNul, by decide, ?_, by decide⟩
    intro nul
    exact absurd (digits 0 nul) (by decide)
  have found : Substrings.search (bytes "Content-Length: ") (lengthLine front number) =
      some (bytes "Content-Length: " ++ (printInt number ++ bytes "\r\n\r\n")) := by
    have before : ¬ bytes "Content-Length: " <:+: front.dropLast := fun occurs =>
      absent (occurs.trans (List.dropLast_prefix front).isInfix)
    rw [lengthLine, split_eq, List.append_assoc, List.singleton_append,
      Substrings.search_append_cons _ _ (by decide) (by decide) before]
    exact Substrings.search_of_prefix (List.prefix_append _ _)
  have short : (printInt number).length ≤ 63 := by
    have bound := length_printInt_le number
    omega
  have taken : ((printInt number ++ bytes "\r\n\r\n").take 63).takeWhile ByteString.isDigit =
      printInt number := by
    rw [List.take_append, List.take_of_length_le short, List.takeWhile_append_of_pos digits]
    have ends : ∀ count, ((bytes "\r\n\r\n").take count).takeWhile ByteString.isDigit = [] := by
      intro count
      have text : bytes "\r\n\r\n" = 13 :: bytes "\n\r\n" := by decide
      have stops : ByteString.isDigit 13 = false := by decide
      cases count with
      | zero => rfl
      | succ count => simp [text, stops]
    rw [ends, List.append_nil]
  have alone : BitVec.ofInt 32 (strtol (printInt number ++ [])) = number :=
    ofInt_strtol_printInt number (by simp)
  rw [List.append_nil] at alone
  simp only [contentLengthOf, whole, found, List.drop_left, taken]
  rw [if_neg (printInt_ne_nil number)]
  exact alone

theorem emptyLine_absent {number : BitVec 32} (positive : 0 ≤ number.toInt)
    (absent : ¬ bytes "\r\n\r\n" <:+: front ++ bytes "Content-Length: ") :
    ¬ bytes "\r\n\r\n" <:+: front ++ (bytes "Content-Length: " ++
      (printInt number ++ bytes "\r\n\r")) := by
  have digits : ∀ byte ∈ printInt number, byte ∉ bytes "\r\n\r\n" := fun byte mem =>
    digit_notMem (isDigit_of_mem_printInt positive mem)
  rcases List.exists_cons_of_ne_nil (printInt_ne_nil number) with ⟨first, others, printed⟩
  rw [printed] at digits ⊢
  have later : ¬ bytes "\r\n\r\n" <:+: others ++ bytes "\r\n\r" := by
    rw [← Substrings.search_eq_none_iff, Substrings.search_append_of_apart (by decide)
      fun byte mem => digits byte (List.mem_cons_of_mem _ mem)]
    decide
  rw [← List.append_assoc, List.cons_append,
    Substrings.infix_append_cons_iff (digits first List.mem_cons_self), not_or]
  exact ⟨absent, later⟩

theorem readHttpContentLengthFromSocket_eq {number : BitVec 32} (positive : 0 ≤ number.toInt)
    (isFront : IsHeaderFront front) (here : socket.incoming = lengthLine front number ++ rest) :
    readHttpContentLengthFromSocket socket =
      (number, socket.after (lengthLine front number).length rest) := by
  have ending : bytes "\r\n\r\n" = bytes "\r\n\r" ++ [10] := by decide
  have concat : lengthLine front number = (front ++ (bytes "Content-Length: " ++
      (printInt number ++ bytes "\r\n\r"))) ++ [10] := by
    rw [lengthLine, ending]
    simp
  have noNul : 0 ∉ lengthLine front number := by
    simp only [lengthLine, List.mem_append, not_or]
    refine ⟨isFront.1, by decide, ?_, by decide⟩
    intro nul
    exact absurd (isDigit_of_mem_printInt positive nul) (by decide)
  have found : bytes "\r\n\r\n" <:+: lengthLine front number :=
    ⟨front ++ (bytes "Content-Length: " ++ printInt number), [], by simp [lengthLine]⟩
  have first : ¬ bytes "\r\n\r\n" <:+: (lengthLine front number).dropLast := by
    rw [concat, List.dropLast_concat]
    exact emptyLine_absent positive isFront.2.2.2
  have some_header : lengthLine front number ≠ [] := by
    rw [concat]
    simp
  rw [readHttpContentLengthFromSocket, readUntilStringFound_eq here some_header found first noNul]
  dsimp only
  rw [contentLengthOf_eq positive isFront]

end Headers

section Requests

variable {name request : ByteString} {socket : Socket}

theorem isHeaderFront_requestLines : IsHeaderFront requestLines := by
  rw [IsHeaderFront, requestLines]
  repeat rw [bytes_ofList]
  decide +kernel

theorem requestHeader_eq (name : ByteString) (contentLength : BitVec 32) :
    requestHeader name contentLength =
      bytes "POST /" ++ (name ++ 47 :: lengthLine requestLines contentLength) := by
  have slash : bytes "/" = [47] := by decide
  simp [requestHeader, lengthLine, slash]

/-- The names that a request can carry. The names of the calls are such names. -/
def IsCallName (name : ByteString) : Prop :=
  name.length < maxMpiUriLength ∧ ∀ letter ∈ name, isAlpha letter = true

instance (name : ByteString) : Decidable (IsCallName name) :=
  inferInstanceAs (Decidable (_ ∧ _))

theorem length_dataFormat : dataFormat.length = 127 := by
  rw [dataFormat, requestLines]
  repeat rw [bytes_ofList]
  decide +kernel

theorem length_requestHeader (name : ByteString) (contentLength : BitVec 32) :
    (requestHeader name contentLength).length + 6 =
      name.length + dataFormat.length + (printInt contentLength).length := by
  have start : (bytes "POST /").length = 6 ∧ (bytes "POST /%s/").length = 9 := by
    repeat rw [bytes_ofList]
    decide
  have label : (bytes "Content-Length: ").length = 16 ∧ (bytes "\r\n\r\n").length = 4 ∧
      (bytes "Content-Length: %d\r\n\r\n%s").length = 24 := by
    repeat rw [bytes_ofList]
    decide
  simp only [requestHeader_eq, lengthLine, dataFormat, List.length_append, List.length_cons, start,
    label]
  omega

theorem toInt_ofNat {number : ℕ} (small : number < 2 ^ 31) :
    (BitVec.ofNat 32 number).toInt = number := by
  have toNat : (BitVec.ofNat 32 number).toNat = number := by
    rw [BitVec.toNat_ofNat]
    omega
  rw [BitVec.toInt_eq_toNat_of_lt (by omega), toNat]

theorem callMpiData_eq (fits : estimatedDataSize name request < 2 ^ 31) :
    callMpiData name request =
      some (requestHeader name (BitVec.ofNat 32 request.length) ++ request) := by
  have positive : ¬ (BitVec.ofNat 32 (estimatedDataSize name request)).toInt < 0 := by
    rw [toInt_ofNat fits]
    omega
  have size : (BitVec.ofNat 32 (estimatedDataSize name request)).toNat =
      estimatedDataSize name request := by
    rw [BitVec.toNat_ofNat]
    omega
  have header := length_requestHeader name (BitVec.ofNat 32 request.length)
  rw [callMpiData, printInto, if_neg positive, size, List.take_of_length_le]
  rw [List.length_append, estimatedDataSize]
  omega

theorem readUriFromSocket_eq {rest : ByteString} (named : IsCallName name)
    (here : socket.incoming = bytes "POST /" ++ (name ++ 47 :: rest)) :
    readUriFromSocket socket = (some name, socket.after (name.length + 7) rest) := by
  have post : readUntilStringFound (bytes "POST /") socket = _ :=
    readUntilStringFound_eq here (by decide) (List.infix_refl _) (by decide) (by decide)
  have length : (bytes "POST /").length = 6 := by decide
  rw [length] at post
  have uri : readUriFrom maxMpiUriLength [] (socket.after 6 (name ++ 47 :: rest)) = _ :=
    readUriFrom_eq maxMpiUriLength rfl named.2 (by decide) named.1
  rw [readUriFromSocket, post]
  dsimp only
  rw [uri, Socket.after_after, List.nil_append]
  rw [Nat.add_left_comm, Nat.add_comm 6]

theorem readRequest_of_read {header body : Socket} {contentLength : BitVec 32}
    (uri : readUriFromSocket socket = (some name, header))
    (length : readHttpContentLengthFromSocket header = (contentLength, body)) :
    readRequest socket =
      if contentLength = 0 then .ok (name, none)
      else if MpiClient.isAllocated contentLength then
        if (body.read contentLength.toNat).1.length ≠ contentLength.toNat then .error .badRequest
        else .ok (name, some (body.read contentLength.toNat).1.cString)
      else .error .badRequest := by
  rw [readRequest, uri]
  dsimp only
  rw [length]

/-- What the worker reads of a request depends on the read of its body only. -/
theorem readRequest_eq (named : IsCallName name) (noNul : 0 ∉ request)
    (small : request.length + 1 < 2 ^ 31)
    (here : socket.incoming =
      requestHeader name (BitVec.ofNat 32 request.length) ++ request) :
    readRequest socket =
      if request = [] then .ok (name, none)
      else if request.length ≤ socket.portions
          (requestHeader name (BitVec.ofNat 32 request.length)).length + 1 then
        .ok (name, some request)
      else .error .badRequest := by
  have toNat : (BitVec.ofNat 32 request.length).toNat = request.length := by
    rw [BitVec.toNat_ofNat]
    omega
  have toInt : (BitVec.ofNat 32 request.length).toInt = request.length :=
    toInt_ofNat (by omega)
  have positive : 0 ≤ (BitVec.ofNat 32 request.length).toInt := by omega
  have start : socket.incoming = bytes "POST /" ++ (name ++ 47 ::
      (lengthLine requestLines (BitVec.ofNat 32 request.length) ++ request)) := by
    rw [here, requestHeader_eq]
    simp
  have uri := readUriFromSocket_eq named start
  have length : readHttpContentLengthFromSocket (socket.after (name.length + 7)
      (lengthLine requestLines (BitVec.ofNat 32 request.length) ++ request)) = _ :=
    readHttpContentLengthFromSocket_eq positive isHeaderFront_requestLines rfl
  have passed : name.length + 7 +
      (lengthLine requestLines (BitVec.ofNat 32 request.length)).length =
        (requestHeader name (BitVec.ofNat 32 request.length)).length := by
    have post : (bytes "POST /").length = 6 := by decide
    rw [requestHeader_eq]
    simp only [List.length_append, List.length_cons, post]
    omega
  rw [readRequest_of_read uri length]
  rw [Socket.after_after, passed]
  have zero : BitVec.ofNat 32 request.length = 0 ↔ request = [] := by
    rw [← BitVec.toNat_inj, toNat, ← List.length_eq_zero_iff]
    rfl
  have allocated : isAllocated (BitVec.ofNat 32 request.length) = true := by
    rw [isAllocated, toInt]
    simp only [Bool.and_eq_true, decide_eq_true_eq]
    omega
  simp only [zero, allocated, if_true, Socket.read_eq, toNat, Socket.incoming_after,
    Socket.portions_after, Nat.zero_add]
  split
  · rfl
  · split
    next part =>
      rw [List.length_take] at part
      rw [if_neg (by omega)]
    next whole =>
      rw [List.length_take] at whole
      rw [if_pos (by omega), List.take_of_length_le (by omega),
        ByteString.cString_of_not_mem noNul]

/-- A body is no longer than an `int` can say. -/
theorem length_lt_of_readRequest {uri body : ByteString}
    (read : readRequest socket = .ok (uri, some body)) : body.length < 2 ^ 31 := by
  unfold readRequest at read
  split at read
  · cases read
  · dsimp only at read
    split at read
    · cases read
    · split at read
      next allocated =>
        split at read
        · cases read
        next whole =>
          simp only [Except.ok.injEq, Prod.mk.injEq, Option.some.injEq] at read
          have bound := toNat_lt_of_isAllocated allocated
          rw [← read.2]
          apply Nat.lt_of_le_of_lt (List.takeWhile_prefix _).length_le
          omega
      · cases read

/-- The call that the worker passes to `HandleMpiCall` when `CallMpi` is called, if it gets that
far. -/
def passedCall (name request : ByteString) (portions : ℕ → ℕ) :
    Option (ByteString × Option ByteString) :=
  (callMpiData name request).bind fun data => (readRequest ⟨data, portions⟩).toOption

/-- A call is passed on as it was made exactly if its body is not empty, its size fits and its body
is read at once. -/
theorem passedCall_iff {portions : ℕ → ℕ} (named : IsCallName name) (noNul : 0 ∉ request) :
    passedCall name request portions = some (name, some request) ↔
      request ≠ [] ∧ estimatedDataSize name request < 2 ^ 31 ∧
        request.length ≤
          portions (requestHeader name (BitVec.ofNat 32 request.length)).length + 1 := by
  by_cases fits : estimatedDataSize name request < 2 ^ 31
  · have small : request.length + 1 < 2 ^ 31 := by
      have printed := List.length_pos_iff.mpr (printInt_ne_nil (BitVec.ofNat 32 request.length))
      rw [estimatedDataSize] at fits
      omega
    rw [passedCall, callMpiData_eq fits, Option.bind_some, readRequest_eq named noNul small rfl]
    by_cases empty : request = []
    · simp [empty, Except.toOption]
    · by_cases whole : request.length ≤
          portions (requestHeader name (BitVec.ofNat 32 request.length)).length + 1
      · simpa [empty, whole, Except.toOption] using fits
      · simp [empty, whole, Except.toOption]
  · constructor
    · intro passed
      rcases Option.bind_eq_some_iff.mp passed with ⟨data, sent, read⟩
      rw [callMpiData, printInto] at sent
      split at sent
      · cases sent
      next positive =>
        -- The size has gone round, so the body is longer than the worker can read.
        have wrapped := toNat_lt_of_nonneg (not_lt.mp positive)
        have short : request.length < 2 ^ 31 := by
          cases outcome : readRequest ⟨data, portions⟩ with
          | error status =>
              rw [outcome] at read
              cases read
          | ok call =>
              rw [outcome, Except.toOption, Option.some.injEq] at read
              exact length_lt_of_readRequest (read ▸ outcome)
        have label := length_printInt_le (BitVec.ofNat 32 request.length)
        have name_short := named.1
        rw [BitVec.toNat_ofNat] at wrapped
        rw [estimatedDataSize, length_dataFormat] at fits wrapped
        simp only [maxMpiUriLength] at name_short
        omega
    · rintro ⟨-, small, -⟩
      exact absurd small fits

end Requests

section Responses

variable {status : HttpStatus} {body : ByteString} {responseSize : BitVec 32} {socket : Socket}
  {errno : ℤ}

/-- A status line has no empty line and no content length. -/
def IsStatusLine (line : ByteString) : Prop :=
  0 ∉ line ∧ ¬ bytes "Content-Length: " <:+: line ∧ ¬ bytes "\r\n\r\n" <:+: line

instance (line : ByteString) : Decidable (IsStatusLine line) :=
  inferInstanceAs (Decidable (_ ∧ _))

theorem isHeaderFront_responseLines {line : ByteString}
    (isLine : IsStatusLine (line ++ bytes "\r\n")) :
    IsHeaderFront (line ++ responseLines) := by
  -- An S occurs in neither of the texts, so it separates the line from the other ones.
  have lines_eq : responseLines =
      bytes "\r\n" ++ 83 :: bytes "erver: OSConfig\r\nContent-Type: application/json\r\n" := by
    rw [responseLines]
    repeat rw [bytes_ofList]
    decide
  have others : 0 ∉ bytes "erver: OSConfig\r\nContent-Type: application/json\r\n" ∧
      ¬ bytes "Content-Length: " <:+:
        bytes "erver: OSConfig\r\nContent-Type: application/json\r\n" ∧
      ¬ bytes "\r\n\r\n" <:+: bytes "erver: OSConfig\r\nContent-Type: application/json\r\n" ++
        bytes "Content-Length: " := by
    repeat rw [bytes_ofList]
    decide +kernel
  have label : 83 ∉ bytes "Content-Length: " ∧ (83 : UInt8) ∉ bytes "\r\n\r\n" := by decide
  rw [lines_eq, ← List.append_assoc]
  refine ⟨?_, ?_, ?_, ?_⟩
  · simp only [List.mem_append, List.mem_cons, not_or]
    have clean := isLine.1
    simp only [List.mem_append, not_or] at clean
    exact ⟨clean, by decide, others.1⟩
  · rw [List.getLast?_append_of_ne_nil _ (by simp)]
    decide
  · rw [Substrings.infix_append_cons_iff label.1, not_or]
    exact ⟨isLine.2.1, others.2.1⟩
  · rw [List.append_assoc, List.cons_append, Substrings.infix_append_cons_iff label.2, not_or]
    exact ⟨isLine.2.2, others.2.2⟩

/-- The status line behind the digits that have been read. -/
def statusLine (status : HttpStatus) (given : ℕ) : ByteString :=
  (printInt status.code).drop given ++ (bytes " " ++ httpReasonAsString status)

theorem isStatusLine_statusLine (status : HttpStatus) {given : ℕ} (few : given ≤ 3) :
    IsStatusLine (statusLine status given ++ bytes "\r\n") := by
  have all : ∀ given ≤ 3, IsStatusLine (statusLine status given ++ bytes "\r\n") := by
    cases status <;> decide
  exact all given few

theorem statusOf_take (status : HttpStatus) {given : ℕ} (few : given ≤ 3) :
    (statusOf ((printInt status.code).take given)).getD 404 =
      if given = 3 then status.code.toNat else 404 := by
  have all : ∀ given ≤ 3, (statusOf ((printInt status.code).take given)).getD 404 =
      if given = 3 then status.code.toNat else 404 := by
    cases status <;> decide
  exact all given few

theorem length_code (status : HttpStatus) : (printInt status.code).length = 3 := by
  cases status <;> decide

theorem responseHeader_eq (status : HttpStatus) (responseSize : BitVec 32) :
    responseHeader status responseSize =
      bytes "HTTP/1.1" ++ 32 :: ((printInt status.code).take 3 ++
        lengthLine (statusLine status 3 ++ responseLines) responseSize) := by
  have version : bytes "HTTP/1.1 " = bytes "HTTP/1.1" ++ [32] := by decide
  have code := length_code status
  simp [responseHeader, lengthLine, statusLine, version, ← code]

/-- The status is read with whatever is given of it; the rest is left in front of the header. -/
theorem readHttpStatusFromSocket_eq {rest : ByteString}
    (here : socket.incoming = responseHeader status responseSize ++ rest) :
    let given := min 3 (socket.portions 9 + 1)
    readHttpStatusFromSocket socket =
      (if given = 3 then status.code.toNat else 404,
        socket.after 10 (lengthLine (statusLine status given ++ responseLines) responseSize ++
          rest)) := by
  intro given
  have few : given ≤ 3 := min_le_left _ _
  have version : (bytes "HTTP/1.1").length = 8 := by decide
  have found : readUntilStringFound (bytes "HTTP/1.1") socket = _ :=
    readUntilStringFound_eq (by rw [here, responseHeader_eq, List.append_assoc]) (by decide)
      (List.infix_refl _) (by decide) (by decide)
  have code : ((printInt status.code).take 3 ++
      lengthLine (statusLine status 3 ++ responseLines) responseSize) ++ rest =
        printInt status.code ++ (bytes " " ++ httpReasonAsString status ++
          (lengthLine responseLines responseSize ++ rest)) := by
    have length := length_code status
    simp [lengthLine, statusLine, ← length]
  rw [version, List.cons_append, code] at found
  rw [readHttpStatusFromSocket, found]
  dsimp only
  rw [Socket.read_one rfl]
  dsimp only
  rw [if_pos rfl, Socket.after_after, Socket.read_eq, Socket.incoming_after, Socket.portions_after]
  have taken : (printInt status.code ++ (bytes " " ++ httpReasonAsString status ++
      (lengthLine responseLines responseSize ++ rest))).take given =
        (printInt status.code).take given :=
    List.take_append_of_le_length (by rw [length_code]; exact few)
  have dropped : (printInt status.code ++ (bytes " " ++ httpReasonAsString status ++
      (lengthLine responseLines responseSize ++ rest))).drop given =
        lengthLine (statusLine status given ++ responseLines) responseSize ++ rest := by
    rw [List.drop_append_of_le_length (by rw [length_code]; exact few)]
    simp [lengthLine, statusLine]
  dsimp only
  rw [Nat.zero_add, Socket.after_after]
  rw [taken, dropped, statusOf_take status few]

theorem length_responseHeader (status : HttpStatus) (responseSize : BitVec 32) {given : ℕ}
    (few : given ≤ 3) :
    10 + (lengthLine (statusLine status given ++ responseLines) responseSize).length =
      (responseHeader status responseSize).length + 1 - given := by
  have code := length_code status
  have version : (bytes "HTTP/1.1 ").length = 9 := by decide
  simp only [responseHeader, lengthLine, statusLine, List.length_append, List.length_drop, version,
    code]
  omega

/-- What `CallMpi` returns of a response that has been written whole. -/
theorem callMpiResponse_eq (sized : responseSize.toInt = body.length)
    (allocated : isAllocated responseSize = true)
    (here : socket.incoming = responseHeader status responseSize ++ body) :
    let given := min 3 (socket.portions 9 + 1)
    let received := min body.length
      (socket.portions ((responseHeader status responseSize).length + 1 - given) + 1)
    let httpStatus := if given = 3 then status.code.toNat else 404
    callMpiResponse errno socket =
      (if received ≠ body.length then (if errno ≠ 0 then errno else eio)
        else if httpStatus = 200 then 0 else httpStatus,
        some (body.take received ++ List.replicate (body.length - received) 0), responseSize) := by
  intro given received httpStatus
  have few : given ≤ 3 := min_le_left _ _
  have positive : 0 ≤ responseSize.toInt := by omega
  have toNat : responseSize.toNat = body.length := by
    have small := toNat_lt_of_nonneg positive
    rw [BitVec.toInt_eq_toNat_of_lt (by omega)] at sized
    omega
  have length : readHttpContentLengthFromSocket (socket.after 10
      (lengthLine (statusLine status given ++ responseLines) responseSize ++ body)) = _ :=
    readHttpContentLengthFromSocket_eq positive
      (isHeaderFront_responseLines (isStatusLine_statusLine status few)) rfl
  rw [callMpiResponse, readHttpStatusFromSocket_eq here]
  dsimp only
  rw [length]
  dsimp only
  rw [allocated, if_pos rfl, Socket.after_after, length_responseHeader status responseSize few,
    Socket.read_eq, Socket.incoming_after, Socket.portions_after, Nat.zero_add, toNat]
  have taken : (body.take received).length = received := by
    rw [List.length_take]
    exact min_eq_left (min_le_left _ _)
  dsimp only
  rw [taken]
  split
  · rfl
  · simp only [httpStatus, given]
    split <;> rfl

set_option maxRecDepth 20000 in
theorem length_responseFormat : responseFormat.length = 92 := by
  decide

theorem length_reason_le (status : HttpStatus) : (httpReasonAsString status).length ≤ 21 := by
  cases status <;> decide

/-- The size of the response as an `int`, if it does not go round. -/
theorem toInt_estimatedSize (sized : responseSize.toInt = body.length) :
    0 ≤ (BitVec.ofInt 32 (estimatedSize status responseSize)).toInt ↔
      estimatedSize status responseSize < 2 ^ 31 := by
  have reason := length_reason_le status
  have upper := BitVec.toInt_lt (x := responseSize)
  have toNat : (BitVec.ofInt 32 (estimatedSize status responseSize)).toNat =
      (estimatedSize status responseSize).toNat := by
    rw [BitVec.toNat_ofInt, estimatedSize, length_responseFormat]
    omega
  rw [BitVec.toInt_eq_toNat_cond, toNat]
  rw [estimatedSize, length_responseFormat]
  split
  · omega
  · omega

theorem toNat_eq_length (sized : responseSize.toInt = body.length) :
    responseSize.toNat = body.length := by
  have small := toNat_lt_of_nonneg (by omega : 0 ≤ responseSize.toInt)
  rw [BitVec.toInt_eq_toNat_of_lt (by omega)] at sized
  omega

theorem writeResponse_eq {responseBody : Option ByteString}
    (sized : responseSize.toInt = (responseBody.getD []).length) (noNul : 0 ∉ responseBody.getD [])
    (fits : estimatedSize status responseSize < 2 ^ 31) :
    writeResponse status responseBody responseSize =
      some (responseHeader status responseSize ++ responseBody.getD []) := by
  have positive := (toInt_estimatedSize sized).mpr fits
  have toNat := toNat_eq_length sized
  have size : (BitVec.ofInt 32 (estimatedSize status responseSize)).toNat =
      (estimatedSize status responseSize).toNat := by
    rw [BitVec.toNat_ofInt]
    have lower : 0 ≤ estimatedSize status responseSize := by
      rw [estimatedSize]
      omega
    omega
  have whole : printed responseSize (responseBody.getD []).cString = responseBody.getD [] := by
    rw [printed, if_neg (by omega), ByteString.cString_of_not_mem noNul, toNat, List.take_length]
  have header : (responseHeader status responseSize).length ≤
      responseFormat.length + (httpReasonAsString status).length + 11 := by
    have code := length_code status
    have label := length_printInt_le responseSize
    have fixed : (bytes "HTTP/1.1 ").length = 9 ∧ (bytes " ").length = 1 ∧
        (bytes "HTTP/1.1 %d %s").length = 14 ∧ (bytes "Content-Length: ").length = 16 ∧
        (bytes "\r\n\r\n").length = 4 ∧
        (bytes "Content-Length: %d\r\n\r\n%.*s").length = 26 := by
      decide
    simp only [responseHeader, responseFormat, List.length_append, code, fixed]
    omega
  rw [writeResponse, printInto, if_neg (by omega), whole, size, List.take_of_length_le]
  rw [List.length_append, estimatedSize]
  omega

theorem writeResponse_eq_none {responseBody : Option ByteString}
    (sized : responseSize.toInt = (responseBody.getD []).length)
    (large : ¬ estimatedSize status responseSize < 2 ^ 31) :
    writeResponse status responseBody responseSize = none := by
  rw [← toInt_estimatedSize sized, not_le] at large
  rw [writeResponse, printInto, if_pos large]

/-- What `CallMpi` returns when the worker writes a response. If nothing is written, the
connection is closed. -/
def returnedResponse (errno : ℤ) (status : HttpStatus) (responseBody : Option ByteString)
    (responseSize : BitVec 32) (portions : ℕ → ℕ) : ℤ × Option ByteString × BitVec 32 :=
  callMpiResponse errno ⟨(writeResponse status responseBody responseSize).getD [], portions⟩

/-- `CallMpi` returns `MPI_OK` for an HTTP status of 200 and any other one as it is. -/
def returnedStatus (status : HttpStatus) : ℤ :=
  if status = .ok then 0 else status.code.toNat

theorem returnedStatus_iff (status : HttpStatus) (portion : ℕ) :
    (if (if min 3 (portion + 1) = 3 then status.code.toNat else 404) = 200 then 0
      else ((if min 3 (portion + 1) = 3 then status.code.toNat else 404 : ℕ) : ℤ)) =
        returnedStatus status ↔ status = .notFound ∨ 3 ≤ portion + 1 := by
  by_cases three : 3 ≤ portion + 1
  · rw [if_pos (min_eq_left three)]
    cases status <;> simp [three, returnedStatus, HttpStatus.code]
  · have few : min 3 (portion + 1) ≠ 3 := by omega
    rw [if_neg few]
    cases status <;> simp [three, returnedStatus, HttpStatus.code]

/-- What is missing of a body stays zero. -/
theorem padded_eq_iff (noNul : 0 ∉ body) (portion : ℕ) :
    body.take (min body.length (portion + 1)) ++
        List.replicate (body.length - min body.length (portion + 1)) 0 = body ↔
      body.length ≤ portion + 1 := by
  constructor
  · intro same
    by_contra part
    apply noNul
    rw [← same]
    apply List.mem_append_right
    rw [List.mem_replicate]
    exact ⟨by omega, rfl⟩
  · intro whole
    simp [whole]

theorem callMpiResponse_nil (portions : ℕ → ℕ) :
    callMpiResponse errno ⟨[], portions⟩ = (404, some [], 0) := by
  have nothing : ∀ what portions, readUntilStringFound what ⟨[], portions⟩ =
      (none, ⟨[], fun later => portions (later + 1)⟩) := by
    intro what portions
    simp [readUntilStringFound, readUntilFrom, Socket.read]
  simp only [callMpiResponse, readHttpStatusFromSocket, nothing, readHttpContentLengthFromSocket]
  simp [isAllocated, Socket.read]

/-- A response is returned as it was written exactly if its size fits and its status and its body
are read at once. A status that is read in part becomes 404. -/
theorem returnedResponse_iff {responseBody : Option ByteString} {portions : ℕ → ℕ}
    (sized : responseSize.toInt = (responseBody.getD []).length)
    (noNul : 0 ∉ responseBody.getD []) :
    returnedResponse errno status responseBody responseSize portions =
        (returnedStatus status, some (responseBody.getD []), responseSize) ↔
      estimatedSize status responseSize < 2 ^ 31 ∧ (status = .notFound ∨ 3 ≤ portions 9 + 1) ∧
        (responseBody.getD []).length ≤ portions ((responseHeader status responseSize).length + 1 -
          min 3 (portions 9 + 1)) + 1 := by
  by_cases fits : estimatedSize status responseSize < 2 ^ 31
  · have allocated : isAllocated responseSize = true := by
      rw [estimatedSize] at fits
      rw [isAllocated, Bool.and_eq_true, decide_eq_true_eq, decide_eq_true_eq]
      omega
    rw [returnedResponse, writeResponse_eq sized noNul fits, Option.getD_some,
      callMpiResponse_eq sized allocated rfl]
    dsimp only
    constructor
    · intro same
      simp only [Prod.mk.injEq, Option.some.injEq, and_true] at same
      have whole := (padded_eq_iff noNul _).mp same.2
      have read := same.1
      rw [if_neg (not_not.mpr (min_eq_left whole))] at read
      exact ⟨fits, (returnedStatus_iff status _).mp read, whole⟩
    · rintro ⟨-, known, whole⟩
      rw [if_neg (not_not.mpr (min_eq_left whole)), (returnedStatus_iff status _).mpr known,
        (padded_eq_iff noNul _).mpr whole]
  · have some_body : responseBody.getD [] ≠ [] := by
      intro empty
      have reason := length_reason_le status
      rw [empty, List.length_nil] at sized
      rw [estimatedSize, length_responseFormat] at fits
      omega
    rw [returnedResponse, writeResponse_eq_none sized fits, Option.getD_none, callMpiResponse_nil]
    constructor
    · intro same
      simp only [Prod.mk.injEq, Option.some.injEq] at same
      exact absurd same.2.1.symm some_body
    · rintro ⟨small, -⟩
      exact absurd small fits

end Responses

section Exchange

variable {name request : ByteString} {status : HttpStatus} {responseBody : Option ByteString}
  {responseSize : BitVec 32} {server client : ℕ → ℕ} {errno : ℤ}

/-- The call is passed on as it was made, and the response is returned as it was written. -/
def Exchanged (name request : ByteString) (status : HttpStatus) (responseBody : Option ByteString)
    (responseSize : BitVec 32) (errno : ℤ) (server client : ℕ → ℕ) : Prop :=
  passedCall name request server = some (name, some request) ∧
    returnedResponse errno status responseBody responseSize client =
      (returnedStatus status, some (responseBody.getD []), responseSize)

/-- Of all the reads of an exchange those of the two bodies and that of the status matter: they
must be given all that they ask for. -/
theorem exchanged_iff (named : IsCallName name) (text : 0 ∉ request)
    (responseText : 0 ∉ responseBody.getD [])
    (sized : responseSize.toInt = (responseBody.getD []).length) :
    Exchanged name request status responseBody responseSize errno server client ↔
      (request ≠ [] ∧ estimatedDataSize name request < 2 ^ 31 ∧
        request.length ≤
          server (requestHeader name (BitVec.ofNat 32 request.length)).length + 1) ∧
      estimatedSize status responseSize < 2 ^ 31 ∧ (status = .notFound ∨ 3 ≤ client 9 + 1) ∧
        (responseBody.getD []).length ≤ client ((responseHeader status responseSize).length + 1 -
          min 3 (client 9 + 1)) + 1 := by
  rw [Exchanged, passedCall_iff named text, returnedResponse_iff sized responseText]

set_option maxRecDepth 2000 in
theorem exchanged_iff_get :
    Exchanged (bytes "MpiGet") (bytes "[1]") .ok (some (bytes "\"abc\"")) 5 0 (fun _ => 9)
        (fun _ => 9) ↔
      (bytes "[1]" ≠ [] ∧ estimatedDataSize (bytes "MpiGet") (bytes "[1]") < 2 ^ 31 ∧
        (bytes "[1]").length ≤
          9 + 1) ∧
      estimatedSize .ok 5 < 2 ^ 31 ∧ (HttpStatus.ok = .notFound ∨ 3 ≤ 9 + 1) ∧
        (bytes "\"abc\"").length ≤ 9 + 1 :=
  exchanged_iff (by decide) (by decide) (by decide) (by decide)

set_option maxRecDepth 2000 in
/-- A body of three bytes that comes in two portions is not passed on. -/
theorem body_in_two_portions :
    ¬ Exchanged (bytes "MpiGet") (bytes "[1]") .ok (some (bytes "\"abc\"")) 5 0 (fun _ => 1)
      (fun _ => 9) := by
  rintro ⟨passed, -⟩
  rw [passedCall_iff (by decide) (by decide)] at passed
  exact absurd passed.2.2 (by decide)

end Exchange

end OsConfig.MpiServer
