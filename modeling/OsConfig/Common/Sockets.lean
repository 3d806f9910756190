import OsConfig.Common.FileUtils.Options

/-!
# Reading from sockets

How the messages of the management platform are taken off a stream socket. The
headers are read byte by byte up to a text that ends them, the body is read at
once. A read may be given less than it asks for.
-/

namespace OsConfig

/-- One end of a stream connection: the bytes that come in, and for each further read one less than
the most that it is given. Where nothing comes in any more, nothing is read. -/
structure Socket where
  incoming : ByteString
  portions : ℕ → ℕ

namespace Socket

def read (count : ℕ) (socket : Socket) : ByteString × Socket :=
  let given := min count (socket.portions 0 + 1)
  (socket.incoming.take given,
    ⟨socket.incoming.drop given, fun later => socket.portions (later + 1)⟩)

/-- The socket after some reads that have left these bytes. -/
def after (socket : Socket) (reads : ℕ) (rest : ByteString) : Socket :=
  ⟨rest, fun later => socket.portions (later + reads)⟩

variable {socket : Socket} {rest text : ByteString} {byte : UInt8} {reads more : ℕ}

@[simp]
theorem incoming_after : (socket.after reads rest).incoming = rest := rfl

@[simp]
theorem portions_after (later : ℕ) :
    (socket.after reads rest).portions later = socket.portions (later + reads) := rfl

@[simp]
theorem after_after : (socket.after reads rest).after more text = socket.after (reads + more) text := by
  simp [after, Nat.add_assoc, Nat.add_comm more reads]

/-- A single byte is never given in part. -/
theorem read_one (here : socket.incoming = byte :: rest) :
    socket.read 1 = ([byte], socket.after 1 rest) := by
  have single : min 1 (socket.portions 0 + 1) = 1 := by omega
  simp [read, here, after]

theorem read_eq (count : ℕ) :
    socket.read count =
      (socket.incoming.take (min count (socket.portions 0 + 1)),
        socket.after 1 (socket.incoming.drop (min count (socket.portions 0 + 1)))) := rfl

end Socket

namespace CommonUtils

/-- `isalpha` in the C locale. -/
def isAlpha (byte : UInt8) : Bool :=
  (65 ≤ byte && byte ≤ 90) || (97 ≤ byte && byte ≤ 122)

def atoi (text : ByteString) : BitVec 32 :=
  BitVec.ofInt 32 (strtol text)

/-- The loop of `ReadUntilStringFound` with what has been read. -/
def readUntilFrom (what : ByteString) : ℕ → ByteString → Socket → Option ByteString × Socket
  | 0, _, socket => (none, socket)
  | fuel + 1, buffer, socket =>
      match socket.read 1 with
      | ([byte], socket) =>
          if what <:+: (buffer ++ [byte]).cString then (some (buffer ++ [byte]), socket)
          else readUntilFrom what fuel (buffer ++ [byte]) socket
      | (_, socket) => (none, socket)

/-- `ReadUntilStringFound`. Every round reads a byte or is the last. -/
def readUntilStringFound (what : ByteString) (socket : Socket) : Option ByteString × Socket :=
  readUntilFrom what (socket.incoming.length + 1) [] socket

def maxMpiUriLength : ℕ := 32

/-- The loop of `ReadUriFromSocket`. The byte that ends it is read as well. Where nothing is read
the buffer keeps its zeros, so the URI ends there. -/
def readUriFrom : ℕ → ByteString → Socket → ByteString × Socket
  | 0, uri, socket => (uri, socket)
  | left + 1, uri, socket =>
      match socket.read 1 with
      | ([byte], socket) =>
          if isAlpha byte then readUriFrom left (uri ++ [byte]) socket else (uri, socket)
      | (_, socket) => readUriFrom left uri socket

def readUriFromSocket (socket : Socket) : Option ByteString × Socket :=
  match readUntilStringFound (bytes "POST /") socket with
  | (some _, socket) =>
      let (uri, socket) := readUriFrom maxMpiUriLength [] socket
      (some uri, socket)
  | (none, socket) => (none, socket)

/-- What three bytes say as a status, which is at most 599. -/
def statusOf : ByteString → Option ℕ
  | [hundreds, tens, ones] =>
      if ByteString.isDigit hundreds ∧ 49 ≤ hundreds ∧ hundreds ≤ 53 ∧ ByteString.isDigit tens ∧
          ByteString.isDigit ones then
        some (Numerals.value [hundreds, tens, ones])
      else none
  | _ => none

def readHttpStatusFromSocket (socket : Socket) : ℕ × Socket :=
  match readUntilStringFound (bytes "HTTP/1.1") socket with
  | (some _, socket) =>
      let (space, socket) := socket.read 1
      if space = [32] then
        let (status, socket) := socket.read 3
        ((statusOf status).getD 404, socket)
      else (404, socket)
  | (none, socket) => (404, socket)

/-- The number behind the first `Content-Length` label of a header. -/
def contentLengthOf (header : ByteString) : BitVec 32 :=
  match Substrings.search (bytes "Content-Length: ") header.cString with
  | some found =>
      let digits := ((found.drop (bytes "Content-Length: ").length).take 63).takeWhile
        ByteString.isDigit
      if digits = [] then 0 else atoi digits
  | none => 0

def readHttpContentLengthFromSocket (socket : Socket) : BitVec 32 × Socket :=
  match readUntilStringFound (bytes "\r\n\r\n") socket with
  | (some header, socket) => (contentLengthOf header, socket)
  | (none, socket) => (0, socket)

section Reading

variable {socket : Socket} {what buffer front rest : ByteString}

theorem readUntilFrom_eq (fuel : ℕ) (here : socket.incoming = front ++ rest)
    (some_front : front ≠ []) (found : what <:+: buffer ++ front)
    (first : ¬ what <:+: buffer ++ front.dropLast) (noNul : 0 ∉ buffer ++ front)
    (enough : front.length ≤ fuel) :
    readUntilFrom what fuel buffer socket =
      (some (buffer ++ front), socket.after front.length rest) := by
  induction front generalizing fuel buffer socket with
  | nil => exact absurd rfl some_front
  | cons byte others ih =>
      cases fuel with
      | zero => simp at enough
      | succ fuel =>
          have inside : 0 ∉ buffer ++ [byte] := by
            intro nul
            apply noNul
            simp only [List.mem_append, List.mem_cons] at nul ⊢
            tauto
          rw [readUntilFrom, Socket.read_one here]
          dsimp only
          rw [ByteString.cString_of_not_mem inside]
          cases others with
          | nil =>
              rw [if_pos found]
              rfl
          | cons second later =>
              have early : ¬ what <:+: buffer ++ [byte] := by
                intro occurs
                apply first
                rw [List.dropLast_cons_of_ne_nil (List.cons_ne_nil _ _)]
                apply occurs.trans
                exact ⟨[], (second :: later).dropLast, by simp⟩
              rw [if_neg early, ih fuel rfl (List.cons_ne_nil _ _) (by simpa using found) _ _ _]
              · simp [Nat.add_comm 1]
              · rw [List.dropLast_cons_of_ne_nil (List.cons_ne_nil _ _)] at first
                simpa using first
              · simpa using noNul
              · simpa using enough

/-- The text is read up to the end of its first occurrence, byte by byte. -/
theorem readUntilStringFound_eq (here : socket.incoming = front ++ rest)
    (some_front : front ≠ []) (found : what <:+: front) (first : ¬ what <:+: front.dropLast)
    (noNul : 0 ∉ front) :
    readUntilStringFound what socket = (some front, socket.after front.length rest) := by
  have enough : front.length ≤ socket.incoming.length + 1 := by
    rw [here, List.length_append]
    omega
  exact readUntilFrom_eq _ here some_front found first noNul enough

theorem readUriFrom_eq {uri : ByteString} {byte : UInt8} (left : ℕ)
    (here : socket.incoming = front ++ byte :: rest) (letters : ∀ letter ∈ front, isAlpha letter)
    (ends : isAlpha byte = false) (short : front.length < left) :
    readUriFrom left uri socket = (uri ++ front, socket.after (front.length + 1) rest) := by
  induction front generalizing left uri socket with
  | nil =>
      cases left with
      | zero => simp at short
      | succ left => simp [readUriFrom, Socket.read_one here, ends]
  | cons letter others ih =>
      cases left with
      | zero => simp at short
      | succ left =>
          rw [readUriFrom, Socket.read_one here]
          dsimp only
          rw [if_pos (letters letter List.mem_cons_self),
            ih left rfl (fun other mem => letters other (List.mem_cons_of_mem _ mem))
              (by simpa using short)]
          simp [Nat.add_comm 1]

end Reading

end CommonUtils

end OsConfig
