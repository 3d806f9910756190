import OsConfig.Common.Formatting
import OsConfig.Library.Buffers

/-!
# Captured command output

The read loop of `ExecuteCommand` once the child runs. The rounds of the loop
are the outcomes of `select` and `read` up to the one in which the child has
closed the pipe, which is the end of the list. Positions and sizes are
`unsigned int` values and wrap around. Every store is checked against the block
that `realloc` has returned last, and there is no result where the code would
write outside of it.

Whether `char` is signed depends on the platform, and so does what is kept of
the bytes from 128 on.
-/

namespace OsConfig.CommandUtils

open Buffers ByteString

def bufferSize : ℕ := 1024

def enomem : ℤ := 12

def etime : ℤ := 62

def ecanceled : ℤ := 125

/-- What one round of the loop meets. -/
inductive Round
  /-- `select` or `read` was interrupted by a signal. -/
  | interrupted
  /-- `select` waited for its interval, and there is nothing to read. -/
  | idle
  /-- A call failed with an error number other than `EINTR`. -/
  | failed (errno : ℤ)
  /-- The time for the command is over. -/
  | expired
  /-- The callback asks for an end. -/
  | canceled
  /-- `read` filled the start of the buffer. The new cells of a larger block are arbitrary, and
  there are none if `realloc` fails. -/
  | read (buffer : ByteString) (memory : Option (ℕ → UInt8))

/-- The arguments that matter to the loop. -/
structure Arguments where
  replaceEol : Bool
  forJson : Bool
  maxTextResultBytes : UInt32
  /-- Whether the caller has passed a place for the result. -/
  wanted : Bool

/-- The variables that the rounds share. -/
structure Capture where
  textResult : Option ByteString
  outputBufferPos : UInt32

/-- No result yet. -/
def Capture.empty : Capture :=
  ⟨none, 0⟩

section Code

variable (charSigned : Bool) (arguments : Arguments)

/-- The value of a `char` in a comparison. -/
def promote (byte : UInt8) : ℤ :=
  if charSigned && 128 ≤ byte then byte.toNat - 256 else byte.toNat

/-- The byte that is stored for one that was read. -/
def filtered (byte : UInt8) : UInt8 :=
  let c := promote charSigned byte
  if (arguments.replaceEol ∧ c = 10) ∨ (c < 32 ∧ c ≠ 10) ∨ c = 127 ∨
      (arguments.forJson ∧ (c = 34 ∨ c = 9 ∨ c = 92)) then 32
  else byte

def copyLoop (outputBufferSize : UInt32) :
    ByteString → ByteString → UInt32 → Option (ByteString × UInt32)
  | [], block, outputBufferPos => some (block, outputBufferPos)
  | byte :: rest, block, outputBufferPos =>
      if outputBufferPos < outputBufferSize then do
        let block ← store block outputBufferPos.toNat [filtered charSigned arguments byte]
        copyLoop outputBufferSize rest block (outputBufferPos + 1)
      else some (block, outputBufferPos)

/-- The size that the text result is given when a buffer arrives. -/
def nextSize (bytesRead outputBufferPos : UInt32) : UInt32 :=
  let outputBufferSize := bytesRead + outputBufferPos
  if 0 < arguments.maxTextResultBytes ∧ outputBufferSize > arguments.maxTextResultBytes - 1 then
    arguments.maxTextResultBytes - 1
  else outputBufferSize

/-- The rounds of the loop, with the status it ends with. -/
def readLoop : List Round → Capture → Option (ℤ × Capture)
  | [], capture => some (0, capture)
  | .interrupted :: rounds, capture => readLoop rounds capture
  | .idle :: rounds, capture => readLoop rounds capture
  | .failed errno :: _, capture => some (errno, capture)
  | .expired :: _, capture => some (etime, capture)
  | .canceled :: _, capture => some (ecanceled, capture)
  | .read buffer memory :: rounds, capture =>
      if (0 < arguments.maxTextResultBytes ∧
          capture.outputBufferPos = arguments.maxTextResultBytes) ∨ !arguments.wanted then
        readLoop rounds capture
      else
        let size := nextSize arguments (UInt32.ofNat buffer.length) capture.outputBufferPos
        match memory with
        | none => some (enomem, { capture with textResult := none })
        | some fresh => do
            let block := resize (capture.textResult.getD []) fresh (size + 1).toNat
            let (block, position) ←
              copyLoop charSigned arguments size buffer block capture.outputBufferPos
            readLoop rounds ⟨some block, position⟩

/-- The end of `ExecuteCommand`: the terminating zero, and the status of the child if the loop
has ended well. -/
def executeCommand (rounds : List Round) (childStatus : ℤ) : Option (ℤ × Option ByteString) := do
  let (status, capture) ← readLoop charSigned arguments rounds .empty
  let finalStatus := if status = 0 then childStatus else status
  match capture.textResult with
  | none => return (finalStatus, none)
  | some block => do
      let block ← store block capture.outputBufferPos.toNat [0]
      return (finalStatus, some block)

end Code

section Streams

def Round.bytes : Round → ByteString
  | .read buffer _ => buffer
  | .interrupted | .idle | .failed _ | .expired | .canceled => []

/-- Everything that the child has written. -/
def stream (rounds : List Round) : ByteString :=
  rounds.flatMap Round.bytes

/-- Rounds without a timeout, a cancellation or a failure. -/
def Round.Undisturbed : Round → Prop
  | .interrupted | .idle => True
  | .failed _ | .expired | .canceled => False
  | .read buffer memory => buffer ≠ [] ∧ buffer.length ≤ bufferSize ∧ memory.isSome

/-- The part of a stream that fits into the text result. -/
def kept (maxTextResultBytes : UInt32) (text : ByteString) : ByteString :=
  if maxTextResultBytes = 0 then text else text.take (maxTextResultBytes.toNat - 1)

/-- What a single read of the whole stream would leave. -/
def image (charSigned : Bool) (arguments : Arguments) (text : ByteString) : ByteString :=
  (kept arguments.maxTextResultBytes text).map (filtered charSigned arguments)

def resultText (textResult : Option ByteString) : ByteString :=
  (textResult.map cString).getD []

theorem length_kept (maxTextResultBytes : UInt32) (text : ByteString) :
    (kept maxTextResultBytes text).length =
      if maxTextResultBytes = 0 then text.length
      else min (maxTextResultBytes.toNat - 1) text.length := by
  rw [kept]
  split
  · rfl
  · exact List.length_take

theorem length_image {charSigned : Bool} {arguments : Arguments} (text : ByteString) :
    (image charSigned arguments text).length =
      (kept arguments.maxTextResultBytes text).length :=
  List.length_map _

/-- What is kept of a longer stream is what was kept, and as much more as there is room for. -/
theorem kept_append (maxTextResultBytes : UInt32) (before buffer : ByteString) :
    kept maxTextResultBytes (before ++ buffer) =
      kept maxTextResultBytes before ++
        buffer.take ((kept maxTextResultBytes (before ++ buffer)).length -
          (kept maxTextResultBytes before).length) := by
  rw [length_kept, length_kept, kept, kept]
  split
  · rw [List.length_append, Nat.add_sub_cancel_left, List.take_length]
  · rw [List.take_append, List.length_append]
    congr 1
    by_cases full : maxTextResultBytes.toNat - 1 ≤ before.length
    · rw [Nat.sub_eq_zero_of_le full]
      congr 1
      omega
    · by_cases all : buffer.length ≤ maxTextResultBytes.toNat - 1 - before.length
      · rw [List.take_of_length_le all, List.take_of_length_le]
        omega
      · congr 1
        omega

end Streams

section Sizes

theorem toNat_sub_one {number : UInt32} (positive : 0 < number) :
    (number - 1).toNat = number.toNat - 1 := by
  have one : (1 : UInt32) ≤ number := by
    rw [UInt32.lt_iff_toNat_lt] at positive
    exact UInt32.le_iff_toNat_le.mpr positive
  rw [UInt32.toNat_sub_of_le _ _ one]
  rfl

/-- The sum does not wrap around, and the limit cuts as it cuts the whole stream. -/
theorem toNat_nextSize {arguments : Arguments} {before buffer : ByteString} {position : UInt32}
    (here : position.toNat = (kept arguments.maxTextResultBytes before).length)
    (short : (before ++ buffer).length < 2 ^ 32) :
    (nextSize arguments (UInt32.ofNat buffer.length) position).toNat =
      (kept arguments.maxTextResultBytes (before ++ buffer)).length := by
  rw [length_kept] at here ⊢
  rw [List.length_append] at short ⊢
  have bound : (if arguments.maxTextResultBytes = 0 then before.length
      else min (arguments.maxTextResultBytes.toNat - 1) before.length) ≤ before.length := by
    split
    · exact Nat.le_refl _
    · exact Nat.min_le_right _ _
  have sum : (UInt32.ofNat buffer.length + position).toNat = buffer.length + position.toNat := by
    rw [UInt32.toNat_add, UInt32.toNat_ofNat']
    omega
  by_cases unlimited : arguments.maxTextResultBytes = 0
  · rw [if_pos unlimited] at here ⊢
    rw [nextSize, if_neg, sum]
    · omega
    · rw [unlimited]
      rintro ⟨impossible, _⟩
      exact absurd impossible (by decide)
  · rw [if_neg unlimited] at here ⊢
    have positive : 0 < arguments.maxTextResultBytes := UInt32.pos_iff_ne_zero.mpr unlimited
    have limit := toNat_sub_one positive
    rw [nextSize]
    split
    next cut =>
      have larger := UInt32.lt_iff_toNat_lt.mp cut.2
      omega
    next whole =>
      have smaller : ¬ (arguments.maxTextResultBytes - 1).toNat <
          (UInt32.ofNat buffer.length + position).toNat := fun larger =>
        whole ⟨positive, UInt32.lt_iff_toNat_lt.mpr larger⟩
      omega

end Sizes

section Captures

variable {charSigned : Bool} {arguments : Arguments}

/-- The loop over the buffer stores the bytes for which there is room, behind the others. -/
theorem copyLoop_eq {size position : UInt32} {buffer block written : ByteString}
    (holds : Holds block written) (here : position.toNat = written.length)
    (inside : size.toNat < block.length) :
    ∃ block' position', copyLoop charSigned arguments size buffer block position =
        some (block', position') ∧ block'.length = block.length ∧
      Holds block' (written ++
        (buffer.take (size.toNat - written.length)).map (filtered charSigned arguments)) ∧
      position'.toNat = (written ++
        (buffer.take (size.toNat - written.length)).map (filtered charSigned arguments)).length := by
  induction buffer generalizing block position written with
  | nil => exact ⟨block, position, rfl, rfl, by simpa using holds, by simpa using here⟩
  | cons byte rest ih =>
      rw [copyLoop]
      split
      next more =>
        have less := UInt32.lt_iff_toNat_lt.mp more
        have room : written.length + [filtered charSigned arguments byte].length ≤
            block.length := by
          rw [List.length_singleton]
          omega
        rcases exists_store holds room with ⟨block₁, stored, same, holds₁⟩
        have next : (position + 1).toNat =
            (written ++ [filtered charSigned arguments byte]).length := by
          have fits := size.toNat_lt
          have one : (1 : UInt32).toNat = 1 := rfl
          rw [UInt32.toNat_add, List.length_append, List.length_singleton, here, one]
          exact Nat.mod_eq_of_lt (by omega)
        rw [← same] at inside
        rcases ih holds₁ next inside with ⟨block₂, position', run, same₂, holds₂, there⟩
        have amount : size.toNat - written.length =
            size.toNat - (written ++ [filtered charSigned arguments byte]).length + 1 := by
          rw [List.length_append, List.length_singleton]
          omega
        rw [here, stored]
        rw [amount, List.take_succ_cons, List.map_cons]
        rw [List.append_assoc, List.singleton_append] at holds₂ there
        exact ⟨block₂, position', run, same₂.trans same, holds₂, there⟩
      next full =>
        have none_left : size.toNat - written.length = 0 := by
          have notLess : ¬ position.toNat < size.toNat := fun less =>
            full (UInt32.lt_iff_toNat_lt.mpr less)
          omega
        rw [none_left]
        exact ⟨block, position, rfl, rfl, by simpa using holds, by simpa using here⟩

/-- The text result holds the image of what has been read, with room for the terminating zero
behind it. There is none as long as nothing has been read. -/
structure Captured (charSigned : Bool) (arguments : Arguments) (before : ByteString)
    (capture : Capture) : Prop where
  position : capture.outputBufferPos.toNat = (image charSigned arguments before).length
  none_iff : capture.textResult = none ↔ before = []
  block : ∀ block, capture.textResult = some block →
    Holds block (image charSigned arguments before) ∧
      (image charSigned arguments before).length < block.length

theorem image_nil : image charSigned arguments [] = [] := by
  simp [image, kept]

theorem Captured.holds {before : ByteString} {capture : Capture}
    (captured : Captured charSigned arguments before capture) :
    Holds (capture.textResult.getD []) (image charSigned arguments before) := by
  cases result : capture.textResult with
  | none =>
      rw [captured.none_iff.mp result, image_nil]
      exact holds_nil _
  | some block => exact (captured.block block result).1

theorem captured_empty : Captured charSigned arguments [] .empty where
  position := by
    rw [image_nil]
    rfl
  none_iff := by simp [Capture.empty]
  block block some_eq := by cases some_eq

theorem image_append (before buffer : ByteString) :
    image charSigned arguments (before ++ buffer) =
      image charSigned arguments before ++
        (buffer.take ((kept arguments.maxTextResultBytes (before ++ buffer)).length -
          (image charSigned arguments before).length)).map (filtered charSigned arguments) := by
  rw [length_image, image, image, ← List.map_append, ← kept_append]

/-- A buffer that arrives is stored behind the others. -/
theorem readLoop_read {before buffer : ByteString} {capture : Capture} {fresh : ℕ → UInt8}
    (captured : Captured charSigned arguments before capture) (wanted : arguments.wanted = true)
    (nonempty : buffer ≠ []) (short : (before ++ buffer).length + 1 < 2 ^ 32)
    (rounds : List Round) :
    ∃ capture', readLoop charSigned arguments (.read buffer (some fresh) :: rounds) capture =
        readLoop charSigned arguments rounds capture' ∧
      Captured charSigned arguments (before ++ buffer) capture' := by
  have here := captured.position
  have sizes := toNat_nextSize (here.trans (length_image before)) (Nat.lt_of_succ_lt short)
  have fewer : (image charSigned arguments before).length ≤
      (kept arguments.maxTextResultBytes (before ++ buffer)).length := by
    rw [length_image, kept_append, List.length_append]
    exact Nat.le_add_right _ _
  have atMost : (kept arguments.maxTextResultBytes (before ++ buffer)).length ≤
      (before ++ buffer).length := by
    rw [length_kept]
    split
    · exact Nat.le_refl _
    · exact Nat.min_le_right _ _
  -- The position stays below the limit, so nothing is passed over before the stream ends.
  have accepts : ¬ ((0 < arguments.maxTextResultBytes ∧
      capture.outputBufferPos = arguments.maxTextResultBytes) ∨ !arguments.wanted) := by
    rintro (⟨positive, full⟩ | unwanted)
    · rw [full, length_image, length_kept, if_neg (UInt32.pos_iff_ne_zero.mp positive)] at here
      have some_room := UInt32.lt_iff_toNat_lt.mp positive
      omega
    · rw [wanted] at unwanted
      cases unwanted
  rw [readLoop, if_neg accepts]
  set size := nextSize arguments (UInt32.ofNat buffer.length) capture.outputBufferPos
  have grown : (size + 1).toNat = size.toNat + 1 := by
    have one : (1 : UInt32).toNat = 1 := rfl
    rw [UInt32.toNat_add, one]
    exact Nat.mod_eq_of_lt (by omega)
  have holds : Holds (resize (capture.textResult.getD []) fresh (size + 1).toNat)
      (image charSigned arguments before) := by
    apply captured.holds.resize
    omega
  have inside : size.toNat <
      (resize (capture.textResult.getD []) fresh (size + 1).toNat).length := by
    rw [length_resize, grown]
    exact Nat.lt_succ_self _
  rcases @copyLoop_eq _ _ _ _ buffer _ _ holds here inside with
    ⟨block, position, run, length_eq, holds', there⟩
  rw [sizes, ← image_append] at holds' there
  refine ⟨⟨some block, position⟩, ?_, there, ?_, ?_⟩
  · simp only [run, Option.bind_eq_bind, Option.bind_some]
  · simp [nonempty]
  · rintro _ ⟨⟩
    rw [length_eq, length_image, ← sizes]
    exact ⟨holds', inside⟩

theorem readLoop_captures {rounds : List Round} {before : ByteString} {capture : Capture}
    (undisturbed : ∀ round ∈ rounds, round.Undisturbed) (wanted : arguments.wanted = true)
    (captured : Captured charSigned arguments before capture)
    (short : (before ++ stream rounds).length + 1 < 2 ^ 32) :
    ∃ capture', readLoop charSigned arguments rounds capture = some (0, capture') ∧
      Captured charSigned arguments (before ++ stream rounds) capture' := by
  induction rounds generalizing before capture with
  | nil =>
      refine ⟨capture, rfl, ?_⟩
      rw [stream, List.flatMap_nil, List.append_nil]
      exact captured
  | cons round rounds ih =>
      have now := undisturbed round List.mem_cons_self
      have later : ∀ other ∈ rounds, other.Undisturbed :=
        fun other mem => undisturbed other (List.mem_cons_of_mem _ mem)
      have stream_eq : before ++ stream (round :: rounds) =
          before ++ round.bytes ++ stream rounds := by
        rw [stream, List.flatMap_cons, ← List.append_assoc]
        rfl
      rw [stream_eq] at short ⊢
      cases round with
      | interrupted =>
          rw [Round.bytes, List.append_nil] at short ⊢
          exact ih later captured short
      | idle =>
          rw [Round.bytes, List.append_nil] at short ⊢
          exact ih later captured short
      | failed errno => cases now
      | expired => cases now
      | canceled => cases now
      | read buffer memory =>
          rcases now with ⟨nonempty, _, available⟩
          rcases Option.isSome_iff_exists.mp available with ⟨fresh, rfl⟩
          have fits : (before ++ buffer).length + 1 < 2 ^ 32 := by
            rw [List.length_append] at short
            exact Nat.lt_of_le_of_lt (Nat.succ_le_succ (Nat.le_add_right _ _)) short
          rcases readLoop_read captured wanted nonempty fits rounds with ⟨capture₁, one, captured₁⟩
          rcases ih later captured₁ short with ⟨capture₂, others, captured₂⟩
          exact ⟨capture₂, one.trans others, captured₂⟩

/-- The bytes that are stored are never zero. -/
theorem filtered_ne_zero (byte : UInt8) : filtered charSigned arguments byte ≠ 0 := by
  rw [filtered]
  split
  · decide
  next passes =>
    rintro rfl
    apply passes
    right
    left
    cases charSigned with
    | false => decide
    | true => decide

theorem zero_notMem_image (text : ByteString) : 0 ∉ image charSigned arguments text := by
  intro mem
  rcases List.mem_map.mp mem with ⟨byte, _, zero⟩
  exact filtered_ne_zero byte zero

end Captures

section Results

variable {charSigned : Bool} {arguments : Arguments} {rounds : List Round}

/-- The end of the run puts the terminating zero behind the image. -/
theorem executeCommand_cases (undisturbed : ∀ round ∈ rounds, round.Undisturbed)
    (wanted : arguments.wanted = true) (short : (stream rounds).length + 1 < 2 ^ 32)
    (childStatus : ℤ) :
    (stream rounds = [] ∧
        executeCommand charSigned arguments rounds childStatus = some (childStatus, none)) ∨
      (stream rounds ≠ [] ∧ ∃ block,
        executeCommand charSigned arguments rounds childStatus = some (childStatus, some block) ∧
        Holds block (image charSigned arguments (stream rounds) ++ [0])) := by
  have fits : ([] ++ stream rounds).length + 1 < 2 ^ 32 := by
    rwa [List.nil_append]
  rcases readLoop_captures undisturbed wanted captured_empty fits with ⟨capture, run, captured⟩
  rw [List.nil_append] at captured
  rw [executeCommand, run]
  cases result : capture.textResult with
  | none =>
      left
      exact ⟨captured.none_iff.mp result, by simp [result]⟩
  | some block =>
      rcases captured.block block result with ⟨holds, room⟩
      rcases @exists_store _ _ _ [0] holds room with ⟨block', stored, _, ends⟩
      right
      refine ⟨?_, block', ?_, ends⟩
      · rw [ne_eq, ← captured.none_iff, result]
        exact Option.some_ne_none block
      · simp [result, captured.position, stored]

/-- However the output of the child arrives, the text result is the image of its first bytes with
a terminating zero, and every store on the way is inside of the block. -/
theorem executeCommand_captures (undisturbed : ∀ round ∈ rounds, round.Undisturbed)
    (wanted : arguments.wanted = true) (short : (stream rounds).length < 2 ^ 32 - 1024)
    (childStatus : ℤ) :
    ∃ textResult, executeCommand charSigned arguments rounds childStatus =
        some (childStatus, textResult) ∧
      (textResult = none ↔ stream rounds = []) ∧
      ∀ block, textResult = some block →
        Holds block (image charSigned arguments (stream rounds) ++ [0]) ∧
          cString block = image charSigned arguments (stream rounds) := by
  have fits : (stream rounds).length + 1 < 2 ^ 32 := by omega
  rcases executeCommand_cases undisturbed wanted fits childStatus with
    ⟨empty, run⟩ | ⟨nonempty, block, run, ends⟩
  · exact ⟨none, run, by simp [empty], by simp⟩
  · refine ⟨some block, run, by simp [nonempty], ?_⟩
    rintro _ ⟨⟩
    exact ⟨ends, ends.takeWhile.trans (cString_of_not_mem (zero_notMem_image _))⟩

/-- Three bytes are kept of five that arrive in two pieces, with a timeout and a signal between. -/
theorem executeCommand_captures_interrupted :
    ∃ textResult, executeCommand true ⟨true, false, 4, true⟩
        [.idle, .read [97, 98] (some fun _ => 1), .interrupted,
          .read [10, 99, 100] (some fun _ => 2)] 7 = some (7, textResult) ∧
      (textResult = none ↔ ([97, 98, 10, 99, 100] : ByteString) = []) ∧
      ∀ block, textResult = some block →
        Holds block ([97, 98, 32] ++ [0]) ∧ cString block = [97, 98, 32] := by
  refine executeCommand_captures ?_ rfl ?_ 7
  · simp [Round.Undisturbed, bufferSize]
  · decide

end Results

section Overflows

variable {charSigned : Bool} {arguments : Arguments}

theorem copyLoop_position {size position position' : UInt32} {buffer block block' : ByteString}
    (run : copyLoop charSigned arguments size buffer block position = some (block', position')) :
    position'.toNat ≤ position.toNat + buffer.length ∧ (¬ position < size → position' = position) := by
  induction buffer generalizing block position with
  | nil =>
      cases run
      exact ⟨Nat.le_refl _, fun _ => rfl⟩
  | cons byte rest ih =>
      rw [copyLoop] at run
      split at run
      next more =>
        rcases Option.bind_eq_some_iff.mp run with ⟨stored, _, others⟩
        have fits := size.toNat_lt
        have less := UInt32.lt_iff_toNat_lt.mp more
        have one : (1 : UInt32).toNat = 1 := rfl
        have next : (position + 1).toNat = position.toNat + 1 := by
          rw [UInt32.toNat_add, one]
          exact Nat.mod_eq_of_lt (by omega)
        have bound := (ih others).1
        rw [next] at bound
        refine ⟨?_, fun full => absurd more full⟩
        rw [List.length_cons]
        omega
      · cases run
        exact ⟨Nat.le_add_right _ _, fun _ => rfl⟩

/-- There is no place for a byte in a block without cells. -/
theorem copyLoop_nil {size position : UInt32} {buffer : ByteString} (nonempty : buffer ≠ [])
    (more : position < size) :
    copyLoop charSigned arguments size buffer [] position = none := by
  rcases List.exists_cons_of_ne_nil nonempty with ⟨byte, rest, rfl⟩
  rw [copyLoop, if_pos more, store, if_neg]
  · rfl
  · simp

/-- Without a limit a buffer is never passed over. -/
theorem readLoop_unlimited (wanted : arguments.wanted = true)
    (unlimited : arguments.maxTextResultBytes = 0) {buffer : ByteString} {fresh : ℕ → UInt8}
    {rounds : List Round} {capture : Capture} :
    readLoop charSigned arguments (.read buffer (some fresh) :: rounds) capture =
      (copyLoop charSigned arguments (UInt32.ofNat buffer.length + capture.outputBufferPos) buffer
        (resize (capture.textResult.getD []) fresh
          (UInt32.ofNat buffer.length + capture.outputBufferPos + 1).toNat)
        capture.outputBufferPos).bind fun result =>
          readLoop charSigned arguments rounds ⟨some result.1, result.2⟩ := by
  have zero : ¬ (0 : UInt32) < 0 := by decide
  simp [readLoop, nextSize, wanted, unlimited, zero]

theorem readLoop_behind {rounds : List Round} {read : ℕ} {capture capture' : Capture} {status : ℤ}
    (undisturbed : ∀ round ∈ rounds, round.Undisturbed) (wanted : arguments.wanted = true)
    (unlimited : arguments.maxTextResultBytes = 0) (behind : capture.outputBufferPos.toNat < read)
    (run : readLoop charSigned arguments rounds capture = some (status, capture')) :
    capture'.outputBufferPos.toNat < read + (stream rounds).length := by
  induction rounds generalizing read capture with
  | nil =>
      cases run
      exact behind
  | cons round rounds ih =>
      have now := undisturbed round List.mem_cons_self
      have later : ∀ other ∈ rounds, other.Undisturbed :=
        fun other mem => undisturbed other (List.mem_cons_of_mem _ mem)
      rw [stream, List.flatMap_cons, List.length_append, ← Nat.add_assoc]
      cases round with
      | interrupted => exact ih later behind run
      | idle => exact ih later behind run
      | failed errno => cases now
      | expired => cases now
      | canceled => cases now
      | read buffer memory =>
          rcases Option.isSome_iff_exists.mp now.2.2 with ⟨fresh, rfl⟩
          rw [readLoop_unlimited wanted unlimited] at run
          rcases Option.bind_eq_some_iff.mp run with ⟨result, copied, others⟩
          have moved := (copyLoop_position copied).1
          have still : result.2.toNat < read + buffer.length := by omega
          exact ih later still others

theorem readLoop_wrap {before buffer : ByteString} {capture : Capture} {fresh : ℕ → UInt8}
    {rounds : List Round} {result : ℤ × Capture}
    (here : capture.outputBufferPos.toNat = before.length) (wanted : arguments.wanted = true)
    (unlimited : arguments.maxTextResultBytes = 0) (nonempty : buffer ≠ [])
    (small : buffer.length ≤ bufferSize) (long : 2 ^ 32 ≤ (before ++ buffer).length + 1)
    (run : readLoop charSigned arguments (.read buffer (some fresh) :: rounds) capture =
      some result) :
    ∃ capture', capture'.outputBufferPos.toNat < (before ++ buffer).length ∧
      readLoop charSigned arguments rounds capture' = some result := by
  rw [readLoop_unlimited wanted unlimited] at run
  rcases Option.bind_eq_some_iff.mp run with ⟨⟨block, position⟩, copied, others⟩
  refine ⟨⟨some block, position⟩, ?_, others⟩
  rw [List.length_append] at long ⊢
  have positive := List.length_pos_iff.mpr nonempty
  have bound := capture.outputBufferPos.toNat_lt
  have size : (UInt32.ofNat buffer.length + capture.outputBufferPos).toNat =
      (buffer.length + before.length) % 2 ^ 32 := by
    rw [UInt32.toNat_add, UInt32.toNat_ofNat', here]
    omega
  rw [bufferSize] at small
  by_cases exact : buffer.length + before.length + 1 = 2 ^ 32
  · -- The block that `realloc` is asked for has no cells at all.
    have cells : (UInt32.ofNat buffer.length + capture.outputBufferPos + 1).toNat = 0 := by
      have one : (1 : UInt32).toNat = 1 := rfl
      rw [UInt32.toNat_add, size, one]
      omega
    have more : capture.outputBufferPos <
        UInt32.ofNat buffer.length + capture.outputBufferPos := by
      rw [UInt32.lt_iff_toNat_lt, size, here]
      omega
    have none_left := List.eq_nil_of_length_eq_zero (length_resize
      (capture.textResult.getD []) fresh 0)
    rw [cells, none_left, copyLoop_nil nonempty more] at copied
    cases copied
  · have full : ¬ capture.outputBufferPos <
        UInt32.ofNat buffer.length + capture.outputBufferPos := by
      rw [UInt32.lt_iff_toNat_lt, size, here]
      omega
    rw [(copyLoop_position copied).2 full, here]
    omega

/-- A stream too long for an `unsigned int` is not captured whole. -/
theorem readLoop_overflow {rounds : List Round} {before : ByteString} {capture capture' : Capture}
    {status : ℤ} (undisturbed : ∀ round ∈ rounds, round.Undisturbed)
    (wanted : arguments.wanted = true) (unlimited : arguments.maxTextResultBytes = 0)
    (captured : Captured charSigned arguments before capture)
    (short : before.length + 1 < 2 ^ 32) (long : 2 ^ 32 ≤ (before ++ stream rounds).length + 1)
    (run : readLoop charSigned arguments rounds capture = some (status, capture')) :
    capture'.outputBufferPos.toNat < (before ++ stream rounds).length := by
  induction rounds generalizing before capture with
  | nil =>
      rw [stream, List.flatMap_nil, List.append_nil] at long
      exact absurd short (Nat.not_lt.mpr long)
  | cons round rounds ih =>
      have now := undisturbed round List.mem_cons_self
      have later : ∀ other ∈ rounds, other.Undisturbed :=
        fun other mem => undisturbed other (List.mem_cons_of_mem _ mem)
      have stream_eq : before ++ stream (round :: rounds) =
          before ++ round.bytes ++ stream rounds := by
        rw [stream, List.flatMap_cons, ← List.append_assoc]
        rfl
      rw [stream_eq] at long ⊢
      cases round with
      | interrupted =>
          simp only [Round.bytes, List.append_nil] at long ⊢
          exact ih later captured short long run
      | idle =>
          simp only [Round.bytes, List.append_nil] at long ⊢
          exact ih later captured short long run
      | failed errno => cases now
      | expired => cases now
      | canceled => cases now
      | read buffer memory =>
          rcases now with ⟨nonempty, small, available⟩
          rcases Option.isSome_iff_exists.mp available with ⟨fresh, rfl⟩
          by_cases fits : (before ++ buffer).length + 1 < 2 ^ 32
          · rcases readLoop_read captured wanted nonempty fits rounds with ⟨capture₁, one, captured₁⟩
            rw [one] at run
            exact ih later captured₁ fits long run
          · have here : capture.outputBufferPos.toNat = before.length := by
              rw [captured.position, length_image, length_kept, if_pos unlimited]
            rcases readLoop_wrap here wanted unlimited nonempty small (Nat.not_lt.mp fits) run with
              ⟨capture₁, behind, others⟩
            have last := readLoop_behind later wanted unlimited behind others
            rwa [List.length_append]

/-- What the caller finds is shorter than a stream that is too long. -/
theorem length_resultText_lt {rounds : List Round} {childStatus status : ℤ}
    {textResult : Option ByteString} (undisturbed : ∀ round ∈ rounds, round.Undisturbed)
    (wanted : arguments.wanted = true) (unlimited : arguments.maxTextResultBytes = 0)
    (long : 2 ^ 32 ≤ (stream rounds).length + 1)
    (run : executeCommand charSigned arguments rounds childStatus = some (status, textResult)) :
    (resultText textResult).length < (stream rounds).length := by
  rcases Option.bind_eq_some_iff.mp run with ⟨⟨loopStatus, capture⟩, loop, finish⟩
  have none_read : ([] : ByteString).length + 1 < 2 ^ 32 := by simp
  have behind := readLoop_overflow undisturbed wanted unlimited captured_empty none_read long loop
  rw [List.nil_append] at behind
  cases result : capture.textResult with
  | none =>
      simp only [result] at finish
      cases finish
      rw [resultText, Option.map_none, Option.getD_none, List.length_nil]
      omega
  | some block =>
      simp only [result] at finish
      rcases Option.bind_eq_some_iff.mp finish with ⟨block', stored, same⟩
      cases same
      rw [resultText, Option.map_some, Option.getD_some]
      exact Nat.lt_of_le_of_lt (length_takeWhile_le stored) behind

end Overflows

section Text

variable {charSigned : Bool} {arguments : Arguments} {text : String}

/-- Neither a control character nor a double quote or a backslash. -/
def IsPlain (character : Char) : Prop :=
  32 ≤ character.toNat ∧ character.toNat ≠ 127 ∧ character ≠ '"' ∧ character ≠ '\\'

/-- A byte whose value is that of a plain character or of none is stored as it is. -/
theorem filtered_eq_self {byte : UInt8} (positive : promote charSigned byte = byte.toNat)
    (printable : 32 ≤ byte.toNat) (notDelete : byte.toNat ≠ 127) (notQuote : byte.toNat ≠ 34)
    (notBackslash : byte.toNat ≠ 92) : filtered charSigned arguments byte = byte := by
  simp only [filtered, positive]
  apply if_neg
  rintro (⟨_, newline⟩ | ⟨control, _⟩ | delete | ⟨_, quote | tab | backslash⟩) <;> omega

/-- The bytes of a plain character are stored as they are, unless they are negative. -/
theorem filtered_of_isPlain {character : Char} (plain : IsPlain character) {byte : UInt8}
    (mem : byte ∈ String.utf8EncodeChar character) :
    filtered charSigned arguments byte = byte ↔ charSigned = false ∨ character.toNat < 128 := by
  rcases plain with ⟨printable, notDelete, notQuote, notBackslash⟩
  have letters : ∀ {other : Char}, character ≠ other → character.toNat ≠ other.toNat :=
    fun different same => different (Char.ext (UInt32.toNat_inj.mp same))
  rcases toNat_of_mem_utf8EncodeChar mem with ⟨ascii, same⟩ | ⟨wide, large⟩
  · have positive : promote charSigned byte = byte.toNat := by
      rw [promote, if_neg]
      rw [Bool.and_eq_true, decide_eq_true_eq, UInt8.le_iff_toNat_le]
      rintro ⟨_, large⟩
      change 128 ≤ byte.toNat at large
      omega
    have unchanged : filtered charSigned arguments byte = byte := by
      apply filtered_eq_self positive
      · rwa [same]
      · rwa [same]
      · rw [same]
        exact letters notQuote
      · rw [same]
        exact letters notBackslash
    exact iff_of_true unchanged (Or.inr ascii)
  · cases charSigned with
    | false =>
        refine iff_of_true ?_ (Or.inl rfl)
        apply filtered_eq_self rfl <;> omega
    | true =>
        have value : promote true byte = byte.toNat - 256 := by
          rw [promote, if_pos]
          rw [Bool.true_and, decide_eq_true_eq]
          exact UInt8.le_iff_toNat_le.mpr large
        have bound := byte.toNat_lt
        apply iff_of_false
        · intro unchanged
          have blank : filtered true arguments byte = 32 := by
            simp only [filtered, value]
            apply if_pos
            right
            left
            omega
          rw [blank] at unchanged
          rw [← unchanged] at large
          exact absurd large (by decide)
        · rintro (unsigned | ascii)
          · cases unsigned
          · omega

theorem map_filtered_eq_self (plain : ∀ character ∈ text.toList, IsPlain character) :
    (bytes text).map (filtered charSigned arguments) = bytes text ↔
      charSigned = false ∨ ∀ character ∈ text.toList, character.toNat < 128 := by
  have each : (bytes text).map (filtered charSigned arguments) = bytes text ↔
      ∀ byte ∈ bytes text, filtered charSigned arguments byte = byte := by
    conv_lhs => rhs; rw [← List.map_id (bytes text)]
    exact List.map_inj_left
  rw [each]
  constructor
  · intro unchanged
    rw [or_iff_not_imp_left]
    intro signed character mem
    rcases List.exists_mem_of_ne_nil _ (@String.utf8EncodeChar_ne_nil character) with
      ⟨byte, byte_mem⟩
    have same := unchanged byte (List.mem_flatMap.mpr ⟨character, mem, byte_mem⟩)
    exact ((filtered_of_isPlain (plain character mem) byte_mem).mp same).resolve_left signed
  · intro passes byte byte_mem
    rcases List.mem_flatMap.mp byte_mem with ⟨character, mem, inside⟩
    apply (filtered_of_isPlain (plain character mem) inside).mpr
    exact passes.imp_right fun ascii => ascii character mem

/-- Plain text comes back unchanged exactly if `char` is unsigned or the text is ASCII, and its
size and the terminating zero fit into an `unsigned int`. -/
theorem executeCommand_text (plain : ∀ character ∈ text.toList, IsPlain character)
    {rounds : List Round} (undisturbed : ∀ round ∈ rounds, round.Undisturbed)
    (written : stream rounds = bytes text) (wanted : arguments.wanted = true)
    (unlimited : arguments.maxTextResultBytes = 0) (childStatus : ℤ) :
    (∃ textResult, executeCommand charSigned arguments rounds childStatus =
        some (childStatus, textResult) ∧ resultText textResult = bytes text) ↔
      (charSigned = false ∨ ∀ character ∈ text.toList, character.toNat < 128) ∧
        (bytes text).length + 1 < 2 ^ 32 := by
  by_cases fits : (bytes text).length + 1 < 2 ^ 32
  · rw [and_iff_left fits, ← @map_filtered_eq_self _ arguments _ plain]
    rw [← written] at fits ⊢
    have whole : image charSigned arguments (stream rounds) =
        (stream rounds).map (filtered charSigned arguments) := by
      rw [image, kept, if_pos unlimited]
    rcases executeCommand_cases undisturbed wanted fits childStatus with
      ⟨empty, run⟩ | ⟨nonempty, block, run, ends⟩
    · rw [run, empty]
      simp [resultText]
    · have shown : cString block = (stream rounds).map (filtered charSigned arguments) := by
        rw [← whole]
        exact ends.takeWhile.trans (cString_of_not_mem (zero_notMem_image _))
      rw [run]
      simp [resultText, shown]
  · apply iff_of_false
    · rintro ⟨textResult, run, same⟩
      have long : 2 ^ 32 ≤ (stream rounds).length + 1 := by
        rw [written]
        exact Nat.not_lt.mp fits
      have shorter := length_resultText_lt undisturbed wanted unlimited long run
      rw [same, written] at shorter
      exact Nat.lt_irrefl _ shorter
    · rintro ⟨_, short⟩
      exact fits short

theorem executeCommand_text_ascii :
    (∃ textResult, executeCommand true ⟨true, true, 0, true⟩
        [.read [97] (some fun _ => 1), .idle, .read [98] (some fun _ => 2)] 0 =
          some (0, textResult) ∧ resultText textResult = bytes "ab") := by
  refine (executeCommand_text (by simp [IsPlain]) ?_ (by decide +kernel) rfl rfl 0).mpr ?_
  · simp [Round.Undisturbed, bufferSize]
  · exact ⟨Or.inr (by simp), by decide +kernel⟩

/-- Both bytes of an accented letter become blanks where `char` is signed. -/
theorem executeCommand_text_accented :
    (∀ character ∈ "é".toList, IsPlain character) ∧ bytes "é" = [195, 169] ∧
      ¬ ∃ textResult, executeCommand true ⟨false, false, 0, true⟩
        [.read [195, 169] (some fun _ => 0)] 0 = some (0, textResult) ∧
          resultText textResult = bytes "é" := by
  refine ⟨by simp [IsPlain], by decide +kernel, ?_⟩
  rintro ⟨textResult, run, same⟩
  have result : executeCommand true ⟨false, false, 0, true⟩ [.read [195, 169] (some fun _ => 0)] 0 =
      some (0, some [32, 32, 0]) := by decide
  rw [result] at run
  cases run
  exact absurd same (by decide)

end Text

end OsConfig.CommandUtils
