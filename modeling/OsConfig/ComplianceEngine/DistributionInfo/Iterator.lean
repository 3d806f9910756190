import OsConfig.Common.Streams
import OsConfig.ComplianceEngine.DistributionInfo
import OsConfig.Library.Assignments

/-!
# Reading with an iterator

`ParseKey` and `ParseValue` share an iterator over the characters of the file
and move it themselves. They return what the reading of texts does. The iterator
is moved once more at the end of the file if the file ends in a comment, and
never otherwise. Between quotes white space is dropped.
-/

namespace OsConfig.ComplianceEngine.DistributionInfo

open ByteString
open Assignments (lastValue insertAll)

/-- A `FileIterator`: what it has not passed yet, and how often it was moved at the end. -/
structure FileIterator where
  rest : ByteString
  overruns : ℕ := 0

namespace FileIterator

/-- `++input`. -/
def advance (input : FileIterator) : FileIterator :=
  match input.rest with
  | [] => { input with overruns := input.overruns + 1 }
  | _ :: rest => { input with rest }

/-- `for (++input; input != FileIterator() && *input != '\n'; ++input)`. -/
def skipLine (input : FileIterator) : FileIterator :=
  { input.advance with rest := input.advance.rest.dropWhile (· ≠ 10) }

end FileIterator

section Loops

def keyAtEnd (result : ByteString) : Result ByteString :=
  if result = [] then .ok result
  else .error
    { message := bytes "Unexpected end of input while parsing a key", code := Errno.EINVAL }

/-- `ParseKey`. Each round moves the iterator, so no more rounds are needed than there are
characters left. -/
def readKey (rounds : ℕ) (result : ByteString) (hasSpaces : Bool) (input : FileIterator) :
    Result ByteString × FileIterator :=
  match rounds with
  | 0 => (keyAtEnd result, input)
  | rounds + 1 =>
      match input.rest with
      | [] => (keyAtEnd result, input)
      | value :: _ =>
          if value = 61 then
            if result = [] then
              (.error
                { message := bytes "Unexpected '=' at the start of a key", code := Errno.EINVAL },
                input)
            else
              (.ok result, input.advance)
          else if value = 35 then
            if result ≠ [] then
              (.error
                { message := bytes "Unexpected comment character '#' in a key"
                  code := Errno.EINVAL },
                input)
            else
              -- `continue`: the loop moves the iterator, also when the comment was not terminated
              readKey rounds result hasSpaces input.skipLine.advance
          else if isSpace value then
            readKey rounds result (hasSpaces || result ≠ []) input.advance
          else if hasSpaces then
            (.error { message := bytes "Unexpected space in a key", code := Errno.EINVAL }, input)
          else
            readKey rounds (result ++ [value]) hasSpaces input.advance

def valueAtEnd (result : ByteString) (quoted : Bool) : Result ByteString :=
  if quoted then
    .error
      { message := bytes "Unexpected end of input while parsing a quoted value"
        code := Errno.EINVAL }
  else
    .ok result

/-- `ParseValue`. -/
def readValue (rounds : ℕ) (result : ByteString) (quoted : Bool) (input : FileIterator) :
    Result ByteString × FileIterator :=
  match rounds with
  | 0 => (valueAtEnd result quoted, input)
  | rounds + 1 =>
      match input.rest with
      | [] => (valueAtEnd result quoted, input)
      | value :: _ =>
          if value = 34 then
            if quoted then
              (.ok result, input.advance)
            else if result ≠ [] then
              (.error
                { message := bytes "Unexpected quote character past the start of value"
                  code := Errno.EINVAL },
                input)
            else
              readValue rounds result true input.advance
          else if value = 35 ∧ !quoted then
            -- "Move past the newline character", which need not be there
            (.ok result, input.skipLine.advance)
          else if isSpace value then
            if quoted then readValue rounds result quoted input.advance
            else (.ok result, input.advance)
          else
            readValue rounds (result ++ [value]) quoted input.advance

/-- The loop of `ParseDistributionInfoFile`. -/
def readFields (rounds : ℕ) (input : FileIterator) (result : Fields) :
    Result Fields × FileIterator :=
  match rounds with
  | 0 => (.ok result, input)
  | rounds + 1 =>
      if input.rest = [] then
        (.ok result, input)
      else
        match readKey input.rest.length [] false input with
        | (.error failure, afterKey) => (.error failure, afterKey)
        | (.ok key, afterKey) =>
            if key = [] then
              (.ok result, afterKey)
            else
              match readValue afterKey.rest.length [] false afterKey with
              | (.error failure, afterValue) => (.error failure, afterValue)
              | (.ok value, afterValue) => readFields rounds afterValue (result.insert key value)

/-- `ParseDistributionInfoFile` on a file that could be opened. -/
def readFile (text : ByteString) : Result Fields × FileIterator :=
  readFields text.length { rest := text } ∅

end Loops

/-- Where in a file a character stands. -/
inductive Position where
  | start
  | key
  | keyEnd
  | valueStart
  | value
  | quoted
  | comment
  | refused
  deriving DecidableEq

/-- The position behind a character. -/
def Position.next (position : Position) (byte : UInt8) : Position :=
  match position with
  | .start =>
      if byte = 61 then .refused else if byte = 35 then .comment
      else if isSpace byte then .start else .key
  | .key =>
      if byte = 61 then .valueStart else if byte = 35 then .refused
      else if isSpace byte then .keyEnd else .key
  | .keyEnd =>
      if byte = 61 then .valueStart else if byte = 35 then .refused
      else if isSpace byte then .keyEnd else .refused
  | .valueStart =>
      if byte = 34 then .quoted else if byte = 35 then .comment
      else if isSpace byte then .start else .value
  | .value =>
      if byte = 34 then .refused else if byte = 35 then .comment
      else if isSpace byte then .start else .value
  | .quoted => if byte = 34 then .start else .quoted
  | .comment => if byte = 10 then .start else .comment
  | .refused => .refused

def EndsInComment (position : Position) (text : ByteString) : Prop :=
  text.foldl Position.next position = .comment

instance (position : Position) (text : ByteString) : Decidable (EndsInComment position text) :=
  inferInstanceAs (Decidable (_ = _))

section Agreement

variable {rounds : ℕ} {result : ByteString} {input : FileIterator}

@[simp]
theorem advance_cons (byte : UInt8) (rest : ByteString) (overruns : ℕ) :
    FileIterator.advance ⟨byte :: rest, overruns⟩ = ⟨rest, overruns⟩ := rfl

@[simp]
theorem advance_nil (overruns : ℕ) : FileIterator.advance ⟨[], overruns⟩ = ⟨[], overruns + 1⟩ := rfl

theorem skipLine_advance (byte : UInt8) (rest : ByteString) (overruns : ℕ) :
    (FileIterator.skipLine ⟨byte :: rest, overruns⟩).advance.rest =
      (rest.dropWhile (· ≠ 10)).drop 1 := by
  unfold FileIterator.skipLine
  rw [advance_cons]
  cases stopped : rest.dropWhile (· ≠ 10) <;> rfl

theorem length_skipped (rest : ByteString) :
    ((rest.dropWhile (· ≠ 10)).drop 1).length ≤ rest.length :=
  ((List.drop_suffix 1 _).trans (List.dropWhile_suffix _)).length_le

/-- In a comment a key is looked for behind the end of the line. -/
theorem parseKey_comment (rest : ByteString) :
    parseKey [] false true rest = parseKey [] false false ((rest.dropWhile (· ≠ 10)).drop 1) := by
  induction rest with
  | nil => rfl
  | cons byte others ih =>
      rw [parseKey]
      by_cases newline : byte = 10
      · simp [newline]
      · simp [newline, ih]

theorem keyAtEnd_eq (result : ByteString) (hasSpaces : Bool) :
    (keyAtEnd result).map (·, []) = parseKey result hasSpaces false [] := by
  rw [keyAtEnd, parseKey]
  split
  next empty =>
    rw [empty]
    rfl
  · rfl

theorem valueAtEnd_eq (result : ByteString) (quoted : Bool) :
    (valueAtEnd result quoted).map (·, []) = parseValue result quoted [] := by
  rw [valueAtEnd, parseValue]
  split <;> rfl

theorem readKey_eq (enough : input.rest.length ≤ rounds) {hasSpaces : Bool}
    (spaced : hasSpaces = true → result ≠ []) :
    (readKey rounds result hasSpaces input).1.map
        (·, (readKey rounds result hasSpaces input).2.rest) =
      parseKey result hasSpaces false input.rest := by
  induction rounds generalizing result hasSpaces input with
  | zero =>
      have ended : input.rest = [] := List.eq_nil_of_length_eq_zero (Nat.le_zero.mp enough)
      rw [readKey, ended]
      exact keyAtEnd_eq result hasSpaces
  | succ rounds ih =>
      rcases input with ⟨rest, overruns⟩
      cases rest with
      | nil => exact keyAtEnd_eq result hasSpaces
      | cons value rest =>
          have fewer : rest.length ≤ rounds := Nat.le_of_succ_le_succ enough
          rw [readKey, parseKey]
          simp only [Bool.false_eq_true, if_false, advance_cons]
          split
          · split <;> rfl
          · split
            · split
              · rfl
              next empty =>
                have empty : result = [] := not_not.mp empty
                have unspaced : hasSpaces = false := by
                  cases hasSpaces with
                  | false => rfl
                  | true => exact absurd empty (spaced rfl)
                have skipped := skipLine_advance value rest overruns
                rw [empty, unspaced, parseKey_comment, ← skipped]
                refine ih ?_ (by simp)
                rw [skipped]
                exact (length_skipped rest).trans fewer
            · split
              · refine ih fewer ?_
                intro someSpaces
                rcases (Bool.or_eq_true _ _).mp someSpaces with earlier | now
                · exact spaced earlier
                · simpa using now
              · split
                · rfl
                next unspaced =>
                  exact ih fewer fun later => absurd later unspaced

theorem readValue_eq (enough : input.rest.length ≤ rounds) (result : ByteString) (quoted : Bool) :
    (readValue rounds result quoted input).1.map
        (·, (readValue rounds result quoted input).2.rest) =
      parseValue result quoted input.rest := by
  induction rounds generalizing result quoted input with
  | zero =>
      have ended : input.rest = [] := List.eq_nil_of_length_eq_zero (Nat.le_zero.mp enough)
      rw [readValue, ended]
      exact valueAtEnd_eq result quoted
  | succ rounds ih =>
      rcases input with ⟨rest, overruns⟩
      cases rest with
      | nil => exact valueAtEnd_eq result quoted
      | cons value rest =>
          have fewer : rest.length ≤ rounds := Nat.le_of_succ_le_succ enough
          rw [readValue, parseValue]
          simp only [advance_cons]
          split
          · split
            · rfl
            · split
              · rfl
              · exact ih fewer result true
          · split
            · simp [Except.map, skipLine_advance]
            · split
              · split
                · exact ih fewer result quoted
                · rfl
              · exact ih fewer _ quoted

theorem readFields_eq (rounds : ℕ) (input : FileIterator) (result : Fields) :
    (readFields rounds input result).1 = parseFields rounds input.rest result := by
  induction rounds generalizing input result with
  | zero => rfl
  | succ rounds ih =>
      rw [readFields, parseFields]
      split
      · rfl
      · have spaced : false = true → ([] : ByteString) ≠ [] := fun impossible =>
          absurd impossible Bool.false_ne_true
        have key_eq := readKey_eq (le_refl input.rest.length) spaced
        rw [← key_eq]
        rcases readKey input.rest.length [] false input with ⟨_ | key, afterKey⟩
        · rfl
        · simp only [Except.map]
          split
          · rfl
          · have value_eq := readValue_eq (le_refl afterKey.rest.length) [] false
            rw [← value_eq]
            rcases readValue afterKey.rest.length [] false afterKey with ⟨_ | value, afterValue⟩
            · rfl
            · exact ih afterValue _

end Agreement

section Overruns

variable {rounds : ℕ} {result : ByteString} {input : FileIterator}

/-- How often the iterator is moved at the end of a text that goes on from a position. -/
def pending (position : Position) (text : ByteString) : ℕ :=
  if EndsInComment position text then 1 else 0

theorem pending_cons (position : Position) (byte : UInt8) (rest : ByteString) :
    pending position (byte :: rest) = pending (position.next byte) rest := rfl

theorem pending_refused (text : ByteString) : pending .refused text = 0 := by
  induction text with
  | nil => rfl
  | cons byte rest ih => rwa [pending_cons]

/-- The position in a key of which `result` has been read. -/
def keyPosition (result : ByteString) (hasSpaces : Bool) : Position :=
  if result = [] then .start else if hasSpaces then .keyEnd else .key

/-- The position in a value of which `result` has been read. -/
def valuePosition (result : ByteString) (quoted : Bool) : Position :=
  if quoted then .quoted else if result = [] then .valueStart else .value

/-- What is still to come behind a key, behind a value and behind an error. -/
def pendingAfterKey (key : Result ByteString) (after : FileIterator) : ℕ :=
  match key with
  | .error _ => 0
  | .ok key => if key = [] then 0 else pending .valueStart after.rest

def pendingAfterValue (value : Result ByteString) (after : FileIterator) : ℕ :=
  match value with
  | .error _ => 0
  | .ok _ => pending .start after.rest

theorem skipComment_overruns (byte : UInt8) (rest : ByteString) (overruns : ℕ) :
    (FileIterator.skipLine ⟨byte :: rest, overruns⟩).advance.overruns +
        pending .start (FileIterator.skipLine ⟨byte :: rest, overruns⟩).advance.rest =
      overruns + pending .comment rest := by
  induction rest with
  | nil => rfl
  | cons next others ih =>
      by_cases newline : next = 10
      · rw [newline]
        rfl
      · have skipped : FileIterator.skipLine ⟨byte :: next :: others, overruns⟩ =
            FileIterator.skipLine ⟨byte :: others, overruns⟩ := by
          simp [FileIterator.skipLine, newline]
        have stays : Position.comment.next next = .comment := if_neg newline
        rw [skipped, pending_cons, stays]
        exact ih

theorem keyAtEnd_overruns (result : ByteString) (hasSpaces : Bool) (overruns : ℕ) :
    overruns + pendingAfterKey (keyAtEnd result) ⟨[], overruns⟩ =
      overruns + pending (keyPosition result hasSpaces) [] := by
  rw [keyAtEnd, keyPosition]
  split
  next empty =>
    rw [empty]
    rfl
  · cases hasSpaces <;> rfl

/-- Each move of the iterator over a character is a step of the position. -/
theorem readKey_overruns (enough : input.rest.length ≤ rounds) {hasSpaces : Bool}
    (spaced : hasSpaces = true → result ≠ []) :
    (readKey rounds result hasSpaces input).2.overruns +
        pendingAfterKey (readKey rounds result hasSpaces input).1
          (readKey rounds result hasSpaces input).2 =
      input.overruns + pending (keyPosition result hasSpaces) input.rest := by
  induction rounds generalizing result hasSpaces input with
  | zero =>
      rcases input with ⟨rest, overruns⟩
      cases List.eq_nil_of_length_eq_zero (Nat.le_zero.mp enough)
      exact keyAtEnd_overruns result hasSpaces overruns
  | succ rounds ih =>
      rcases input with ⟨rest, overruns⟩
      cases rest with
      | nil => exact keyAtEnd_overruns result hasSpaces overruns
      | cons value rest =>
          have fewer : rest.length ≤ rounds := Nat.le_of_succ_le_succ enough
          rw [readKey, pending_cons]
          simp only [advance_cons]
          by_cases assigns : value = 61
          · rw [if_pos assigns]
            by_cases empty : result = []
            · simp [empty, assigns, keyPosition, Position.next, pendingAfterKey, pending_refused]
            · cases hasSpaces <;>
                simp [empty, assigns, keyPosition, Position.next, pendingAfterKey]
          · rw [if_neg assigns]
            by_cases comments : value = 35
            · rw [if_pos comments]
              by_cases empty : result = []
              · have unspaced : hasSpaces = false := by
                  cases hasSpaces with
                  | false => rfl
                  | true => exact absurd empty (spaced rfl)
                have start : keyPosition result hasSpaces = .start := if_pos empty
                have comment : Position.start.next value = .comment := by
                  rw [comments]
                  rfl
                rw [if_neg (not_not.mpr empty), start, comment, ← skipComment_overruns value]
                have skipped := skipLine_advance value rest overruns
                rw [ih (by rw [skipped]; exact (length_skipped rest).trans fewer) spaced, start]
              · rw [if_pos empty]
                cases hasSpaces <;>
                  simp [empty, comments, keyPosition, Position.next, pendingAfterKey, pending_refused]
            · rw [if_neg comments]
              by_cases white : isSpace value = true
              · have stays : (keyPosition result hasSpaces).next value =
                    keyPosition result (hasSpaces || decide (result ≠ [])) := by
                  by_cases empty : result = []
                  · simp [empty, keyPosition, Position.next, assigns, comments, white]
                  · cases hasSpaces <;>
                      simp [empty, keyPosition, Position.next, assigns, comments, white]
                have spaced' : (hasSpaces || decide (result ≠ [])) = true → result ≠ [] := by
                  intro someSpaces
                  rcases (Bool.or_eq_true _ _).mp someSpaces with earlier | now
                  · exact spaced earlier
                  · simpa using now
                rw [if_pos white, stays]
                exact ih fewer spaced'
              · rw [if_neg white]
                cases hasSpaces with
                | true =>
                    have nonempty : result ≠ [] := spaced rfl
                    simp [nonempty, keyPosition, Position.next, assigns, comments, white,
                      pendingAfterKey, pending_refused]
                | false =>
                    have goes : (keyPosition result false).next value =
                        keyPosition (result ++ [value]) false := by
                      by_cases empty : result = []
                      · simp [empty, keyPosition, Position.next, assigns, comments, white]
                      · simp [empty, keyPosition, Position.next, assigns, comments, white]
                    rw [if_neg Bool.false_ne_true, goes]
                    exact ih fewer (by simp)

theorem valueAtEnd_overruns (result : ByteString) (quoted : Bool) (overruns : ℕ) :
    overruns + pendingAfterValue (valueAtEnd result quoted) ⟨[], overruns⟩ =
      overruns + pending (valuePosition result quoted) [] := by
  rw [valueAtEnd, valuePosition]
  cases quoted with
  | true => rfl
  | false =>
      rw [if_neg Bool.false_ne_true, if_neg Bool.false_ne_true]
      split <;> rfl

theorem readValue_overruns (enough : input.rest.length ≤ rounds) (result : ByteString)
    (quoted : Bool) :
    (readValue rounds result quoted input).2.overruns +
        pendingAfterValue (readValue rounds result quoted input).1
          (readValue rounds result quoted input).2 =
      input.overruns + pending (valuePosition result quoted) input.rest := by
  induction rounds generalizing result quoted input with
  | zero =>
      rcases input with ⟨rest, overruns⟩
      cases List.eq_nil_of_length_eq_zero (Nat.le_zero.mp enough)
      exact valueAtEnd_overruns result quoted overruns
  | succ rounds ih =>
      rcases input with ⟨rest, overruns⟩
      cases rest with
      | nil => exact valueAtEnd_overruns result quoted overruns
      | cons value rest =>
          have fewer : rest.length ≤ rounds := Nat.le_of_succ_le_succ enough
          rw [readValue, pending_cons]
          simp only [advance_cons]
          cases quoted with
          | true =>
              by_cases closes : value = 34
              · simp [closes, valuePosition, Position.next, pendingAfterValue]
              · have stays : (valuePosition result true).next value = .quoted := if_neg closes
                rw [if_neg closes, if_neg (by simp), stays]
                split
                · exact ih fewer result true
                · exact ih fewer _ true
          | false =>
              by_cases opens : value = 34
              · by_cases empty : result = []
                · have inside : (valuePosition result false).next value =
                      valuePosition result true := by
                    simp [empty, opens, valuePosition, Position.next]
                  rw [if_pos opens, if_neg Bool.false_ne_true, if_neg (not_not.mpr empty), inside]
                  exact ih fewer result true
                · simp [opens, empty, valuePosition, Position.next, pendingAfterValue,
                    pending_refused]
              · rw [if_neg opens]
                by_cases comments : value = 35
                · have comment : (valuePosition result false).next value = .comment := by
                    by_cases empty : result = []
                    · simp [empty, comments, valuePosition, Position.next]
                    · simp [empty, comments, valuePosition, Position.next]
                  rw [if_pos ⟨comments, rfl⟩, comment]
                  exact skipComment_overruns value rest overruns
                · rw [if_neg (fun both => comments both.1)]
                  by_cases white : isSpace value = true
                  · have ends : (valuePosition result false).next value = .start := by
                      by_cases empty : result = []
                      · simp [empty, opens, comments, white, valuePosition, Position.next]
                      · simp [empty, opens, comments, white, valuePosition, Position.next]
                    rw [if_pos white, if_neg Bool.false_ne_true, ends]
                    rfl
                  · have goes : (valuePosition result false).next value =
                        valuePosition (result ++ [value]) false := by
                      by_cases empty : result = []
                      · simp [empty, opens, comments, white, valuePosition, Position.next]
                      · simp [empty, opens, comments, white, valuePosition, Position.next]
                    rw [if_neg white, goes]
                    exact ih fewer _ false

/-- A key that is returned takes at least its `=`. -/
theorem length_of_parseKey {hasSpaces comment : Bool} {text key rest : ByteString}
    (parsed : parseKey result hasSpaces comment text = .ok (key, rest)) (nonempty : key ≠ []) :
    rest.length < text.length := by
  induction text generalizing result hasSpaces comment with
  | nil =>
      rw [parseKey] at parsed
      split at parsed
      · cases parsed
        exact absurd rfl nonempty
      · cases parsed
  | cons byte others ih =>
      have later : ∀ {result : ByteString} {hasSpaces comment : Bool},
          parseKey result hasSpaces comment others = .ok (key, rest) →
            rest.length < (byte :: others).length :=
        fun parsed => Nat.lt_succ_of_lt (ih parsed)
      rw [parseKey] at parsed
      split at parsed
      · exact later parsed
      · split at parsed
        · split at parsed
          · cases parsed
          · cases parsed
            exact Nat.lt_succ_self _
        · split at parsed
          · split at parsed
            · cases parsed
            · exact later parsed
          · split at parsed
            · exact later parsed
            · split at parsed
              · cases parsed
              · exact later parsed

theorem length_of_parseValue {quoted : Bool} {text value rest : ByteString}
    (parsed : parseValue result quoted text = .ok (value, rest)) : rest.length ≤ text.length := by
  induction text generalizing result quoted with
  | nil =>
      rw [parseValue] at parsed
      split at parsed
      · cases parsed
      · cases parsed
        exact le_rfl
  | cons byte others ih =>
      have later : ∀ {result : ByteString} {quoted : Bool},
          parseValue result quoted others = .ok (value, rest) →
            rest.length ≤ (byte :: others).length :=
        fun parsed => Nat.le_succ_of_le (ih parsed)
      rw [parseValue] at parsed
      split at parsed
      · split at parsed
        · cases parsed
          exact Nat.le_succ _
        · split at parsed
          · cases parsed
          · exact later parsed
      · split at parsed
        · cases parsed
          exact Nat.le_succ_of_le (length_skipped others)
        · split at parsed
          · split at parsed
            · exact later parsed
            · cases parsed
              exact Nat.le_succ _
          · exact later parsed

theorem readFields_overruns (enough : input.rest.length ≤ rounds) (result : Fields) :
    (readFields rounds input result).2.overruns = input.overruns + pending .start input.rest := by
  induction rounds generalizing input result with
  | zero =>
      rcases input with ⟨rest, overruns⟩
      cases List.eq_nil_of_length_eq_zero (Nat.le_zero.mp enough)
      rfl
  | succ rounds ih =>
      rw [readFields]
      split
      next ended =>
        rw [ended]
        rfl
      · have spaced : false = true → ([] : ByteString) ≠ [] := fun impossible =>
          absurd impossible Bool.false_ne_true
        have key_eq := readKey_eq (le_refl input.rest.length) spaced
        have key_overruns := readKey_overruns (le_refl input.rest.length) spaced
        rw [show keyPosition [] false = .start from rfl] at key_overruns
        rw [← key_overruns]
        generalize readKey input.rest.length [] false input = keyRead at key_eq ⊢
        rcases keyRead with ⟨_ | key, afterKey⟩
        · rfl
        · simp only [pendingAfterKey]
          split
          · rfl
          next nonempty =>
            have shorter := length_of_parseKey key_eq.symm nonempty
            have value_eq := readValue_eq (le_refl afterKey.rest.length) [] false
            have value_overruns := readValue_overruns (le_refl afterKey.rest.length) [] false
            rw [show valuePosition [] false = .valueStart from rfl] at value_overruns
            rw [← value_overruns]
            generalize readValue afterKey.rest.length [] false afterKey = valueRead at value_eq ⊢
            rcases valueRead with ⟨_ | value, afterValue⟩
            · rfl
            · have notLonger := length_of_parseValue value_eq.symm
              exact ih (by dsimp only at shorter notLonger ⊢; omega) _

/-- The iterator is moved at the end of the file exactly once if the file ends in a comment, and
never otherwise. -/
theorem readFile_overruns (text : ByteString) :
    (readFile text).2.overruns = if EndsInComment .start text then 1 else 0 := by
  have moved := @readFields_overruns text.length { rest := text } le_rfl ∅
  rw [readFile, moved]
  exact Nat.zero_add _

end Overruns

section Quoted

variable {entries : List (ByteString × ByteString)}

/-- A line of the kind `KEY="value"`. -/
def quotedLine (entry : ByteString × ByteString) : ByteString :=
  entry.1 ++ 61 :: 34 :: (entry.2 ++ [34])

/-- A key of the bytes that keys are made of, and a value that can stand between quotes. -/
structure IsQuotable (entry : ByteString × ByteString) : Prop where
  key : entry.1 ≠ []
  keyBytes : ∀ byte ∈ entry.1, IsKeyByte byte
  noQuote : 34 ∉ entry.2

instance (entry : ByteString × ByteString) : Decidable (IsQuotable entry) :=
  decidable_of_iff (entry.1 ≠ [] ∧ (∀ byte ∈ entry.1, IsKeyByte byte) ∧ 34 ∉ entry.2)
    ⟨fun ⟨key, keyBytes, noQuote⟩ => ⟨key, keyBytes, noQuote⟩,
      fun quotable => ⟨quotable.key, quotable.keyBytes, quotable.noQuote⟩⟩

/-- The file is read, and each key has exactly the value that is given for it. -/
def ReadsVerbatim (text : ByteString) (entries : List (ByteString × ByteString)) : Prop :=
  ∃ fields, (readFile text).1 = .ok fields ∧ ∀ key, fields[key]? = lastValue key entries

/-- An entry as it is read. -/
def squeezed (entry : ByteString × ByteString) : ByteString × ByteString :=
  (entry.1, entry.2.filter fun byte => !isSpace byte)

theorem parseFields_lines (quotable : ∀ entry ∈ entries, IsQuotable entry) {spaces text : ByteString}
    (areSpaces : ∀ byte ∈ spaces, isSpace byte) (listed : getLines text = entries.map quotedLine)
    {rounds : ℕ} (enough : entries.length ≤ rounds) (result : Fields) :
    parseFields rounds (spaces ++ text) result =
      .ok (insertAll result (entries.map squeezed)) := by
  induction entries generalizing spaces text rounds result with
  | nil =>
      rw [eq_nil_of_getLines listed, List.append_nil]
      exact parseFields_spaces areSpaces rounds result
  | cons entry others ih =>
      have now := quotable entry (by simp)
      have later : ∀ other ∈ others, IsQuotable other :=
        fun other mem => quotable other (List.mem_cons_of_mem _ mem)
      rcases rounds with _ | rounds
      · cases enough
      · have fewer : others.length ≤ rounds := Nat.le_of_succ_le_succ enough
        have field := parseFields_quoted areSpaces now.keyBytes now.key now.noQuote rounds
        rcases eq_of_getLines_cons listed with ⟨rfl, none⟩ | ⟨rest, rfl, rest_eq⟩
        · have nothing := field [] result
          rw [List.map_eq_nil_iff] at none
          rw [quotedLine, nothing, parseFields_spaces (by simp), none]
          rfl
        · have next := field (10 :: rest) result
          have newline : ∀ byte ∈ ([10] : ByteString), isSpace byte := by simp [isSpace]
          have line_eq : spaces ++ (quotedLine entry ++ 10 :: rest) =
              spaces ++ (entry.1 ++ 61 :: 34 :: (entry.2 ++ 34 :: 10 :: rest)) := by
            simp [quotedLine]
          rw [line_eq, next]
          exact ih later newline rest_eq fewer _

/-- The values are read verbatim exactly if none that counts has white space, and the iterator
never passes the end exactly if the file does not end in a comment. -/
theorem readFile_quoted (text : ByteString) :
    (∀ entries : List (ByteString × ByteString),
      (∀ entry ∈ entries, IsQuotable entry) → getLines text = entries.map quotedLine →
      (ReadsVerbatim text entries ↔
        ∀ key value, lastValue key entries = some value → ∀ byte ∈ value, isSpace byte = false)) ∧
    ((readFile text).2.overruns = 0 ↔ ¬ EndsInComment .start text) := by
  constructor
  · intro entries quotable listed
    have enough : entries.length ≤ text.length := by
      have lines := length_le_of_getLines listed
      rwa [List.length_map] at lines
    have fields_eq : (readFile text).1 = .ok (insertAll ∅ (entries.map squeezed)) := by
      have noSpaces : ∀ byte ∈ ([] : ByteString), isSpace byte := by simp
      have parsed := parseFields_lines quotable noSpaces listed enough ∅
      exact (readFields_eq text.length { rest := text } ∅).trans parsed
    have verbatim : ReadsVerbatim text entries ↔
        ∀ key, lastValue key (entries.map squeezed) = lastValue key entries := by
      constructor
      · rintro ⟨fields, fields_eq', same⟩ key
        rw [fields_eq, Except.ok.injEq] at fields_eq'
        rw [← Assignments.getElem?_insertAll, fields_eq', same]
      · intro same
        exact ⟨_, fields_eq, fun key => (Assignments.getElem?_insertAll key _).trans (same key)⟩
    rw [verbatim]
    refine forall_congr' fun key => ?_
    rw [show entries.map squeezed = entries.map fun entry => (entry.1, entry.2.filter fun byte =>
      !isSpace byte) from rfl, Assignments.lastValue_map]
    cases lastValue key entries with
    | none => simp
    | some value => simp [List.filter_eq_self]
  · rw [readFile_overruns]
    split
    next ends => simp [ends]
    next ends => simp [ends]

theorem readFile_quoted_ubuntu :
    ReadsVerbatim (bytes "ID=\"ubuntu\"\nVERSION_ID=\"20.04#\"\n")
      [(bytes "ID", bytes "ubuntu"), (bytes "VERSION_ID", bytes "20.04#")] := by
  refine ((readFile_quoted _).1 _ (by decide +kernel) (by decide +kernel)).mpr ?_
  intro key value last byte mem
  have black : ∀ entry ∈ [(bytes "ID", bytes "ubuntu"), (bytes "VERSION_ID", bytes "20.04#")],
      ∀ byte ∈ entry.2, isSpace byte = false := by
    decide +kernel
  exact black _ (Assignments.mem_of_lastValue last) byte mem

/-- A name loses its space, and the iterator passes the end of a file that is a comment. -/
theorem readFile_quoted_spaced :
    (∀ entry ∈ [(bytes "NAME", bytes "Ubuntu Linux")], IsQuotable entry) ∧
      getLines (bytes "NAME=\"Ubuntu Linux\"\n") =
        [(bytes "NAME", bytes "Ubuntu Linux")].map quotedLine ∧
      ¬ ReadsVerbatim (bytes "NAME=\"Ubuntu Linux\"\n") [(bytes "NAME", bytes "Ubuntu Linux")] ∧
      (readFile (bytes "# Ubuntu")).2.overruns = 1 := by
  refine ⟨by decide +kernel, by decide +kernel, ?_, by decide +kernel⟩
  rintro ⟨fields, fields_eq, same⟩
  have squeezed_eq : (readFile (bytes "NAME=\"Ubuntu Linux\"\n")).1 =
      .ok ((∅ : Fields).insert (bytes "NAME") (bytes "UbuntuLinux")) := by
    rfl
  have name := same (bytes "NAME")
  rw [squeezed_eq, Except.ok.injEq] at fields_eq
  rw [← fields_eq, Std.ExtTreeMap.getElem?_insert_self] at name
  revert name
  decide +kernel

end Quoted

end OsConfig.ComplianceEngine.DistributionInfo
