import OsConfig.Common.Bytes

/-!
# Commands

A command has an identifier, the text it runs, its status and the name of its
flag file. A command is cancelled by creating the file, and looks for it before
it runs and while it runs. Requests and persisted statuses are read from JSON
documents.

The name of the flag file is drawn by the constructor. The generator is seeded
with the time in seconds and the process id each time, so all commands that are
constructed in one second get the same name.
-/

namespace OsConfig.CommandRunner

/-- The values of `nlohmann::json`. Numbers without a sign are parsed as `unsigned`. -/
inductive Json where
  | null
  | boolean (value : Bool)
  | integer (value : BitVec 64)
  | unsigned (value : BitVec 64)
  | float
  | string (value : ByteString)
  | array (values : List Json)
  | object (members : List (ByteString × Json))

namespace Json

def isObject : Json → Bool
  | .object _ => true
  | _ => false

/-- The member of an object, if it has one of that name. -/
def find (name : ByteString) : Json → Option Json
  | .object members => members.lookup name
  | _ => none

def getString : Json → Option ByteString
  | .string value => some value
  | _ => none

/-- `get<int>()`, which keeps the low half, after `is_number_integer()`. -/
def getInt : Json → Option ℤ
  | .integer value => some (value.setWidth 32).toInt
  | .unsigned value => some (value.setWidth 32).toInt
  | _ => none

/-- `get<unsigned int>()` after `is_number_unsigned()`. -/
def getUnsigned : Json → Option (BitVec 32)
  | .unsigned value => some (value.setWidth 32)
  | _ => none

def getBoolean : Json → Option Bool
  | .boolean value => some value
  | _ => none

end Json

/-- `Command::Action`, to which any integer is cast. -/
inductive Action where
  | none
  | reboot
  | shutdown
  | runCommand
  | refreshCommandStatus
  | cancelCommand
  | other (value : ℤ)
  deriving DecidableEq

def Action.ofInt (value : ℤ) : Action :=
  if value = 0 then .none
  else if value = 1 then .reboot
  else if value = 2 then .shutdown
  else if value = 3 then .runCommand
  else if value = 4 then .refreshCommandStatus
  else if value = 5 then .cancelCommand
  else .other value

/-- `Command::State`, to which any integer is cast. -/
inductive State where
  | unknown
  | running
  | succeeded
  | failed
  | timedOut
  | canceled
  | other (value : ℤ)
  deriving DecidableEq

def State.ofInt (value : ℤ) : State :=
  if value = 0 then .unknown
  else if value = 1 then .running
  else if value = 2 then .succeeded
  else if value = 3 then .failed
  else if value = 4 then .timedOut
  else if value = 5 then .canceled
  else .other value

/-- The test of `IsComplete`. -/
def State.isComplete (state : State) : Bool :=
  state ≠ .unknown && state ≠ .running

def etime : ℤ := 62

def ecanceled : ℤ := 125

/-- The state `SetStatus` gives to an exit code. -/
def State.ofExitCode (exitCode : ℤ) : State :=
  if exitCode = 0 then .succeeded
  else if exitCode = etime then .timedOut
  else if exitCode = ecanceled then .canceled
  else .failed

@[simp]
theorem State.isComplete_ofExitCode (exitCode : ℤ) : (ofExitCode exitCode).isComplete := by
  rw [ofExitCode]
  split_ifs <;> rfl

theorem State.ofExitCode_eq_canceled {exitCode : ℤ} (canceled : ofExitCode exitCode = .canceled) :
    exitCode = ecanceled := by
  rw [ofExitCode] at canceled
  split_ifs at canceled with _ _ equal
  exact equal

/-- `Command::Status`. -/
structure Status where
  id : ByteString
  exitCode : ℤ
  textResult : ByteString
  state : State
  deriving DecidableEq

def Status.deserialize (value : Json) : Status :=
  match value.find (bytes "commandId") >>= Json.getString with
  | none => ⟨[], 0, [], .unknown⟩
  | some id =>
      { id
        exitCode := ((value.find (bytes "resultCode") >>= Json.getInt).getD 0)
        textResult := ((value.find (bytes "textResult") >>= Json.getString).getD [])
        state := State.ofInt ((value.find (bytes "currentState") >>= Json.getInt).getD 0) }

/-- `Command::Arguments`. -/
structure Arguments where
  id : ByteString
  arguments : ByteString
  action : Action
  timeout : BitVec 32
  singleLineTextResult : Bool
  deriving DecidableEq

/-- `Command::Arguments::Deserialize`. Only a `RunCommand` with an identifier has further
fields, the last two of which have defaults. -/
def Arguments.deserialize (value : Json) : Arguments :=
  match value.find (bytes "action") >>= Json.getInt with
  | none => ⟨[], [], .none, 0, false⟩
  | some actionValue =>
      let action := Action.ofInt actionValue
      match value.find (bytes "commandId") >>= Json.getString with
      | none => ⟨[], [], action, 0, false⟩
      | some id =>
          match value.find (bytes "arguments") >>= Json.getString with
          | none => ⟨id, [], action, 0, false⟩
          | some arguments =>
              if action = .runCommand ∧ id ≠ [] ∧ arguments ≠ [] then
                { id
                  arguments
                  action
                  timeout := (value.find (bytes "timeout") >>= Json.getUnsigned).getD 0
                  singleLineTextResult :=
                    (value.find (bytes "singleLineTextResult") >>= Json.getBoolean).getD true }
              else ⟨id, [], action, 0, false⟩

/-- `Command` and the class derived from it. -/
inductive Kind where
  | command
  | shutdownCommand
  deriving DecidableEq

structure Command where
  kind : Kind
  arguments : ByteString
  timeout : BitVec 32
  replaceEol : Bool
  status : Status
  tmpFile : ByteString
  deriving DecidableEq

namespace Command

def id (command : Command) : ByteString :=
  command.status.id

def isComplete (command : Command) : Bool :=
  command.status.state.isComplete

/-- `SetStatus` with a state. -/
def setStatus (command : Command) (exitCode : ℤ) (textResult : ByteString) (state : State) :
    Command :=
  { command with status := { command.status with exitCode, textResult, state } }

/-- The comparison `operator ==`. -/
def same (command other : Command) : Bool :=
  command.id = other.id && command.arguments = other.arguments &&
    command.timeout = other.timeout && command.replaceEol = other.replaceEol

end Command

section FlagFile

/-- The table `alphanum`. -/
def alphanum : ByteString :=
  bytes "0123456789ABCDEFGHIJKLMNOPQRSTUVWXYZabcdefghijklmnopqrstuvwxyz"

/-- The name of the flag file, from the numbers that `rand` returns after `srand`. -/
def flagName (tmpDir : ByteString) (rand : ℕ → ℕ) : ByteString :=
  tmpDir ++ bytes "/~osconfig-" ++
    (List.range 10).map fun i => alphanum.getD (rand i % alphanum.length) 0

/-- The seed `(unsigned)time(NULL) * getpid()`. -/
def seed (time pid : ℕ) : BitVec 32 :=
  BitVec.ofNat 32 time * BitVec.ofNat 32 pid

end FlagFile

/-- `HashString`, on a machine whose `char` is signed. -/
def hashString (source : ByteString) : BitVec 64 :=
  source.cString.foldl (fun hash byte => (hash <<< 5) + hash + byte.toBitVec.signExtend 64) 5381

end OsConfig.CommandRunner
