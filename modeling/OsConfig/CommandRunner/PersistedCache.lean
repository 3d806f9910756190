import OsConfig.CommandRunner.Cache

/-!
# The persisted cache

`PersistCommandStatus` reads the cache file, puts a status into the array of the
client and writes the file again. The client calls it for a new command before
`CacheCommand`, and the worker for a command that has been executed. The text
that is written is any text from which the parser reads the document back.

Both caches hold ten commands. The array on the disk loses its oldest entry
before a new command is accepted, and the cache in memory afterwards and only
when the command is complete. In between the worker may put the entry back.
-/

namespace OsConfig.CommandRunner

open Transitions

section Documents

namespace Json

mutual

def equals : Json → Json → Bool
  | .null, .null => true
  | .boolean left, .boolean right => left = right
  | .integer left, .integer right => left = right
  | .unsigned left, .unsigned right => left = right
  | .float, .float => true
  | .string left, .string right => left = right
  | .array left, .array right => equalValues left right
  | .object left, .object right => equalMembers left right
  | _, _ => false

def equalValues : List Json → List Json → Bool
  | [], [] => true
  | left :: lefts, right :: rights => equals left right && equalValues lefts rights
  | _, _ => false

def equalMembers : List (ByteString × Json) → List (ByteString × Json) → Bool
  | [], [] => true
  | (name, left) :: lefts, (name', right) :: rights =>
      name = name' && equals left right && equalMembers lefts rights
  | _, _ => false

end

mutual

theorem equals_iff (left right : Json) : left.equals right ↔ left = right := by
  cases left with
  | array lefts =>
      cases right with
      | array rights => simpa [equals] using equalValues_iff lefts rights
      | _ => simp [equals]
  | object lefts =>
      cases right with
      | object rights => simpa [equals] using equalMembers_iff lefts rights
      | _ => simp [equals]
  | _ => cases right <;> simp [equals]

theorem equalValues_iff (lefts rights : List Json) :
    equalValues lefts rights ↔ lefts = rights := by
  match lefts, rights with
  | [], [] => simp [equalValues]
  | [], _ :: _ => simp [equalValues]
  | _ :: _, [] => simp [equalValues]
  | left :: lefts, right :: rights =>
      simp [equalValues, equals_iff left right, equalValues_iff lefts rights]

theorem equalMembers_iff (lefts rights : List (ByteString × Json)) :
    equalMembers lefts rights ↔ lefts = rights := by
  match lefts, rights with
  | [], [] => simp [equalMembers]
  | [], _ :: _ => simp [equalMembers]
  | _ :: _, [] => simp [equalMembers]
  | (name, left) :: lefts, (name', right) :: rights =>
      simp [equalMembers, equals_iff left right, equalMembers_iff lefts rights, and_assoc]

end

instance : DecidableEq Json := fun left right => decidable_of_iff _ (equals_iff left right)

/-- An `int` as the parser reads it back, with no sign if it is not negative. -/
def ofInt (value : ℤ) : Json :=
  if value < 0 then .integer (BitVec.ofInt 64 value) else .unsigned (BitVec.ofInt 64 value)

/-- The assignment `document[name] = value`. The members are in the order of their names. -/
def assign (name : ByteString) (value : Json) :
    List (ByteString × Json) → List (ByteString × Json)
  | [] => [(name, value)]
  | member :: rest =>
      if member.1 < name then member :: assign name value rest
      else if member.1 = name then (name, value) :: rest
      else (name, value) :: member :: rest

theorem lookup_member (name : ByteString) (value : Json) (members : List (ByteString × Json))
    (other : ByteString) :
    List.lookup other ((name, value) :: members) =
      if other = name then some value else members.lookup other := by
  rw [List.lookup_cons]
  split
  · rename_i equal
    rw [if_pos (by simpa using equal)]
  · rename_i different
    rw [if_neg (by simpa using different)]

theorem lookup_assign (name : ByteString) (value : Json) (members : List (ByteString × Json))
    (other : ByteString) :
    (assign name value members).lookup other =
      if other = name then some value else members.lookup other := by
  induction members with
  | nil => exact lookup_member name value [] other
  | cons member rest ih =>
      rcases member with ⟨first, held⟩
      rw [assign, lookup_member first held]
      split
      · rename_i before
        rw [lookup_member, ih]
        by_cases equal : other = first
        · have different : other ≠ name := by
            rintro rfl
            rw [equal] at before
            exact absurd before (List.lt_irrefl _)
          rw [if_pos equal, if_neg different, if_pos equal]
        · rw [if_neg equal, if_neg equal]
      · split
        · rename_i equal
          rw [lookup_member, ← show first = name from equal]
          by_cases same : other = first
          · rw [if_pos same, if_pos same]
          · rw [if_neg same, if_neg same, if_neg same]
        · rw [lookup_member, lookup_member]

end Json

def State.toInt : State → ℤ
  | .unknown => 0
  | .running => 1
  | .succeeded => 2
  | .failed => 3
  | .timedOut => 4
  | .canceled => 5
  | .other value => value

def Status.toJson (status : Status) (serializeTextResult : Bool) : Json :=
  .object ([(bytes "commandId", .string status.id),
    (bytes "currentState", .ofInt status.state.toInt),
    (bytes "resultCode", .ofInt status.exitCode)] ++
    if serializeTextResult then [(bytes "textResult", .string status.textResult)] else [])

end Documents

section Entries

def clientEntries (clientName : ByteString) (document : Json) : List Json :=
  match document.find clientName with
  | some (.array values) => values
  | _ => []

/-- The identifier of an entry, if it has one. -/
def entryId (entry : Json) : Option ByteString :=
  entry.find (bytes "commandId") >>= Json.getString

/-- The loop that looks for the entry of a command. -/
def updateEntry (status : Status) : List Json → Option (List Json)
  | [] => none
  | entry :: rest =>
      if entryId entry = some status.id then some (status.toJson false :: rest)
      else (updateEntry status rest).map (entry :: ·)

/-- What the loop is followed by where it finds nothing. -/
def putEntry (status : Status) (entries : List Json) : List Json :=
  match updateEntry status entries with
  | some updated => updated
  | none =>
      (if maxCacheSize ≤ entries.length then entries.tail else entries) ++ [status.toJson false]

/-- The document that `PersistCommandStatus` writes. -/
def persistCommandStatus (clientName : ByteString) (status : Status) (document : Json) : Json :=
  match document with
  | .object members =>
      match members.lookup clientName with
      | some (.array values) => .object (Json.assign clientName (.array (putEntry status values)) members)
      | some _ => .object (Json.assign clientName (.array (putEntry status [])) members)
      | none => .object (Json.assign clientName (.array [status.toJson false]) members)
  | other => other

/-- The document that `PersistCommandStatus` starts from, the default one if there is no other. -/
def readCache (env : Environment) (file : Option ByteString) : Json :=
  match file >>= env.parseStream with
  | some document => if document.isObject then document else .object []
  | none => .object []

theorem isObject_readCache (env : Environment) (file : Option ByteString) :
    (readCache env file).isObject := by
  rw [readCache]
  split
  · split
    · assumption
    · rfl
  · rfl

theorem persistedStatuses_eq {env : Environment} (persists : env.usePersistedCache)
    (file : Option ByteString) :
    (persistedStatuses env file).1 =
      (clientEntries env.clientName (readCache env file)).map Status.deserialize := by
  have none_eq : clientEntries env.clientName (.object []) = [] := rfl
  cases file with
  | none =>
      simp only [persistedStatuses, if_pos persists, readCache, Option.bind_eq_bind,
        Option.bind_none, none_eq, List.map_nil]
  | some text =>
      simp only [persistedStatuses, if_pos persists, readCache, Option.bind_eq_bind,
        Option.bind_some]
      cases parsed : env.parseStream text with
      | none => simp only [none_eq, List.map_nil]
      | some document =>
          simp only
          split
          · rw [clientEntries]
            generalize Json.find env.clientName document = found
            cases found with
            | none => rfl
            | some client => cases client <;> rfl
          · rw [none_eq, List.map_nil]

@[simp]
theorem entryId_toJson (status : Status) : entryId (status.toJson false) = some status.id := rfl

theorem updateEntry_isSome (status : Status) (entries : List Json) :
    (updateEntry status entries).isSome ↔ some status.id ∈ entries.map entryId := by
  induction entries with
  | nil => simp [updateEntry]
  | cons entry rest ih =>
      rw [updateEntry]
      split
      · rename_i equal
        simp [equal]
      · rename_i different
        rw [Option.isSome_map, ih, List.map_cons, List.mem_cons]
        constructor
        · exact .inr
        · rintro (equal | later)
          · exact absurd equal.symm different
          · exact later

theorem map_updateEntry {status : Status} {entries updated : List Json}
    (found : updateEntry status entries = some updated) :
    updated.map entryId = entries.map entryId := by
  induction entries generalizing updated with
  | nil => cases found
  | cons entry rest ih =>
      rw [updateEntry] at found
      split at found
      · rename_i equal
        cases found
        rw [List.map_cons, List.map_cons, entryId_toJson, equal]
      · rcases Option.map_eq_some_iff.mp found with ⟨later, later_eq, rfl⟩
        rw [List.map_cons, List.map_cons, ih later_eq]

theorem map_putEntry_of_mem {status : Status} {entries : List Json}
    (present : some status.id ∈ entries.map entryId) :
    (putEntry status entries).map entryId = entries.map entryId := by
  rcases Option.isSome_iff_exists.mp ((updateEntry_isSome status entries).mpr present) with
    ⟨updated, found⟩
  simp only [putEntry, found]
  exact map_updateEntry found

theorem map_putEntry_of_not_mem {status : Status} {entries : List Json}
    (absent : some status.id ∉ entries.map entryId) :
    (putEntry status entries).map entryId =
      (if maxCacheSize ≤ entries.length then (entries.map entryId).tail else entries.map entryId) ++
        [some status.id] := by
  have none_eq : updateEntry status entries = none := by
    rw [← Option.not_isSome_iff_eq_none, updateEntry_isSome]
    exact absent
  simp only [putEntry, none_eq, List.map_append, List.map_singleton, entryId_toJson]
  split
  · rw [List.map_tail]
  · rfl

variable {clientName : ByteString} {document : Json}

theorem persistCommandStatus_eq (status : Status) (object : document.isObject) :
    clientEntries clientName (persistCommandStatus clientName status document) =
        putEntry status (clientEntries clientName document) ∧
      ∀ name, name ≠ clientName →
        (persistCommandStatus clientName status document).find name = document.find name := by
  cases document with
  | object members =>
      have assigned : ∀ values : List Json,
          clientEntries clientName (.object (Json.assign clientName (.array values) members)) =
              values ∧
            ∀ name, name ≠ clientName →
              (Json.object (Json.assign clientName (.array values) members)).find name =
                (Json.object members).find name := by
        intro values
        constructor
        · simp only [clientEntries, Json.find, Json.lookup_assign, if_true]
        · intro name other
          simp only [Json.find, Json.lookup_assign, if_neg other]
      cases found : members.lookup clientName with
      | none =>
          simp only [persistCommandStatus, found, clientEntries.eq_def _ (.object members), Json.find]
          exact assigned _
      | some client =>
          cases client with
          | array values =>
              simp only [persistCommandStatus, found, clientEntries.eq_def _ (.object members),
                Json.find]
              exact assigned _
          | _ =>
              simp only [persistCommandStatus, found, clientEntries.eq_def _ (.object members),
                Json.find]
              exact assigned _
  | _ => cases object

end Entries

section Storing

variable {env : Environment}

def Runner.persisted (env : Environment) (state : Runner) (move : Move) : Option Status :=
  if env.usePersistedCache then
    match move, state.client, state.worker with
    | .client _, .persisting ref, _ => some (state.object ref).status
    | .worker _, _, .executed ref => some (state.object ref).status
    | _, _, _ => none
  else none

/-- A step with the text that is written in it, if anything is. -/
def storingStep (env : Environment) (state : Runner × Option ByteString)
    (move : Move × ByteString) : Option (Runner × Option ByteString) :=
  (step env state.1 move.1).map fun state' =>
    (state', if (state.1.persisted env move.1).isSome then some move.2 else state.2)

/-- Nothing fails when the file is written: `PersistCommandStatus` returns zero, and what is read
from the file afterwards is the document. -/
def stores (env : Environment) (state : Runner × Option ByteString) (move : Move × ByteString) :
    Bool :=
  match state.1.persisted env move.1 with
  | none => true
  | some status =>
      env.parseStream move.2 =
          some (persistCommandStatus env.clientName status (readCache env state.2)) &&
        match move.1 with
        | .client input => input.persisted = 0
        | _ => true

/-- The entries that the file has for the client of the runner. -/
def storedEntries (env : Environment) (file : Option ByteString) : List Json :=
  clientEntries env.clientName (readCache env file)

theorem storedEntries_of_step {state final : Runner × Option ByteString}
    {move : Move × ByteString} (met : stores env state move)
    (taken : storingStep env state move = some final) :
    step env state.1 move.1 = some final.1 ∧
    storedEntries env final.2 =
        (state.1.persisted env move.1).elim (storedEntries env state.2)
          (putEntry · (storedEntries env state.2)) ∧
      ∀ name, name ≠ env.clientName →
        (readCache env final.2).find name = (readCache env state.2).find name := by
  rcases Option.map_eq_some_iff.mp taken with ⟨state', step_eq, rfl⟩
  refine ⟨step_eq, ?_⟩
  simp only [stores] at met
  cases status_eq : state.1.persisted env move.1 with
  | none => exact ⟨rfl, fun _ _ => rfl⟩
  | some status =>
      rw [status_eq] at met
      simp only [Bool.and_eq_true, decide_eq_true_eq] at met
      have object := isObject_readCache env state.2
      have written : readCache env (some move.2) =
          persistCommandStatus env.clientName status (readCache env state.2) := by
        have object' : (persistCommandStatus env.clientName status
            (readCache env state.2)).isObject := by
          generalize readCache env state.2 = document at object ⊢
          cases document with
          | object members =>
              simp only [persistCommandStatus]
              split <;> rfl
          | _ => cases object
        rw [readCache.eq_def env (some move.2), Option.bind_eq_bind, Option.bind_some, met.1]
        exact if_pos object'
      simp only [Option.isSome_some, if_true, Option.elim_some, storedEntries, written]
      exact persistCommandStatus_eq status object

end Storing

end OsConfig.CommandRunner
