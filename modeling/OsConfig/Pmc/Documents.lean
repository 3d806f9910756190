import OsConfig.Pmc

/-!
# Documents of a desired state

A document is well formed if its maps have strings or nulls as values and its packages are strings
that the pattern matches. The deserialization accepts more than that: a map of sources may have any
values as long as the last that is not null is a string, and the last package must be a string. What
it does not understand it leaves out.
-/

namespace OsConfig.Pmc

/-- The text of a member of a map. -/
def entryText : JsonValue → Option ByteString
  | .string text => some text.cString
  | .null => some []
  | _ => none

def isEntry (member : ByteString × JsonValue) : Bool :=
  (entryText member.2).isSome

def isNull (member : ByteString × JsonValue) : Bool :=
  match member.2 with
  | .null => true
  | _ => false

/-- A member with a text is added to the map. -/
def assignMember (map : StringMap) (member : ByteString × JsonValue) : StringMap :=
  match entryText member.2 with
  | some text => map.assign member.1.cString text
  | none => map

/-- The map of a section, as far as it is understood. -/
def sectionMap : Option JsonValue → StringMap
  | some (.object members) => members.foldl assignMember []
  | _ => []

/-- The packages of a section, as far as they are understood. -/
def sectionPackages : Option JsonValue → List ByteString
  | some (.array elements) => elements.filterMap JsonValue.getString
  | _ => []

/-- The section is a map of strings or nulls, if it is there. -/
def isStringMap : Option JsonValue → Bool
  | none => true
  | some (.object members) => members.all isEntry
  | some _ => false

/-- The section is an array of strings, if it is there. -/
def isStringArray : Option JsonValue → Bool
  | none => true
  | some (.array elements) => elements.all fun element => element.getString.isSome
  | some _ => false

/-- The section is a map in which the last value that is not null is a string. -/
def endsWithEntry : Option JsonValue → Bool
  | none => true
  | some (.object members) => (members.filter fun member => !isNull member).getLast?.all isEntry
  | some _ => false

/-- The section is an array in which the last element is a string. -/
def endsWithString : Option JsonValue → Bool
  | none => true
  | some (.array elements) => elements.getLast?.all fun element => element.getString.isSome
  | some _ => false

/-- What the deserialization lets through. After sources that are not all understood, packages are
not looked at. -/
def isAccepted (document : JsonObject) : Bool :=
  ((document.getValue sourcesName).isSome || (document.getValue packagesName).isSome ||
      (document.getValue gpgKeysName).isSome) &&
    (isStringMap (document.getValue gpgKeysName) &&
      (endsWithEntry (document.getValue sourcesName) &&
        (!isStringMap (document.getValue sourcesName) ||
          endsWithString (document.getValue packagesName))))

/-- What is made of a document that is let through. -/
def readDesiredState (document : JsonObject) : DesiredState where
  gpgKeys := sectionMap (document.getValue gpgKeysName)
  sources := sectionMap (document.getValue sourcesName)
  packages :=
    if isStringMap (document.getValue sourcesName) then
      sectionPackages (document.getValue packagesName)
    else []

section Members

theorem getD_map_getLast?_cons {α β : Type*} (decide : α → β) (first : α) (rest : List α)
    (before : β) :
    ((first :: rest).getLast?.map decide).getD before =
      (rest.getLast?.map decide).getD (decide first) := by
  rw [List.getLast?_cons]
  cases rest.getLast? <;> rfl

theorem deserializeKeyMembers_spec (members : List (ByteString × JsonValue)) (keys : StringMap)
    (progress : Progress) (successful : progress.isSuccessful = true) :
    let read := deserializeKeyMembers members keys progress
    read.2.2.steps = progress.steps ∧
      (members.all isEntry = true →
        read.1 = 0 ∧ read.2.1 = members.foldl assignMember keys ∧
          read.2.2.isSuccessful = true) ∧
      (members.all isEntry = false → read.1 = einval ∧ read.2.2.isSuccessful = false) := by
  induction members generalizing keys progress with
  | nil => simp [deserializeKeyMembers, successful]
  | cons member rest ih =>
      rcases member with ⟨name, value⟩
      have running : ∀ argument, (progress.setExecutionState .running .deserializingGpgKeys
          argument).isSuccessful = true := fun _ => rfl
      rw [deserializeKeyMembers.eq_def]
      cases value with
      | string text => exact ih (keys.assign name.cString text.cString) _ (running _)
      | null => exact ih (keys.assign name.cString []) _ (running _)
      | _ => exact ⟨rfl, fun all => by simp [isEntry, entryText] at all, fun _ => ⟨rfl, rfl⟩⟩

theorem deserializeSourceMembers_spec (members : List (ByteString × JsonValue)) (status : ℤ)
    (sources : StringMap) (progress : Progress) :
    let read := deserializeSourceMembers members status sources progress
    read.1 = (if members.all isEntry then status else einval) ∧
      read.2.1 = members.foldl assignMember sources ∧
      read.2.2.steps = progress.steps ∧
      read.2.2.isSuccessful =
        ((members.filter fun member => !isNull member).getLast?.map isEntry).getD
          progress.isSuccessful := by
  induction members generalizing status sources progress with
  | nil => simp [deserializeSourceMembers]
  | cons member rest ih =>
      rcases member with ⟨name, value⟩
      rw [deserializeSourceMembers.eq_def]
      cases value with
      | string text =>
          rcases ih status (sources.assign name.cString text.cString)
            (progress.setExecutionState .running .deserializingSources name.cString) with
            ⟨read_status, map, steps, successful⟩
          refine ⟨read_status, map, steps, ?_⟩
          rw [List.filter_cons_of_pos rfl, getD_map_getLast?_cons]
          exact successful
      | null =>
          rcases ih status (sources.assign name.cString []) progress with
            ⟨read_status, map, steps, successful⟩
          refine ⟨read_status, map, steps, ?_⟩
          rw [List.filter_cons_of_neg (by simp [isNull])]
          exact successful
      | _ =>
          rcases ih einval sources
            (progress.setExecutionState .failed .deserializingSources name.cString) with
            ⟨read_status, map, steps, successful⟩
          refine ⟨?_, map, steps, ?_⟩
          · rw [List.all_cons]
            simpa [isEntry, entryText] using read_status
          · rw [List.filter_cons_of_pos rfl, getD_map_getLast?_cons]
            exact successful

theorem deserializePackageElements_spec (elements : List JsonValue) (index : ℕ) (status : ℤ)
    (packages : List ByteString) (progress : Progress) :
    let read := deserializePackageElements elements index status packages progress
    read.2.1 = packages ++ elements.filterMap JsonValue.getString ∧
      read.2.2.steps = progress.steps ∧
      read.2.2.isSuccessful =
        (elements.getLast?.map fun element => element.getString.isSome).getD
          progress.isSuccessful := by
  induction elements generalizing index status packages progress with
  | nil => simp [deserializePackageElements]
  | cons element rest ih =>
      rw [deserializePackageElements.eq_def]
      cases element with
      | string text =>
          rcases ih (index + 1) status (packages ++ [text.cString])
            (progress.setExecutionState .running .deserializingPackages text.cString) with
            ⟨read, steps, successful⟩
          refine ⟨?_, steps, ?_⟩
          · simpa [JsonValue.getString] using read
          · rw [getD_map_getLast?_cons]
            exact successful
      | _ =>
          rcases ih (index + 1) einval packages (progress.setExecutionState .failed
            .deserializingPackages ((bytes "index ").drop index)) with ⟨read, steps, successful⟩
          refine ⟨read, steps, ?_⟩
          rw [getD_map_getLast?_cons]
          exact successful

end Members

section Sections

variable (document : JsonObject) {progress : Progress}

theorem deserializeGpgKeys_spec (successful : progress.isSuccessful = true) :
    let read := deserializeGpgKeys document progress
    let keys := document.getValue gpgKeysName
    read.2.2.steps = progress.steps ∧
      (isStringMap keys = true →
        read.1 = 0 ∧ read.2.1 = sectionMap keys ∧ read.2.2.isSuccessful = true) ∧
      (isStringMap keys = false → read.1 = einval ∧ read.2.2.isSuccessful = false) := by
  rw [deserializeGpgKeys]
  cases document.getValue gpgKeysName with
  | none => exact ⟨rfl, fun _ => ⟨rfl, rfl, successful⟩, fun other => by cases other⟩
  | some value =>
      cases value with
      | object members =>
          exact deserializeKeyMembers_spec members []
            (progress.setExecutionState .running .deserializingGpgKeys []) rfl
      | _ => exact ⟨rfl, (nomatch ·), fun _ => ⟨rfl, rfl⟩⟩

theorem deserializeSources_spec (successful : progress.isSuccessful = true) :
    let read := deserializeSources document progress
    let sources := document.getValue sourcesName
    read.1 = (if isStringMap sources then 0 else einval) ∧
      read.2.1 = sectionMap sources ∧
      read.2.2.steps = progress.steps ∧
      read.2.2.isSuccessful = endsWithEntry sources := by
  rw [deserializeSources]
  cases document.getValue sourcesName with
  | none => exact ⟨rfl, rfl, rfl, successful⟩
  | some value =>
      cases value with
      | object members =>
          rcases deserializeSourceMembers_spec members 0 []
            (progress.setExecutionState .running .deserializingSources []) with
            ⟨status, map, steps, last⟩
          refine ⟨status, map, steps, last.trans ?_⟩
          rw [endsWithEntry]
          cases (members.filter fun member => !isNull member).getLast? <;> rfl
      | _ => exact ⟨rfl, rfl, rfl, rfl⟩

theorem deserializePackages_spec (successful : progress.isSuccessful = true) :
    let read := deserializePackages document progress
    let packages := document.getValue packagesName
    read.2.1 = sectionPackages packages ∧
      read.2.2.steps = progress.steps ∧
      read.2.2.isSuccessful = endsWithString packages := by
  rw [deserializePackages]
  cases document.getValue packagesName with
  | none => exact ⟨rfl, rfl, successful⟩
  | some value =>
      cases value with
      | array elements =>
          rcases deserializePackageElements_spec elements 0 0 []
            (progress.setExecutionState .running .deserializingPackages []) with
            ⟨packages, steps, last⟩
          refine ⟨packages, steps, last.trans ?_⟩
          rw [endsWithString]
          cases elements.getLast? <;> rfl
      | _ => exact ⟨rfl, rfl, rfl⟩

theorem endsWithEntry_of_isStringMap {entries : Option JsonValue}
    (map : isStringMap entries = true) : endsWithEntry entries = true := by
  cases entries with
  | none => rfl
  | some value =>
      cases value with
      | object members =>
          rw [isStringMap, List.all_eq_true] at map
          rw [endsWithEntry, Option.all_eq_true]
          intro member last
          exact map member (List.mem_of_mem_filter (List.mem_of_getLast? last))
      | _ => cases map

theorem endsWithString_of_isStringArray {entries : Option JsonValue}
    (array : isStringArray entries = true) : endsWithString entries = true := by
  cases entries with
  | none => rfl
  | some value =>
      cases value with
      | array elements =>
          rw [isStringArray, List.all_eq_true] at array
          rw [endsWithString, Option.all_eq_true]
          intro element last
          exact array element (List.mem_of_getLast? last)
      | _ => cases array

/-- Nothing is carried out, and the execution state tells whether the document is let through. -/
theorem deserializeDesiredState_spec (successful : progress.isSuccessful = true) :
    let read := deserializeDesiredState document progress
    read.2.2.steps = progress.steps ∧
      read.2.2.isSuccessful = isAccepted document ∧
      (isAccepted document = true → read.2.1 = readDesiredState document) := by
  cases present : (document.getValue sourcesName).isSome ||
      (document.getValue packagesName).isSome || (document.getValue gpgKeysName).isSome with
  | false =>
      have refused : validateDocument document progress =
          (einval, progress.setExecutionState .failed .deserializingDesiredState []) := by
        rw [validateDocument, if_pos]
        simpa [Bool.or_eq_false_iff, and_assoc] using present
      simp only [deserializeDesiredState, refused, isAccepted, present, Bool.false_and]
      exact ⟨rfl, rfl, fun accepted => absurd accepted Bool.false_ne_true⟩
  | true =>
      have passed : validateDocument document progress = (0, progress) := by
        rw [validateDocument, if_neg]
        intro absent
        simp only [Bool.and_eq_true, Option.isNone_iff_eq_none] at absent
        simp [absent] at present
      rcases deserializeGpgKeys_spec document successful with ⟨key_steps, keys_read, keys_refused⟩
      simp only [deserializeDesiredState, passed, if_true, isAccepted, present, Bool.true_and]
      cases keys : isStringMap (document.getValue gpgKeysName) with
      | false =>
          rcases keys_refused keys with ⟨status, failed⟩
          have stopped : ¬(deserializeGpgKeys document progress).1 = 0 := by
            rw [status]
            decide
          simp only [if_neg stopped, key_steps, failed, Bool.false_and]
          exact ⟨trivial, trivial, fun accepted => absurd accepted Bool.false_ne_true⟩
      | true =>
          rcases keys_read keys with ⟨status, key_map, key_successful⟩
          rcases deserializeSources_spec document key_successful with
            ⟨source_status, source_map, source_steps, source_successful⟩
          simp only [if_pos status, Bool.true_and]
          cases sources : isStringMap (document.getValue sourcesName) with
          | false =>
              rw [sources] at source_status
              have stopped : ¬(deserializeSources document
                  (deserializeGpgKeys document progress).2.2).1 = 0 := by
                rw [source_status]
                decide
              simp only [if_neg stopped, source_steps, key_steps, source_successful]
              refine ⟨trivial, by simp, fun _ => ?_⟩
              simp [readDesiredState, key_map, source_map, sources]
          | true =>
              rw [sources, if_pos rfl] at source_status
              have ended := endsWithEntry_of_isStringMap sources
              rw [ended] at source_successful
              rcases deserializePackages_spec document source_successful with
                ⟨packages, package_steps, package_successful⟩
              simp only [if_pos source_status, package_steps, source_steps, key_steps,
                package_successful, ended]
              refine ⟨trivial, by simp, fun _ => ?_⟩
              simp [readDesiredState, key_map, source_map, packages, sources]

end Sections

end OsConfig.Pmc
