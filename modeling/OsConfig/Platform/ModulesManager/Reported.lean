import OsConfig.Platform.ModulesManager

/-!
# Reported objects

`LoadModules` stores every entry of the reported configuration at its place in
the array, as far as it is well formed, and counts the well-formed ones.
`MpiGetReported` takes as many slots as there are well-formed entries, from the
first one on. So it asks for what the configuration says only if no malformed
entry stands in the way.

The modules may be asked for a null object here, which is a parameter of its
own. A null component is passed to `strcmp`, and then there is no result.
-/

namespace OsConfig.ModulesManager

/-- `REPORTED_OBJECT` -/
structure ReportedObject where
  component : Option ByteString
  object : Option ByteString
  deriving DecidableEq

/-- `g_reported` and `g_reportedTotal` -/
structure Reported where
  slots : List ReportedObject
  total : ℕ

section Loading

/-- What is stored for one entry, and whether it is counted. -/
def loadEntry (entry : JsonValue) : ReportedObject × Bool :=
  match entry.getObject with
  | none => (⟨none, none⟩, false)
  | some reportedObject =>
      match reportedObject.getString (bytes "ComponentName") with
      | none => (⟨none, none⟩, false)
      | some component =>
          match reportedObject.getString (bytes "ObjectName") with
          | none => (⟨some component, none⟩, false)
          | some object => (⟨some component, some object⟩, true)

/-- The loop of `LoadModules` over the entries. -/
def loadEntries : List JsonValue → Reported
  | [] => ⟨[], 0⟩
  | entry :: rest =>
      let (slot, counted) := loadEntry entry
      let others := loadEntries rest
      ⟨slot :: others.slots, if counted then others.total + 1 else others.total⟩

/-- The array of the configuration; none at all has no entries. -/
def reportedArray (config : JsonValue) : List JsonValue :=
  match config.getObject.bind fun configObject => configObject.getValue (bytes "Reported") with
  | some (.array entries) => entries
  | _ => []

def loadReported (config : JsonValue) : Reported :=
  loadEntries (reportedArray config)

end Loading

variable {M H σ : Type}

/-- A call of the get function of a module. -/
structure Query (M H : Type) where
  on : ModuleSession M H
  component : ByteString
  object : Option ByteString

/-- `json_object_set_value` -/
def setValue (name : ByteString) (value : JsonValue) : JsonObject → JsonObject
  | [] => [(name, value)]
  | (other, old) :: rest =>
      if other = name then (name, value) :: rest else (other, old) :: setValue name value rest

section Code

variable (mmi : Mmi M H σ)
  (getNull : M → H → ByteString → σ → (BitVec 32 × Option ByteString × BitVec 32) × σ)

/-- `FindModuleSession` with a component that may be null. Without components nothing is
compared. -/
def findSlotSession (modules : List (ModuleSession M H)) (component : Option ByteString) :
    Option (Option (ModuleSession M H)) :=
  match component with
  | some component => some (findModuleSession mmi modules component)
  | none =>
      if modules.all fun current => (mmi.components current.module).isEmpty then some none
      else none

/-- The get function of a module, with an object that may be null. -/
def getObject (on : ModuleSession M H) (component : ByteString) (object : Option ByteString)
    (world : σ) : (BitVec 32 × Option ByteString × BitVec 32) × σ :=
  match object with
  | some object => mmi.mmiGet on.module on.handle component object world
  | none => getNull on.module on.handle component world

/-- What becomes of the root object with a reply. A payload that is no JSON text is left out, a
negative size cannot be allocated, and a value without a name is not set. -/
def addReply (strtod : JsonValue.Strtod) (component : ByteString) (object : Option ByteString)
    (reply : BitVec 32 × Option ByteString × BitVec 32) (root : JsonObject) : JsonObject :=
  let (status, payload, size) := reply
  if status ≠ 0 ∨ size.toInt < 0 then root
  else
    match JsonValue.parseString strtod (ByteString.cString ((payload.getD []).take size.toNat)) with
    | none => root
    | some objectValue =>
        let componentValue := (root.getValue component).getD (.object [])
        match componentValue.getObject, object with
        | some componentObject, some object =>
            setValue component (.object (setValue object objectValue componentObject)) root
        | some componentObject, none => setValue component (.object componentObject) root
        | none, _ => root

/-- The loop of `MpiGetReported` over the slots. -/
def getSlots (strtod : JsonValue.Strtod) (modules : List (ModuleSession M H)) :
    List ReportedObject → JsonObject → σ → Option (JsonObject × List (Query M H) × σ)
  | [], root, world => some (root, [], world)
  | slot :: rest, root, world => do
      match ← findSlotSession mmi modules slot.component with
      | none => getSlots strtod modules rest root world
      | some on =>
          let component := slot.component.getD []
          let (reply, world) := getObject mmi getNull on component slot.object world
          let (root, queries, world) ← getSlots strtod modules rest
            (addReply strtod component slot.object reply root) world
          return (root, ⟨on, component, slot.object⟩ :: queries, world)

/-- `MpiGetReported`, with its status, the payload and the calls of the modules. -/
def mpiGetReported (strtod : JsonValue.Strtod) (reported : Reported) (handle : Option ByteString)
    (platform : Platform M H σ) :
    Option ((BitVec 32 × Option ByteString) × List (Query M H) × Platform M H σ) :=
  match handle.bind fun uuid => findSession uuid platform.sessions with
  | none => some ((invalid, none), [], platform)
  | some session => do
      let (root, queries, world) ← getSlots mmi getNull strtod session.modules
        (reported.slots.take reported.total) [] platform.world
      return ((0, some (JsonValue.serializeToStringPretty (.object root))), queries,
        { platform with world })

end Code

section Specification

variable (mmi : Mmi M H σ) (modules : List (ModuleSession M H))

/-- The names that a well-formed entry gives. -/
def names (entry : JsonValue) : Option (ByteString × ByteString) := do
  let reportedObject ← entry.getObject
  let component ← reportedObject.getString (bytes "ComponentName")
  let object ← reportedObject.getString (bytes "ObjectName")
  return (component, object)

/-- The query for a well-formed entry, if a module of the session has the component. -/
def wanted (entry : JsonValue) : Option (Query M H) := do
  let (component, object) ← names entry
  let on ← findModuleSession mmi modules component
  return ⟨on, component, some object⟩

def asked (slot : ReportedObject) : Option (Query M H) := do
  let component ← slot.component
  let on ← findModuleSession mmi modules component
  return ⟨on, component, slot.object⟩

/-- No module of the session has any component. -/
def NoComponents : Prop :=
  ∀ current ∈ modules, mmi.components current.module = []

/-- No malformed entry is in the way: as many entries as are well formed have a component, or there
is none to compare it with; the malformed ones among them name no component of a module; and no
well-formed entry that a module answers comes later. -/
structure InFront (entries : List JsonValue) : Prop where
  named : ∀ entry ∈ entries.take (entries.filterMap names).length,
    (loadEntry entry).1.component = none → NoComponents mmi modules
  whole : ∀ entry ∈ entries.take (entries.filterMap names).length, names entry = none →
    asked mmi modules (loadEntry entry).1 = none
  first : ∀ entry ∈ entries.drop (entries.filterMap names).length, wanted mmi modules entry = none

end Specification

section Entries

variable {mmi : Mmi M H σ} {modules : List (ModuleSession M H)} {entries : List JsonValue}

/-- A slot of an entry that is counted has both names, one of another entry not. -/
theorem loadEntry_cases (entry : JsonValue) :
    (∃ component object, names entry = some (component, object) ∧
        loadEntry entry = (⟨some component, some object⟩, true)) ∨
      (names entry = none ∧ (loadEntry entry).1.object = none ∧ (loadEntry entry).2 = false) := by
  rw [names, loadEntry]
  cases entry.getObject with
  | none => exact Or.inr ⟨rfl, rfl, rfl⟩
  | some reportedObject =>
      cases component : reportedObject.getString (bytes "ComponentName") with
      | none => exact Or.inr ⟨by simp [component], by simp [component], by simp [component]⟩
      | some component =>
          cases object : reportedObject.getString (bytes "ObjectName") with
          | none => right; simp [*]
          | some object => left; simp [*]

/-- The slots are those of the entries, and the total is the number of well-formed entries. -/
theorem loadEntries_eq (entries : List JsonValue) :
    loadEntries entries =
      ⟨entries.map fun entry => (loadEntry entry).1, (entries.filterMap names).length⟩ := by
  induction entries with
  | nil => rfl
  | cons entry rest ih =>
      rw [loadEntries, ih, List.map_cons]
      rcases loadEntry_cases entry with ⟨component, object, named, loaded⟩ | ⟨unnamed, _, uncounted⟩
      · rw [List.filterMap_cons_some named, loaded]
        rfl
      · rcases loaded : loadEntry entry with ⟨slot, counted⟩
        rw [loaded] at uncounted
        change counted = false at uncounted
        rw [List.filterMap_cons_none unnamed, uncounted]
        rfl

/-- The slot of a well-formed entry leads to its query. -/
theorem asked_loadEntry {entry : JsonValue} {pair : ByteString × ByteString}
    (named : names entry = some pair) :
    asked mmi modules (loadEntry entry).1 = wanted mmi modules entry := by
  rcases loadEntry_cases entry with ⟨component, object, named', loaded⟩ | ⟨unnamed, _⟩
  · rw [asked, wanted, named', loaded]
    rfl
  · rw [named] at unnamed
    cases unnamed

theorem object_of_wanted {entry : JsonValue} {query : Query M H}
    (query_eq : wanted mmi modules entry = some query) : query.object ≠ none := by
  simp only [wanted, Option.bind_eq_bind, Option.bind_eq_some_iff, Option.pure_def,
    Option.some.injEq] at query_eq
  rcases query_eq with ⟨pair, _, on, _, rfl⟩
  exact Option.some_ne_none pair.2

/-- The slots that are taken lead to the queries that are wanted exactly if nothing is in the way. -/
theorem filterMap_asked_iff :
    (entries.take (entries.filterMap names).length).filterMap
        (fun entry => asked mmi modules (loadEntry entry).1) =
        entries.filterMap (wanted mmi modules) ↔
      (∀ entry ∈ entries.take (entries.filterMap names).length, names entry = none →
        asked mmi modules (loadEntry entry).1 = none) ∧
      ∀ entry ∈ entries.drop (entries.filterMap names).length, wanted mmi modules entry = none := by
  generalize (entries.filterMap names).length = total
  have halves : entries.filterMap (wanted mmi modules) =
      (entries.take total).filterMap (wanted mmi modules) ++
        (entries.drop total).filterMap (wanted mmi modules) := by
    rw [← List.filterMap_append, List.take_append_drop]
  have alike (whole : ∀ entry ∈ entries.take total, names entry = none →
      asked mmi modules (loadEntry entry).1 = none) :
      (entries.take total).filterMap (fun entry => asked mmi modules (loadEntry entry).1) =
        (entries.take total).filterMap (wanted mmi modules) := by
    apply List.filterMap_congr
    intro entry mem
    cases named : names entry with
    | none =>
        rw [whole entry mem named, wanted, named]
        rfl
    | some pair => exact asked_loadEntry named
  constructor
  · intro same
    have whole : ∀ entry ∈ entries.take total, names entry = none →
        asked mmi modules (loadEntry entry).1 = none := by
      intro entry mem unnamed
      rcases loadEntry_cases entry with ⟨_, _, named, _⟩ | ⟨_, noObject, _⟩
      · rw [unnamed] at named
        cases named
      rw [Option.eq_none_iff_forall_ne_some]
      intro query query_eq
      have there : query ∈ (entries.take total).filterMap
          (fun entry => asked mmi modules (loadEntry entry).1) :=
        List.mem_filterMap.mpr ⟨entry, mem, query_eq⟩
      rw [same] at there
      rcases List.mem_filterMap.mp there with ⟨other, _, other_eq⟩
      apply object_of_wanted other_eq
      simp only [asked, Option.bind_eq_bind, Option.bind_eq_some_iff, Option.pure_def,
        Option.some.injEq] at query_eq
      rcases query_eq with ⟨component, _, on, _, rfl⟩
      exact noObject
    refine ⟨whole, ?_⟩
    rw [halves, alike whole, List.self_eq_append_right, List.filterMap_eq_nil_iff] at same
    exact same
  · rintro ⟨whole, later⟩
    rw [halves, alike whole, List.filterMap_eq_nil_iff.mpr later, List.append_nil]

end Entries

section Runs

variable {mmi : Mmi M H σ}
  {getNull : M → H → ByteString → σ → (BitVec 32 × Option ByteString × BitVec 32) × σ}
  {strtod : JsonValue.Strtod} {modules : List (ModuleSession M H)}

theorem getSlots_cons {slot : ReportedObject} {rest : List ReportedObject}
    (comparable : slot.component = none → NoComponents mmi modules) (root : JsonObject)
    (world : σ) :
    ∃ root' world', getSlots mmi getNull strtod modules (slot :: rest) root world =
      (getSlots mmi getNull strtod modules rest root' world').map fun result =>
        (result.1, (asked mmi modules slot).toList ++ result.2.1, result.2.2) := by
  rcases slot with ⟨_ | component, object⟩
  · have nothing : modules.all (fun current => (mmi.components current.module).isEmpty) = true := by
      rw [List.all_eq_true]
      intro current mem
      rw [comparable rfl current mem]
      rfl
    refine ⟨root, world, ?_⟩
    simp [getSlots, findSlotSession, nothing, asked]
  · cases found : findModuleSession mmi modules component with
    | none =>
        refine ⟨root, world, ?_⟩
        simp [getSlots, findSlotSession, found, asked]
    | some on =>
        refine ⟨addReply strtod component object
          (getObject mmi getNull on component object world).1 root,
          (getObject mmi getNull on component object world).2, ?_⟩
        simp only [getSlots, findSlotSession, found, Option.bind_eq_bind, Option.bind_some,
          Option.getD_some, asked]
        cases getSlots mmi getNull strtod modules rest (addReply strtod component object
            (getObject mmi getNull on component object world).1 root)
            (getObject mmi getNull on component object world).2 with
        | none => rfl
        | some result => rfl

/-- Where every component can be looked up, each slot is asked for at most once and in order. -/
theorem getSlots_queries {slots : List ReportedObject}
    (comparable : ∀ slot ∈ slots, slot.component = none → NoComponents mmi modules)
    (root : JsonObject) (world : σ) :
    ∃ root' world', getSlots mmi getNull strtod modules slots root world =
      some (root', slots.filterMap (asked mmi modules), world') := by
  induction slots generalizing root world with
  | nil => exact ⟨root, world, rfl⟩
  | cons slot rest ih =>
      rw [List.forall_mem_cons] at comparable
      rcases @getSlots_cons M H σ mmi getNull strtod modules slot rest comparable.1 root world with
        ⟨root₁, world₁, one⟩
      rcases ih comparable.2 root₁ world₁ with ⟨root₂, world₂, others⟩
      refine ⟨root₂, world₂, ?_⟩
      rw [one, others, Option.map_some]
      cases query : asked mmi modules slot with
      | none => rw [List.filterMap_cons_none query]; rfl
      | some query' => rw [List.filterMap_cons_some query]; rfl

theorem getSlots_eq_none {slots : List ReportedObject}
    (unnamed : ∃ slot ∈ slots, slot.component = none) (some_component : ¬ NoComponents mmi modules)
    (root : JsonObject) (world : σ) :
    getSlots mmi getNull strtod modules slots root world = none := by
  induction slots generalizing root world with
  | nil =>
      rcases unnamed with ⟨slot, mem, _⟩
      cases mem
  | cons slot rest ih =>
      by_cases here : slot.component = none
      · have compared : ¬ modules.all
            (fun current => (mmi.components current.module).isEmpty) = true := by
          intro all
          apply some_component
          intro current mem
          exact List.isEmpty_iff.mp (List.all_eq_true.mp all current mem)
        have failed : findSlotSession mmi modules slot.component = none := by
          rw [here]
          exact if_neg compared
        rw [getSlots, failed]
        rfl
      · have later : ∃ slot ∈ rest, slot.component = none := by
          rcases unnamed with ⟨other, mem, other_unnamed⟩
          rcases List.mem_cons.mp mem with rfl | inside
          · exact absurd other_unnamed here
          · exact ⟨other, inside, other_unnamed⟩
        rcases @getSlots_cons M H σ mmi getNull strtod modules slot rest
          (fun none_here => absurd none_here here) root world with ⟨root₁, world₁, one⟩
        rw [one, ih later]
        rfl

end Runs

section Sessions

variable {mmi : Mmi M H σ}
  {getNull : M → H → ByteString → σ → (BitVec 32 × Option ByteString × BitVec 32) × σ}
  {strtod : JsonValue.Strtod} {platform : Platform M H σ} {session : Session M H}
  {uuid : ByteString}

/-- The reported configuration is asked for exactly if no malformed entry is in the way of a
well-formed one. -/
theorem mpiGetReported_queries (found : findSession uuid platform.sessions = some session)
    (config : JsonValue) :
    (∃ outcome after, mpiGetReported mmi getNull strtod (loadReported config) (some uuid) platform =
        some (outcome, (reportedArray config).filterMap (wanted mmi session.modules), after)) ↔
      InFront mmi session.modules (reportedArray config) := by
  have slots_eq : (loadReported config).slots.take (loadReported config).total =
      ((reportedArray config).take ((reportedArray config).filterMap names).length).map
        fun entry => (loadEntry entry).1 := by
    rw [loadReported, loadEntries_eq, List.map_take]
  have lookup : ((some uuid).bind fun uuid => findSession uuid platform.sessions) = some session :=
    found
  simp only [mpiGetReported, lookup, slots_eq]
  by_cases comparable : ∀ entry ∈
      (reportedArray config).take ((reportedArray config).filterMap names).length,
      (loadEntry entry).1.component = none → NoComponents mmi session.modules
  · rcases @getSlots_queries M H σ mmi getNull strtod session.modules _
      (List.forall_mem_map.mpr comparable) [] platform.world with ⟨root, world, run⟩
    rw [run, List.filterMap_map]
    constructor
    · rintro ⟨outcome, after, same⟩
      simp only [Option.bind_eq_bind, Option.bind_some, Option.pure_def, Option.some.injEq,
        Prod.mk.injEq] at same
      rcases filterMap_asked_iff.mp same.2.1 with ⟨whole, first⟩
      exact ⟨comparable, whole, first⟩
    · rintro ⟨_, whole, first⟩
      refine ⟨(0, some (JsonValue.serializeToStringPretty (.object root))),
        { platform with world }, ?_⟩
      rw [← filterMap_asked_iff.mpr ⟨whole, first⟩]
      rfl
  · have blocked : ∃ entry ∈
        (reportedArray config).take ((reportedArray config).filterMap names).length,
        (loadEntry entry).1.component = none ∧ ¬ NoComponents mmi session.modules := by
      by_contra noneBlocked
      apply comparable
      intro entry mem none_here
      by_contra some_component
      exact noneBlocked ⟨entry, mem, none_here, some_component⟩
    rcases blocked with ⟨entry, mem, none_here, some_component⟩
    have unnamed : ∃ slot ∈ ((reportedArray config).take
        ((reportedArray config).filterMap names).length).map fun entry => (loadEntry entry).1,
        slot.component = none := ⟨_, List.mem_map_of_mem mem, none_here⟩
    rw [getSlots_eq_none unnamed some_component]
    apply iff_of_false
    · rintro ⟨outcome, after, same⟩
      cases same
    · exact fun inFront => comparable inFront.named

/-- One module with one component. -/
def answering : Mmi Unit Unit Unit where
  components _ := [bytes "Tpm"]
  mmiOpen _ _ _ world := ((), world)
  mmiClose _ _ world := world
  mmiSet _ _ _ _ _ _ world := (22, world)
  mmiGet _ _ _ _ world := ((22, none, 0), world)

def answeringPlatform : Platform Unit Unit Unit :=
  ⟨[⟨bytes "A", bytes "client", [⟨(), ()⟩]⟩], ()⟩

def configOf (entries : List JsonValue) : JsonValue :=
  .object [(bytes "Reported", .array entries)]

def wellFormedEntry : JsonValue :=
  .object [(bytes "ComponentName", .string (bytes "Tpm")), (bytes "ObjectName", .string (bytes "a"))]

theorem mpiGetReported_queries_last :
    (∃ outcome after, mpiGetReported answering (fun _ _ _ world => ((22, none, 0), world))
        (fun _ => none) (loadReported (configOf [wellFormedEntry, .null])) (some (bytes "A"))
        answeringPlatform =
      some (outcome, (reportedArray (configOf [wellFormedEntry, .null])).filterMap
        (wanted answering [⟨(), ()⟩]), after)) ↔
      InFront answering [⟨(), ()⟩] (reportedArray (configOf [wellFormedEntry, .null])) :=
  have found : findSession (bytes "A") answeringPlatform.sessions =
    some ⟨bytes "A", bytes "client", [⟨(), ()⟩]⟩ := rfl
  mpiGetReported_queries found _

/-- An entry without an object in front of a well-formed one takes its place. -/
theorem mpiGetReported_displaced :
    ¬ ∃ outcome after, mpiGetReported answering (fun _ _ _ world => ((22, none, 0), world))
        (fun _ => none)
        (loadReported (configOf
          [.object [(bytes "ComponentName", .string (bytes "Tpm"))], wellFormedEntry]))
        (some (bytes "A")) answeringPlatform =
      some (outcome, (reportedArray (configOf
        [.object [(bytes "ComponentName", .string (bytes "Tpm"))], wellFormedEntry])).filterMap
          (wanted answering [⟨(), ()⟩]), after) := by
  rintro ⟨outcome, after, same⟩
  have queries := congrArg (Option.map fun result => result.2.1.map Query.object) same
  have objects : some [none] = some [some (bytes "a")] := queries
  exact absurd objects (by decide)

end Sessions

end OsConfig.ModulesManager
