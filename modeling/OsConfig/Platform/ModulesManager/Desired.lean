import OsConfig.Common.Parson.RoundTrip
import OsConfig.Platform.ModulesManager

/-!
# Setting a desired state

Every object of every component is set, and an unknown component counts as a
failure. Setting goes on after a failure, but each attempt overwrites the status,
so the last one decides.
-/

namespace OsConfig.ModulesManager

variable {M H σ : Type} (mmi : Mmi M H σ)

/-- What comes of setting the objects of a component, in order. -/
def objectOutcomes (on : ModuleSession M H) (component : ByteString) :
    JsonObject → σ → List (BitVec 32) × σ
  | [], world => ([], world)
  | (object, value) :: rest, world =>
      let (status, world) := mmi.mmiSet on.module on.handle component object value.serializeToString
        (BitVec.ofNat 32 value.serializeToString.length) world
      let (statuses, world) := objectOutcomes on component rest world
      (status :: statuses, world)

/-- What comes of every attempt, in order: the status of a module, or nothing where no module has
the component. -/
def outcomes (modules : List (ModuleSession M H)) :
    JsonObject → σ → List (Option (BitVec 32))
  | [], _ => []
  | (component, value) :: rest, world =>
      match findModuleSession mmi modules component with
      | none => none :: outcomes modules rest world
      | some on =>
          let (statuses, world) :=
            objectOutcomes mmi on component (value.getObject.getD []) world
          statuses.map some ++ outcomes modules rest world

/-- Every component names a loaded module, and every call of a module succeeds. -/
def AllSucceed (modules : List (ModuleSession M H)) (components : JsonObject) (world : σ) : Prop :=
  ∀ outcome ∈ outcomes mmi modules components world, outcome = some 0

variable {mmi} {on : ModuleSession M H} {component : ByteString} {modules : List (ModuleSession M H)}

def lastStatus (before : BitVec 32) (attempts : List (Option (BitVec 32))) : BitVec 32 :=
  (attempts.getLast?.map fun outcome => outcome.getD invalid).getD before

theorem lastStatus_cons (before : BitVec 32) (first : Option (BitVec 32))
    (rest : List (Option (BitVec 32))) :
    lastStatus before (first :: rest) = lastStatus (first.getD invalid) rest := by
  cases rest with
  | nil => rfl
  | cons second later =>
      have last := List.getLast?_eq_some_getLast (List.cons_ne_nil second later)
      rw [lastStatus, lastStatus, List.getLast?_cons_cons, last]
      rfl

theorem lastStatus_append (before : BitVec 32) (first second : List (Option (BitVec 32))) :
    lastStatus before (first ++ second) = lastStatus (lastStatus before first) second := by
  induction first generalizing before with
  | nil => rfl
  | cons outcome rest ih => rw [List.cons_append, lastStatus_cons, lastStatus_cons, ih]

theorem setObjects_spec (objects : JsonObject) (status : BitVec 32) (world : σ) :
    (setObjects mmi on component objects status world).1 =
        lastStatus status ((objectOutcomes mmi on component objects world).1.map some) ∧
      (setObjects mmi on component objects status world).2.2 =
        (objectOutcomes mmi on component objects world).2 := by
  induction objects generalizing status world with
  | nil => exact ⟨rfl, rfl⟩
  | cons member rest ih =>
      rcases member with ⟨object, value⟩
      have later := ih
        (mmi.mmiSet on.module on.handle component object value.serializeToString
          (BitVec.ofNat 32 value.serializeToString.length) world).1
        (mmi.mmiSet on.module on.handle component object value.serializeToString
          (BitVec.ofNat 32 value.serializeToString.length) world).2
      simp only [setObjects, objectOutcomes, List.map_cons, lastStatus_cons, Option.getD_some]
      exact later

theorem setComponents_status (components : JsonObject) (status : BitVec 32) (world : σ) :
    (setComponents mmi modules components status world).1 =
      lastStatus status (outcomes mmi modules components world) := by
  induction components generalizing status world with
  | nil => rfl
  | cons member rest ih =>
      rcases member with ⟨component, value⟩
      rw [setComponents, outcomes]
      cases found : findModuleSession mmi modules component with
      | none =>
          dsimp only
          rw [ih, lastStatus_cons]
          rfl
      | some on =>
          have inner := @setObjects_spec M H σ mmi on component (value.getObject.getD []) status world
          dsimp only
          rw [ih, lastStatus_append, inner.1, inner.2]

/-- The status says success exactly if nothing was attempted or the last attempt succeeded. -/
theorem lastStatus_eq_zero_iff (attempts : List (Option (BitVec 32))) :
    lastStatus 0 attempts = 0 ↔ attempts = [] ∨ attempts.getLast? = some (some 0) := by
  rcases List.eq_nil_or_concat attempts with rfl | ⟨front, last, rfl⟩
  · exact iff_of_true rfl (.inl rfl)
  · cases last with
    | none => simp [lastStatus, invalid]
    | some status => simp [lastStatus]

section Session

variable {strtod : JsonValue.Strtod} {uuid payload : ByteString} {payloadSizeBytes : BitVec 32}
  {platform : Platform M H σ} {session : Session M H} {components : JsonObject}

theorem mpiSetDesired_status (sized : 0 < payloadSizeBytes.toInt)
    (found : findSession uuid platform.sessions = some session)
    (parsed : JsonValue.parseString strtod payload = some (.object components)) :
    (mpiSetDesired mmi strtod (some uuid) payload payloadSizeBytes platform).1 =
      lastStatus 0 (outcomes mmi session.modules components platform.world) := by
  have started : ¬ payloadSizeBytes.toInt ≤ 0 := by omega
  rw [← setComponents_status]
  simp [mpiSetDesired, started, found, parsed, JsonValue.getObject]

/-- The returned status tells the truth exactly if nothing fails or the last attempt does. -/
theorem mpiSetDesired_truthful_iff (sized : 0 < payloadSizeBytes.toInt)
    (found : findSession uuid platform.sessions = some session)
    (parsed : JsonValue.parseString strtod payload = some (.object components)) :
    ((mpiSetDesired mmi strtod (some uuid) payload payloadSizeBytes platform).1 = 0 ↔
        AllSucceed mmi session.modules components platform.world) ↔
      AllSucceed mmi session.modules components platform.world ∨
        (outcomes mmi session.modules components platform.world).getLast? ≠ some (some 0) := by
  rw [mpiSetDesired_status sized found parsed, lastStatus_eq_zero_iff]
  by_cases all : AllSucceed mmi session.modules components platform.world
  · have success : outcomes mmi session.modules components platform.world = [] ∨
        (outcomes mmi session.modules components platform.world).getLast? = some (some 0) := by
      rcases List.eq_nil_or_concat (outcomes mmi session.modules components platform.world) with
        empty | ⟨front, last, concat⟩
      · exact .inl empty
      · right
        have there : last ∈ outcomes mmi session.modules components platform.world := by
          simp [concat]
        rw [concat, List.concat_eq_append, List.getLast?_concat, all last there]
    exact iff_of_true (iff_of_true success all) (.inl all)
  · have some_attempt : outcomes mmi session.modules components platform.world ≠ [] := by
      intro empty
      apply all
      intro outcome mem
      rw [empty] at mem
      cases mem
    simp [all, some_attempt]

/-- One module that refuses to set one of its objects. -/
def refusing : Mmi Unit Unit Unit where
  components _ := [bytes "Tpm"]
  mmiOpen _ _ _ world := ((), world)
  mmiClose _ _ world := world
  mmiSet _ _ _ object _ _ world := (if object = bytes "a" then 22 else 0, world)
  mmiGet _ _ _ _ world := ((22, none, 0), world)

def refusingPlatform : Platform Unit Unit Unit :=
  ⟨[⟨bytes "A", bytes "client", [⟨(), ()⟩]⟩], ()⟩

/-- Two objects of one component. -/
def desired (first second : String) : JsonObject :=
  [(bytes "Tpm", .object [(bytes first, .boolean true), (bytes second, .boolean true)])]

def desiredText (first second : String) : ByteString :=
  JsonValue.serialize false 0 (.object (desired first second))

theorem parse_desired {first second : String} (differ : bytes first ≠ bytes second)
    (noNul : 0 ∉ bytes first ∧ 0 ∉ bytes second) :
    JsonValue.parseString (fun _ => none) (desiredText first second) =
      some (.object (desired first second)) := by
  apply JsonValue.parseString_serialize
  have leaf : ∀ member ∈ [(bytes first, JsonValue.boolean true), (bytes second, .boolean true)],
      JsonValue.Readable 2047 member.2 := by
    intro member mem
    simp only [List.mem_cons, List.not_mem_nil, or_false] at mem
    rcases mem with rfl | rfl
    · exact .boolean _ _
    · exact .boolean _ _
  have inner : JsonValue.Readable 2048
      (.object [(bytes first, .boolean true), (bytes second, .boolean true)]) := by
    refine .object (by simpa using differ) ?_ leaf
    intro member mem
    simp only [List.mem_cons, List.not_mem_nil, or_false] at mem
    rcases mem with rfl | rfl
    · exact noNul.1
    · exact noNul.2
  have named : 0 ∉ bytes "Tpm" := by decide
  refine .object (List.nodup_singleton _) ?_ ?_
  · intro member mem
    rw [List.mem_singleton.mp mem]
    exact named
  · intro member mem
    rw [List.mem_singleton.mp mem]
    exact inner

theorem mpiSetDesired_truthful_iff_refusing :
    ((mpiSetDesired refusing (fun _ => none) (some (bytes "A")) (desiredText "b" "a") 27
          refusingPlatform).1 = 0 ↔
        AllSucceed refusing [⟨(), ()⟩] (desired "b" "a") ()) ↔
      AllSucceed refusing [⟨(), ()⟩] (desired "b" "a") () ∨
        (outcomes refusing [⟨(), ()⟩] (desired "b" "a") ()).getLast? ≠ some (some 0) :=
  have parsed := parse_desired (by decide : bytes "b" ≠ bytes "a") (by decide)
  have found : findSession (bytes "A") refusingPlatform.sessions =
    some ⟨bytes "A", bytes "client", [⟨(), ()⟩]⟩ := rfl
  mpiSetDesired_truthful_iff (by decide) found parsed

/-- The second object of a component is set after the first one was refused. -/
theorem refused_object_forgotten :
    ¬ ((mpiSetDesired refusing (fun _ => none) (some (bytes "A")) (desiredText "a" "b") 27
          refusingPlatform).1 = 0 ↔
        AllSucceed refusing [⟨(), ()⟩] (desired "a" "b") ()) := by
  have attempts : outcomes refusing [⟨(), ()⟩] (desired "a" "b") () = [some 22, some 0] := by
    decide
  have parsed := parse_desired (by decide : bytes "a" ≠ bytes "b") (by decide)
  have found : findSession (bytes "A") refusingPlatform.sessions =
    some ⟨bytes "A", bytes "client", [⟨(), ()⟩]⟩ := rfl
  have status : (mpiSetDesired refusing (fun _ => none) (some (bytes "A")) (desiredText "a" "b") 27
      refusingPlatform).1 = lastStatus 0 (outcomes refusing [⟨(), ()⟩] (desired "a" "b") ()) :=
    mpiSetDesired_status (by decide) found parsed
  have succeeded : lastStatus 0 [some 22, some 0] = 0 := by decide
  rw [status, AllSucceed, attempts]
  intro truthful
  have refused := truthful.mp succeeded (some 22) List.mem_cons_self
  exact absurd refused (by decide)

end Session

end OsConfig.ModulesManager
