import OsConfig.Common.FileUtils
import OsConfig.Common.Parson.Parser

/-!
# The modules manager

A session has one session of each loaded module. Sessions are kept in a list, the
last one opened in front, and are looked up by the text of their handle.

What the modules do is a parameter: each of their functions answers with what
they are and changes it. The calls that a function makes of them are part of its
result.
-/

namespace OsConfig.ModulesManager

open CommonUtils

/-- The interface of the modules, which are known by `M` and hand out handles of type `H`. -/
structure Mmi (M H σ : Type) where
  components : M → List ByteString
  mmiOpen : M → ByteString → BitVec 32 → σ → H × σ
  mmiClose : M → H → σ → σ
  mmiSet : M → H → ByteString → ByteString → ByteString → BitVec 32 → σ → BitVec 32 × σ
  mmiGet : M → H → ByteString → ByteString → σ → (BitVec 32 × Option ByteString × BitVec 32) × σ

/-- `MODULE_SESSION` -/
structure ModuleSession (M H : Type) where
  module : M
  handle : H

/-- `SESSION` -/
structure Session (M H : Type) where
  uuid : ByteString
  client : ByteString
  modules : List (ModuleSession M H)

/-- A call of a module, with the session of the module that it is made on. -/
inductive ModuleCall (M H : Type) where
  | open (opened : ModuleSession M H)
  | close (closed : ModuleSession M H)
  | set (on : ModuleSession M H) (component object payload : ByteString)
  | get (on : ModuleSession M H) (component object : ByteString)

/-- The sessions, and what the modules are. -/
structure Platform (M H σ : Type) where
  sessions : List (Session M H)
  world : σ

section Functions

variable {M H σ : Type} (mmi : Mmi M H σ)

/-- The loop of `MpiOpen` over the modules. Every module session goes in front of the others. -/
def openModules (client : ByteString) (maxPayloadSizeBytes : BitVec 32) :
    List M → List (ModuleSession M H) → σ → List (ModuleSession M H) × List (ModuleCall M H) × σ
  | [], opened, world => (opened, [], world)
  | module :: rest, opened, world =>
      let (handle, world) := mmi.mmiOpen module client maxPayloadSizeBytes world
      let (opened, calls, world) :=
        openModules client maxPayloadSizeBytes rest (⟨module, handle⟩ :: opened) world
      (opened, .open ⟨module, handle⟩ :: calls, world)

/-- `MpiOpen` with the loaded modules and the uuid that `GenerateUuid` returns. -/
def mpiOpen (loaded : List M) (uuid client : ByteString) (maxPayloadSizeBytes : BitVec 32)
    (platform : Platform M H σ) : Option ByteString × List (ModuleCall M H) × Platform M H σ :=
  if loaded.isEmpty then (none, [], platform)
  else
    let (modules, calls, world) := openModules mmi client maxPayloadSizeBytes loaded [] platform.world
    (some uuid, calls, ⟨⟨uuid, client, modules⟩ :: platform.sessions, world⟩)

def findSession (uuid : ByteString) (sessions : List (Session M H)) : Option (Session M H) :=
  sessions.find? fun session => session.uuid = uuid

/-- The loop of `MpiClose` over the module sessions. -/
def closeModules : List (ModuleSession M H) → σ → List (ModuleCall M H) × σ
  | [], world => ([], world)
  | moduleSession :: rest, world =>
      let (calls, world) :=
        closeModules rest (mmi.mmiClose moduleSession.module moduleSession.handle world)
      (.close moduleSession :: calls, world)

/-- `MpiClose`. The session that has been found is taken out of the list. -/
def mpiClose (handle : Option ByteString) (platform : Platform M H σ) :
    List (ModuleCall M H) × Platform M H σ :=
  match handle with
  | none => ([], platform)
  | some uuid =>
      match findSession uuid platform.sessions with
      | none => ([], platform)
      | some session =>
          let (calls, world) := closeModules mmi session.modules platform.world
          (calls, ⟨platform.sessions.eraseP fun session => session.uuid = uuid, world⟩)

def componentExists (module : M) (component : ByteString) : Bool :=
  (mmi.components module).any (· = component)

def findModuleSession (modules : List (ModuleSession M H)) (component : ByteString) :
    Option (ModuleSession M H) :=
  modules.find? fun current => componentExists mmi current.module component

/-- `EINVAL` as a status. -/
def invalid : BitVec 32 := 22

def mpiSet (handle : Option ByteString) (component object payload : ByteString)
    (payloadSizeBytes : BitVec 32) (platform : Platform M H σ) :
    BitVec 32 × List (ModuleCall M H) × Platform M H σ :=
  match handle.bind fun uuid => findSession uuid platform.sessions with
  | none => (invalid, [], platform)
  | some session =>
      match findModuleSession mmi session.modules component with
      | none => (invalid, [], platform)
      | some on =>
          let (status, world) := mmi.mmiSet on.module on.handle component object payload
            payloadSizeBytes platform.world
          (status, [.set on component object payload], { platform with world })

/-- `MpiGet`, with the payload and its size that the module returns. -/
def mpiGet (handle : Option ByteString) (component object : ByteString)
    (platform : Platform M H σ) :
    (BitVec 32 × Option ByteString × BitVec 32) × List (ModuleCall M H) × Platform M H σ :=
  match handle.bind fun uuid => findSession uuid platform.sessions with
  | none => ((invalid, none, 0), [], platform)
  | some session =>
      match findModuleSession mmi session.modules component with
      | none => ((invalid, none, 0), [], platform)
      | some on =>
          let (outcome, world) :=
            mmi.mmiGet on.module on.handle component object platform.world
          (outcome, [.get on component object], { platform with world })

/-- The inner loop of `MpiSetDesired`: every object of a component is set, and the status is that of
the last one. -/
def setObjects (on : ModuleSession M H) (component : ByteString) :
    JsonObject → BitVec 32 → σ → BitVec 32 × List (ModuleCall M H) × σ
  | [], status, world => (status, [], world)
  | (object, value) :: rest, _, world =>
      let objectJson := value.serializeToString
      let (status, world) := mmi.mmiSet on.module on.handle component object objectJson
        (BitVec.ofNat 32 objectJson.length) world
      let (status, calls, world) := setObjects on component rest status world
      (status, .set on component object objectJson :: calls, world)

/-- The loop of `MpiSetDesired` over the components. A component that is no object has no
objects. -/
def setComponents (modules : List (ModuleSession M H)) :
    JsonObject → BitVec 32 → σ → BitVec 32 × List (ModuleCall M H) × σ
  | [], status, world => (status, [], world)
  | (component, value) :: rest, status, world =>
      match findModuleSession mmi modules component with
      | none => setComponents modules rest invalid world
      | some on =>
          let (status, calls, world) :=
            setObjects mmi on component (value.getObject.getD []) status world
          let (status, others, world) := setComponents modules rest status world
          (status, calls ++ others, world)

def mpiSetDesired (strtod : JsonValue.Strtod) (handle : Option ByteString) (payload : ByteString)
    (payloadSizeBytes : BitVec 32) (platform : Platform M H σ) :
    BitVec 32 × List (ModuleCall M H) × Platform M H σ :=
  if payloadSizeBytes.toInt ≤ 0 then (invalid, [], platform)
  else
    match handle.bind fun uuid => findSession uuid platform.sessions with
    | none => (invalid, [], platform)
    | some session =>
        match JsonValue.parseString strtod payload with
        | none => (invalid, [], platform)
        | some root =>
            let (status, calls, world) := setComponents mmi session.modules
              (root.getObject.getD []) 0 platform.world
            (status, calls, { platform with world })

end Functions

end OsConfig.ModulesManager
