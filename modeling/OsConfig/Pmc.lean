import OsConfig.Common.Parson
import OsConfig.Library.Substrings

/-!
# Package manager configuration

A desired state names the keys, the package sources and the packages of a machine. It is read,
checked and then brought about step by step: keys are downloaded, source files written, the package
lists updated and the packages installed. The execution state is what is reported about the
progress, and it also decides whether the next phase is entered.

JSON parsing and regular expressions are parameters, and so is how the commands and the file
operations of a request end. A step is known by its number within the request, so that a
command that is repeated need not end the same way. The names of the desired packages, which only
the reported state is made of, are left out.
-/

namespace OsConfig

namespace ExecutionState

inductive StateComponent where
  | unknown
  | running
  | succeeded
  | failed
  | timedOut
  deriving DecidableEq

inductive SubstateComponent where
  | none
  | deserializingJsonPayload
  | deserializingDesiredState
  | deserializingGpgKeys
  | deserializingSources
  | deserializingPackages
  | downloadingGpgKeys
  | modifyingSources
  | updatingPackageLists
  | installingPackages
  deriving DecidableEq

end ExecutionState

structure ExecutionState where
  stateComponent : ExecutionState.StateComponent
  substateComponent : ExecutionState.SubstateComponent
  processingArgument : ByteString
  deriving DecidableEq

namespace ExecutionState

def initial : ExecutionState :=
  ⟨.unknown, .none, []⟩

def isSuccessful (state : ExecutionState) : Bool :=
  state.stateComponent ≠ .failed && state.stateComponent ≠ .timedOut

end ExecutionState

namespace Pmc

open ExecutionState (StateComponent SubstateComponent)

def componentName : ByteString := bytes "PackageManager"

def desiredObjectName : ByteString := bytes "desiredState"

def packagesName : ByteString := bytes "packages"

def sourcesName : ByteString := bytes "sources"

def gpgKeysName : ByteString := bytes "gpgKeys"

def commandAptUpdate : ByteString := bytes "apt-get update"

def commandExecuteUpdate : ByteString :=
  bytes "apt-get install $value -y --allow-downgrades --auto-remove"

def commandDownloadGpgKey : ByteString :=
  bytes "curl -sSL $url | gpg --dearmor --yes -o $destination"

def regexPackages : ByteString :=
  bytes "(?:[a-zA-Z\\d\\-]+(?:=[a-zA-Z\\d\\.\\+\\-\\~\\:]+|\\-| )*)+"

def regexSources : ByteString :=
  bytes "^(deb|deb-src)(?:\\s+\\[(.*)\\])?\\s+(https?:\\/\\/\\S+)\\s+(\\S+)\\s+(\\S+)\\s*$"

def regexSignedByOption : ByteString :=
  bytes "^.*signed-by=(\\S*).*$"

def keysFolderPath : ByteString := bytes "/usr/share/keyrings/"

def mmiOk : ℤ := 0

def e2big : ℤ := 7

def enodev : ℤ := 19

def einval : ℤ := 22

def etime : ℤ := 62

/-- `HashString`, where `char` is signed. -/
def hashString (source : ByteString) : UInt64 :=
  source.cString.foldl
    (fun hash byte => (hash <<< 5) + hash + byte.toInt8.toInt64.toUInt64) 5381

/-- What the module uses of its libraries. -/
structure Libraries where
  /-- `rapidjson::Document::Parse` on as many bytes of a text. -/
  parse : ByteString → BitVec 32 → Option JsonValue
  /-- `std::regex_match` with a pattern on a text; the groups of a match, the whole text first. -/
  regexMatch : ByteString → ByteString → Option (List (Option ByteString))
  /-- `std::regex_replace` in a text, of a pattern, by a format. -/
  regexReplace : ByteString → ByteString → ByteString → ByteString

/-- The value of `errno` after a failure. -/
structure Errno where
  value : ℤ
  nonzero : value ≠ 0

/-- How the operations end that a request carries out, by the number of the step. -/
structure Machine where
  canRunOnThisPlatform : Bool
  fileExists : ℕ → ByteString → Bool
  remove : ℕ → ByteString → Option Errno
  /-- Opening a file for output. -/
  create : ℕ → ByteString → Option Errno
  /-- Whether the text arrives in the file that was opened. -/
  write : ℕ → ByteString → ByteString → Bool
  /-- The status of a command, which may be long running. -/
  runCommand : ℕ → ByteString → Bool → ℤ

/-- A step that a request carries out on the machine. -/
inductive Step where
  | gpgKey (id : ByteString)
  | source (name : ByteString)
  | updatePackageLists
  | installPackages (package : ByteString)
  deriving DecidableEq

/-- The execution state of a request, and the steps it carried out with their success. -/
structure Progress where
  executionState : ExecutionState
  steps : List (Step × Bool)

namespace Progress

def setExecutionState (progress : Progress) (stateComponent : StateComponent)
    (substateComponent : SubstateComponent) (processingArgument : ByteString) : Progress :=
  { progress with executionState := ⟨stateComponent, substateComponent, processingArgument⟩ }

def carriedOut (progress : Progress) (step : Step) (succeeded : Bool) : Progress :=
  { progress with steps := progress.steps ++ [(step, succeeded)] }

def isSuccessful (progress : Progress) : Bool :=
  progress.executionState.isSuccessful

end Progress

/-- A `std::map` of strings, in the order of its keys. -/
abbrev StringMap := List (ByteString × ByteString)

/-- `map[key] = value` -/
def StringMap.assign (map : StringMap) (key value : ByteString) : StringMap :=
  match map with
  | [] => [(key, value)]
  | (first, text) :: rest =>
      if key < first then (key, value) :: (first, text) :: rest
      else if key = first then (key, value) :: rest
      else (first, text) :: StringMap.assign rest key value

structure DesiredState where
  packages : List ByteString
  sources : StringMap
  gpgKeys : StringMap

section Deserialization

def validateDocument (document : JsonObject) (progress : Progress) : ℤ × Progress :=
  if (document.getValue sourcesName).isNone && (document.getValue packagesName).isNone &&
      (document.getValue gpgKeysName).isNone then
    (einval, progress.setExecutionState .failed .deserializingDesiredState [])
  else (0, progress)

/-- The loop of `DeserializeGpgKeys`. It ends at the first member that is neither a string nor
null. -/
def deserializeKeyMembers :
    List (ByteString × JsonValue) → StringMap → Progress → ℤ × StringMap × Progress
  | [], keys, progress => (0, keys, progress)
  | (name, value) :: rest, keys, progress =>
      let key := name.cString
      let progress := progress.setExecutionState .running .deserializingGpgKeys key
      match value with
      | .string text => deserializeKeyMembers rest (keys.assign key text.cString) progress
      | .null => deserializeKeyMembers rest (keys.assign key []) progress
      | _ => (einval, keys, progress.setExecutionState .failed .deserializingGpgKeys key)

def deserializeGpgKeys (document : JsonObject) (progress : Progress) :
    ℤ × StringMap × Progress :=
  match document.getValue gpgKeysName with
  | none => (0, [], progress)
  | some (.object members) =>
      deserializeKeyMembers members []
        (progress.setExecutionState .running .deserializingGpgKeys [])
  | some _ => (einval, [], progress.setExecutionState .failed .deserializingGpgKeys [])

/-- The loop of `DeserializeSources`. It goes on after a member that is neither a string nor
null. -/
def deserializeSourceMembers :
    List (ByteString × JsonValue) → ℤ → StringMap → Progress → ℤ × StringMap × Progress
  | [], status, sources, progress => (status, sources, progress)
  | (name, value) :: rest, status, sources, progress =>
      let name := name.cString
      match value with
      | .string text =>
          deserializeSourceMembers rest status (sources.assign name text.cString)
            (progress.setExecutionState .running .deserializingSources name)
      | .null => deserializeSourceMembers rest status (sources.assign name []) progress
      | _ =>
          deserializeSourceMembers rest einval sources
            (progress.setExecutionState .failed .deserializingSources name)

def deserializeSources (document : JsonObject) (progress : Progress) :
    ℤ × StringMap × Progress :=
  match document.getValue sourcesName with
  | none => (0, [], progress)
  | some (.object members) =>
      deserializeSourceMembers members 0 []
        (progress.setExecutionState .running .deserializingSources [])
  | some _ => (einval, [], progress.setExecutionState .failed .deserializingSources [])

/-- The loop of `DeserializePackages`, which goes on after an element that is not a string. The
argument it then sets is the rest of a literal behind the index, not a text with the index. -/
def deserializePackageElements :
    List JsonValue → ℕ → ℤ → List ByteString → Progress → ℤ × List ByteString × Progress
  | [], _, status, packages, progress => (status, packages, progress)
  | element :: rest, index, status, packages, progress =>
      match element with
      | .string text =>
          deserializePackageElements rest (index + 1) status (packages ++ [text.cString])
            (progress.setExecutionState .running .deserializingPackages text.cString)
      | _ =>
          deserializePackageElements rest (index + 1) einval packages
            (progress.setExecutionState .failed .deserializingPackages
              ((bytes "index ").drop index))

def deserializePackages (document : JsonObject) (progress : Progress) :
    ℤ × List ByteString × Progress :=
  match document.getValue packagesName with
  | none => (0, [], progress)
  | some (.array elements) =>
      deserializePackageElements elements 0 0 []
        (progress.setExecutionState .running .deserializingPackages [])
  | some _ => (einval, [], progress.setExecutionState .failed .deserializingPackages [])

def deserializeDesiredState (document : JsonObject) (progress : Progress) :
    ℤ × DesiredState × Progress :=
  let (status, progress) := validateDocument document progress
  let (status, gpgKeys, progress) :=
    if status = 0 then deserializeGpgKeys document progress else (status, [], progress)
  let (status, sources, progress) :=
    if status = 0 then deserializeSources document progress else (status, [], progress)
  let (status, packages, progress) :=
    if status = 0 then deserializePackages document progress else (status, [], progress)
  (status, { packages, sources, gpgKeys }, progress)

end Deserialization

section Phases

variable (libraries : Libraries)

/-- `ValidateAndGetPackagesNames`, without the names. -/
def validateAndGetPackagesNames : List ByteString → Progress → ℤ × Progress
  | [], progress => (0, progress)
  | packagesLine :: rest, progress =>
      let progress := progress.setExecutionState .running .deserializingPackages packagesLine
      if (libraries.regexMatch regexPackages packagesLine).isSome then
        validateAndGetPackagesNames rest progress
      else (einval, progress.setExecutionState .failed .deserializingPackages packagesLine)

def generateGpgKeyPath (gpgKeyId : ByteString) : ByteString :=
  keysFolderPath ++ gpgKeyId ++ bytes ".gpg"

def downloadCommand (sourceUrl keyFilePath : ByteString) : ByteString :=
  libraries.regexReplace
    (libraries.regexReplace commandDownloadGpgKey (bytes "\\$url") sourceUrl)
    (bytes "\\$destination") keyFilePath

/-- `ValidateAndUpdatePackageSource`. The name of a key of the request becomes the path of its
file. -/
def validateAndUpdatePackageSource (packageSource : ByteString) (gpgKeys : StringMap) :
    Option ByteString :=
  (libraries.regexMatch regexSources packageSource).map fun sourceMatches =>
    let options := (sourceMatches[2]?.join).getD []
    match ((libraries.regexMatch regexSignedByOption options).bind (·[1]?)).join with
    | none => packageSource
    | some gpgKeyFileId =>
        if (gpgKeys.lookup gpgKeyFileId).isSome then
          let placeholder := bytes "signed-by=" ++ gpgKeyFileId
          match Substrings.search placeholder packageSource with
          | none => packageSource
          | some found =>
              packageSource.take (packageSource.length - found.length) ++
                (bytes "signed-by=" ++ generateGpgKeyPath gpgKeyFileId) ++
                found.drop placeholder.length
        else packageSource

variable (machine : Machine)

/-- `DownloadGpgKeys`. The loop goes on after a key that failed. -/
def downloadGpgKeys : StringMap → ℤ → Progress → ℤ × Progress
  | [], status, progress => (status, progress)
  | (key, sourceUrl) :: rest, status, progress =>
      let number := progress.steps.length
      let progress := progress.setExecutionState .running .downloadingGpgKeys key
      let keyFilePath := generateGpgKeyPath key
      if sourceUrl = [] then
        if machine.fileExists number keyFilePath then
          match machine.remove number keyFilePath with
          | some errno =>
              downloadGpgKeys rest errno.value ((progress.carriedOut (.gpgKey key) false)
                |>.setExecutionState .failed .modifyingSources key)
          | none => downloadGpgKeys rest status (progress.carriedOut (.gpgKey key) true)
        else downloadGpgKeys rest status (progress.carriedOut (.gpgKey key) true)
      else
        let status :=
          machine.runCommand number (downloadCommand libraries sourceUrl keyFilePath) false
        if status ≠ 0 then
          downloadGpgKeys rest status ((progress.carriedOut (.gpgKey key) false)
            |>.setExecutionState .failed .downloadingGpgKeys key)
        else downloadGpgKeys rest status (progress.carriedOut (.gpgKey key) true)

/-- The loop of `ConfigureSources`. It ends with a status at the first source that is known to
have failed; whether a source was written is not looked at. -/
def modifySources (directory : ByteString) (gpgKeys : StringMap) :
    StringMap → Progress → Option ℤ × Progress
  | [], progress => (none, progress)
  | (name, packageSource) :: rest, progress =>
      let number := progress.steps.length
      let progress := progress.setExecutionState .running .modifyingSources name
      let sourcesFilePath := directory ++ (name ++ bytes ".list")
      let stop := fun status => (some status, (progress.carriedOut (.source name) false)
        |>.setExecutionState .failed .modifyingSources name)
      let next := fun succeeded =>
        modifySources directory gpgKeys rest (progress.carriedOut (.source name) succeeded)
      if packageSource = [] then
        if machine.fileExists number sourcesFilePath then
          match machine.remove number sourcesFilePath with
          | some errno => stop errno.value
          | none => next true
        else next true
      else
        match machine.create number sourcesFilePath with
        | some errno => stop errno.value
        | none =>
            match validateAndUpdatePackageSource libraries packageSource gpgKeys with
            | some updated => next (machine.write number sourcesFilePath (updated ++ [10]))
            | none => stop einval

def configureSources (directory : ByteString) (sources gpgKeys : StringMap)
    (progress : Progress) : ℤ × Progress :=
  match modifySources libraries machine directory gpgKeys sources progress with
  | (some status, progress) => (status, progress)
  | (none, progress) =>
      let progress := progress.setExecutionState .running .updatingPackageLists []
      let status := machine.runCommand progress.steps.length commandAptUpdate true
      if status ≠ 0 then
        (status, (progress.carriedOut .updatePackageLists false).setExecutionState
          (if status = etime then .timedOut else .failed) .updatingPackageLists [])
      else
        (status, (progress.carriedOut .updatePackageLists true).setExecutionState
          .succeeded .none [])

def executeUpdates : List ByteString → Progress → ℤ × Progress
  | [], progress => (0, progress.setExecutionState .succeeded .none [])
  | package :: rest, progress =>
      let number := progress.steps.length
      let progress := progress.setExecutionState .running .installingPackages package
      let command := libraries.regexReplace commandExecuteUpdate (bytes "\\$value") package
      let status := machine.runCommand number command true
      if status ≠ 0 then
        (status, (progress.carriedOut (.installPackages package) false).setExecutionState
          (if status = etime then .timedOut else .failed) .installingPackages package)
      else executeUpdates rest (progress.carriedOut (.installPackages package) true)

end Phases

/-- A call of `PmcBase::Set`. -/
structure Request where
  componentName : ByteString
  objectName : ByteString
  payload : ByteString
  payloadSizeBytes : BitVec 32

/-- The members of `PmcBase`. -/
structure PmcBase where
  maxPayloadSizeBytes : BitVec 32
  sourcesConfigurationDirectory : ByteString
  executionState : ExecutionState
  lastReachedStateHash : UInt64

namespace PmcBase

variable (libraries : Libraries) (machine : Machine) (pmc : PmcBase)

/-- The phases of `Set` that change the machine. -/
def carryOut (desiredState : DesiredState) (progress : Progress) : ℤ × Progress :=
  let downloaded := downloadGpgKeys libraries machine desiredState.gpgKeys 0 progress
  if downloaded.2.isSuccessful then
    let configured := configureSources libraries machine pmc.sourcesConfigurationDirectory
      desiredState.sources desiredState.gpgKeys downloaded.2
    if configured.2.isSuccessful then
      executeUpdates libraries machine desiredState.packages configured.2
    else configured
  else downloaded

/-- What `Set` does with an object. The status of the deserialization does not count. -/
def bringAbout (document : JsonObject) (progress : Progress) : ℤ × Progress :=
  let (_, desiredState, progress) :=
    deserializeDesiredState document
      (progress.setExecutionState .running .deserializingDesiredState [])
  if progress.isSuccessful then
    let validated := validateAndGetPackagesNames libraries desiredState.packages progress
    if validated.2.isSuccessful then
      carryOut libraries machine pmc desiredState validated.2
    else validated
  else (einval, progress.setExecutionState .failed .deserializingDesiredState [])

/-- A payload that is not ignored and not too large. -/
def process (request : Request) (progress : Progress) : ℤ × Progress :=
  match libraries.parse request.payload request.payloadSizeBytes with
  | none => (einval, progress.setExecutionState .failed .deserializingJsonPayload [])
  | some document =>
      if request.componentName ≠ Pmc.componentName then
        (einval, progress.setExecutionState .failed .deserializingJsonPayload [])
      else if request.objectName ≠ desiredObjectName then
        (einval, progress.setExecutionState .failed .deserializingDesiredState [])
      else
        match document with
        | .object members => bringAbout libraries machine pmc members progress
        | _ => (einval, progress.setExecutionState .failed .deserializingDesiredState [])

/-- The result of `Set`: the status, what the module is left with and the steps carried out. -/
structure Outcome where
  status : ℤ
  pmc : PmcBase
  steps : List (Step × Bool)

/-- The payload exceeds the maximum, if there is one. -/
def isTooLarge (request : Request) : Bool :=
  pmc.maxPayloadSizeBytes ≠ 0 &&
    decide (request.payloadSizeBytes.toInt > pmc.maxPayloadSizeBytes.toInt)

def set (request : Request) : Outcome :=
  let payloadHash := hashString request.payload
  if machine.canRunOnThisPlatform = false then ⟨enodev, pmc, []⟩
  else if pmc.lastReachedStateHash = payloadHash then ⟨mmiOk, pmc, []⟩
  else if pmc.isTooLarge request then
    ⟨e2big, { pmc with executionState := ⟨.failed, .deserializingJsonPayload, []⟩ }, []⟩
  else
    let processed :=
      process libraries machine pmc request ⟨⟨.running, .deserializingJsonPayload, []⟩, []⟩
    { status := if processed.2.isSuccessful then mmiOk else processed.1
      pmc := { pmc with
        executionState := processed.2.executionState
        lastReachedStateHash := if processed.2.isSuccessful then payloadHash else 0 }
      steps := processed.2.steps }

end PmcBase

end Pmc

end OsConfig
