import OsConfig.ComplianceEngine.DistributionInfo

/-!
# The override file for what was found

Without an override file the distribution is read from `/etc/os-release` and the
system and the machine are asked of `uname`. Whichever way an info was found,
an override file that holds its printed line is read as the same info.
-/

namespace OsConfig.ComplianceEngine.DistributionInfo

open ByteString
open Fallible (exists_of_bind_ok)

/-- The members of `utsname` that are read. -/
structure Utsname where
  sysname : ByteString
  machine : ByteString

/-- `find` on the fields of `/etc/os-release`, with the error for a field that is missing. -/
def findField (path : ByteString) (fields : Fields) (name : String) : Result ByteString :=
  match fields[bytes name]? with
  | none => .error
      { message := path ++ bytes " does not contain '" ++ bytes name ++ bytes "' field"
        code := Errno.EINVAL }
  | some value => .ok value

/-- What `uname` fills in, or the error for its `errno`. -/
def systemInformation (strerror : ℤ → ByteString) (uname : Except ℤ Utsname) : Result Utsname :=
  match uname with
  | .error status => .error
      { message := bytes "Failed to get system information: " ++ strerror status, code := status }
  | .ok unameData => .ok unameData

def parseEtcOsRelease (strerror : ℤ → ByteString) (uname : Except ℤ Utsname) (path : ByteString)
    (contents : Option ByteString) : Result DistributionInfo := do
  let fields ← parseDistributionInfoFile path contents
  let distribution ← parseLinuxDistribution (← findField path fields "ID")
  let version ← findField path fields "VERSION_ID"
  let unameData ← systemInformation strerror uname
  let osType ← parseOSType unameData.sysname
  let architecture ← parseArchitecture unameData.machine
  return { osType, architecture, distribution, version }

section Found

variable {strerror : ℤ → ByteString} {uname : Except ℤ Utsname} {path : ByteString}
  {contents : Option ByteString} {fields : Fields} {info : DistributionInfo}

theorem getElem?_of_findField {name : String} {value : ByteString}
    (found : findField path fields name = .ok value) : fields[bytes name]? = some value := by
  unfold findField at found
  split at found
  · cases found
  next value_eq => rw [value_eq, ← Except.ok.inj found]

theorem version_of_parseEtcOsRelease
    (parsed : parseEtcOsRelease strerror uname path contents = .ok info) :
    ∃ fields, parseDistributionInfoFile path contents = .ok fields ∧
      fields[bytes "VERSION_ID"]? = some info.version := by
  unfold parseEtcOsRelease at parsed
  rcases exists_of_bind_ok parsed with ⟨fields, fields_eq, parsed⟩
  rcases exists_of_bind_ok parsed with ⟨distributionStr, -, parsed⟩
  rcases exists_of_bind_ok parsed with ⟨distribution, -, parsed⟩
  rcases exists_of_bind_ok parsed with ⟨version, version_eq, parsed⟩
  rcases exists_of_bind_ok parsed with ⟨unameData, -, parsed⟩
  rcases exists_of_bind_ok parsed with ⟨osType, -, parsed⟩
  rcases exists_of_bind_ok parsed with ⟨architecture, -, parsed⟩
  refine ⟨fields, fields_eq, ?_⟩
  rw [getElem?_of_findField version_eq, ← Except.ok.inj parsed]

theorem parseEtcOsRelease_isValueByte
    (parsed : parseEtcOsRelease strerror uname path contents = .ok info) :
    ∀ byte ∈ info.version, IsValueByte byte := by
  rcases version_of_parseEtcOsRelease parsed with ⟨fields, fields_eq, found⟩
  exact parseDistributionInfoFile_isValueByte fields_eq found

/-- What was found in either way is read back from the line that is printed for it. -/
theorem parseOverrideFile_toText_of_found
    (found : parseEtcOsRelease strerror uname path contents = .ok info ∨
      parseOverrideFile path contents = .ok info)
    (overridePath : ByteString) {ending : ByteString} (areSpaces : ∀ byte ∈ ending, isSpace byte) :
    parseOverrideFile overridePath (some (info.toText ++ ending)) = .ok info := by
  have versionBytes : ∀ byte ∈ info.version, IsValueByte byte := by
    rcases found with release | override
    · exact parseEtcOsRelease_isValueByte release
    · exact parseOverrideFile_isValueByte override
  exact parseOverrideFile_toText overridePath info versionBytes areSpaces

/-- Ubuntu by its own file, with a version that the parser cuts at a comment. -/
theorem parseOverrideFile_toText_ubuntu :
    ∃ info, parseEtcOsRelease (fun _ => [])
        (.ok { sysname := bytes "Linux", machine := bytes "x86_64" }) (bytes "/etc/os-release")
        (some (bytes "ID=ubuntu\nVERSION_ID=20.04# LTS\n")) = .ok info ∧
      parseOverrideFile (bytes "/etc/osconfig/system_id.override")
        (some (info.toText ++ bytes "\n")) = .ok info := by
  have release : parseEtcOsRelease (fun _ => [])
      (.ok { sysname := bytes "Linux", machine := bytes "x86_64" }) (bytes "/etc/os-release")
      (some (bytes "ID=ubuntu\nVERSION_ID=20.04# LTS\n")) = .ok { version := bytes "20.04" } := by
    rfl
  exact ⟨_, release, parseOverrideFile_toText_of_found (.inl release) _ (by decide +kernel)⟩

end Found

end OsConfig.ComplianceEngine.DistributionInfo
