import OsConfig.ComplianceEngine.Result
import OsConfig.Library.Fallible

/-!
# Identifying the distribution

The engine identifies the machine by the fields of `/etc/os-release`, or by the
override file when there is one. Both files are read field by field; white space
and quotes never become part of a value.
-/

namespace OsConfig.ComplianceEngine

open ByteString
open Fallible (exists_of_bind_ok)

inductive OSType where
  | linux
  deriving DecidableEq

inductive Architecture where
  | x86_64
  deriving DecidableEq

inductive LinuxDistribution where
  | ubuntu
  | centos
  | rhel
  | suse
  | oracleLinux
  | mariner
  | debian
  | azureLinux
  | amazonLinux
  | almaLinux
  | rockyLinux
  deriving DecidableEq

/-- `std::to_string`. -/
def OSType.toText : OSType → ByteString
  | .linux => bytes "Linux"

def Architecture.toText : Architecture → ByteString
  | .x86_64 => bytes "x86_64"

def LinuxDistribution.toText : LinuxDistribution → ByteString
  | .ubuntu => bytes "ubuntu"
  | .centos => bytes "centos"
  | .rhel => bytes "rhel"
  | .suse => bytes "sles"
  | .oracleLinux => bytes "ol"
  | .mariner => bytes "mariner"
  | .debian => bytes "debian"
  | .azureLinux => bytes "azurelinux"
  | .amazonLinux => bytes "amzn"
  | .almaLinux => bytes "almalinux"
  | .rockyLinux => bytes "rocky"

def LinuxDistribution.all : List LinuxDistribution :=
  [.ubuntu, .centos, .rhel, .suse, .oracleLinux, .mariner, .debian, .azureLinux, .amazonLinux,
    .almaLinux, .rockyLinux]

structure DistributionInfo where
  osType : OSType := .linux
  architecture : Architecture := .x86_64
  distribution : LinuxDistribution := .ubuntu
  version : ByteString := []

namespace DistributionInfo

def defaultOverrideFilePath : ByteString := bytes "/etc/osconfig/system_id.override"

def parseOSType (osTypeStr : ByteString) : Result OSType :=
  if osTypeStr = OSType.linux.toText then .ok .linux
  else .error { message := bytes "Unsupported OS type: " ++ osTypeStr, code := Errno.EINVAL }

def parseArchitecture (architectureStr : ByteString) : Result Architecture :=
  if architectureStr = Architecture.x86_64.toText then .ok .x86_64
  else .error
    { message := bytes "Unsupported architecture: " ++ architectureStr, code := Errno.EINVAL }

def parseLinuxDistribution (distributionStr : ByteString) : Result LinuxDistribution :=
  match LinuxDistribution.all.find? (·.toText = distributionStr) with
  | some distribution => .ok distribution
  | none => .error
      { message := bytes "Unsupported Linux distribution: " ++ distributionStr
        code := Errno.EINVAL }

theorem parseLinuxDistribution_toText (distribution : LinuxDistribution) :
    parseLinuxDistribution distribution.toText = .ok distribution := by
  cases distribution <;> decide

/-- `std::to_string` on a `DistributionInfo`. -/
def toText (info : DistributionInfo) : ByteString :=
  bytes "OS=\"" ++ info.osType.toText ++ bytes "\"" ++
  bytes " ARCH=\"" ++ info.architecture.toText ++ bytes "\"" ++
  bytes " DISTRO=\"" ++ info.distribution.toText ++ bytes "\"" ++
  bytes " VERSION=\"" ++ info.version ++ bytes "\""

/-- `ParseKey`: the key and what follows the `=`. `comment` is whether the position is in a
comment, which ends with the line. -/
def parseKey (result : ByteString) (hasSpaces comment : Bool) (input : ByteString) :
    Result (ByteString × ByteString) :=
  match input with
  | [] =>
      if result = [] then .ok ([], [])
      else .error
        { message := bytes "Unexpected end of input while parsing a key", code := Errno.EINVAL }
  | value :: rest =>
      if comment then
        parseKey result hasSpaces (value ≠ 10) rest
      else if value = 61 then
        if result = [] then
          .error { message := bytes "Unexpected '=' at the start of a key", code := Errno.EINVAL }
        else
          .ok (result, rest)
      else if value = 35 then
        if result ≠ [] then
          .error
            { message := bytes "Unexpected comment character '#' in a key", code := Errno.EINVAL }
        else
          parseKey result hasSpaces true rest
      else if isSpace value then
        parseKey result (hasSpaces || result ≠ []) false rest
      else if hasSpaces then
        .error { message := bytes "Unexpected space in a key", code := Errno.EINVAL }
      else
        parseKey (result ++ [value]) hasSpaces false rest

/-- `ParseValue`: the value and what follows it. -/
def parseValue (result : ByteString) (quoted : Bool) (input : ByteString) :
    Result (ByteString × ByteString) :=
  match input with
  | [] =>
      if quoted then
        .error
          { message := bytes "Unexpected end of input while parsing a quoted value"
            code := Errno.EINVAL }
      else
        .ok (result, [])
  | value :: rest =>
      if value = 34 then
        if quoted then
          .ok (result, rest)
        else if result ≠ [] then
          .error
            { message := bytes "Unexpected quote character past the start of value"
              code := Errno.EINVAL }
        else
          parseValue result true rest
      else if value = 35 ∧ !quoted then
        .ok (result, (rest.dropWhile (· ≠ 10)).drop 1)
      else if isSpace value then
        if quoted then parseValue result quoted rest else .ok (result, rest)
      else
        parseValue (result ++ [value]) quoted rest

abbrev Fields := Std.ExtTreeMap ByteString ByteString

/-- The loop of `ParseDistributionInfoFile`; a round that goes on reads at least an `=`. -/
def parseFields : ℕ → ByteString → Fields → Result Fields
  | 0, _, result => .ok result
  | fuel + 1, input, result =>
      if input = [] then
        .ok result
      else
        match parseKey [] false false input with
        | .error failure => .error failure
        | .ok (key, afterKey) =>
            if key = [] then
              .ok result
            else
              match parseValue [] false afterKey with
              | .error failure => .error failure
              | .ok (value, rest) => parseFields fuel rest (result.insert key value)

/-- `ParseDistributionInfoFile`, on the contents of the file. -/
def parseDistributionInfoFile (path : ByteString) (contents : Option ByteString) :
    Result Fields :=
  match contents with
  | none => .error { message := bytes "Failed to open " ++ path, code := Errno.ENOENT }
  | some input => parseFields input.length input ∅

/-- A field that the override file must have. -/
def requireField (path : ByteString) (fields : Fields) (name : String) : Result ByteString :=
  match fields[bytes name]? with
  | none => .error
      { message := path ++ bytes " file does not contain '" ++ bytes name ++ bytes "' field"
        code := Errno.EINVAL }
  | some value => .ok value

def parseOverrideFile (path : ByteString) (contents : Option ByteString) :
    Result DistributionInfo := do
  let fields ← parseDistributionInfoFile path contents
  let osType ← parseOSType (← requireField path fields "OS")
  let architecture ← parseArchitecture (← requireField path fields "ARCH")
  let distribution ← parseLinuxDistribution (← requireField path fields "DISTRO")
  let version ← requireField path fields "VERSION"
  return { osType, architecture, distribution, version }

/-- The bytes that can be part of a value. -/
def IsValueByte (byte : UInt8) : Prop :=
  byte ≠ 34 ∧ isSpace byte = false

def IsKeyByte (byte : UInt8) : Prop :=
  byte ≠ 61 ∧ byte ≠ 35 ∧ isSpace byte = false

instance (byte : UInt8) : Decidable (IsValueByte byte) :=
  inferInstanceAs (Decidable (_ ∧ _))

instance (byte : UInt8) : Decidable (IsKeyByte byte) :=
  inferInstanceAs (Decidable (_ ∧ _))

section Reading

/-- White space and quotes never become part of a value. -/
theorem parseValue_isValueByte {input result value rest : ByteString} {quoted : Bool}
    (clean : ∀ byte ∈ result, IsValueByte byte)
    (parsed : parseValue result quoted input = .ok (value, rest)) :
    ∀ byte ∈ value, IsValueByte byte := by
  induction input generalizing result quoted with
  | nil =>
      rw [parseValue] at parsed
      split at parsed
      · cases parsed
      · simp only [Except.ok.injEq, Prod.mk.injEq] at parsed
        rwa [← parsed.1]
  | cons first others ih =>
      rw [parseValue] at parsed
      split at parsed
      · split at parsed
        · simp only [Except.ok.injEq, Prod.mk.injEq] at parsed
          rwa [← parsed.1]
        · split at parsed
          · cases parsed
          · exact ih clean parsed
      · split at parsed
        · simp only [Except.ok.injEq, Prod.mk.injEq] at parsed
          rwa [← parsed.1]
        · split at parsed
          · split at parsed
            · exact ih clean parsed
            · simp only [Except.ok.injEq, Prod.mk.injEq] at parsed
              rwa [← parsed.1]
          · rename_i noQuote _ noSpace
            refine ih ?_ parsed
            intro byte mem
            rcases List.mem_append.mp mem with earlier | last
            · exact clean byte earlier
            · rw [List.mem_singleton.mp last]
              exact ⟨noQuote, by simpa using noSpace⟩

theorem parseFields_isValueByte {fuel : ℕ} {input : ByteString} {result fields : Fields}
    (clean : ∀ (key value : ByteString), result[key]? = some value →
      ∀ byte ∈ value, IsValueByte byte)
    (parsed : parseFields fuel input result = .ok fields) :
    ∀ (key value : ByteString), fields[key]? = some value → ∀ byte ∈ value, IsValueByte byte := by
  induction fuel generalizing input result with
  | zero =>
      rw [parseFields, Except.ok.injEq] at parsed
      rwa [← parsed]
  | succ fuel ih =>
      rw [parseFields] at parsed
      split at parsed
      · rw [Except.ok.injEq] at parsed
        rwa [← parsed]
      · split at parsed
        · cases parsed
        · split at parsed
          · rw [Except.ok.injEq] at parsed
            rwa [← parsed]
          · split at parsed
            · cases parsed
            · rename_i newKey _ _ _ _ newValue _ value_eq
              refine ih ?_ parsed
              intro key value found
              rw [Std.ExtTreeMap.getElem?_insert] at found
              split at found
              · rw [← Option.some.inj found]
                exact parseValue_isValueByte (by simp) value_eq
              · exact clean key value found

theorem parseKey_spaces {spaces : ByteString} (areSpaces : ∀ byte ∈ spaces, isSpace byte)
    (rest : ByteString) : parseKey [] false false (spaces ++ rest) = parseKey [] false false rest := by
  induction spaces with
  | nil => rfl
  | cons space others ih =>
      have isSpace_eq : isSpace space = true := areSpaces space (by simp)
      have noAssignment : space ≠ 61 := by
        rintro rfl
        exact absurd isSpace_eq (by decide)
      have noComment : space ≠ 35 := by
        rintro rfl
        exact absurd isSpace_eq (by decide)
      rw [List.cons_append, parseKey]
      simp only [Bool.false_eq_true, if_false, if_neg noAssignment, if_neg noComment,
        if_pos isSpace_eq]
      exact ih fun byte mem => areSpaces byte (by simp [mem])

theorem parseKey_key {key : ByteString} (keyBytes : ∀ byte ∈ key, IsKeyByte byte)
    (result rest : ByteString) (nonempty : result ++ key ≠ []) :
    parseKey result false false (key ++ 61 :: rest) = .ok (result ++ key, rest) := by
  induction key generalizing result with
  | nil =>
      rw [List.append_nil] at nonempty ⊢
      simp [parseKey, nonempty]
  | cons byte others ih =>
      rcases keyBytes byte (by simp) with ⟨noAssignment, noComment, noSpace⟩
      rw [List.cons_append, parseKey]
      simp only [Bool.false_eq_true, if_false, if_neg noAssignment, if_neg noComment, noSpace]
      rw [ih (fun other mem => keyBytes other (by simp [mem])) (result ++ [byte]) (by simp)]
      simp

theorem parseValue_quoted {value : ByteString} (noQuote : 34 ∉ value) (result rest : ByteString) :
    parseValue result true (value ++ 34 :: rest) =
      .ok (result ++ value.filter (fun byte => !isSpace byte), rest) := by
  induction value generalizing result with
  | nil => simp [parseValue]
  | cons byte others ih =>
      rw [List.mem_cons, not_or] at noQuote
      rw [List.cons_append, parseValue]
      simp only [if_neg (Ne.symm noQuote.1), Bool.not_true, Bool.false_eq_true, and_false, if_false,
        if_true]
      cases white : isSpace byte with
      | true =>
          rw [if_pos rfl, ih noQuote.2]
          simp [white]
      | false =>
          rw [if_neg Bool.false_ne_true, ih noQuote.2]
          simp [white]

/-- A field with quotes around its value is read, whatever white space is in front of it. -/
theorem parseFields_quoted {spaces key value : ByteString}
    (areSpaces : ∀ byte ∈ spaces, isSpace byte) (keyBytes : ∀ byte ∈ key, IsKeyByte byte)
    (nonempty : key ≠ []) (noQuote : 34 ∉ value) (fuel : ℕ) (rest : ByteString) (result : Fields) :
    parseFields (fuel + 1) (spaces ++ (key ++ 61 :: 34 :: (value ++ 34 :: rest))) result =
      parseFields fuel rest (result.insert key (value.filter fun byte => !isSpace byte)) := by
  have key_eq := parseKey_key keyBytes [] (34 :: (value ++ 34 :: rest)) (by simpa using nonempty)
  have value_eq : parseValue [] false (34 :: (value ++ 34 :: rest)) =
      .ok (value.filter (fun byte => !isSpace byte), rest) := by
    rw [parseValue]
    simpa using parseValue_quoted noQuote [] rest
  rw [parseFields, if_neg (by simp), parseKey_spaces areSpaces, key_eq]
  simp only [List.nil_append, if_neg nonempty, value_eq]

/-- A field as `to_string` writes it is read back. -/
theorem parseFields_field {spaces key value : ByteString}
    (areSpaces : ∀ byte ∈ spaces, isSpace byte) (keyBytes : ∀ byte ∈ key, IsKeyByte byte)
    (nonempty : key ≠ []) (valueBytes : ∀ byte ∈ value, IsValueByte byte) (fuel : ℕ)
    (rest : ByteString) (result : Fields) :
    parseFields (fuel + 1) (spaces ++ (key ++ 61 :: 34 :: (value ++ 34 :: rest))) result =
      parseFields fuel rest (result.insert key value) := by
  have noQuote : 34 ∉ value := fun mem => (valueBytes 34 mem).1 rfl
  have kept : value.filter (fun byte => !isSpace byte) = value := by
    refine List.filter_eq_self.mpr fun byte mem => ?_
    simp [(valueBytes byte mem).2]
  rw [parseFields_quoted areSpaces keyBytes nonempty noQuote, kept]

theorem parseFields_spaces {ending : ByteString} (areSpaces : ∀ byte ∈ ending, isSpace byte)
    (fuel : ℕ) (result : Fields) : parseFields fuel ending result = .ok result := by
  cases fuel with
  | zero => rfl
  | succ fuel =>
      have key_eq := parseKey_spaces areSpaces []
      rw [List.append_nil] at key_eq
      rw [parseFields, key_eq]
      split <;> simp [parseKey]

/-- The fields that `to_string` writes. -/
def fieldsOf (info : DistributionInfo) : Fields :=
  ((((∅ : Fields).insert (bytes "OS") info.osType.toText).insert (bytes "ARCH")
    info.architecture.toText).insert (bytes "DISTRO") info.distribution.toText).insert
    (bytes "VERSION") info.version

theorem requireField_fieldsOf (path : ByteString) (info : DistributionInfo) :
    requireField path (fieldsOf info) "OS" = .ok info.osType.toText ∧
    requireField path (fieldsOf info) "ARCH" = .ok info.architecture.toText ∧
    requireField path (fieldsOf info) "DISTRO" = .ok info.distribution.toText ∧
    requireField path (fieldsOf info) "VERSION" = .ok info.version := by
  have version_os : ¬ compare (bytes "VERSION") (bytes "OS") = .eq := by decide
  have distro_os : ¬ compare (bytes "DISTRO") (bytes "OS") = .eq := by decide
  have arch_os : ¬ compare (bytes "ARCH") (bytes "OS") = .eq := by decide
  have version_arch : ¬ compare (bytes "VERSION") (bytes "ARCH") = .eq := by decide
  have distro_arch : ¬ compare (bytes "DISTRO") (bytes "ARCH") = .eq := by decide
  have version_distro : ¬ compare (bytes "VERSION") (bytes "DISTRO") = .eq := by decide
  refine ⟨?_, ?_, ?_, ?_⟩
  · rw [requireField, fieldsOf, Std.ExtTreeMap.getElem?_insert, if_neg version_os,
      Std.ExtTreeMap.getElem?_insert, if_neg distro_os, Std.ExtTreeMap.getElem?_insert,
      if_neg arch_os, Std.ExtTreeMap.getElem?_insert_self]
  · rw [requireField, fieldsOf, Std.ExtTreeMap.getElem?_insert, if_neg version_arch,
      Std.ExtTreeMap.getElem?_insert, if_neg distro_arch, Std.ExtTreeMap.getElem?_insert_self]
  · rw [requireField, fieldsOf, Std.ExtTreeMap.getElem?_insert, if_neg version_distro,
      Std.ExtTreeMap.getElem?_insert_self]
  · rw [requireField, fieldsOf, Std.ExtTreeMap.getElem?_insert_self]

/-- The override file with the line `to_string` writes is read as the info it was written for,
if the version has no white space and no quote. -/
theorem parseOverrideFile_toText (path : ByteString) (info : DistributionInfo)
    (versionBytes : ∀ byte ∈ info.version, IsValueByte byte) {ending : ByteString}
    (areSpaces : ∀ byte ∈ ending, isSpace byte) :
    parseOverrideFile path (some (info.toText ++ ending)) = .ok info := by
  have line_eq : info.toText ++ ending =
      [] ++ (bytes "OS" ++ 61 :: 34 :: (info.osType.toText ++ 34 ::
        ([32] ++ (bytes "ARCH" ++ 61 :: 34 :: (info.architecture.toText ++ 34 ::
          ([32] ++ (bytes "DISTRO" ++ 61 :: 34 :: (info.distribution.toText ++ 34 ::
            ([32] ++ (bytes "VERSION" ++ 61 :: 34 :: (info.version ++ 34 :: ending))))))))))) := by
    have pieces : bytes "OS=\"" = bytes "OS" ++ [61, 34] ∧
        bytes " ARCH=\"" = [32] ++ bytes "ARCH" ++ [61, 34] ∧
        bytes " DISTRO=\"" = [32] ++ bytes "DISTRO" ++ [61, 34] ∧
        bytes " VERSION=\"" = [32] ++ bytes "VERSION" ++ [61, 34] ∧ bytes "\"" = [34] := by
      decide
    rcases pieces with ⟨os_eq, arch_eq, distro_eq, version_eq, quote_eq⟩
    rw [toText, os_eq, arch_eq, distro_eq, version_eq, quote_eq]
    simp only [List.append_assoc, List.cons_append, List.nil_append]
  have long : ∃ fuel, (info.toText ++ ending).length = fuel + 4 := by
    refine ⟨(info.toText ++ ending).length - 4, ?_⟩
    rw [line_eq]
    simp only [List.length_append, List.length_cons]
    omega
  have osBytes : ∀ byte ∈ info.osType.toText, IsValueByte byte := by
    cases info.osType
    decide +kernel
  have archBytes : ∀ byte ∈ info.architecture.toText, IsValueByte byte := by
    cases info.architecture
    decide +kernel
  have distroBytes : ∀ byte ∈ info.distribution.toText, IsValueByte byte := by
    cases info.distribution <;> decide +kernel
  have blank : ∀ byte ∈ ([32] : ByteString), isSpace byte := by simp [isSpace]
  have nothing : ∀ byte ∈ ([] : ByteString), isSpace byte := by simp
  rcases long with ⟨fuel, length_eq⟩
  have fields_eq : parseDistributionInfoFile path (some (info.toText ++ ending)) =
      .ok (fieldsOf info) := by
    rw [parseDistributionInfoFile, length_eq, line_eq,
      parseFields_field nothing (by decide +kernel) (by decide +kernel) osBytes,
      parseFields_field blank (by decide +kernel) (by decide +kernel) archBytes,
      parseFields_field blank (by decide +kernel) (by decide +kernel) distroBytes,
      parseFields_field blank (by decide +kernel) (by decide +kernel) versionBytes,
      parseFields_spaces areSpaces, fieldsOf]
  have os_parsed : parseOSType info.osType.toText = .ok info.osType := by
    cases info.osType
    rfl
  have arch_parsed : parseArchitecture info.architecture.toText = .ok info.architecture := by
    cases info.architecture
    rfl
  rcases requireField_fieldsOf path info with ⟨os_found, arch_found, distro_found, version_found⟩
  simp only [parseOverrideFile, fields_eq, os_found, arch_found, distro_found, version_found, bind,
    Except.bind, os_parsed, arch_parsed, parseLinuxDistribution_toText, pure, Except.pure]

theorem parseDistributionInfoFile_isValueByte {path : ByteString} {contents : Option ByteString}
    {fields : Fields} (parsed : parseDistributionInfoFile path contents = .ok fields)
    {key value : ByteString} (found : fields[key]? = some value) :
    ∀ byte ∈ value, IsValueByte byte := by
  cases contents with
  | none => cases parsed
  | some input => exact parseFields_isValueByte (by simp) parsed key value found

theorem getElem?_of_requireField {path value : ByteString} {fields : Fields} {name : String}
    (found : requireField path fields name = .ok value) : fields[bytes name]? = some value := by
  unfold requireField at found
  split at found
  · cases found
  next value_eq => rw [value_eq, ← Except.ok.inj found]

/-- No version that is read from a file has white space or a quote. -/
theorem parseOverrideFile_isValueByte {path : ByteString} {contents : Option ByteString}
    {info : DistributionInfo} (parsed : parseOverrideFile path contents = .ok info) :
    ∀ byte ∈ info.version, IsValueByte byte := by
  unfold parseOverrideFile at parsed
  rcases exists_of_bind_ok parsed with ⟨fields, fields_eq, parsed⟩
  rcases exists_of_bind_ok parsed with ⟨osTypeStr, -, parsed⟩
  rcases exists_of_bind_ok parsed with ⟨osType, -, parsed⟩
  rcases exists_of_bind_ok parsed with ⟨architectureStr, -, parsed⟩
  rcases exists_of_bind_ok parsed with ⟨architecture, -, parsed⟩
  rcases exists_of_bind_ok parsed with ⟨distributionStr, -, parsed⟩
  rcases exists_of_bind_ok parsed with ⟨distribution, -, parsed⟩
  rcases exists_of_bind_ok parsed with ⟨version, version_eq, parsed⟩
  rw [← Except.ok.inj parsed]
  exact parseDistributionInfoFile_isValueByte fields_eq (getElem?_of_requireField version_eq)

end Reading

end DistributionInfo

end OsConfig.ComplianceEngine
