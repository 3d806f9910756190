import OsConfig.Common.Columns
import OsConfig.ComplianceEngine.Procedures.FilePermissions
import OsConfig.ComplianceEngine.Procedures.PackageInstalled.Versions

/-!
# Installed packages

`AuditPackageInstalled` looks for a package in a list of packages. The list comes
from the package manager, and is kept in a cache file for a while. A package that
is listed more than once has the version that is listed last.
-/

namespace OsConfig.ComplianceEngine.PackageInstalled

open ByteString

inductive PackageManagerType where
  | autodetect
  | rpm
  | dpkg
  deriving DecidableEq

def PackageManagerType.toString : PackageManagerType → ByteString
  | .autodetect => bytes "autodetect"
  | .rpm => bytes "rpm"
  | .dpkg => bytes "dpkg"

/-- `std::map<std::string, std::string>`. -/
abbrev PackageMap := Std.ExtTreeMap ByteString ByteString

structure PackageCache where
  lastUpdateTime : BitVec 64
  packageManager : PackageManagerType := .autodetect
  packages : PackageMap := ∅

/-- The assignments `packages[name] = version` in turn. -/
def assign (packages : PackageMap) (entries : List (ByteString × ByteString)) : PackageMap :=
  entries.foldl (fun packages (name, version) => packages.insert name version) packages

/-- The texts before and after the first space of a line. -/
def spaceEntry (line : ByteString) : Option (ByteString × ByteString) :=
  if 32 ∈ line then
    some (line.takeWhile fun byte => byte ≠ 32, (line.dropWhile fun byte => byte ≠ 32).drop 1)
  else
    none

section CacheFile

def cacheHeader : ByteString :=
  bytes "# PackageCache "

/-- The package managers that a header may name. -/
def readManager (text : ByteString) : Option PackageManagerType :=
  if text = bytes "dpkg" then some .dpkg else if text = bytes "rpm" then some .rpm else none

/-- `LoadPackageCache`, given the content of the file, if it can be opened, and whether reading
it fails. -/
def loadPackageCache (path : ByteString) (file : Option ByteString) (bad : Bool) :
    Result PackageCache :=
  match file with
  | none => .error { message := bytes "Failed to open cache file: " ++ path }
  | some content =>
      match getLines content with
      | [] => .error { message := bytes "Invalid cache file format" }
      | header :: lines =>
          if ¬startsWith header cacheHeader then
            .error { message := bytes "Invalid cache file format" }
          else if 64 ∉ header then
            .error { message := bytes "Invalid cache file header format" }
          else
            match readManager ((header.takeWhile fun byte => byte ≠ 64).drop cacheHeader.length) with
            | none => .error { message := bytes "Invalid package manager type" }
            | some packageManager =>
                match readSigned 64 ((header.dropWhile fun byte => byte ≠ 64).drop 1) with
                | none => .error { message := bytes "Invalid timestamp in cache file header" }
                | some (time, _) =>
                    if bad then .error { message := bytes "Error reading cache file" }
                    else
                      .ok { lastUpdateTime := BitVec.ofInt 64 time, packageManager
                            packages := assign ∅ (lines.filterMap spaceEntry) }

def cacheLine (package : ByteString × ByteString) : ByteString :=
  package.1 ++ 32 :: package.2

def headerLine (cache : PackageCache) : ByteString :=
  cacheHeader ++ cache.packageManager.toString ++ 64 ::
    Numerals.renderInt 10 cache.lastUpdateTime.toInt

/-- What is written to a cache file. -/
def cacheText (cache : PackageCache) : ByteString :=
  (headerLine cache :: cache.packages.toList.map cacheLine).flatMap fun line => line ++ [10]

/-- How the calls that write a cache file turn out. -/
structure SaveRequests where
  /-- The file that `mkstemp` creates for a template, if it does. -/
  mkstemp : ByteString → Option ByteString
  opens : Bool := true
  writesHeader : Bool := true
  /-- Whether all packages are written. -/
  writesPackages : Bool := true
  closes : Bool := true
  renames : Bool := true

/-- The contents of the files. -/
abbrev Files := ByteString → Option ByteString

/-- `SavePackageCache`. Once the temporary file exists it is renamed or removed. -/
def savePackageCache (requests : SaveRequests) (cache : PackageCache) (path : ByteString)
    (files : Files) : Result ℤ × Files :=
  let template := (cString (path ++ bytes ".tmp.XXXXXX")).take 4095
  match requests.mkstemp template with
  | none => (.error { message := bytes "Failed to create temporary file" }, files)
  | some tempPath =>
      let removed := Function.update files tempPath none
      if ¬requests.opens then
        (.error { message := bytes "Failed to open temporary file for writing: " ++ tempPath },
          removed)
      else if ¬requests.writesHeader then
        (.error { message := bytes "Failed to write header to temporary file" }, removed)
      else if ¬requests.writesPackages then
        (.error { message := bytes "Failed to write package name to temporary file" }, removed)
      else if ¬requests.closes then
        (.error { message := bytes "Failed to close temporary file" }, removed)
      else if ¬requests.renames then
        let message := bytes "Failed to rename temporary file to target path: " ++ tempPath ++
          bytes "->" ++ path
        (.error { message }, removed)
      else
        (.ok 0, Function.update removed (cString path) (some (cacheText cache)))

end CacheFile

section Listing

variable (executeCommand : ByteString → Result ByteString) (time : BitVec 64)

def detectPackageManager : Result PackageManagerType :=
  match executeCommand (bytes "dpkg -l dpkg"), executeCommand (bytes "rpm -q rpm"),
      executeCommand (bytes "rpm -q rpm-ndb") with
  | .ok _, _, _ => .ok .dpkg
  | .error _, .ok _, _ => .ok .rpm
  | .error _, .error _, .ok _ => .ok .rpm
  | .error _, .error _, .error _ =>
      .error { message := bytes "No package manager found", code := Errno.ENOENT }

def rpmCommand : ByteString :=
  bytes "rpm -qa --qf='%\x7bNAME\x7d %\x7bEVR\x7d\n'"

def dpkgCommand : ByteString :=
  bytes "dpkg -l"

def getInstalledPackagesRpm : Result PackageCache :=
  match executeCommand rpmCommand with
  | .error _ => .error { message := bytes "Failed to execute rpm command" }
  | .ok output =>
      .ok { lastUpdateTime := time, packageManager := .rpm
            packages := assign ∅ ((getLines output).filterMap spaceEntry) }

/-- The line behind which the packages are listed. -/
def isDpkgHeader (line : ByteString) : Bool :=
  startsWith line (bytes "+++-")

/-- The name of a package that is installed, without its architecture, and the version. -/
def dpkgEntry (line : ByteString) : Option (ByteString × ByteString) :=
  if startsWith line (bytes "ii ") then
    match columns line with
    | _ :: name :: rest => some (name.takeWhile fun byte => byte ≠ 58, rest.head?.getD [])
    | _ => none
  else
    none

def getInstalledPackagesDpkg : Result PackageCache :=
  match executeCommand dpkgCommand with
  | .error _ => .error { message := bytes "Failed to execute dpkg command" }
  | .ok output =>
      let lines := ((getLines output).dropWhile fun line => !isDpkgHeader line).drop 1
      .ok { lastUpdateTime := time, packageManager := .dpkg
            packages := assign ∅ (lines.filterMap dpkgEntry) }

def getInstalledPackages (packageManager : PackageManagerType) : Result PackageCache :=
  match packageManager with
  | .rpm => getInstalledPackagesRpm executeCommand time
  | .dpkg => getInstalledPackagesDpkg executeCommand time
  | .autodetect =>
      .error { message := bytes "Unsupported package manager: " ++ packageManager.toString }

end Listing

section Audit

structure PackageInstalledParams where
  packageName : ByteString
  minPackageVersion : Option ByteString := none
  packageManager : Option PackageManagerType := some .autodetect

def packageListTtl : ℤ := 3000

def packageListStaleTtl : ℤ := 12600

/-- What the audit asks the system for. -/
structure PackageContext where
  executeCommand : ByteString → Result ByteString
  /-- The path of the cache file. -/
  cachePath : ByteString
  /-- Whether reading the cache file fails. -/
  bad : Bool := false
  /-- The time when the age of the cache is computed. -/
  now : BitVec 64
  /-- The time when the packages are listed. -/
  listedAt : BitVec 64
  requests : SaveRequests

/-- The package manager that the audit asks and the cache that it uses unless it lists the
packages again. -/
structure CacheState where
  packageManager : PackageManagerType
  cache : Option PackageCache
  /-- Neither out of date nor to be renewed. -/
  fresh : Bool

/-- The part of the audit up to the look at the age of the cache. -/
def readCache (context : PackageContext) (packageManager : PackageManagerType)
    (files : Files) : Result CacheState :=
  match loadPackageCache context.cachePath (files (cString context.cachePath)) context.bad with
  | .error _ =>
      if packageManager = .autodetect then
        (detectPackageManager context.executeCommand).map fun packageManager =>
          { packageManager, cache := none, fresh := false }
      else
        .ok { packageManager, cache := none, fresh := false }
  | .ok cache =>
      if packageManager ≠ .autodetect ∧ cache.packageManager ≠ packageManager then
        .ok { packageManager, cache := none, fresh := false }
      else
        let cacheAge := (context.now - cache.lastUpdateTime).toInt
        if packageListStaleTtl < cacheAge then
          .ok { packageManager := cache.packageManager, cache := none, fresh := false }
        else
          .ok { packageManager := cache.packageManager, cache := some cache
                fresh := ¬packageListTtl < cacheAge }

/-- The packages that the audit looks at, and the files behind it. A cache that should be renewed
and cannot be is used again. -/
def currentPackages (context : PackageContext) (state : CacheState) (files : Files) :
    Result PackageMap × Files :=
  match state.cache, state.fresh with
  | some cache, true => (.ok cache.packages, files)
  | stale, _ =>
      match getInstalledPackages context.executeCommand context.listedAt state.packageManager with
      | .ok cache =>
          (.ok cache.packages, (savePackageCache context.requests cache context.cachePath files).2)
      | .error failure =>
          match stale with
          | some cache => (.ok cache.packages, files)
          | none =>
              (.error { message := bytes "Failed to get installed packages: " ++ failure.message },
                files)

/-- The part of the audit that looks for the package. -/
def auditPackages (params : PackageInstalledParams) (packages : PackageMap) : Ending :=
  match packages[params.packageName]? with
  | none => .nonCompliant (bytes "Package " ++ params.packageName ++ bytes " is not installed")
  | some installedVersion =>
      match params.minPackageVersion with
      | none => .compliant (bytes "Package " ++ params.packageName ++ bytes " is installed")
      | some minimum =>
          if versionCompare installedVersion minimum < 0 then
            .nonCompliant (bytes "Package " ++ params.packageName ++
              bytes " is installed but version " ++ installedVersion ++
              bytes " is less than minimum required version " ++ minimum)
          else
            .compliant (bytes "Package " ++ params.packageName ++
              bytes " is installed with version " ++ installedVersion ++
              bytes ", which meets or exceeds the minimum required version " ++ minimum)

/-- `AuditPackageInstalled`. Nothing is answered where the assertion that a package manager is
given fails. -/
def auditPackageInstalled (context : PackageContext) (params : PackageInstalledParams)
    (files : Files) : Option (Report Files) :=
  params.packageManager.map fun packageManager =>
    match readCache context packageManager files with
    | .error failure => { result := .error failure, indicators := [], context := files }
    | .ok state =>
        match currentPackages context state files with
        | (.error failure, files) => { result := .error failure, indicators := [], context := files }
        | (.ok packages, files) => (auditPackages params packages).after [] files

end Audit

end OsConfig.ComplianceEngine.PackageInstalled
