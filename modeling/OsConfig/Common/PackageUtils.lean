import OsConfig.Common.FileUtils
import OsConfig.Common.Reasons

/-!
# Installed packages

The list of installed packages is the output of a package manager, kept as a text. It is asked for
again when there is none or when a command that may have changed it requested so. A package is
searched for in the text.

What the commands answer is left to the environment of a call. Allocations succeed.
-/

namespace OsConfig.CommonUtils

/-- The package managers that are present. -/
structure PackageManagers where
  aptGet : Bool
  dpkg : Bool
  tdnf : Bool
  dnf : Bool
  yum : Bool
  zypper : Bool
  rpm : Bool
  deriving DecidableEq

/-- The status of a command and the text it printed, if any was returned. -/
structure CommandResult where
  status : ℤ
  results : Option ByteString

/-- What the commands answer during a call. -/
structure PackageEnvironment where
  isPresent : PackageManagers
  executeCommand : ByteString → CommandResult

/-- What happened to the list of installed packages. -/
inductive PackageEvent where
  | refreshRequested
  | enumerated (managers : PackageManagers) (output : ByteString)
  deriving DecidableEq

/-- The static variables of `PackageUtils.c`. -/
structure PackageCache where
  /-- The package managers, once their presence has been checked. -/
  present : Option PackageManagers
  /-- `g_updateInstalledPackagesCache` -/
  update : Bool
  /-- `g_installedPackagesCache` -/
  installed : Option ByteString
  /-- What happened so far, the last event first. No function reads it. -/
  events : List PackageEvent

namespace PackageCache

def initial : PackageCache :=
  { present := none, update := false, installed := none, events := [] }

def checkPackageManagersPresence (environment : PackageEnvironment) (cache : PackageCache) :
    PackageManagers × PackageCache :=
  match cache.present with
  | some managers => (managers, cache)
  | none => (environment.isPresent, { cache with present := some environment.isPresent })

end PackageCache

/-- The command that `UpdateInstalledPackagesCache` runs. -/
def enumerationCommand (managers : PackageManagers) : Option ByteString :=
  if managers.aptGet || managers.dpkg then
    some (bytes "dpkg-query -W -f='$\x7bbinary:Package\x7d\n'")
  else if managers.rpm then some (bytes "rpm -qa --queryformat \"%\x7bNAME\x7d\\n\"")
  else if managers.tdnf then
    some (bytes "tdnf list installed --cacheonly | awk '\x7bprint $1\x7d'")
  else if managers.dnf then
    some (bytes "dnf list installed --cacheonly | awk '\x7bprint $1\x7d'")
  else if managers.yum then
    some (bytes "yum list installed --cacheonly | awk '\x7bprint $1\x7d'")
  else if managers.zypper then some (bytes "zypper search -i")
  else none

/-- What the enumeration of all packages answers. Without a package manager it fails. -/
def enumerateAllPackages (environment : PackageEnvironment) (managers : PackageManagers) :
    CommandResult :=
  match enumerationCommand managers with
  | some command => environment.executeCommand command
  | none => ⟨enoent, none⟩

/-- `UpdateInstalledPackagesCache`. A failure leaves the cache as it is. -/
def updateInstalledPackagesCache (environment : PackageEnvironment) (cache : PackageCache) :
    ℤ × PackageCache :=
  let (managers, cache) := cache.checkPackageManagersPresence environment
  let result := enumerateAllPackages environment managers
  match result.results with
  | some output =>
      if result.status = 0 then
        (0, { cache with
          installed := some (10 :: ByteString.cString output)
          events := .enumerated managers (ByteString.cString output) :: cache.events })
      else (result.status, cache)
  | none => (if result.status ≠ 0 then result.status else enoent, cache)

def searchTarget (managers : PackageManagers) (packageName : ByteString) : ByteString :=
  if managers.aptGet || managers.dpkg || managers.rpm then
    bytes "\n" ++ packageName ++ bytes "\n"
  else if managers.tdnf || managers.dnf || managers.yum then
    bytes "\n" ++ packageName ++ bytes ".x86_64\n"
  else bytes "| " ++ packageName ++ bytes " "

/-- Whether `IsPackageInstalled` enumerates the packages again. -/
def PackageCache.needsUpdate (cache : PackageCache) : Bool :=
  cache.update || cache.installed.isNone

/-- `IsPackageInstalled`. A name may be `NULL`. -/
def isPackageInstalled (environment : PackageEnvironment) (packageName : Option ByteString)
    (cache : PackageCache) : ℤ × PackageCache :=
  let packageName := packageName.getD []
  if packageName = [] then (einval, cache)
  else
    let (managers, cache) := cache.checkPackageManagersPresence environment
    let (status, cache) :=
      if cache.needsUpdate then
        updateInstalledPackagesCache environment { cache with update := false }
      else (0, cache)
    match cache.installed with
    | none => (enoent, cache)
    | some installed =>
        if status = 0 then
          (if searchTarget managers packageName <:+: installed then 0 else enoent, cache)
        else (status, cache)

def wildcardsPresent (packageName : ByteString) : Bool :=
  42 ∈ packageName || 94 ∈ packageName

def installedText (packageName : ByteString) : ByteString :=
  if wildcardsPresent packageName then
    bytes "Some '" ++ packageName ++ bytes "' packages are installed"
  else bytes "Package '" ++ packageName ++ bytes "' is installed"

def notInstalledText (packageName : ByteString) : ByteString :=
  if wildcardsPresent packageName then
    bytes "No '" ++ packageName ++ bytes "' packages are installed"
  else bytes "Package '" ++ packageName ++ bytes "' is not installed"

/-- The text on a status that says nothing about the package. -/
def internalErrorText (result : ℤ) : ByteString :=
  bytes "Internal error: " ++ Numerals.renderInt 10 result

def checkPackageInstalled (environment : PackageEnvironment) (packageName : Option ByteString)
    (reason : Option ByteString) (cache : PackageCache) :
    ℤ × Option ByteString × PackageCache :=
  let (result, cache) := isPackageInstalled environment packageName cache
  if result = 0 then
    (result, captureSuccessReason reason (installedText (packageName.getD [])), cache)
  else if result ≠ einval ∧ result ≠ enomem then
    (result, captureReason reason (notInstalledText (packageName.getD [])), cache)
  else (result, captureReason reason (internalErrorText result), cache)

def checkPackageNotInstalled (environment : PackageEnvironment) (packageName : Option ByteString)
    (reason : Option ByteString) (cache : PackageCache) :
    ℤ × Option ByteString × PackageCache :=
  let (result, cache) := isPackageInstalled environment packageName cache
  if result = 0 then
    (enoent, captureReason reason (installedText (packageName.getD [])), cache)
  else if result ≠ einval ∧ result ≠ enomem then
    (0, captureSuccessReason reason (notInstalledText (packageName.getD [])), cache)
  else (result, captureReason reason (internalErrorText result), cache)

/-- What a package manager command requests after it ran. -/
def requestRefresh (cache : PackageCache) : PackageCache :=
  { cache with update := true, events := .refreshRequested :: cache.events }

/-- The calls that touch the list of installed packages. -/
inductive PackageCall where
  | isPackageInstalled (packageName : Option ByteString)
  | checkPackageInstalled (packageName reason : Option ByteString)
  | checkPackageNotInstalled (packageName reason : Option ByteString)
  | requestRefresh

/-- What a call leaves. -/
def PackageCall.next (environment : PackageEnvironment) (cache : PackageCache) :
    PackageCall → PackageCache
  | .isPackageInstalled packageName =>
      (CommonUtils.isPackageInstalled environment packageName cache).2
  | .checkPackageInstalled packageName reason =>
      (CommonUtils.checkPackageInstalled environment packageName reason cache).2.2
  | .checkPackageNotInstalled packageName reason =>
      (CommonUtils.checkPackageNotInstalled environment packageName reason cache).2.2
  | .requestRefresh => CommonUtils.requestRefresh cache

/-- What a sequence of calls leaves, each with what the commands answer during it. -/
def runCalls (calls : List (PackageCall × PackageEnvironment)) : PackageCache :=
  calls.foldl (fun cache (call, environment) => call.next environment cache) .initial

end OsConfig.CommonUtils
