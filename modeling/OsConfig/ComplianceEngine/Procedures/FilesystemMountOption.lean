import OsConfig.Common.MountTable
import OsConfig.ComplianceEngine.Procedures.FilePermissions
import OsConfig.ComplianceEngine.StringTools

/-!
# Mount options

The audit compares the options of a mount point in `/etc/fstab` and in
`/etc/mtab` with what is required. The remediation rewrites the line of the mount
point in `/etc/fstab` and mounts the file system again. It finds the line by the
number that was counted when the file was read.

A file is read byte by byte and through `getmntent`. Loops take at most a given
number of steps, because one of them need not end.
-/

namespace OsConfig.ComplianceEngine

open OsConfig ByteString CommonUtils

/-- `FilesystemMountOptionParams` -/
structure FilesystemMountOptionParams where
  mountpoint : ByteString
  optionsSet : Option (List ByteString)
  optionsNotSet : Option (List ByteString)

namespace FilesystemMountOption

section Reading

/-- A file that is open: what is left to read, and whether a read has come to the end. -/
structure FileStream where
  rest : ByteString
  eof : Bool := false

/-- `getmntent` behind a part of a line. -/
def getmntentFrom (line : ByteString) : ByteString → Option MountEntry × FileStream
  | [] => (MountTable.readEntry line, { rest := [], eof := true })
  | byte :: rest =>
      if byte = 10 then
        match MountTable.readEntry line with
        | some entry => (some entry, { rest })
        | none => getmntentFrom [] rest
      else
        getmntentFrom (line ++ [byte]) rest

/-- The next entry of a mount table. -/
def getmntent (rest : ByteString) : Option MountEntry × FileStream :=
  getmntentFrom [] rest

structure FstabEntry where
  device : ByteString
  filesystem : ByteString
  options : List ByteString
  dump : BitVec 32
  pass : BitVec 32
  lineno : ℕ
  deriving DecidableEq

/-- The entries by their mount points. -/
abbrev FstabMap := ByteString → Option FstabEntry

/-- The pieces that `std::getline` reads up to a delimiter. -/
def getPieces (delimiter : UInt8) (text : ByteString) : List ByteString :=
  let parts := text.splitOn delimiter
  if parts.getLast? = some [] then parts.dropLast else parts

def FstabEntry.ofMountEntry (lineno : ℕ) (mnt : MountEntry) : FstabEntry where
  device := mnt.fsname
  filesystem := mnt.type
  options := getPieces 44 mnt.opts
  dump := mnt.freq
  pass := mnt.passno
  lineno

/-- `fstabMap[mnt->mnt_dir] = entry` -/
def FstabMap.insert (lineno : ℕ) (mnt : MountEntry) (fstabMap : FstabMap) : FstabMap :=
  Function.update fstabMap mnt.dir (some (.ofMountEntry lineno mnt))

/-- The loop that reads up to a newline. At the end of the file the byte does not change. -/
def skipLine : ℕ → UInt8 → ByteString → Option ByteString
  | 0, byte, rest => if byte = 10 then some rest else none
  | steps + 1, byte, rest =>
      if byte = 10 then some rest
      else
        match rest with
        | [] => skipLine steps byte []
        | next :: rest => skipLine steps next rest

/-- The loop of `ParseFstab`. -/
def parseLoop : ℕ → FileStream → ℕ → FstabMap → Option FstabMap
  | 0, _, _, _ => none
  | steps + 1, stream, lineno, fstabMap =>
      if stream.eof then some fstabMap
      else
        match stream.rest with
        | [] => some fstabMap
        | byte :: rest =>
            if byte = 35 ∨ byte = 10 then
              match skipLine steps byte rest with
              | none => none
              | some rest => parseLoop steps { rest } (lineno + 1) fstabMap
            else
              match getmntent (byte :: rest) with
              | (none, stream) => parseLoop steps stream (lineno + 1) fstabMap
              | (some mnt, stream) =>
                  parseLoop steps stream (lineno + 1) (fstabMap.insert (lineno + 1) mnt)

/-- `ParseFstab` on the content of a file. -/
def parseFstab (steps : ℕ) (content : ByteString) : Option FstabMap :=
  parseLoop steps { rest := content } 0 fun _ => none

end Reading

section Options

/-- The elements of a `std::set` in their order. -/
def setOf (items : Option (List ByteString)) : List ByteString :=
  ((items.getD []).insertionSort (· ≤ ·)).dedup

def checkOptions (options optionsSet optionsNotSet : List ByteString) :
    Verdict × List Indicator :=
  let set := (optionsSet.takeWhile (· ∈ options)).map fun option =>
    FilePermissions.matched (bytes "Required option is set: " ++ option)
  let notSet := (optionsNotSet.takeWhile (· ∉ options)).map fun option =>
    FilePermissions.matched (bytes "Forbidden option is not set: " ++ option)
  match optionsSet.find? (· ∉ options), optionsNotSet.find? (· ∈ options) with
  | some option, _ =>
      let message := bytes "Required option not set: " ++ option
      (.nonCompliant, set ++ [{ message, status := .nonCompliant }])
  | none, some option =>
      let message := bytes "Forbidden option is set: " ++ option
      (.nonCompliant, set ++ notSet ++ [{ message, status := .nonCompliant }])
  | none, none =>
      let message := bytes "All required options are set and no forbidden options are set"
      (.compliant, set ++ notSet ++ [FilePermissions.matched message])

/-- The options of the line that is written, in their order. -/
def writtenOptions (options optionsSet optionsNotSet : List ByteString) : List ByteString :=
  options.filter (· ∉ optionsNotSet) ++ optionsSet.filter (· ∉ options)

end Options

section Files

/-- The mount tables and the files that the remediation makes. -/
structure MountFiles where
  fstab : Option ByteString
  mtab : Option ByteString
  temporary : Option ByteString := none
  backup : Option ByteString := none

/-- What the requests to the system answer. -/
structure MountRequests where
  /-- Why a file cannot be opened. -/
  openError : ByteString → ByteString
  backupError : Option ℕ := none
  renameError : Option ℕ := none
  executeCommand : ByteString → Result ByteString

def fstabPath : ByteString := bytes "/etc/fstab"

def mtabPath : ByteString := bytes "/etc/mtab"

/-- `ParseFstab` on a file. -/
def MountRequests.parseFile (requests : MountRequests) (steps : ℕ) (filePath : ByteString)
    (content : Option ByteString) : Option (Result FstabMap) :=
  match content with
  | none =>
      some (.error { message := bytes "Failed to open file " ++ filePath ++ bytes " with error " ++
        requests.openError filePath })
  | some content => (parseFstab steps content).map .ok

/-- The two tables, as both procedures read them. -/
def MountRequests.parseFiles (requests : MountRequests) (steps : ℕ) (files : MountFiles) :
    Option (Result (FstabMap × FstabMap)) :=
  match requests.parseFile steps fstabPath files.fstab with
  | none => none
  | some (.error failure) => some (.error failure)
  | some (.ok fstabEntries) =>
      match requests.parseFile steps mtabPath files.mtab with
      | none => none
      | some (.error failure) => some (.error failure)
      | some (.ok mtabEntries) => some (.ok (fstabEntries, mtabEntries))

/-- The check of the audit for one table. -/
def auditEntry (params : FilesystemMountOptionParams) (filePath : ByteString)
    (entries : FstabMap) : Verdict × List Indicator :=
  match entries params.mountpoint with
  | some entry =>
      checkOptions entry.options (setOf params.optionsSet) (setOf params.optionsNotSet)
  | none =>
      (.compliant, [FilePermissions.matched
        (bytes "Mountpoint " ++ params.mountpoint ++ bytes " not found in " ++ filePath)])

def auditFilesystemMountOption (requests : MountRequests) (steps : ℕ)
    (params : FilesystemMountOptionParams) (files : MountFiles) : Option (Report MountFiles) :=
  match requests.parseFiles steps files with
  | none => none
  | some (.error failure) =>
      some { result := .error failure, indicators := [], context := files }
  | some (.ok (fstabEntries, mtabEntries)) =>
      match auditEntry params fstabPath fstabEntries with
      | (.nonCompliant, indicators) =>
          some { result := .ok .nonCompliant, indicators, context := files }
      | (.compliant, indicators) =>
          match auditEntry params mtabPath mtabEntries with
          | (.nonCompliant, others) =>
              some
                { result := .ok .nonCompliant
                  indicators := indicators ++ others
                  context := files }
          | (.compliant, others) =>
              some ((Ending.compliant
                (bytes "All /etc/fstab and /etc/mtab options are verified")).after
                (indicators ++ others) files)

def writtenLine (mountpoint : ByteString) (entry : FstabEntry)
    (optionsSet optionsNotSet : List ByteString) : ByteString :=
  let options := writtenOptions entry.options optionsSet optionsNotSet
  let text := entry.device ++ [32] ++ mountpoint ++ [32] ++ entry.filesystem ++ [32] ++
    options.flatMap fun option => option ++ [44]
  -- The last character is overwritten.
  text.dropLast ++ [32] ++ printInt entry.dump ++ [32] ++ printInt entry.pass ++ [10]

/-- The lines of a file, with the given text for the line of the given number. -/
def replaceLine (content : ByteString) (lineno : ℕ) (text : ByteString) : ByteString :=
  ((getLines content).zipIdx 1).flatMap fun (line, number) =>
    if number = lineno then text else line ++ [10]

/-- The part of the remediation that rewrites `/etc/fstab`. -/
def updateFstab (requests : MountRequests) (params : FilesystemMountOptionParams)
    (fstabEntries : FstabMap) (content : ByteString) (files : MountFiles) : Report MountFiles :=
  let optionsSet := setOf params.optionsSet
  let optionsNotSet := setOf params.optionsNotSet
  match fstabEntries params.mountpoint with
  | none => { result := .ok .compliant, indicators := [], context := files }
  | some entry =>
      match checkOptions entry.options optionsSet optionsNotSet with
      | (.compliant, indicators) => { result := .ok .compliant, indicators, context := files }
      | (.nonCompliant, indicators) =>
          let text := writtenLine params.mountpoint entry optionsSet optionsNotSet
          let written := replaceLine content entry.lineno text
          let removed := (entry.options.filter (· ∈ optionsNotSet)).map fun option =>
            FilePermissions.matched (bytes "Forbidden option " ++ option ++ bytes " removed")
          let updated := FilePermissions.matched (bytes "Updated fstab entry for " ++
            params.mountpoint ++ bytes " with options: " ++ text)
          let indicators := indicators ++
            (if entry.lineno ≤ (getLines content).length then removed ++ [updated] else [])
          match requests.backupError with
          | some errno =>
              let message := bytes "Failed to backup " ++ fstabPath ++ bytes " with error " ++
                toDecimal errno
              let context := { files with temporary := some written }
              { result := .error { message }, indicators, context }
          | none =>
              match requests.renameError with
              | some errno =>
                  let message := bytes "Failed to rename " ++ fstabPath ++
                    bytes ".tmp with error " ++ toDecimal errno
                  let context :=
                    { files with fstab := none, backup := some content, temporary := some written }
                  { result := .error { message }, indicators, context }
              | none =>
                  let context :=
                    { files with fstab := some written, backup := some content, temporary := none }
                  { result := .ok .compliant, indicators, context }

/-- The part of the remediation that mounts the file system again. -/
def remount (requests : MountRequests) (params : FilesystemMountOptionParams)
    (mtabEntries : FstabMap) : Ending :=
  match mtabEntries params.mountpoint with
  | none => { result := .ok .compliant }
  | some entry =>
      match checkOptions entry.options (setOf params.optionsSet) (setOf params.optionsNotSet) with
      | (.compliant, indicators) => { result := .ok .compliant, indicators }
      | (.nonCompliant, indicators) =>
          let command := bytes "/sbin/mount -o remount \"" ++ escapeForShell params.mountpoint ++
            bytes "\""
          match requests.executeCommand command with
          | .error failure =>
              let message := bytes "Failed to remount " ++ params.mountpoint ++ bytes ": " ++
                failure.message
              { result := .error { failure with message }, indicators }
          | .ok _ =>
              let message := bytes "Remounted " ++ params.mountpoint ++ bytes " with options: " ++
                command
              { result := .ok .compliant
                indicators := indicators ++ [FilePermissions.matched message] }

def remediateFilesystemMountOption (requests : MountRequests) (steps : ℕ)
    (params : FilesystemMountOptionParams) (files : MountFiles) : Option (Report MountFiles) :=
  match requests.parseFiles steps files with
  | none => none
  | some (.error failure) =>
      some { result := .error failure, indicators := [], context := files }
  | some (.ok (fstabEntries, mtabEntries)) =>
      let updated := updateFstab requests params fstabEntries (files.fstab.getD []) files
      match updated.result with
      | .error _ => some updated
      | .ok _ => some ((remount requests params mtabEntries).after updated.indicators updated.context)

end Files

end FilesystemMountOption

end OsConfig.ComplianceEngine
