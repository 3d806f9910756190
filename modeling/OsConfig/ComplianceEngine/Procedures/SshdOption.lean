import OsConfig.Common.Reasons
import OsConfig.Common.Streams
import OsConfig.Library.Worklist

/-!
# Reading the configuration of the SSH server

The conditions of the `Match` blocks are collected from the main configuration
file and from the files that it includes, directly or through others. A file is
read each time it is included: nothing is remembered about the files that have
been read before. So the reading ends if and only if no file on the way includes
itself, directly or through others.

What a name leads to, the regular files under a directory and `fnmatch` are
parameters. Several names may lead to one file.
-/

namespace OsConfig.ComplianceEngine.SshdOption

open ByteString CommonUtils

/-- A finite set of files and the directories they are in. -/
structure SshdFiles where
  contents : List ByteString
  resolve : ByteString → Option (Fin contents.length)
  /-- The path and the name of each regular file under a directory. -/
  regularFiles : ByteString → List (ByteString × ByteString)
  fnmatch : ByteString → ByteString → Bool

def sshdConfig : ByteString := bytes "/etc/ssh/sshd_config"

section Lines

/-- The directive of a line in lower case, and what follows it. -/
def readDirective (line : ByteString) : Option (ByteString × ByteString) :=
  let line : ByteString := line.dropWhile fun byte => byte = 32 || byte = 9
  if line.isEmpty || line.head? = some 35 then none
  else
    match readWord line with
    | none => none
    | some (directive, rest) => some (directive.map toLower, rest)

/-- The file that is included, or the files under a directory that match a pattern. -/
def SshdFiles.includedFiles (files : SshdFiles) (includeFile : ByteString) : List ByteString :=
  let directory := (includeFile.rdropWhile (· ≠ 47)).dropLast
  let pattern := includeFile.rtakeWhile (· ≠ 47)
  if 47 ∈ includeFile ∧ 42 ∈ pattern then
    ((files.regularFiles (cString directory)).filter fun (_, name) =>
      files.fnmatch (cString pattern) name).map Prod.fst
  else
    [includeFile]

def SshdFiles.lineIncludes (files : SshdFiles) (line : ByteString) : List ByteString :=
  match readDirective line with
  | none => []
  | some (directive, rest) =>
      if directive = bytes "include" then
        match readWord rest with
        | none => []
        | some (includeFile, _) => files.includedFiles includeFile
      else
        []

/-- The types of conditions that are collected. -/
def matchTypes : List ByteString :=
  [bytes "user", bytes "group", bytes "host", bytes "port", bytes "address", bytes "localaddress"]

def lineMatches (line : ByteString) : List ByteString :=
  match readDirective line with
  | none => []
  | some (directive, rest) =>
      if directive = bytes "match" then
        let (type, rest) := (readWord rest).getD ([], [])
        let (value, _) := (readWord rest).getD ([], [])
        let type := type.map toLower
        let value := value.map toLower
        let value :=
          if type = bytes "address" ∨ type = bytes "localaddress" then value.takeWhile (· ≠ 47)
          else value
        if type ∈ matchTypes then [type ++ bytes "=" ++ value] else []
      else
        []

end Lines

namespace SshdFiles

/-- `context.GetFileContents` -/
def getFileContents (files : SshdFiles) (path : ByteString) : Option ByteString :=
  (files.resolve path).map files.contents.get

/-- The files that a file includes, in the order of its lines. -/
def includes (files : SshdFiles) (path : ByteString) : List ByteString :=
  match files.getFileContents path with
  | none => []
  | some text => (getLines text).flatMap files.lineIncludes

/-- The conditions of a file, in the order of its lines. -/
def fileMatches (files : SshdFiles) (path : ByteString) : List ByteString :=
  match files.getFileContents path with
  | none => []
  | some text => (getLines text).flatMap lineMatches

/-- `GetAllMatches`, as long as it reads at most the given number of files. -/
def getAllMatches (files : SshdFiles) (steps : ℕ) : Option (List ByteString) :=
  Worklist.run files.includes (fun allMatches path => allMatches ++ files.fileMatches path) steps []
    [sshdConfig]

/-- The first file includes the second one. -/
def Includes (files : SshdFiles) (path other : ByteString) : Prop :=
  other ∈ files.includes path

theorem finite_range_includes (files : SshdFiles) : (Set.range files.includes).Finite := by
  let included (file : Option (Fin files.contents.length)) : List ByteString :=
    match file.map files.contents.get with
    | none => []
    | some text => (getLines text).flatMap files.lineIncludes
  have split : files.includes = included ∘ files.resolve := rfl
  rw [split]
  exact (Set.finite_range included).subset (Set.range_comp_subset_range files.resolve included)

/-- The reading ends if and only if no file on the way includes itself. -/
theorem getAllMatches_returns_iff (files : SshdFiles) :
    (∃ steps, (files.getAllMatches steps).isSome) ↔
      ∀ path, Relation.ReflTransGen files.Includes sshdConfig path →
        ¬Relation.TransGen files.Includes path path := by
  have ends := Worklist.run_ends_iff files.finite_range_includes
    (fun allMatches path => allMatches ++ files.fileMatches path) [] [sshdConfig]
  rw [List.forall_mem_singleton] at ends
  exact ends

/-- A configuration that includes itself. -/
def selfIncluding : SshdFiles where
  contents := [bytes "Include /etc/ssh/sshd_config\n"]
  resolve path := if path = sshdConfig then some 0 else none
  regularFiles _ := []
  fnmatch _ _ := false

/-- No number of files that are read is enough. -/
theorem getAllMatches_selfIncluding :
    ¬∀ files : SshdFiles, ∃ steps, (files.getAllMatches steps).isSome := by
  intro returns
  have loop : selfIncluding.Includes sshdConfig sshdConfig := by
    unfold Includes
    decide
  obtain ⟨steps, ends⟩ := returns selfIncluding
  have acyclic : Worklist.Acyclic selfIncluding.includes sshdConfig :=
    Worklist.acyclic_of_acc (Worklist.acc_of_run ends sshdConfig (by simp))
  exact acyclic sshdConfig .refl (.single loop)

end SshdFiles

end OsConfig.ComplianceEngine.SshdOption
