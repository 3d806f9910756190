import OsConfig.ComplianceEngine.Result

/-!
# Walking a file tree

`FileTreeWalk` calls a callback for each entry of a directory tree, for a
directory after what is in it. It can be told to stop at the first entry that is
not compliant.

A tree is what the calls of the walk answer: `opendir`, `readdir` and `lstat`. The
error number is part of the state, because the loop over a directory ends with a
look at it. A call that succeeds leaves it alone, and so does logging.
-/

namespace OsConfig.ComplianceEngine.FileTreeWalk

open ByteString

mutual

/-- What `opendir` answers: an error number, or the entries. -/
inductive Directory (τ : Type) where
  | unopened (errno : ℤ)
  | opened (entries : Entries τ)

/-- What `readdir` answers, call by call, with what `lstat` answers for an entry. The error
number at the end is zero unless `readdir` fails. -/
inductive Entries (τ : Type) where
  | finish (errno : ℤ)
  | file (name : ByteString) (lstat : Except ℤ τ) (rest : Entries τ)
  | directory (name : ByteString) (tree : Directory τ) (lstat : Except ℤ τ) (rest : Entries τ)

end

/-- The error number, and what the callback works on. -/
structure Process (σ : Type) where
  errno : ℤ
  context : σ

abbrev FtwCallback (τ σ : Type) :=
  ByteString → ByteString → τ → Process σ → Result Status × Process σ

def maxDepth : ℕ := 32

variable {τ σ : Type} (strerror : ℤ → ByteString) (callback : FtwCallback τ σ)
  (breakOnNonCompliant : Bool)

def depthError : Error where
  message := bytes "Maximum recursion depth reached"

def failedTo (action path : ByteString) (errno : ℤ) : Error where
  message := bytes "Failed to " ++ action ++ bytes " '" ++ path ++ bytes "': " ++ strerror errno
  code := errno

def openError : ByteString → ℤ → Error :=
  failedTo strerror (bytes "open directory")

def lstatError : ByteString → ℤ → Error :=
  failedTo strerror (bytes "lstat")

def iterateError : ByteString → ℤ → Error :=
  failedTo strerror (bytes "iterate directory")

/-- `path + "/" + entry->d_name` -/
def childPath (path name : ByteString) : ByteString :=
  path ++ 47 :: name

/-- What follows the loop over a directory. -/
def afterLoop (path : ByteString) (result : Status) (process : Process σ) :
    Result Status × Process σ :=
  if process.errno ≠ 0 then (.error (iterateError strerror path process.errno), process)
  else (.ok result, process)

/-- The part of the body of the loop that looks at the entry itself. -/
def checkEntry (path name : ByteString) (lstat : Except ℤ τ) (result : Status)
    (process : Process σ) (next : Status → Process σ → Result Status × Process σ) :
    Result Status × Process σ :=
  match lstat with
  | .error errno =>
      (.error (lstatError strerror (childPath path name) errno), { process with errno })
  | .ok stat =>
      match callback path name stat process with
      | (.error failure, process) => (.error failure, process)
      | (.ok status, process) =>
          if status ≠ .compliant then
            if breakOnNonCompliant then afterLoop strerror path .nonCompliant process
            else next .nonCompliant process
          else
            next result process

mutual

/-- `FileTreeWalk` at a depth -/
def walk (depth : ℕ) (path : ByteString) :
    Directory τ → Process σ → Result Status × Process σ
  | .unopened errno, process =>
      if depth > maxDepth then (.error depthError, process)
      else if errno = Errno.ENOENT then (.ok .compliant, { process with errno })
      else (.error (openError strerror path errno), { process with errno })
  | .opened entries, process =>
      if depth > maxDepth then (.error depthError, process)
      else walkEntries depth path entries .compliant process

/-- The loop over the entries of a directory. -/
def walkEntries (depth : ℕ) (path : ByteString) :
    Entries τ → Status → Process σ → Result Status × Process σ
  | .finish errno, result, process => afterLoop strerror path result { process with errno }
  | .file name lstat rest, result, process =>
      checkEntry strerror callback breakOnNonCompliant path name lstat result
        { process with errno := 0 } fun result process =>
          walkEntries depth path rest result process
  | .directory name tree lstat rest, result, process =>
      if name = bytes "." ∨ name = bytes ".." then
        walkEntries depth path rest result { process with errno := 0 }
      else
        match walk (depth + 1) (childPath path name) tree { process with errno := 0 } with
        | (.error failure, process) => (.error failure, process)
        | (.ok status, process) =>
            if status ≠ .compliant ∧ breakOnNonCompliant then
              afterLoop strerror path .nonCompliant process
            else
              checkEntry strerror callback breakOnNonCompliant path name lstat
                (if status ≠ .compliant then .nonCompliant else result) process
                fun result process => walkEntries depth path rest result process

end

def fileTreeWalk (path : ByteString) (tree : Directory τ) (process : Process σ) :
    Result Status × Process σ :=
  walk strerror callback breakOnNonCompliant 0 path tree process

end OsConfig.ComplianceEngine.FileTreeWalk
