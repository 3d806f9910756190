import OsConfig.Common.Bytes

/-!
# Files

What the file utilities do to the regular files of a system. A file is known by
its directory and its name there: two paths lead to the same file if their
directories are the same and their names are.

The operating system serves every request, so an operation fails only for its
own reasons. Owners, access rights and locks are left out.
-/

namespace OsConfig

/-- The regular files, and the directories that paths lead to. -/
structure FileSystem where
  directory : ByteString → ByteString
  content : ByteString × ByteString → Option ByteString

namespace CommonUtils

def enoent : ℤ := 2

def enomem : ℤ := 12

def eacces : ℤ := 13

def eexist : ℤ := 17

def einval : ℤ := 22

/-- The part of a path after its last slash. -/
def basename (path : ByteString) : ByteString :=
  path.rtakeWhile (· ≠ 47)

def dirname (path : ByteString) : ByteString :=
  let parent := ((path.rdropWhile (· = 47)).rdropWhile (· ≠ 47)).rdropWhile (· = 47)
  if parent ≠ [] then parent else if path.head? = some 47 then bytes "/" else bytes "."

theorem basename_append {directory name : ByteString} (plain : 47 ∉ name) :
    basename (directory ++ 47 :: name) = name := by
  have all : name.rtakeWhile (· ≠ (47 : UInt8)) = name := by
    rw [List.rtakeWhile_eq_self_iff]
    intro byte mem
    have differs : byte ≠ 47 := ne_of_mem_of_not_mem mem plain
    simpa using differs
  rw [basename, List.rtakeWhile, List.reverse_append, List.reverse_cons, List.append_assoc,
    List.singleton_append, List.takeWhile_append_of_pos, List.takeWhile_cons_of_neg (by simp),
    List.append_nil, List.reverse_reverse]
  intro byte mem
  have differs : byte ≠ 47 := ne_of_mem_of_not_mem (List.mem_reverse.mp mem) plain
  simpa using differs

theorem slash_notMem_toDecimal (number : ℕ) : 47 ∉ toDecimal number := fun mem =>
  absurd (Numerals.isDecimal_of_mem_render mem) (by decide)

end CommonUtils

namespace FileSystem

open CommonUtils

def entry (fs : FileSystem) (path : ByteString) : ByteString × ByteString :=
  (fs.directory (dirname path), basename path)

def read (fs : FileSystem) (path : ByteString) : Option ByteString :=
  fs.content (fs.entry path)

def fileExists (fs : FileSystem) (path : ByteString) : Bool :=
  (fs.read path).isSome

def write (fs : FileSystem) (path content : ByteString) : FileSystem :=
  { fs with content := Function.update fs.content (fs.entry path) (some content) }

def remove (fs : FileSystem) (path : ByteString) : FileSystem :=
  { fs with content := Function.update fs.content (fs.entry path) none }

/-- Renaming a file to itself does nothing. -/
def rename (fs : FileSystem) (original target : ByteString) : FileSystem :=
  match fs.read original with
  | some content =>
      if fs.entry original = fs.entry target then fs
      else (fs.remove original).write target content
  | none => fs

variable {fs : FileSystem} {path other content : ByteString}

@[simp]
theorem entry_write : (fs.write path content).entry other = fs.entry other := rfl

@[simp]
theorem entry_remove : (fs.remove path).entry other = fs.entry other := rfl

theorem read_write :
    (fs.write path content).read other =
      if fs.entry other = fs.entry path then some content else fs.read other := by
  exact Function.update_apply fs.content (fs.entry path) (some content) (fs.entry other)

@[simp]
theorem read_write_self : (fs.write path content).read path = some content := by
  simp [read_write]

theorem read_write_of_ne (differs : fs.entry other ≠ fs.entry path) :
    (fs.write path content).read other = fs.read other := by
  simp [read_write, differs]

theorem read_remove :
    (fs.remove path).read other = if fs.entry other = fs.entry path then none else fs.read other := by
  exact Function.update_apply fs.content (fs.entry path) none (fs.entry other)

theorem read_congr (same : fs.entry path = fs.entry other) : fs.read path = fs.read other := by
  rw [read, read, same]

theorem write_eq_self (held : fs.read path = some content) : fs.write path content = fs := by
  rw [write, ← held, read, Function.update_eq_self]

@[simp]
theorem write_write (first second : ByteString) :
    (fs.write path first).write path second = fs.write path second := by
  simp [write, entry]

/-- Moving a file that was just written over another one. -/
theorem read_write_rename_remove (differs : fs.entry path ≠ fs.entry other)
    (queried : ByteString) :
    (((fs.write path content).rename path other).remove path).read queried =
      if fs.entry queried = fs.entry other then some content
      else if fs.entry queried = fs.entry path then none else fs.read queried := by
  have renamed : (fs.write path content).rename path other =
      ((fs.write path content).remove path).write other content := by
    simp [rename, differs]
  rw [renamed, read_remove, read_write, read_remove, read_write]
  simp only [entry_write, entry_remove]
  split
  next temporary =>
    have apart : fs.entry queried ≠ fs.entry other := temporary ▸ differs
    simp [apart]
  · rfl

/-- Where nothing is left over, moving a new file over another one just writes that one. -/
theorem write_rename_remove (differs : fs.entry path ≠ fs.entry other)
    (free : fs.read path = none) :
    ((fs.write path content).rename path other).remove path = fs.write other content := by
  have renamed : (fs.write path content).rename path other =
      ((fs.write path content).remove path).write other content := by
    simp [rename, differs]
  have kept : ((((fs.write path content).remove path).write other content).remove path).content =
      (fs.write other content).content := by
    funext queried
    simp only [write, remove, entry, Function.update_apply]
    by_cases temporary : queried = (fs.directory (dirname path), basename path)
    · subst temporary
      have apart : (fs.directory (dirname path), basename path) ≠
          (fs.directory (dirname other), basename other) := differs
      rw [if_pos rfl, if_neg apart]
      exact free.symm
    · simp [temporary]
  rw [renamed]
  exact congrArg (FileSystem.mk fs.directory) kept

/-- A file that is moved to itself and then removed is gone. -/
theorem read_rename_remove_self (same : fs.entry path = fs.entry other) :
    ((fs.rename path other).remove path).read other = none := by
  have renamed : fs.rename path other = fs := by
    unfold rename
    split <;> simp [same]
  rw [renamed, read_remove, if_pos same.symm]

@[simp]
theorem fileExists_iff : fs.fileExists path = true ↔ ∃ content, fs.read path = some content :=
  Option.isSome_iff_exists

end FileSystem

namespace CommonUtils

/-- The modes of `fopen` in which files are written. -/
inductive Mode where
  | write
  | append
  deriving DecidableEq

/-- What a caller reads of the loaded string, which ends at the first NUL. -/
def loadStringFromFile (fileName : ByteString) (fs : FileSystem) : Option ByteString :=
  (fs.read fileName).map ByteString.cString

/-- `SaveToFile`. A file opened for appending is created if there is none. -/
def saveToFile (fileName : ByteString) (mode : Mode) (payload : ByteString) (fs : FileSystem) :
    Bool × FileSystem :=
  if payload = [] then (false, fs)
  else
    match mode with
    | .write => (true, fs.write fileName payload)
    | .append => (true, fs.write fileName ((fs.read fileName).getD [] ++ payload))

def fileEndsInEol (fileName : ByteString) (fs : FileSystem) : Bool :=
  ((fs.read fileName).getD []).getLast? = some 10

def appendPayloadToFile (fileName payload : ByteString) (fs : FileSystem) : Bool × FileSystem :=
  if payload = [] then (false, fs)
  else
    let fs :=
      if fs.fileExists fileName && !fileEndsInEol fileName fs then
        (saveToFile fileName .append [10] fs).2
      else fs
    saveToFile fileName .append payload fs

def renameFileWithOwnerAndAccess (original target : ByteString) (fs : FileSystem) :
    ℤ × FileSystem :=
  if fs.fileExists original then (0, fs.rename original target) else (einval, fs)

def tempFileName (fileName : ByteString) (random : ℕ) : ByteString :=
  dirname fileName ++ bytes "/~OSConfig" ++ toDecimal random

theorem basename_tempFileName (fileName : ByteString) (random : ℕ) :
    basename (tempFileName fileName random) = bytes "~OSConfig" ++ toDecimal random := by
  have slash : bytes "/~OSConfig" = 47 :: bytes "~OSConfig" := by decide
  have plain : 47 ∉ bytes "~OSConfig" ++ toDecimal random := by
    rw [List.mem_append, not_or]
    exact ⟨by decide, slash_notMem_toDecimal random⟩
  rw [tempFileName, slash, List.append_assoc, List.cons_append, basename_append plain]

/-- `InternalSecureSaveToFile`, with the number that `rand` returns. -/
def internalSecureSaveToFile (fileName : ByteString) (mode : Mode) (payload : ByteString)
    (random : ℕ) (fs : FileSystem) : Bool × FileSystem :=
  if payload = [] then (false, fs)
  else
    let temp := tempFileName fileName random
    let (result, fs) :=
      if mode = .append ∧ fs.fileExists fileName then
        match loadStringFromFile fileName fs with
        | some fileContents =>
            let (result, fs) := saveToFile temp .append fileContents fs
            if result then
              -- The mode of the missing end of line is "w", which empties the file first.
              let fs :=
                if fileContents.getLast? ≠ some 10 then (saveToFile temp .write [10] fs).2 else fs
              saveToFile temp .append payload fs
            else (false, fs)
        | none => (false, fs)
      else saveToFile temp .write payload fs
    if result && fs.fileExists temp then
      let (status, fs) := renameFileWithOwnerAndAccess temp fileName fs
      (status = 0, fs.remove temp)
    else (false, fs)

def secureSaveToFile (fileName payload : ByteString) (random : ℕ) (fs : FileSystem) :
    Bool × FileSystem :=
  internalSecureSaveToFile fileName .write payload random fs

def appendToFile (fileName payload : ByteString) (random : ℕ) (fs : FileSystem) :
    Bool × FileSystem :=
  internalSecureSaveToFile fileName .append payload random fs

end CommonUtils

end OsConfig
