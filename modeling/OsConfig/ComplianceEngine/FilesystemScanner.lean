import OsConfig.Common.Streams

/-!
# The cache file of the filesystem scanner

`BackgroundScan` writes the entries of a scan to a text file, one line an entry
with its fields separated by spaces, and `LoadCache` reads them back with the
extraction operators. The path stands first in its line and is written as it
is, so a path with white space in it is not what the reader extracts.

Nine fields of `struct stat` are kept. The others are not written, and those of
a loaded entry are not initialised.
-/

namespace OsConfig.ComplianceEngine

open OsConfig ByteString

namespace FilesystemScanner

/-- `FSEntry`: the fields of `st` that the cache keeps. -/
structure FSEntry where
  dev : BitVec 64
  ino : BitVec 64
  mode : BitVec 32
  nlink : BitVec 64
  uid : BitVec 32
  gid : BitVec 32
  size : BitVec 64
  blksize : BitVec 64
  blocks : BitVec 64
  deriving DecidableEq

structure FSCache where
  scanStartTime : BitVec 64
  scanEndTime : BitVec 64
  entries : Std.ExtTreeMap ByteString FSEntry

section Writing

/-- The header `BackgroundScan` writes. -/
def headerLine (start finish : BitVec 64) : ByteString :=
  bytes "# FilesystemScanCache-V1" ++
    32 :: (Numerals.renderInt 10 start.toInt ++ 32 :: Numerals.renderInt 10 finish.toInt)

/-- The line `BackgroundScan` writes for an entry. `st_nlink` is cast to `unsigned`. -/
def entryLine (path : ByteString) (st : FSEntry) : ByteString :=
  path ++ 32 :: (Numerals.render 10 st.dev.toNat ++
    32 :: (Numerals.render 10 st.ino.toNat ++
    32 :: (Numerals.render 10 st.mode.toNat ++
    32 :: (Numerals.render 10 (st.nlink.setWidth 32).toNat ++
    32 :: (Numerals.renderInt 10 st.uid.toNat ++
    32 :: (Numerals.renderInt 10 st.gid.toNat ++
    32 :: (Numerals.renderInt 10 st.size.toInt ++
    32 :: (Numerals.renderInt 10 st.blksize.toInt ++
    32 :: Numerals.renderInt 10 st.blocks.toInt))))))))

def cacheLines (cache : FSCache) : List ByteString :=
  headerLine cache.scanStartTime cache.scanEndTime ::
    cache.entries.toList.map fun kv => entryLine kv.1 kv.2

/-- The file `BackgroundScan` leaves. -/
def cacheFile (cache : FSCache) : ByteString :=
  (cacheLines cache).flatMap fun line => line ++ [10]

end Writing

section Reading

/-- The header `LoadCache` accepts, with the two times. -/
def readHeader (header : ByteString) : Option (BitVec 64 × BitVec 64) := do
  let (hash, rest) ← readWord header
  let (magic, rest) ← readWord rest
  let (start, rest) ← readSigned 64 rest
  let (finish, _) ← readSigned 64 rest
  if hash = bytes "#" ∧ magic = bytes "FilesystemScanCache-V1" then
    return (BitVec.ofInt 64 start, BitVec.ofInt 64 finish)
  else
    none

/-- The entry on a line, unless it is malformed. -/
def readEntry (line : ByteString) : Option (ByteString × FSEntry) := do
  let (name, rest) ← readWord line
  let (dev, rest) ← readUnsigned 64 rest
  let (ino, rest) ← readUnsigned 64 rest
  let (mode, rest) ← readUnsigned 32 rest
  let (nlink, rest) ← readUnsigned 32 rest
  let (uid, rest) ← readSigned 64 rest
  let (gid, rest) ← readSigned 64 rest
  let (size, rest) ← readSigned 64 rest
  let (blksize, rest) ← readSigned 64 rest
  let (blocks, _) ← readSigned 64 rest
  return (name,
    { dev := BitVec.ofNat 64 dev
      ino := BitVec.ofNat 64 ino
      mode := BitVec.ofNat 32 mode
      nlink := BitVec.ofNat 64 nlink
      uid := BitVec.ofInt 32 uid
      gid := BitVec.ofInt 32 gid
      size := BitVec.ofInt 64 size
      blksize := BitVec.ofInt 64 blksize
      blocks := BitVec.ofInt 64 blocks })

/-- The loop over the lines: empty and malformed ones are skipped, and the first entry for a
path stays. -/
def readEntries (lines : List ByteString) (entries : Std.ExtTreeMap ByteString FSEntry) :
    Std.ExtTreeMap ByteString FSEntry :=
  match lines with
  | [] => entries
  | line :: rest =>
      if line = [] then readEntries rest entries
      else
        match readEntry line with
        | none => readEntries rest entries
        | some (name, st) => readEntries rest (entries.insertIfNew name st)

/-- The cache is beyond the hard timeout. -/
def hardExpired (hardTimeout now : ℤ) (finish : BitVec 64) : Prop :=
  0 < hardTimeout ∧ 0 < finish.toInt ∧ hardTimeout ≤ now - finish.toInt

instance (hardTimeout now : ℤ) (finish : BitVec 64) :
    Decidable (hardExpired hardTimeout now finish) :=
  inferInstanceAs (Decidable (_ ∧ _))

/-- `LoadCache`: the cache it stores, if it succeeds. `file` is nothing if the file cannot be
opened. -/
def loadCache (hardTimeout now : ℤ) (file : Option ByteString) : Option FSCache := do
  let text ← file
  match getLines text with
  | [] => none
  | header :: lines =>
      let (start, finish) ← readHeader header
      if hardExpired hardTimeout now finish then none
      else
        let entries := readEntries lines ∅
        if entries.isEmpty then none
        else some { scanStartTime := start, scanEndTime := finish, entries }

end Reading

end FilesystemScanner

end OsConfig.ComplianceEngine
