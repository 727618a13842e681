import Ade.Wal.Entry

/-! The file-backed write-ahead log.

A directory is a map from file index to contents. The highest file is open; every other file is
sealed with a checksum suffix. -/

namespace Ade.Wal
open Std Library

abbrev Files := BTreeMap UInt32 Bytes

/-- When the open file is rotated. -/
structure Bounds where
  entriesPerFile : Nat
  maxFileBytes : Nat

/-- `ENTRIES_PER_FILE` and `MAX_FILE_BYTES`. -/
def defaultBounds : Bounds := ⟨10000, 100 * 1024 * 1024⟩

structure FileWalStore where
  currentFileIndex : UInt32
  currentEntryCount : Nat
  currentByteCount : Nat
deriving DecidableEq, Repr

/-! ## CRC32C -/

def crcBit (register : UInt32 × UInt32) : UInt32 × UInt32 :=
  let (crc, byte) := register
  let shifted := crc >>> 1
  (if (crc ^^^ byte) &&& 1 ≠ 0 then shifted ^^^ 0x82F63B78 else shifted, byte >>> 1)

def crcByte (crc : UInt32) (byte : UInt8) : UInt32 :=
  (crcBit^[8] (crc, byte.toUInt32)).1

def crc32c (bytes : Bytes) : UInt32 := bytes.foldl crcByte 0xFFFFFFFF ^^^ 0xFFFFFFFF

/-! ## Sealed files -/

def readFile (files : Files) (index : UInt32) : Except WalError Bytes :=
  match files[index]? with
  | some bytes => .ok bytes
  | none => .error (.io .notFound)

def crcSuffix (bytes : Bytes) : Bytes := toBeBytes 4 (crc32c bytes).toNat

def sealWithCrc (files : Files) (index : UInt32) : Except WalError Files := do
  let bytes ← readFile files index
  return files.insert index (bytes ++ crcSuffix bytes)

def verifySealedCrc (files : Files) (index : UInt32) : Except WalError Unit := do
  let bytes ← readFile files index
  if bytes.length < 4 then
    throw (.corruptCrc index)
  let bodyLen := bytes.length - 4
  if (crc32c (bytes.take bodyLen)).toNat ≠ fromBeBytes (bytes.drop bodyLen) then
    throw (.corruptCrc index)

/-! ## Opening -/

structure Recovered where
  entryCount : Nat
  byteCount : Nat
  truncated : Bool

/-- The walk of `recover_open_file` over the bytes from `pos` on. -/
def recoverWalk (rest : Bytes) (count pos : Nat) : Recovered :=
  if 4 ≤ rest.length then
    let elen := fromBeBytes (rest.take 4)
    if 4 + elen > rest.length then ⟨count, pos, true⟩
    else recoverWalk (rest.drop (4 + elen)) (count + 1) (pos + 4 + elen)
  else ⟨count, pos, false⟩
termination_by rest.length
decreasing_by
  simp only [List.length_drop]
  omega

/-- The recovered position, and the file as recovery leaves it. -/
def recoverOpenFile (bytes : Bytes) : Recovered × Bytes :=
  let recovered := recoverWalk bytes 0 0
  (recovered, if recovered.truncated then bytes.take recovered.byteCount else bytes)

def openStore (files : Files) : Except WalError (FileWalStore × Files) :=
  match files.keys.getLast? with
  | some maxIdx => do
      files.keys.dropLast.forM (verifySealedCrc files)
      let (recovered, bytes) := recoverOpenFile (← readFile files maxIdx)
      return (⟨maxIdx, recovered.entryCount, recovered.byteCount⟩, files.insert maxIdx bytes)
  | none => return (⟨0, 0, 0⟩, files.insert 0 [])

/-! ## Appending -/

/-- The length header and the entry, which one append writes. -/
def frame (entry : WalEntry) : Bytes := lengthPrefixed 4 (encodeWalEntry entry)

def mustRotate (bounds : Bounds) (entryCount byteCount : Nat) (entry : WalEntry) : Bool :=
  entryCount ≥ bounds.entriesPerFile ∨ byteCount + (frame entry).length > bounds.maxFileBytes

def rotate (store : FileWalStore) (files : Files) : Except WalError (FileWalStore × Files) := do
  let sealedFiles ← sealWithCrc files store.currentFileIndex
  let index := store.currentFileIndex + 1
  return (⟨index, 0, 0⟩, sealedFiles.insert index [])

def writeFrame (entry : WalEntry) (store : FileWalStore) (files : Files) :
    Except WalError (FileWalStore × Files) := do
  let bytes ← readFile files store.currentFileIndex
  return ({ store with
      currentEntryCount := store.currentEntryCount + 1
      currentByteCount := store.currentByteCount + (frame entry).length },
    files.insert store.currentFileIndex (bytes ++ frame entry))

def append (bounds : Bounds) (entry : WalEntry) (store : FileWalStore) (files : Files) :
    Except WalError (FileWalStore × Files) := do
  let (store, files) ←
    if mustRotate bounds store.currentEntryCount store.currentByteCount entry then
      rotate store files
    else pure (store, files)
  writeFrame entry store files

def appendAll (bounds : Bounds) : List WalEntry → FileWalStore → Files →
    Except WalError (FileWalStore × Files)
  | [], store, files => .ok (store, files)
  | entry :: entries, store, files => do
      let (store, files) ← append bounds entry store files
      appendAll bounds entries store files

/-! ## Reading -/

/-- The reading loop over one file: `rest` is what the handle still holds. -/
def readFrames (rest : Bytes) (pos bodyEnd : Nat) : Except WalError (List WalEntry) :=
  if pos < bodyEnd then
    if 4 ≤ rest.length then
      let elen := fromBeBytes (rest.take 4)
      if 4 + elen ≤ rest.length then do
        let (decoded, _) ← decodeWalEntry ((rest.drop 4).take elen)
        let later ← readFrames (rest.drop (4 + elen)) (pos + 4 + elen) bodyEnd
        return decoded :: later
      else throw (.io .unexpectedEof)
    else throw (.io .unexpectedEof)
  else return []
termination_by rest.length
decreasing_by
  simp only [List.length_drop]
  omega

def readFileEntries (store : FileWalStore) (files : Files) (index : UInt32) :
    Except WalError (List WalEntry) := do
  let bytes ← readFile files index
  let bodyEnd := if index = store.currentFileIndex then bytes.length else bytes.length - 4
  readFrames bytes 0 bodyEnd

def readAll (store : FileWalStore) (files : Files) : Except WalError (List WalEntry) := do
  let perFile ← files.keys.mapM (readFileEntries store files)
  return perFile.flatten

/-! ## Crashes -/

/-- A crash keeps the first `kept` bytes of what was being written to the open file: its frames
and, while `rotate` seals it, its checksum. -/
structure Crash where
  kept : Nat
  rotating : Bool

def Crash.suffix (crash : Crash) (written : Bytes) : Bytes :=
  if crash.rotating then crcSuffix written else []

def crashFiles (crash : Crash) (store : FileWalStore) (files : Files) : Files :=
  let written := files[store.currentFileIndex]?.getD []
  files.insert store.currentFileIndex ((written ++ crash.suffix written).take crash.kept)

/-! ## The log as segments

What the directory stands for: the entries of each sealed file, oldest first, and those of the
open one. -/

structure SegmentedLog where
  closed : List (List WalEntry)
  current : List WalEntry
deriving DecidableEq, Repr

def framesOf (entries : List WalEntry) : Bytes := entries.flatMap frame

namespace SegmentedLog

def empty : SegmentedLog := ⟨[], []⟩

def entries (log : SegmentedLog) : List WalEntry := log.closed.flatten ++ log.current

def push (bounds : Bounds) (log : SegmentedLog) (entry : WalEntry) : SegmentedLog :=
  if mustRotate bounds log.current.length (framesOf log.current).length entry then
    ⟨log.closed ++ [log.current], [entry]⟩
  else { log with current := log.current ++ [entry] }

def pushAll (bounds : Bounds) (log : SegmentedLog) (entries : List WalEntry) : SegmentedLog :=
  entries.foldl (push bounds) log

end SegmentedLog

/-- The entries whose frames lie completely in the first `kept` bytes. -/
def wholeEntries : List WalEntry → Nat → List WalEntry
  | [], _ => []
  | entry :: entries, kept =>
      if (frame entry).length ≤ kept then
        entry :: wholeEntries entries (kept - (frame entry).length)
      else []

/-- How many of the first `kept` bytes lie behind the last whole frame, when `suffix` bytes follow
the frames. -/
def tornBytes (suffix : Nat) : List WalEntry → Nat → Nat
  | [], kept => min kept suffix
  | entry :: entries, kept =>
      if (frame entry).length ≤ kept then tornBytes suffix entries (kept - (frame entry).length)
      else kept

namespace SegmentedLog

/-- The log without the entries that a crash tore. -/
def cut (log : SegmentedLog) (kept : Nat) : SegmentedLog :=
  { log with current := wholeEntries log.current kept }

end SegmentedLog

/-- Opening the directory yields exactly the entries of the log, and appending continues it. -/
def RecoversTo (bounds : Bounds) (log : SegmentedLog) (files : Files) (further : List WalEntry) :
    Prop :=
  ∃ store recovered, openStore files = .ok (store, recovered) ∧
    readAll store recovered = .ok log.entries ∧
    ∃ store' files', appendAll bounds further store recovered = .ok (store', files') ∧
      readAll store' files' = .ok (log.entries ++ further)

/-- The cut left nothing behind the last whole frame, or a whole length header that announces more
than is present. A complete checksum is such a header unless it is zero. -/
def CleanCut (log : SegmentedLog) (crash : Crash) : Prop :=
  let written := framesOf log.current
  let torn := tornBytes (crash.suffix written).length log.current crash.kept
  torn = 0 ∨ (4 ≤ torn ∧
    ¬ (wholeEntries log.current crash.kept = log.current ∧ crc32c written = 0))

end Ade.Wal
