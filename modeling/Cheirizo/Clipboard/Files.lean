import Cheirizo.Clipboard.Sanitize

/-!
# File descriptors and file transfer state

The `FileGroupDescriptorW` wire format of `clipboard/core/formats.rs`, the file transfer state of
`clipboard/manager.rs`, and the file system as the orchestrator sees it while it handles one event.

## Main definitions

* `Disk` — the file system during one event
* `FileDescriptor.parseList`, `FileDescriptor.buildList` — the descriptor list, in both directions
* `FileTransferState`, `reserveDestination`, `allocateStreamId`
* `fileUriList` — the URI list delivered for received files
-/

namespace Cheirizo

namespace Clipboard

open Unicode

/-- Errors of the clipboard helpers. -/
inductive CoreError where
  | formatConversion (message : String)
  | unsupportedFormat (mime : String)
  | invalidUtf16
  | imageDecode (message : String)
  | imageEncode (message : String)
  | dataSizeExceeded (actual max : UInt64)
  | transferTimeout (timeoutMs : UInt64)
  | invalidState (message : String)
  deriving DecidableEq, Repr

/-! ### The file system -/

/-- What is known of a file before it is read. -/
structure Metadata where
  size : UInt64
  isDir : Bool
  deriving DecidableEq, Repr

/-- The file system while one event is handled: what is there, and what succeeds. -/
structure Disk where
  existing : List String
  metadata : String → Option Metadata
  /-- The download directory exists or can be created. -/
  createsDownloadDir : Bool
  /-- A new file can be created at this path. -/
  createsFile : String → Bool
  /-- Bytes of a file from an offset on, at most the given number. -/
  readsChunk : String → UInt64 → UInt32 → Option (List UInt8)
  /-- Writing received data; a failed write may still have written some of it. -/
  writes : Except (String × ℕ) Unit
  flushes : Except String Unit
  /-- Renaming without replacing. -/
  renames : String → String → Except String Unit

/-- `Path::exists`. -/
def Disk.exists_ (disk : Disk) (path : String) : Bool := disk.existing.contains path

/-- A path below a directory. -/
def joinPath (dir name : String) : String :=
  if dir.toList.getLast? = some '/' then dir ++ name else dir ++ "/" ++ name

/-- The last component of a path, if it is a name. -/
def fileName (path : String) : Option (List Char) :=
  match ((path.toList.splitOnP (· = '/')).filter fun c => c ≠ [] && c ≠ ['.']).getLast? with
  | some ['.', '.'] => none
  | last => last

/-- A file name split into stem and extension; a leading dot starts no extension. -/
def splitExtension (name : List Char) : List Char × Option (List Char) :=
  match Text.rsplitOnce ['.'] name with
  | none => (name, none)
  | some ([], _) => (name, none)
  | some (stem, ext) => (stem, some ext)

/-! ### File descriptors -/

/-- `FILEDESCRIPTORW`, which announces a file. -/
structure FileDescriptor where
  flags : UInt32
  attributes : UInt32
  creationTime : Option UInt64
  accessTime : Option UInt64
  writeTime : Option UInt64
  size : Option UInt64
  name : List Char
  deriving DecidableEq, Repr

namespace FileDescriptor

/-- The size is given. -/
def flagFilesize : UInt32 := 0x40

/-- The time of the last write is given. -/
def flagWritestime : UInt32 := 0x20

/-- The time of creation is given. -/
def flagCreatetime : UInt32 := 0x02

/-- The time of the last access is given. -/
def flagAccesstime : UInt32 := 0x10

/-- A descriptor gives only the fields that its flags name. -/
def hasFlag (flags flag : UInt32) : Bool := flags &&& flag ≠ 0

/-- The number in `n` bytes from `offset` on. -/
def readLe (data : List UInt8) (offset n : ℕ) : ℕ := leToNat ((data.drop offset).take n)

/-- A 64-bit field that is present if a flag is set. -/
def readFlagged (data : List UInt8) (flags flag : UInt32) (offset : ℕ) : Option UInt64 :=
  if hasFlag flags flag then some (UInt64.ofNat (readLe data offset 8)) else none

/-- A name ends at its first zero unit. -/
def parseUtf16Filename (data : List UInt8) : Except CoreError (List Char) :=
  if data.length % 2 ≠ 0 then .error .invalidUtf16
  else
    match decodeUtf16 ((unitsOfLe data).takeWhile (· ≠ 0)) with
    | some name => .ok name
    | none => .error .invalidUtf16

/-- The fields that the flags do not name are there, and are skipped. -/
def parse (data : List UInt8) : Except CoreError FileDescriptor :=
  if data.length < 592 then
    .error (.formatConversion ("FILEDESCRIPTORW too small: " ++ toString data.length ++
      " bytes (need 592)"))
  else do
    let flags := UInt32.ofNat (readLe data 0 4)
    let name ← parseUtf16Filename ((data.drop 72).take 520)
    return {
      flags
      attributes := UInt32.ofNat (readLe data 36 4)
      creationTime := readFlagged data flags flagCreatetime 40
      accessTime := readFlagged data flags flagAccesstime 48
      writeTime := readFlagged data flags flagWritestime 56
      -- The high half comes first.
      size := if hasFlag flags flagFilesize then
          some (UInt64.ofNat (readLe data 64 4 * 4294967296 + readLe data 68 4))
        else none
      name }

/-- The given number of descriptors from the start of the data. -/
def parseMany : ℕ → List UInt8 → Except CoreError (List FileDescriptor)
  | 0, _ => .ok []
  | n + 1, data => do
    let descriptor ← parse (data.take 592)
    return descriptor :: (← parseMany n (data.drop 592))

/-- A count, and that many descriptors. Bytes behind them are ignored. -/
def parseList (data : List UInt8) : Except CoreError (List FileDescriptor) :=
  if data.length < 4 then
    .error (.formatConversion "FileGroupDescriptorW too small for count")
  else
    let count := readLe data 0 4
    let expected := 4 + count * 592
    if data.length < expected then
      .error (.formatConversion ("FileGroupDescriptorW too small: " ++ toString data.length ++
        " bytes (need " ++ toString expected ++ " for " ++ toString count ++ " files)"))
    else parseMany count (data.drop 4)

/-- One descriptor of a local file: flags, attributes, size and name, everything else zero. -/
def build (disk : Disk) (path : String) : Except CoreError (List UInt8) :=
  match disk.metadata path with
  | none => .error (.formatConversion "Failed to get file metadata")
  | some metadata =>
    match fileName path with
    | none => .error (.formatConversion "Invalid filename")
    | some rawFilename =>
      let units := (encodeUtf16 (sanitizeFilenameForWindows rawFilename)).take 259
      let nameBytes := units.flatMap u16ToLe
      .ok (natToLe 4 flagFilesize.toNat ++ List.replicate 32 0 ++
        natToLe 4 (if metadata.isDir then 0x10 else 0x80) ++ List.replicate 24 0 ++
        natToLe 4 (metadata.size.toNat / 4294967296) ++ natToLe 4 metadata.size.toNat ++
        nameBytes ++ List.replicate (520 - nameBytes.length) 0)

/-- The first file that cannot be announced is the error of the whole list. -/
def buildMany (disk : Disk) : List String → Except CoreError (List UInt8)
  | [] => .ok []
  | path :: rest => do
    let descriptor ← build disk path
    return descriptor ++ (← buildMany disk rest)

/-- `FILEGROUPDESCRIPTORW`: a count, and the descriptors. -/
def buildList (disk : Disk) (paths : List String) : Except CoreError (List UInt8) := do
  return natToLe 4 paths.length ++ (← buildMany disk paths)

end FileDescriptor

/-! ### Transfer state -/

/-- A file being received. -/
structure IncomingFile where
  finalPath : String
  totalSize : Option UInt64
  awaitingSize : Bool
  receivedSize : UInt64
  tempPath : String
  /-- What has been written through the open handle. -/
  contents : List UInt8
  fileIndex : ℕ
  clipDataId : UInt32
  deriving DecidableEq, Repr

/-- A local file offered to the client. -/
structure OutgoingFile where
  path : String
  size : UInt64
  deriving DecidableEq, Repr

/-- The files that are being received, and those that are offered. -/
structure FileTransferState where
  /-- Files being received, by stream. -/
  incomingFiles : List (UInt32 × IncomingFile)
  outgoingFiles : List OutgoingFile
  pendingDescriptors : List FileDescriptor
  downloadDir : String
  portalSerial : Option UInt32
  nextStreamId : UInt32
  completedFiles : List String
  deriving DecidableEq, Repr

namespace FileTransferState

/-- No file is under way. -/
def new (downloadDir : String) : FileTransferState where
  incomingFiles := []
  outgoingFiles := []
  pendingDescriptors := []
  downloadDir
  portalSerial := none
  nextStreamId := 1
  completedFiles := []

/-- Forget the incoming transfer. The temporary files it removes are in `tempPaths`. -/
def clearIncoming (s : FileTransferState) : FileTransferState :=
  { s with incomingFiles := [], portalSerial := none, completedFiles := [] }

/-- Where the files that are being received are written. -/
def tempPaths (s : FileTransferState) : List String := s.incomingFiles.map fun f => f.2.tempPath

/-- No file is offered any more. -/
def clearOutgoing (s : FileTransferState) : FileTransferState := { s with outgoingFiles := [] }

/-- The files of a list that the client has sent. -/
def setPendingDescriptors (s : FileTransferState) (descriptors : List FileDescriptor) :
    FileTransferState :=
  { s with pendingDescriptors := descriptors }

/-- Numbers of streams are handed out in turn, and wrap around. -/
def allocateStreamId (s : FileTransferState) : UInt32 × FileTransferState :=
  (s.nextStreamId, { s with nextStreamId := s.nextStreamId + 1 })

/-- The file of a stream. -/
def incoming? (s : FileTransferState) (streamId : UInt32) : Option IncomingFile :=
  s.incomingFiles.lookup streamId

/-- A stream is forgotten. -/
def removeIncoming (s : FileTransferState) (streamId : UInt32) : FileTransferState :=
  { s with incomingFiles := s.incomingFiles.filter fun f => f.1 ≠ streamId }

/-- A stream replaces an older one with its number. -/
def insertIncoming (s : FileTransferState) (streamId : UInt32) (file : IncomingFile) :
    FileTransferState :=
  { s with incomingFiles := (streamId, file) :: (s.removeIncoming streamId).incomingFiles }

/-- A path is in use: on disk, also as a temporary file created a moment ago, or promised to a file
of this transfer. -/
def destinationIsTaken (disk : Disk) (s : FileTransferState) (candidate : String) : Bool :=
  disk.exists_ candidate || s.tempPaths.contains candidate ||
    s.completedFiles.contains candidate ||
    s.incomingFiles.any fun f => f.2.finalPath = candidate

/-- The first free name from `index` on, among the given number of candidates. -/
def firstFree (taken : String → Bool) (candidate : ℕ → String) : ℕ → ℕ → String
  | 0, index => candidate index
  | n + 1, index =>
    if taken (candidate index) then firstFree taken candidate n (index + 1) else candidate index

/-- The suffixed name `stem (index).ext`. -/
def suffixedName (filename : List Char) (index : ℕ) : String :=
  let (stem, ext) := splitExtension filename
  String.ofList stem ++ " (" ++ toString index ++ ")" ++
    match ext with
    | none => ""
    | some ext => "." ++ String.ofList ext

/-- A free path in the download directory. The suffix search is given one more candidate than
there are paths in use. -/
def reserveDestination (disk : Disk) (s : FileTransferState) (filename : List Char) : String :=
  let candidate := joinPath s.downloadDir (String.ofList filename)
  if destinationIsTaken disk s candidate then
    firstFree (destinationIsTaken disk s)
      (fun index => joinPath s.downloadDir (suffixedName filename index))
      (disk.existing.length + 2 * s.incomingFiles.length + s.completedFiles.length) 1
  else candidate

/-- The temporary path of a file while it is received. -/
def tempPath (s : FileTransferState) (filename : List Char) (streamId : UInt32) : String :=
  joinPath s.downloadDir ("." ++ String.ofList filename ++ "." ++ toString streamId.toNat ++ ".tmp")

end FileTransferState

/-! ### Delivering received files -/

/-- Characters that are escaped in a file URI, besides everything that is not ASCII. -/
def uriEscaped (b : UInt8) : Bool :=
  b < 0x20 || 0x7F ≤ b || (" \"#%<>?".toList ++ [Char.ofNat 0x60, Char.ofNat 0x7B,
    Char.ofNat 0x7D]).any fun c => c.toNat = b.toNat

/-- A hexadecimal digit, in upper case. -/
def upperHex (n : ℕ) : Char := if n < 10 then Char.ofNat (48 + n) else Char.ofNat (55 + n)

/-- One byte of a path in a file URI. -/
def encodeUriByte (b : UInt8) : List Char :=
  if uriEscaped b then ['%', upperHex (b.toNat / 16), upperHex (b.toNat % 16)]
  else [Char.ofNat b.toNat]

/-- The URI of a delivered file. -/
def fileUri (path : String) : List Char :=
  "file://".toList ++ (encodeUtf8 path.toList).flatMap encodeUriByte

/-- The payload that announces received files: an action line and one URI a line, then a zero. -/
def fileUriList (paths : List String) : List UInt8 :=
  encodeUtf8 ("copy\n".toList ++ (List.intersperse ['\n'] (paths.map fileUri)).flatten) ++ [0]

end Clipboard

end Cheirizo
