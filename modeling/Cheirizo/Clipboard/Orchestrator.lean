import Cheirizo.Lib.Machine
import Cheirizo.Lib.Prog
import Cheirizo.Clipboard.Sync
import Cheirizo.Clipboard.Files
import Cheirizo.Clipboard.Image

/-!
# The clipboard orchestrator

The event loop of `clipboard/manager.rs`: one handler per event, over the state shared by all of
them, together with the forwarder that queues the provider's transfer requests. A handler is a
`Prog` over a `Session`, the orchestrator's state and what it has done so far; a failing handler
keeps both.

## What one event sees

Everything outside the orchestrator enters through `Env`: the time, the server's event sender, the
provider and how its calls end, and the file system. The forwarder is a task of its own, so
transfer requests may also be queued while a handler waits for the provider; `Env.arrivals` are
those, and they are placed where the handler has read the queue and not yet emptied it. At every
other point such an arrival is the same as one between two events.

## Main definitions

* `Orchestrator`, `Output`, `Env`
* `handleRdpFormatList`, `handleRdpDataRequest`, `handleRdpDataResponse`, `handleRdpDataError`,
  `handleRdpFileContentsRequest`, `handleRdpFileContentsResponse`, `handlePortalFormats`,
  `handlePortalDataRequest`, `clearConnectionState`
* `orchestrator` — the machine whose inputs are transfers, events and disconnects
-/

namespace Cheirizo

namespace Clipboard

open Unicode

/-! ### Data -/

/-- What ends the handling of an event early. -/
inductive ClipboardError where
  | core (error : CoreError)
  | portalError (message : String)
  | invalidState (message : String)
  | fileIoError (message : String)
  | notInitialized
  deriving DecidableEq, Repr

/-- The settings the handlers read. -/
structure OrchestratorConfig where
  enableImages : Bool
  enableFiles : Bool
  enableHtml : Bool
  enableRtf : Bool
  loopDetectionWindowMs : UInt64
  deriving DecidableEq, Repr

/-- Sentinel serial of eager fetches. -/
def eagerFetchSerial : UInt32 := 0xFFFFFFFF

/-- What the client of the connection and the clipboard of the desktop report. -/
inductive ClipboardEvent where
  | rdpReady
  | rdpFormatList (formats : List ClipboardFormat)
  | rdpDataRequest (formatId : UInt32)
  | rdpDataResponse (data : List UInt8)
  | rdpDataError
  | rdpFileContentsRequest (streamId listIndex : UInt32) (position : UInt64) (size : UInt32)
      (isSizeRequest : Bool)
  | rdpFileContentsResponse (streamId : UInt32) (data : List UInt8) (isError : Bool)
  | portalFormatsAvailable (mimeTypes : List String) (force : Bool)
  | portalDataRequest (mimeType : String)
  deriving DecidableEq, Repr

/-- The answer to a request for data in a format. -/
inductive FormatDataResponse where
  | data (bytes : List UInt8)
  | error
  deriving DecidableEq, Repr

/-- A client is asked either for the size of a file or for a range of it. -/
inductive FileContentsFlags where
  | size
  | range
  deriving DecidableEq, Repr

/-- A request for a file that the client offers. -/
structure FileContentsRequest where
  streamId : UInt32
  index : ℕ
  flags : FileContentsFlags
  position : UInt64
  requestedSize : UInt32
  dataId : Option UInt32
  deriving DecidableEq, Repr

/-- What is sent of a file, or that nothing can be. -/
inductive FileContents where
  | size (bytes : UInt64)
  | data (bytes : List UInt8)
  | error
  deriving DecidableEq, Repr

/-- The answer to a request for a file, on the stream of the request. -/
structure FileContentsResponse where
  streamId : UInt32
  contents : FileContents
  deriving DecidableEq, Repr

/-- Messages for the client. -/
inductive ClipboardMessage where
  | sendInitiateCopy (formats : List ClipboardFormat)
  | sendInitiatePaste (formatId : UInt32)
  | sendFormatData (response : FormatDataResponse)
  | sendFileContentsRequest (request : FileContentsRequest)
  | sendFileContentsResponse (response : FileContentsResponse)
  deriving DecidableEq, Repr

/-- What the orchestrator does to the world outside. -/
inductive Output where
  | toClient (message : ClipboardMessage)
  | announceFormats (mimeTypes : List String)
  | readData (mimeType : String)
  | provideData (mimeType : String) (data : List UInt8)
  | completeTransfer (serial : UInt32) (mimeType : String) (data : List UInt8) (success : Bool)
  | createFile (path : String)
  | writeFile (path : String) (data : List UInt8)
  | removeFile (path : String)
  | renameFile (source target : String)
  /-- The forwarder queued a transfer and passed it on as a data request. -/
  | forward (serial : UInt32) (mimeType : String)
  deriving DecidableEq, Repr

/-! ### The outside -/

/-- The server's event sender as the handler finds it. -/
inductive Sender where
  | unregistered
  | closed
  | registered
  deriving DecidableEq, Repr

/-- A clipboard provider, and how its calls end during one event. -/
structure Provider where
  requiresUpfrontData : Bool
  announceFormats : List String → Except String Unit
  readData : String → Option (List UInt8)
  completeTransfer : UInt32 → String → Bool

/-- What one event finds outside the orchestrator. -/
structure Env where
  now : Instant
  sender : Sender
  provider : Option Provider
  disk : Disk
  /-- Transfers queued while the handler waits for the provider. -/
  arrivals : List (UInt32 × String)

/-- The libraries the handlers call. -/
structure Libraries where
  sha256 : List UInt8 → String
  codec : ImageCodec

/-! ### State -/

/-- What the orchestrator knows between two events. -/
structure Orchestrator where
  config : OrchestratorConfig
  sync : SyncManager
  /-- Transfers waiting for the client's answer, oldest first. -/
  pendingPortalRequests : List (UInt32 × String)
  files : FileTransferState
  currentRdpFormats : List ClipboardFormat
  localAdvertisedFormats : List ClipboardFormat
  deriving DecidableEq, Repr

/-- Nothing is announced, requested or under way. The history keeps ten entries. -/
def Orchestrator.new (config : OrchestratorConfig) (downloadDir : String) : Orchestrator where
  config
  sync := .withConfig ⟨config.loopDetectionWindowMs, 10, true⟩
  pendingPortalRequests := []
  files := .new downloadDir
  currentRdpFormats := []
  localAdvertisedFormats := []

/-- The orchestrator while it handles an event, and what it has done. -/
structure Session where
  orch : Orchestrator
  out : List Output
  deriving DecidableEq, Repr

/-- A handler, or part of one. -/
abbrev Action (α : Type) := Prog Session ClipboardError α

/-- Do something outside. -/
def emit (o : Output) : Action PUnit := Prog.modify fun s => { s with out := s.out ++ [o] }

/-- A change of the orchestrator's own state. -/
def modifyOrch (f : Orchestrator → Orchestrator) : Action PUnit :=
  Prog.modify fun s => { s with orch := f s.orch }

/-- Consult the ownership policy, which takes note of the question. -/
def withSync {α : Type} (ask : SyncManager → α × SyncManager) : Action α := do
  let sync ← Prog.gets fun s => s.orch.sync
  modifyOrch fun o => { o with sync := (ask sync).2 }
  pure (ask sync).1

/-- A change of the transfers that wait. -/
def modifyPending (f : List (UInt32 × String) → List (UInt32 × String)) : Action PUnit :=
  modifyOrch fun o => { o with pendingPortalRequests := f o.pendingPortalRequests }

/-- A change of the file transfers. -/
def modifyFiles (f : FileTransferState → FileTransferState) : Action PUnit :=
  modifyOrch fun o => { o with files := f o.files }

/-- Hand a message to the server loop, if there is one. -/
def send (env : Env) (message : ClipboardMessage) : Action PUnit :=
  if env.sender = .registered then emit (.toClient message) else pure ⟨⟩

/-- Something done through the provider, if there is one. -/
def whenProvider (env : Env) (x : Action PUnit) : Action PUnit :=
  if env.provider.isSome then x else pure ⟨⟩

/-- The forwarder's part of a transfer: queue it, then pass it on. -/
def forwardTransfer (serial : UInt32) (mime : String) : Action PUnit := do
  modifyPending fun pending => pending ++ [(serial, mime)]
  emit (.forward serial mime)

/-- Transfers that come in while a handler waits. -/
def arrive : List (UInt32 × String) → Action PUnit
  | [] => pure ⟨⟩
  | (serial, mime) :: rest => do
    forwardTransfer serial mime
    arrive rest

/-- `str::starts_with`. -/
def startsWith (front s : String) : Bool := front.toList.isPrefixOf s.toList

/-- `str::to_ascii_lowercase`. -/
def asciiLower (s : String) : List Char := s.toList.map Char.toLower

/-! ### Conversions between the two sides -/

/-- Text from the client: UTF-16 up to the first zero, as UTF-8 with Unix line endings. -/
def clientText (data : List UInt8) : List UInt8 :=
  encodeUtf8 (sanitizeTextForLinux (decodeUtf16Lossy ((unitsOfLe data).takeWhile (· ≠ 0))))

/-- Text for the client: UTF-16 with Windows line endings and a terminator. -/
def localText (data : List UInt8) : List UInt8 :=
  (encodeUtf16 (sanitizeTextForWindows (decodeUtf8Lossy data))).flatMap u16ToLe ++ [0, 0]

/-- Local data in the format the client asked for. -/
def toRdpData (codec : ImageCodec) (formatId : UInt32) (mime : String) (data : List UInt8) :
    Except CoreError (List UInt8) :=
  if formatId = 13 then .ok (localText data)
  else if formatId = 8 then
    if startsWith "image/png" mime then pngToDib codec data
    else if startsWith "image/jpeg" mime then jpegToDib codec data
    else if startsWith "image/bmp" mime || startsWith "image/x-bmp" mime then bmpToDib data
    else .ok data
  else if formatId = 17 then
    if startsWith "image/png" mime then pngToDibv5 codec data
    else if startsWith "image/jpeg" mime then jpegToDibv5 codec data
    else .ok data
  else .ok data

/-- The error of a bitmap without a whole header. -/
def bitmapTooSmall : CoreError := .imageDecode "Data too small for bitmap"

/-- The client's data in the MIME type the provider asked for. -/
def toPortalData (codec : ImageCodec) (mime : String) (data : List UInt8) :
    Except CoreError (List UInt8) :=
  if startsWith "image/png" mime then
    if 4 ≤ data.length then
      -- Besides the standard header, the parser for the long one sorts out what it is given.
      if FileDescriptor.readLe data 0 4 = 40 then dibToPng codec data else dibv5ToPng codec data
    else .error bitmapTooSmall
  else if startsWith "image/jpeg" mime then
    if 4 ≤ data.length then
      if FileDescriptor.readLe data 0 4 = 124 then dibv5ToJpeg codec data else dibToJpeg codec data
    else .error bitmapTooSmall
  else if startsWith "image/bmp" mime || startsWith "image/x-bmp" mime then dibToBmp data
  else if mime = "text/rtf" ∨ mime = "application/rtf" then
    .ok (encodeUtf8 (sanitizeTextForLinux (decodeUtf8Lossy data)))
  else if (startsWith "text/plain" mime || startsWith "text/html" mime) ∧ 2 ≤ data.length then
    .ok (clientText data)
  else .ok data

/-! ### Announcements of the client -/

/-- A client that is ready late learns what was advertised before. -/
def handleRdpReady (env : Env) : Action PUnit := do
  let advertised ← Prog.gets fun s => s.orch.localAdvertisedFormats
  if advertised.isEmpty then pure ⟨⟩ else send env (.sendInitiateCopy advertised)

/-- Ask for the text of a selection before anyone pastes it. The queue entry is withdrawn if the
request cannot be sent, and with it every entry like it. -/
def eagerFetch (env : Env) : Action PUnit := do
  modifyPending fun pending => pending ++ [(eagerFetchSerial, "text/plain")]
  if env.sender = .registered then emit (.toClient (.sendInitiatePaste 13))
  else modifyPending fun pending => pending.filter fun r => r.1 ≠ eagerFetchSerial

/-- A provider that needs data upfront: retire its selection, then fetch the text if there is
any. -/
def retireAndFetch (env : Env) (provider : Provider) (formats : List ClipboardFormat)
    (mimeTypes : List String) : Action PUnit := do
  emit (.announceFormats [])
  match provider.announceFormats [] with
  | .error e => Prog.fail (.portalError ("Provider clear selection failed: " ++ e))
  | .ok () =>
    if mimeTypes.any (startsWith "text/plain") && hasId formats 13 then eagerFetch env
    else pure ⟨⟩

/-- Pass the MIME types of an accepted offer on to the provider. -/
def announceToProvider (env : Env) (formats : List ClipboardFormat) (mimeTypes : List String) :
    Action PUnit :=
  match env.provider with
  | none => pure ⟨⟩
  | some provider =>
    if provider.requiresUpfrontData then retireAndFetch env provider formats mimeTypes
    else do
      emit (.announceFormats mimeTypes)
      match provider.announceFormats mimeTypes with
      | .error e => Prog.fail (.portalError ("Provider announce_formats failed: " ++ e))
      | .ok () => pure ⟨⟩

section Handlers

variable (lib : Libraries)

/-- The client's formats are kept even where they are an echo, but only a list that is none is
announced to the desktop. -/
def handleRdpFormatList (env : Env) (formats : List ClipboardFormat) : Action PUnit := do
  modifyOrch fun o => { o with currentRdpFormats := formats }
  if ← withSync fun sync => sync.handleRdpFormats lib.sha256 env.now formats then
    let mimeTypes := rdpFormatsToMimes formats
    if mimeTypes.isEmpty then pure ⟨⟩ else announceToProvider env formats mimeTypes
  else pure ⟨⟩

/-! ### Requests of the client -/

/-- The answer to a request that cannot be served. -/
def sendFormatDataError (env : Env) : Action PUnit := send env (.sendFormatData .error)

/-- The name under which a format was advertised. -/
def advertisedName (advertised : List ClipboardFormat) (formatId : UInt32) : Option String :=
  (advertised.find? fun f => f.id = formatId || (formatId = 0 && f.name.isSome)).bind
    ClipboardFormat.name

/-- The URI list of the local selection, from either of the two types it may be offered as. -/
def readUriData (provider : Provider) : Action (Option (List UInt8)) := do
  emit (.readData "x-special/gnome-copied-files")
  match (provider.readData "x-special/gnome-copied-files").filter fun data => !data.isEmpty with
  | some data => pure (some data)
  | none => do
    emit (.readData "text/uri-list")
    pure (provider.readData "text/uri-list")

/-- The files behind the paths of a URI list, as far as they can be inspected. -/
def outgoingFiles (disk : Disk) (paths : List String) : List OutgoingFile :=
  paths.filterMap fun path => (disk.metadata path).map fun m => ⟨path, m.size⟩

/-- Offer the files of a URI list to the client. -/
def sendFileList (env : Env) (uriData : List UInt8) : Action PUnit :=
  let paths := parseFileUris env.disk.exists_ uriData
  if paths.isEmpty then sendFormatDataError env
  else do
    modifyFiles fun files =>
      { files.clearOutgoing with outgoingFiles := outgoingFiles env.disk paths }
    match FileDescriptor.buildList env.disk paths with
    | .ok descriptors => send env (.sendFormatData (.data descriptors))
    | .error _ => sendFormatDataError env

/-- The list of files is made from the URIs of the desktop, when the client asks for it. -/
def handleFileDescriptorRequest (env : Env) : Action PUnit :=
  match env.provider with
  | none => sendFormatDataError env
  | some provider => do
    match ← readUriData provider with
    | none => sendFormatDataError env
    | some uriData => sendFileList env uriData

/-- Answer a request with what the provider has of a MIME type. -/
def sendProviderData (env : Env) (formatId : UInt32) (mime : String) : Action PUnit :=
  match env.provider with
  | none => sendFormatDataError env
  | some provider => do
    emit (.readData mime)
    match provider.readData mime with
    | none => sendFormatDataError env
    | some portalData =>
      match toRdpData lib.codec formatId mime portalData with
      | .error e => Prog.fail (.core e)
      | .ok rdpData => send env (.sendFormatData (.data rdpData))

/-- A list of files is answered in its own way. Any other format is fetched under its MIME type and
converted. -/
def handleRdpDataRequest (env : Env) (formatId : UInt32) : Action PUnit := do
  let advertised ← Prog.gets fun s => s.orch.localAdvertisedFormats
  if advertisedName advertised formatId = some "FileGroupDescriptorW" then
    handleFileDescriptorRequest env
  else
    match rdpFormatToMime formatId with
    | none => sendFormatDataError env
    | some mime => sendProviderData lib env formatId mime

/-- A read that fails is answered as an error, not dropped. -/
def readFileChunk (disk : Disk) (path : String) (offset : UInt64) (size : UInt32) : FileContents :=
  match disk.readsChunk path offset size with
  | some data => .data data
  | none => .error

/-- The index is one into the list the client was last sent. -/
def handleRdpFileContentsRequest (env : Env) (streamId listIndex : UInt32) (position : UInt64)
    (requestedSize : UInt32) (isSizeRequest : Bool) : Action PUnit :=
  if env.sender = .unregistered then Prog.fail .notInitialized
  else do
    let outgoing ← Prog.gets fun s => s.orch.files.outgoingFiles
    match outgoing[listIndex.toNat]? with
    | none =>
      Prog.fail (.invalidState ("File index " ++ toString listIndex.toNat ++ " not found"))
    | some file =>
      send env (.sendFileContentsResponse ⟨streamId,
        if isSizeRequest then .size file.size
        else readFileChunk env.disk file.path position requestedSize⟩)

/-! ### Answers of the client -/

/-- Publish eagerly fetched text; data too small to be text is dropped. -/
def publishEagerFetch (provider : Provider) (data : List UInt8) : Action PUnit :=
  if 2 ≤ data.length then do
    emit (.provideData "text/plain" (clientText data))
    emit (.provideData "text/plain;charset=utf-8" (clientText data))
    if provider.requiresUpfrontData then
      emit (.announceFormats ["text/plain", "text/plain;charset=utf-8"])
    else pure ⟨⟩
  else pure ⟨⟩

/-- The most a client is asked for at once. -/
def chunkLimit : ℕ := 64 * 1024 * 1024

/-- A list index as the signed field of a request. -/
def requestIndex (index : ℕ) : ℕ := min index (2 ^ 31 - 1)

/-- The request for a range of a file. -/
def rangeRequest (streamId : UInt32) (file : IncomingFile) (position remaining : UInt64) :
    FileContentsRequest where
  streamId
  index := requestIndex file.fileIndex
  flags := .range
  position
  requestedSize := UInt32.ofNat (min remaining.toNat chunkLimit)
  dataId := some file.clipDataId

/-- The first request for a file: its first range, or its size if that is not known. -/
def firstRequest (streamId : UInt32) (file : IncomingFile) : FileContentsRequest :=
  match file.totalSize with
  | some size =>
    if 0 < size then rangeRequest streamId file 0 size
    else ⟨streamId, requestIndex file.fileIndex, .size, 0, 8, some file.clipDataId⟩
  | none => ⟨streamId, requestIndex file.fileIndex, .size, 0, 8, some file.clipDataId⟩

/-- Prepare one described file and ask for it. A file that cannot be created is left out. -/
def requestFile (env : Env) (index : ℕ) (descriptor : FileDescriptor) : Action PUnit := do
  let files ← Prog.gets fun s => s.orch.files
  let (streamId, files) := files.allocateStreamId
  modifyFiles fun _ => files
  let filename := sanitizeFilenameForLinux descriptor.name
  let tempPath := files.tempPath filename streamId
  if env.disk.createsDownloadDir && env.disk.createsFile tempPath then
    let file : IncomingFile := {
      finalPath := files.reserveDestination env.disk filename
      totalSize := descriptor.size
      awaitingSize := descriptor.size = none || descriptor.size = some 0
      receivedSize := 0
      tempPath
      contents := []
      fileIndex := min index (2 ^ 32 - 1)
      clipDataId := 1 }
    emit (.createFile tempPath)
    modifyFiles fun files => files.insertIncoming streamId file
    send env (.sendFileContentsRequest (firstRequest streamId file))
  else pure ⟨⟩

/-- One request for each file, numbered as in the client's list. -/
def requestFiles (env : Env) : ℕ → List FileDescriptor → Action PUnit
  | _, [] => pure ⟨⟩
  | index, descriptor :: rest => do
    requestFile env index descriptor
    requestFiles env (index + 1) rest

/-- A file that is gone already is no failure. -/
def removeAll : List String → Action PUnit
  | [] => pure ⟨⟩
  | path :: rest => do
    emit (.removeFile path)
    removeAll rest

/-- Forget the incoming transfer and remove its temporary files. -/
def clearIncomingFiles : Action PUnit := do
  removeAll (← Prog.gets fun s => s.orch.files.tempPaths)
  modifyFiles FileTransferState.clearIncoming

/-- Start receiving the files of a descriptor list, unless a transfer is under way. -/
def startFileTransfer (env : Env) (serial : UInt32) (mime : String)
    (descriptors : List FileDescriptor) : Action PUnit := do
  let files ← Prog.gets fun s => s.orch.files
  if !files.incomingFiles.isEmpty || env.sender = .unregistered then
    emit (.completeTransfer serial mime [] false)
  else
    clearIncomingFiles
    modifyFiles fun files =>
      { files.setPendingDescriptors descriptors with portalSerial := some serial }
    requestFiles env 0 descriptors

/-- Tell the provider that these transfers failed. -/
def cancelAll : List (UInt32 × String) → Action PUnit
  | [] => pure ⟨⟩
  | (serial, mime) :: rest => do
    emit (.completeTransfer serial mime [] false)
    cancelAll rest

/-- Convert an answer and complete its transfer. After a success every other transfer is cancelled
(applications ask for several types per paste); after a failure only this one is forgotten. -/
def deliver (env : Env) (provider : Provider) (serial : UInt32) (mime : String)
    (data : List UInt8) : Action PUnit :=
  match toPortalData lib.codec mime data with
  | .error e => Prog.fail (.core e)
  | .ok portalData => do
    emit (.completeTransfer serial mime portalData true)
    arrive env.arrivals
    if provider.completeTransfer serial mime then
      let pending ← Prog.gets fun s => s.orch.pendingPortalRequests
      modifyPending fun _ => []
      cancelAll (pending.filter fun r => r.1 ≠ serial)
    else modifyPending fun pending => pending.filter fun r => r.1 ≠ serial

/-- Desktops ask for lists of files under either type. -/
def isFileMime (mime : String) : Bool :=
  mime = "text/uri-list" || mime = "x-special/gnome-copied-files"

/-- Use an answer for the request it was matched with. -/
def settle (env : Env) (provider : Provider) (serial : UInt32) (mime : String)
    (data : List UInt8) : Action PUnit :=
  if serial = eagerFetchSerial then publishEagerFetch provider data
  else if isFileMime mime then
    match FileDescriptor.parseList data with
    | .ok descriptors => startFileTransfer env serial mime descriptors
    | .error _ => deliver lib env provider serial mime data
  else deliver lib env provider serial mime data

/-- The data goes to the oldest transfer that waits. -/
def handleRdpDataResponse (env : Env) (data : List UInt8) : Action PUnit := do
  if ← withSync fun sync => sync.checkContent lib.sha256 env.now data true then
    match env.provider with
    | none => pure ⟨⟩
    | some provider => do
      match ← Prog.gets fun s => s.orch.pendingPortalRequests with
      | [] => pure ⟨⟩
      | (serial, mime) :: rest => do
        modifyPending fun _ => rest
        settle lib env provider serial mime data
  else pure ⟨⟩

/-- An error of the client ends every transfer that waits. -/
def handleRdpDataError (env : Env) : Action PUnit := do
  let entries ← Prog.gets fun s => s.orch.pendingPortalRequests
  whenProvider env (cancelAll entries)
  arrive env.arrivals
  modifyPending fun _ => []

/-! ### File contents from the client -/

/-- Remove the temporary file of an incoming file. -/
def discard : Option IncomingFile → Action PUnit
  | some file => emit (.removeFile file.tempPath)
  | none => pure ⟨⟩

/-- Complete the paste that waits for the files, if there is one. -/
def completePaste (env : Env) (mime : String) (data : List UInt8) (success : Bool) :
    Option UInt32 → Action PUnit
  | some serial => whenProvider env (emit (.completeTransfer serial mime data success))
  | none => pure ⟨⟩

/-- The client could not serve a stream: the whole paste fails. -/
def failStream (env : Env) (streamId : UInt32) : Action PUnit := do
  let files ← Prog.gets fun s => s.orch.files
  discard (files.incoming? streamId)
  modifyFiles fun files => { files.removeIncoming streamId with portalSerial := none }
  completePaste env "" [] false files.portalSerial

/-- The size in an answer to a size request. -/
def applySizeResponse (data : List UInt8) : Except ClipboardError UInt64 :=
  if data.length = 8 then .ok (UInt64.ofNat (leToNat data))
  else .error (.fileIoError ("invalid clipboard file size response: expected 8 bytes, got " ++
    toString data.length))

/-- A complete file: move it to its destination, and deliver all files once it is the last. -/
def finishFile (env : Env) (streamId : UInt32) (file : IncomingFile) : Action PUnit :=
  match env.disk.flushes with
  | .error e => Prog.fail (.fileIoError ("Failed to flush file: " ++ e))
  | .ok () => do
    modifyFiles fun files =>
      { files.removeIncoming streamId with
        completedFiles := files.completedFiles ++ [file.finalPath] }
    let files ← Prog.gets fun s => s.orch.files
    match env.disk.renames file.tempPath file.finalPath with
    | .error e => Prog.fail (.fileIoError ("Failed to finalize file: " ++ e))
    | .ok () => do
      emit (.renameFile file.tempPath file.finalPath)
      if files.incomingFiles.isEmpty then
        completePaste env "x-special/gnome-copied-files" (fileUriList files.completedFiles) true
          files.portalSerial
        modifyFiles fun files => { files with completedFiles := [], portalSerial := none }
      else pure ⟨⟩

/-- After a chunk: finish the file, or ask for the next one if its size is known. -/
def continueFile (env : Env) (streamId : UInt32) (file : IncomingFile) : Action PUnit :=
  match file.totalSize with
  | none => pure ⟨⟩
  | some total =>
    if total ≤ file.receivedSize then finishFile env streamId file
    else
      send env (.sendFileContentsRequest
        (rangeRequest streamId file file.receivedSize (total - file.receivedSize)))

/-- Replace the file of a stream. -/
def setIncoming (streamId : UInt32) (file : IncomingFile) : Action PUnit :=
  modifyFiles fun files => files.insertIncoming streamId file

/-- The answer to a size request: ask for the first range, or finish an empty file. -/
def receiveSize (env : Env) (streamId : UInt32) (file : IncomingFile) (data : List UInt8) :
    Action PUnit :=
  match applySizeResponse data with
  | .error e => Prog.fail e
  | .ok total => do
    let file := { file with totalSize := some total, awaitingSize := false }
    setIncoming streamId file
    if 0 < total then
      if env.sender = .closed then
        Prog.fail (.invalidState "failed to request clipboard file data: channel closed")
      else send env (.sendFileContentsRequest (rangeRequest streamId file 0 total))
    else continueFile env streamId file

/-- A chunk of a file. What a failed write leaves in the file counts as not received. -/
def receiveChunk (env : Env) (streamId : UInt32) (file : IncomingFile) (data : List UInt8) :
    Action PUnit :=
  match env.disk.writes with
  | .error (e, written) => do
    emit (.writeFile file.tempPath (data.take written))
    setIncoming streamId { file with contents := file.contents ++ data.take written }
    Prog.fail (.fileIoError ("File write failed: " ++ e))
  | .ok () => do
    emit (.writeFile file.tempPath data)
    let file := { file with
      contents := file.contents ++ data
      receivedSize := file.receivedSize + UInt64.ofNat data.length }
    setIncoming streamId file
    continueFile env streamId file

/-- A piece of a file, or its failure. -/
def handleRdpFileContentsResponse (env : Env) (streamId : UInt32) (data : List UInt8)
    (isError : Bool) : Action PUnit :=
  if isError then failStream env streamId
  else do
    let files ← Prog.gets fun s => s.orch.files
    match files.incoming? streamId with
    | none => pure ⟨⟩
    | some file =>
      if file.awaitingSize then receiveSize env streamId file data
      else receiveChunk env streamId file data

/-! ### Events of the provider -/

/-- The configuration lets this MIME type of a local offer through. -/
def allowsMime (config : OrchestratorConfig) (mime : String) : Bool :=
  !(("text/html".toList.isPrefixOf (asciiLower mime) && !config.enableHtml) ||
    (asciiLower mime = "text/rtf".toList && !config.enableRtf) ||
    (startsWith "image/" mime && !config.enableImages) ||
    (asciiLower mime = "text/uri-list".toList && !config.enableFiles))

/-- Advertise what the configuration lets through of a local offer. -/
def advertise (env : Env) (config : OrchestratorConfig) (mimeTypes : List String) :
    Action PUnit :=
  let filtered := mimeTypes.filter (allowsMime config)
  if filtered.isEmpty then pure ⟨⟩
  else do
    let formats := mimeToRdpFormats filtered
    modifyOrch fun o => { o with localAdvertisedFormats := formats }
    send env (.sendInitiateCopy formats)

/-- The formats of the desktop are advertised to the client, unless they are an echo. -/
def handlePortalFormats (env : Env) (mimeTypes : List String) (force : Bool) : Action PUnit := do
  match ← withSync fun sync => sync.handlePortalFormats lib.sha256 env.now mimeTypes force with
  | .allow => do
    let config ← Prog.gets fun s => s.orch.config
    advertise env config mimeTypes
  | .block => pure ⟨⟩

/-- The format to request for a MIME type: from the client's offer, or the usual one. -/
def requestedFormat (formats : List ClipboardFormat) (mime : String) : Option UInt32 :=
  (lookupFormatIdForMime formats mime).or
    ((mimeToRdpFormats [mime]).head?.map ClipboardFormat.id)

/-- The client is asked to paste, in a format of its own list. -/
def handlePortalDataRequest (env : Env) (mime : String) : Action PUnit := do
  let formats ← Prog.gets fun s => s.orch.currentRdpFormats
  match requestedFormat formats mime with
  | none => Prog.fail (.core (.unsupportedFormat mime))
  | some formatId => send env (.sendInitiatePaste formatId)

/-! ### The event loop -/

/-- `ClipboardOrchestrator::handle_event`. -/
def handleEvent (env : Env) : ClipboardEvent → Action PUnit
  | .rdpReady => handleRdpReady env
  | .rdpFormatList formats => handleRdpFormatList lib env formats
  | .rdpDataRequest formatId => handleRdpDataRequest lib env formatId
  | .rdpDataResponse data => handleRdpDataResponse lib env data
  | .rdpDataError => handleRdpDataError env
  | .rdpFileContentsRequest streamId listIndex position size isSizeRequest =>
    handleRdpFileContentsRequest env streamId listIndex position size isSizeRequest
  | .rdpFileContentsResponse streamId data isError =>
    handleRdpFileContentsResponse env streamId data isError
  | .portalFormatsAvailable mimeTypes force => handlePortalFormats lib env mimeTypes force
  | .portalDataRequest mime => handlePortalDataRequest env mime

/-- Clear what belongs to the connection that ended. -/
def clearConnectionState (env : Env) : Action PUnit := do
  whenProvider env (emit (.announceFormats []))
  clearIncomingFiles
  modifyFiles fun files =>
    { files.clearOutgoing.setPendingDescriptors [] with portalSerial := none }

/-- What the orchestrator's tasks react to. -/
inductive Input where
  /-- The provider asks for a transfer; its forwarder queues it and passes it on. -/
  | transfer (serial : UInt32) (mimeType : String)
  | event (env : Env) (event : ClipboardEvent)
  | disconnect (env : Env)

/-- What the orchestrator does with each input. -/
def react : Input → Action PUnit
  | .transfer serial mime => forwardTransfer serial mime
  | .event env e => handleEvent lib env e
  | .disconnect env => clearConnectionState env

/-- What an input makes of an orchestrator: the next one, and what was done outside. An error is
reported and the loop goes on. -/
def respond (o : Orchestrator) (i : Input) : Session := ((react lib i).run ⟨o, []⟩).2

/-- The orchestrator as a machine. -/
def orchestrator : Machine Orchestrator Input Output where
  step o i := ((respond lib o i).orch, (respond lib o i).out)

end Handlers

end Clipboard

end Cheirizo
