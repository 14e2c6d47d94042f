import Kama.Foundations.Json
import Kama.Artifact.ImportCalls

/-!
# The Hub

The client of `hub.go`, as far as it prepares a download: `preflight` asks for a file and looks for
a checkpoint of an earlier attempt to resume from.
-/

namespace Kama.Artifact

open Bytes FileTree Inode Program Json Reader Descriptors OnDisk
open Storage (checkpointPath)

namespace Import

/-! ## The client -/

/-- `HubClient`; the endpoint is the text of its URL. -/
structure HubClient where
  endpoint : Bytes
  token : Bytes
  userAgent : Bytes

/-- A byte that `url.PathEscape` leaves as it is. -/
def isPathByte (b : UInt8) : Bool :=
  isAlphanumeric b || [45, 95, 46, 126, 36, 38, 43, 58, 61, 64].contains b

def upperHexDigit (n : UInt8) : UInt8 := if n < 10 then 48 + n else 55 + n

/-- `url.PathEscape`. -/
def pathEscape (s : Bytes) : Bytes :=
  s.flatMap fun b =>
    if isPathByte b then [b] else [37, upperHexDigit (b / 16), upperHexDigit (b % 16)]

def escapeSegments (s : Bytes) : Bytes := joinSlash ((splitSlash s).map pathEscape)

section Client

variable (client : HubClient)

def downloadURL (repository commit filename : Bytes) : Bytes :=
  trimRightSlash client.endpoint ++ ascii "/" ++ escapeSegments repository ++ ascii "/resolve/" ++
    pathEscape commit ++ ascii "/" ++ escapeSegments filename

def newRequest (method : Method) (url : Bytes) : Request :=
  ⟨method, url, client.userAgent, client.token⟩

end Client

/-- `responseStatusError`; `none` is a status that is accepted. -/
def responseStatusError (op : String) (status : Nat) : Except Err Unit :=
  if status = 200 ∨ status = 206 then .ok ()
  else if status = 401 ∨ status = 403 then
    .error (.failure .unauthorized op (.text "hub returned HTTP status %d" [natDigits status]))
  else if status = 404 then
    .error (.failure .sourceUnavailable op (.new "hub source was not found"))
  else
    .error (.failure .sourceUnavailable op
      (.text "hub returned HTTP status %d" [natDigits status]))

/-! ## Files -/

structure RemoteFile where
  path : Bytes
  size : Option Int64
  etag : Bytes
  resumeBytes : Int64
  deriving DecidableEq

def unavailable (op message : String) : Err := .failure .sourceUnavailable op (.new message)

def shardNames (entrypoint : Bytes) : Except Err (List Bytes) := do
  Gguf.validateShardEntrypoint entrypoint
  match Gguf.shardParts (Gguf.baseName entrypoint) with
  | none => pure [entrypoint]
  | some (stem, _, digits) =>
    let count := ofDigits digits
    if count < 1 ∨ maxSelectedFiles < count then
      throw (.failure .missingShard "parse shard name" (.text "invalid shard count %q" [digits]))
    pure ((Gguf.expectedShards entrypoint stem count).map Prod.fst)

/-! ## Checkpoints -/

/-- `resumeMetadata`. -/
structure ResumeMetadata where
  schemaVersion : Int64
  etag : Bytes
  size : Option Int64
  partialSize : Int64
  partialSHA256 : Bytes
  deriving DecidableEq

def ResumeMetadata.fields : Fields ResumeMetadata :=
  [(ascii "schemaVersion", setInt fun i r => { r with schemaVersion := Int64.ofInt i }),
    (ascii "etag", setString fun b r => { r with etag := b }),
    (ascii "size", setIntPointer fun i r => { r with size := i.map Int64.ofInt }),
    (ascii "partialSize", setInt fun i r => { r with partialSize := Int64.ofInt i }),
    (ascii "partialSHA256", setString fun b r => { r with partialSHA256 := b })]

def ResumeMetadata.zero : ResumeMetadata := ⟨0, [], none, 0, []⟩

/-- `readResumeCheckpoint`; `none` is a checkpoint that is missing or not valid. -/
def readResumeCheckpoint (resumePath : Path) : FileProg (Option ResumeMetadata) := do
  match ← attempt (openRegular resumePath) with
  | .error e => if e.isNotExist then pure none else throw e
  | .ok file => closingFile file do
    let chunk : Chunk ← ask (.read file 0 4097)
    match chunk.err with
    | some (.failed _) => pure none
    | _ =>
      match decodeDocument ResumeMetadata.fields ResumeMetadata.zero chunk.data with
      | .ok metadata => pure (some metadata)
      | .error _ => pure none

/-- The checkpoint describes a prefix of this remote file within the file that is there. -/
def resumable (stored : ResumeMetadata) (etag : Bytes) (size : Int64) (fileSize : Int64) : Bool :=
  decide (stored.schemaVersion = schemaVersion ∧ stored.etag ≠ [] ∧ stored.etag = etag ∧
    stored.size = some size ∧ 0 < stored.partialSize ∧ stored.partialSize ≤ size ∧
    stored.partialSize ≤ fileSize ∧ validSHA256 stored.partialSHA256 = true)

/-- Cut the file back to the checkpoint. -/
def resetPartial (p : Path) (checkpoint : Int64) : FileProg Unit := do
  let file ← onFd (openWritableRegular p false)
  let truncated : Except Errno Unit ← ask (.truncate file checkpoint)
  let synced : Except Errno Unit ← onFd (call (FdOp.sync file))
  let closed : Except Errno Unit ← onFd (call (FdOp.close file))
  match joinErrors [errnoOf truncated, errnoOf synced, errnoOf closed] with
  | none => pure ()
  | some e => throw (classifyStorageError "reset partial Hub file" e)

/-- The checkpoint, if its digest is that of the bytes of the file. -/
def hashedCheckpoint (file : Fd) (stored : ResumeMetadata) : FileProg Int64 := do
  let chunk : Chunk ← ask (.read file 0 stored.partialSize)
  if chunk.data.length = stored.partialSize.toNatClampNeg ∧
      hexSHA256 chunk.data = stored.partialSHA256 then pure stored.partialSize
  else pure 0

/-- The bytes of a checkpoint that may be resumed from, and the bytes of the open file. -/
def checkpointOf (file : Fd) (resumePath : Path) (etag : Bytes) (size : Int64) :
    FileProg (Int64 × Int64) := do
  let stat : Stat ←
    match (← ask (.fstat file) : Except Errno Stat) with
    | .error e => do
      onFd (closeQuietly file)
      throw (ioFailure "inspect partial Hub file" e)
    | .ok stat => pure stat
  let stored ←
    match ← attempt (readResumeCheckpoint resumePath) with
    | .error e => do
      onFd (closeQuietly file)
      throw e
    | .ok stored => pure stored
  let checkpoint ←
    match stored.filter fun stored => resumable stored etag size stat.size with
    | none => pure 0
    | some stored => hashedCheckpoint file stored
  onFd do
    check (ioFailure "close partial Hub file") (← call (FdOp.close file) : Except Errno Unit)
  pure (checkpoint, stat.size)

def validateResumeCheckpoint (p : Path) (etag : Bytes) (size : Int64) : FileProg Int64 := do
  match ← attempt (openRegular p) with
  | .error e => if e.isNotExist then pure 0 else throw e
  | .ok file => do
    let (checkpoint, fileSize) ← checkpointOf file (checkpointPath p) etag size
    (if fileSize ≠ checkpoint then resetPartial p checkpoint else pure ())
    pure checkpoint

/-! ## Transfers -/

section Transfers

variable (client : HubClient) (repository commit : Bytes)

/-- What `Preflight` makes of the answer to `HEAD`. -/
def inspectRemote (remote : RemoteFile) (response : Response) : Except Err RemoteFile :=
  if response.status = 405 ∨ response.status = 501 then .ok remote
  else do
    responseStatusError "inspect Hub file" response.status
    let remote := { remote with etag := Utf8.trimSpace response.etag }
    if 0 ≤ response.contentLength then
      if remote.size.any (· ≠ response.contentLength) then
        throw (unavailable "inspect Hub file" "hub API and file endpoint report different sizes")
      else pure { remote with size := some response.contentLength }
    else pure remote

/-- `Preflight`; the remote file with its size known, and the size. -/
def preflight (remote : RemoteFile) (destination : Path) : ImportProg (RemoteFile × Int64) := do
  ofResult (validateRepository repository)
  if validHubCommit commit = false then
    throw (invalidSpec "validate Hub commit" "commit is not a full immutable hexadecimal ID")
  else
    check (.failure .unsafePath "validate Hub file path") (validateRelativePath remote.path)
    validate "validate Hub destination path" destination
    let response : Response ← check (.failure .sourceUnavailable "preflight Hub file")
      (← call (ImportOp.request (newRequest client .head
        (downloadURL client repository commit remote.path))) : Except Err Response)
    let remote ← ofResult (inspectRemote remote response)
    match remote.size with
    | none =>
      throw (unavailable "preflight Hub file" "file endpoint did not report a content size")
    | some size => do
      let checkpoint ← on .cache (validateResumeCheckpoint destination remote.etag size)
      pure ({ remote with resumeBytes := checkpoint }, size)

end Transfers

end Import

end Kama.Artifact
