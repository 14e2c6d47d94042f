import Kama.Artifact.DiskFiles
import Kama.Artifact.Staged

/-!
# The calls of an importer

An importer works on the files below two mounts and on the Hub, with everything that the system
decides in the answers.

* `FileCall` are the calls on open files that have nothing to do with names. `FileProg` is code over
  these and the calls of `path_linux.go`, and `on` runs it below a mount. For a probe the root that
  is probed is in the place of a mount.
* `prepareRegularCopy` prepares a resumable copy of `storage_linux.go`, and
  `requirePublicationSpace` is the preflight of the space for all files.

A call that reads or writes says where in the file; moving the offset of an open file is no call of
its own. Loops that end when the system says so take `fuel`.
-/

namespace Kama.Artifact

open Bytes FileTree Inode Program Json Descriptors OnDisk

namespace Import

/-! ## Calls -/

/-- What `fstat` says about an open file. -/
structure Stat where
  dev : Nat
  ino : Nat
  size : Int64
  mtime : Int64 × Int64
  ctime : Int64 × Int64
  deriving DecidableEq

/-- How reading ended before the buffer was full. -/
inductive ReadErr
  | eof
  | failed (e : Err)

/-- What was read into the buffer, and the error if it is not full. -/
structure Chunk where
  data : Bytes
  err : Option ReadErr

/-- `statfs`: the blocks, the blocks available, and their size. -/
structure StatFs where
  blocks : UInt64
  bavail : UInt64
  bsize : UInt64
  deriving DecidableEq

/-- The calls below a mount that have nothing to do with names. -/
inductive FileCall
  | fstat (file : Fd)
  | read (file : Fd) (offset count : Int64)
  | write (file : Fd) (payload : Bytes)
  | truncate (file : Fd) (size : Int64)
  | mmap (file : Fd) (length : Nat)
  | munmap (file : Fd)
  | statfs

def FileCall.Ans : FileCall → Type
  | .fstat _ => Except Errno Stat
  | .read _ _ _ => Chunk
  | .write _ _ => Nat × Option Errno
  | .truncate _ _ | .munmap _ => Except Errno Unit
  | .mmap _ _ => Except Errno Bytes
  | .statfs => Except Errno StatFs

/-- Code below a mount that can fail. -/
abbrev FileProg (α : Type) := DiskProg FileCall FileCall.Ans α

def ask (q : FileCall) : FileProg q.Ans := call (DiskOp.other q)

inductive Mount
  | cache
  | source
  deriving DecidableEq

inductive Method
  | get
  | head
  deriving DecidableEq

/-- A request to the Hub; without a token it is not authorized. -/
structure Request where
  method : Method
  url : Bytes
  userAgent : Bytes
  token : Bytes
  deriving DecidableEq

/-- A response without its body; `contentLength` is negative when it is unknown. -/
structure Response where
  status : Nat
  contentLength : Int64
  etag : Bytes
  deriving DecidableEq

inductive ImportOp
  | file (mount : Mount) (op : DiskOp Bytes FileCall)
  | request (r : Request)

def ImportOp.Res : ImportOp → Type
  | .file _ op => op.Res FileCall.Ans
  | .request _ => Except Err Response

/-- Code of an importer that can fail. -/
abbrev ImportProg (α : Type) := ExceptT Err (Prog ImportOp ImportOp.Res) α

/-- Code below a mount. -/
def on (mount : Mount) {α : Type} (p : FileProg α) : ImportProg α :=
  ExceptT.mk (p.run.translate (ImportOp.file mount) fun _ r => r)

/-- The loop has gone on for longer than the fuel. -/
def outOfFuel : Err := .new "out of fuel"

/-- `errors.Join` of the errors that there are. -/
def joinErrors : List (Option Err) → Option Err
  | [] => none
  | none :: errs => joinErrors errs
  | some err :: errs =>
    match joinErrors errs with
    | none => some err
    | some rest => some (.join err rest)

def errnoOf {α : Type} : Except Errno α → Option Err
  | .ok _ => none
  | .error e => some (.errno e)

/-- `classifyStorageError` of joined errors. -/
def storageErrorOf (op : String) (errs : List (Option Err)) : Err :=
  classifyStorageError op ((joinErrors errs).getD (.new "operation failed"))

/-- `io.ReadFull` at an offset. -/
def readFull (op : String) (file : Fd) (offset count : Int64) : FileProg Bytes := do
  let chunk : Chunk ← ask (.read file offset count)
  if chunk.data.length = count.toNatClampNeg then pure chunk.data
  else
    match chunk.err with
    | some (.failed e) => throw (.failure .ioFailure op e)
    | _ => throw (.failure .ioFailure op (.new "unexpected EOF"))

/-! ## Copying -/

def bufferBytes : Int64 := 1024 * 1024

/-- `regularCopyPlan`: a file below the source that is copied to one below the cache. -/
structure CopyPlan where
  source : Fd
  destination : Fd
  destinationDir : Path
  sourceSize : Int64
  resumeBytes : Int64
  sourceSnapshot : Stat

def closeSource (source : Fd) : ImportProg Unit := on .source (onFd (closeQuietly source))

def closeBoth (source destination : Fd) : ImportProg Unit := do
  on .cache (onFd (closeQuietly destination))
  closeSource source

/-- Run `body`; if it fails, run `cleanup`. -/
def onError {α : Type} (cleanup : ImportProg Unit) (body : ImportProg α) : ImportProg α := do
  match ← attempt body with
  | .ok a => pure a
  | .error e => do
    cleanup
    throw e

def smaller (a b : Int64) : Int64 := if a < b then a else b

/-- The loop of `regularFilePrefixesEqual`: compare what remains from an offset on. -/
def prefixesEqualFrom (source destination : Fd) : Nat → Int64 → Int64 → ImportProg Bool
  | 0, _, _ => throw outOfFuel
  | fuel + 1, offset, remaining =>
    if remaining ≤ 0 then pure true
    else do
      let chunk := smaller bufferBytes remaining
      let left ← on .source (readFull "read PVC source prefix" source offset chunk)
      let right ← on .cache (readFull "read PVC staging prefix" destination offset chunk)
      if left ≠ right then pure false
      else prefixesEqualFrom source destination fuel (offset + chunk) (remaining - chunk)

def regularFilePrefixesEqual (fuel : Nat) (source destination : Fd) (size : Int64) :
    ImportProg Bool :=
  prefixesEqualFrom source destination fuel 0 size

def syncCheckpoint (plan : CopyPlan) : FileProg Unit := onFd do
  check (storageError "fsync partial PVC copy") (← call (FdOp.sync plan.destination))
  syncDirectory plan.destinationDir

/-- The staging file is a prefix of the source, or is emptied; the bytes that are already there. -/
def resumeFrom (fuel : Nat) (source destination : Fd) (staged sourceSize : Int64) :
    ImportProg Int64 := do
  let validPrefix ←
    if staged ≤ sourceSize ∧ 0 < staged then
      regularFilePrefixesEqual fuel source destination staged
    else pure (decide (staged ≤ sourceSize))
  if validPrefix then pure staged
  else on .cache do
    check (storageError "reset PVC copy staging")
      (← ask (.truncate destination 0) : Except Errno Unit)
    pure 0

/-- The staging file of a copy, with its directory. -/
def openStaging (destinationPath : Path) : FileProg Fd := onFd do
  if destinationPath.dropLast ≠ [] then mkdirAll destinationPath.dropLast
  openWritableRegular destinationPath false

/-- `prepareRegularCopy` after the source has been opened. -/
def planCopy (fuel : Nat) (source : Fd) (destinationPath : Path) : ImportProg CopyPlan := do
  let (snapshot, destination) ← onError (closeSource source) do
    let snapshot : Stat ← on .source do
      check (ioFailure "inspect PVC source identity") (← ask (.fstat source) : Except Errno Stat)
    if snapshot.size < 0 then
      throw (.failure .ioFailure "inspect PVC source" (.new "source file has a negative size"))
    else
      let destination ← on .cache (openStaging destinationPath)
      pure (snapshot, destination)
  onError (closeBoth source destination) do
    let staged : Stat ← on .cache do
      check (ioFailure "inspect PVC copy staging") (← ask (.fstat destination) : Except Errno Stat)
    if staged.size < 0 then
      throw (.failure .ioFailure "inspect PVC copy staging"
        (.new "staging file has a negative size"))
    else
      let resumeBytes ← resumeFrom fuel source destination staged.size snapshot.size
      let plan : CopyPlan :=
        ⟨source, destination, destinationPath.dropLast, snapshot.size, resumeBytes, snapshot⟩
      on .cache (syncCheckpoint plan)
      pure plan

def prepareRegularCopy (fuel : Nat) (sourcePath destinationPath : Path) : ImportProg CopyPlan := do
  let source ← on .source (openRegular sourcePath)
  planCopy fuel source destinationPath

/-- `regularCopyPlan.close`. -/
def closePlan (plan : CopyPlan) : ImportProg Unit := do
  let destination : Except Errno Unit ← on .cache (onFd (call (FdOp.close plan.destination)))
  let source : Except Errno Unit ← on .source (onFd (call (FdOp.close plan.source)))
  match joinErrors [errnoOf destination, errnoOf source] with
  | none => pure ()
  | some e => throw (classifyStorageError "close PVC copy files" e)

/-! ## Space -/

def filesystemSpace : FileProg (UInt64 × UInt64) := do
  let stat : StatFs ←
    check (ioFailure "inspect filesystem capacity") (← ask .statfs : Except Errno StatFs)
  pure (stat.blocks * stat.bsize, stat.bavail * stat.bsize)

def requireFreeSpace (required : UInt64) : FileProg Unit := do
  let (_, free) ← filesystemSpace
  if free < required then
    throw (.failure .insufficientStorage "preflight artifact storage"
      (.text "%d bytes required, %d bytes available"
        [natDigits required.toNat, natDigits free.toNat]))
  else pure ()

def fixedReserve : UInt64 := 1024 * 1024

def perFileReserve : UInt64 := 64 * 1024

def requirePublicationSpace (payloadBytes : UInt64) (fileCount : Nat) : FileProg Unit :=
  if fileCount < 1 ∨ maxSelectedFiles < fileCount then
    throw (invalidSpec "preflight artifact storage"
      "publication file count is outside supported bounds")
  else
    let overhead := fixedReserve + UInt64.ofNat fileCount * perFileReserve
    if ~~~0 - overhead < payloadBytes then
      throw (.failure .insufficientStorage "preflight artifact storage"
        (.new "publication size plus metadata reserve overflows"))
    else requireFreeSpace (payloadBytes + overhead)

end Import

end Kama.Artifact
