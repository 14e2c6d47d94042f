import Kama.Artifact.Basic
import Kama.Foundations.Host

/-!
# The path functions on descriptors

`path_linux.go` never hands a path to the kernel: it opens one directory after the other and acts
on the last descriptor. Here are those functions and the two users whose correctness hangs on
what a descriptor refers to: the operation lock and the scoped cleanup of `storage_linux.go`.
Each is a program over the descriptor calls of `Kama.Foundations.Host`, in the order in which
the source makes them, closes included.

`RemoveTreeNoFollow` recurses over whatever it finds and reads each directory until its end, so
these programs take `fuel` for the depth and the number of reads. `AcquireOperationLock` retries
until its context is done; `retries` is the number of further attempts until then.
-/

namespace Kama.Artifact.Descriptors

open Bytes FileTree Inode Program

/-- Code over descriptors that can fail. -/
abbrev FdProg (α : Type) := ExceptT Err (Prog (FdOp Bytes) FdOp.Res) α

/-- `_ = unix.Close(fd)`. -/
def closeQuietly (fd : Fd) : FdProg Unit := do
  let _ ← call (FdOp.close fd)

/-- Close a directory of a walk; the root is closed by the function that opened it. -/
def closeUnlessRoot (root current : Fd) : FdProg Unit :=
  if current = root then pure () else closeQuietly current

/-- `defer func() { _ = fd.Close() }()`. -/
def closing {α : Type} (fd : Fd) (body : FdProg α) : FdProg α :=
  deferring (closeQuietly fd) body

/-! ## Opening -/

def openRoot (op : String) : FdProg Fd := do
  check (unsafePath op) (← call FdOp.openRoot)

/-- Open the components one by one, closing each directory when the next is open. -/
def walkFrom (op : String) (root current : Fd) : Path → FdProg Fd
  | [] => pure current
  | name :: rest => do
    let next ← call (FdOp.openDir current name)
    closeUnlessRoot root current
    match (next : Except Errno Fd) with
    | .error e => do
      closeQuietly root
      throw (unsafePath op e)
    | .ok next => walkFrom op root next rest

def openDirectory (p : Path) : FdProg Fd := do
  if p = [] then openRoot "open validation root"
  else
    validate "validate directory path" p
    let root ← openRoot "open validation root"
    let current ← walkFrom "open artifact directory" root root p
    closeQuietly root
    pure current

def openParent (p : Path) : FdProg (Fd × Bytes) := do
  validate "validate artifact path" p
  let parent ← openDirectory p.dropLast
  pure (parent, p.getLastD [])

/-- The loop of `MkdirAll`, and the last `Close`. -/
def mkdirAllFrom (root current : Fd) : Path → FdProg Unit
  | [] => do
    if current ≠ root then
      check .errno (← call (FdOp.close current))
  | name :: rest => do
    match (← call (FdOp.mkdir current name) : Except Errno Unit) with
    | .ok () =>
      match (← call (FdOp.sync current) : Except Errno Unit) with
      | .ok () => pure ()
      | .error e => do
        closeUnlessRoot root current
        throw (storageError "fsync artifact directory parent" e)
    | .error .EEXIST => pure ()
    | .error e => do
      closeUnlessRoot root current
      throw (storageError "create artifact directory" e)
    let next ← call (FdOp.openDir current name)
    closeUnlessRoot root current
    let next ← check (unsafePath "open artifact directory") (next : Except Errno Fd)
    mkdirAllFrom root next rest

def mkdirAll (p : Path) : FdProg Unit := do
  validate "validate directory path" p
  let root ← openRoot "open directory root"
  closing root (mkdirAllFrom root root p)

def writableError (e : Errno) : Err :=
  if e = .ELOOP then unsafePath "open writable artifact file" e
  else storageError "open writable artifact file" e

/-- The checks of `openWritableRegular` on what it has opened. -/
def inspectWritable (fd : Fd) : FdProg Fd := do
  match (← call (FdOp.stat fd) : Except Errno (Kind × Nat)) with
  | .error e => do
    closeQuietly fd
    throw (ioFailure "inspect writable artifact file" e)
  | .ok (kind, nlink) =>
    if kind ≠ .regular then
      closeQuietly fd
      throw (.failure .unsafePath "inspect writable artifact file"
        (.new "destination is not a regular file"))
    else if nlink ≠ 1 then
      closeQuietly fd
      throw (.failure .unsafePath "inspect writable artifact file"
        (.new "destination has multiple hard links"))
    else pure fd

/-- `openWritableRegular` without truncation. -/
def openWritableRegular (p : Path) (exclusive : Bool) : FdProg Fd := do
  validate "validate writable path" p
  let root ← openRoot "open writable root"
  let current ← walkFrom "open writable directory" root root p.dropLast
  let opened ← call (FdOp.create current (p.getLastD []) exclusive)
  closeUnlessRoot root current
  closeQuietly root
  let fd ← check writableError (opened : Except Errno Fd)
  inspectWritable fd

/-! ## Removing -/

def removeNoFollow (p : Path) : FdProg Unit := do
  let (parent, base) ← openParent p
  closing parent do
    check (storageError "remove artifact path") (← call (FdOp.unlink parent base))
    check (storageError "fsync removed artifact path parent") (← call (FdOp.sync parent))

/-- One entry of a directory that is being emptied; `recurse` empties a directory below. -/
def removeEntry (recurse : Fd → FdProg Unit) (dir : Fd) (name : Bytes) : FdProg Unit := do
  if name = ascii "." ∨ name = ascii ".." ∨ 47 ∈ name ∨ 0 ∈ name then
    throw (.failure .unsafePath "read artifact tree"
      (.new "directory contains an invalid entry name"))
  let kind : Kind ←
    check (storageError "inspect artifact tree entry") (← call (FdOp.statAt dir name))
  if kind = .directory then
    let child : Fd ← check (unsafePath "open artifact tree entry") (← call (FdOp.openDir dir name))
    match ← attempt (recurse child) with
    | .error e => do
      closeQuietly child
      throw e
    | .ok () => do
      check (storageError "close artifact tree entry") (← call (FdOp.close child))
      check (storageError "remove artifact tree directory") (← call (FdOp.rmdir dir name))
  else check (storageError "remove artifact tree entry") (← call (FdOp.unlink dir name))

def removeEntries (recurse : Fd → FdProg Unit) (dir : Fd) : List Bytes → FdProg Unit
  | [] => pure ()
  | name :: names => do
    removeEntry recurse dir name
    removeEntries recurse dir names

def removeDirectoryContents : Nat → Fd → FdProg Unit
  | 0, _ => throw (.new "out of fuel")
  | fuel + 1, dir => do
    match (← call (FdOp.readDir dir (some 128)) : Except Errno (List Bytes × Bool)) with
    -- a missing directory is neither an error nor the end: the source reads again
    | .error .ENOENT => removeDirectoryContents fuel dir
    | .error e => throw (storageError "read artifact tree" e)
    | .ok (names, eof) => do
      removeEntries (removeDirectoryContents fuel) dir names
      if eof then pure () else removeDirectoryContents fuel dir

def removeTreeNoFollow (fuel : Nat) (p : Path) : FdProg Unit := do
  let (parent, base) ← openParent p
  closing parent do
    let directory : Fd ←
      check (storageError "open artifact tree") (← call (FdOp.openDir parent base))
    match ← attempt (removeDirectoryContents fuel directory) with
    | .error e => do
      closeQuietly directory
      throw e
    | .ok () =>
      match (← call (FdOp.sync directory) : Except Errno Unit) with
      | .error e => do
        closeQuietly directory
        throw (storageError "fsync removed artifact tree" e)
      | .ok () => do
        check (storageError "close removed artifact tree") (← call (FdOp.close directory))
        check (storageError "remove artifact tree") (← call (FdOp.rmdir parent base))
        check (storageError "fsync artifact tree parent") (← call (FdOp.sync parent))

/-! ## The operation lock -/

def kamaDir : Bytes := ascii ".kama"

def locksDir : Path := [kamaDir, ascii "locks"]

def lockName (operationID : Bytes) : Bytes := operationID ++ ascii ".lock"

def lockPath (operationID : Bytes) : Path := locksDir ++ [lockName operationID]

/-- One attempt of `AcquireOperationLock`; `retry` is what it does when the lock is taken. -/
def flockOnce (fd : Fd) (retry : FdProg Fd) : FdProg Fd := do
  match (← call (FdOp.lock fd) : Except Errno Unit) with
  | .ok () => pure fd
  | .error .EWOULDBLOCK => retry
  | .error e => do
    closeQuietly fd
    throw (ioFailure "acquire artifact operation lock" e)

/-- The loop of `AcquireOperationLock`. -/
def flockLoop (fd : Fd) : Nat → FdProg Fd
  | 0 => flockOnce fd do
    closeQuietly fd
    throw (.failure .ioFailure "acquire artifact operation lock" (.new "context done"))
  | retries + 1 => flockOnce fd (flockLoop fd retries)

def acquireOperationLock (retries : Nat) (operationID : Bytes) : FdProg Fd := do
  ofResult (validateOperationID operationID)
  mkdirAll locksDir
  let fd ← openWritableRegular (lockPath operationID) false
  flockLoop fd retries

/-- `OperationLock.Close`. -/
def closeLock (fd : Fd) : FdProg Unit := do
  let unlocked ← call (FdOp.unlock fd)
  let closed ← call (FdOp.close fd)
  match (unlocked : Except Errno Unit), (closed : Except Errno Unit) with
  | .ok (), .ok () => pure ()
  | .error e, .ok () | .ok (), .error e => throw (.errno e)
  | .error e, .error e' => throw (.join (.errno e) (.errno e'))

/-! ## Scoped cleanup -/

/-- A directory of transient state: with a suffix, its entries are files of that kind; without
one they are trees. -/
structure TransientArea where
  directory : Path
  suffix : Bytes
  tree : Bool
  deriving DecidableEq, Repr

def transientAreas : List TransientArea :=
  [⟨[kamaDir, ascii "staging"], [], true⟩,
    ⟨[kamaDir, ascii "intents"], ascii ".json", false⟩,
    ⟨[kamaDir, ascii "operations"], ascii ".json", false⟩,
    ⟨[kamaDir, ascii "revisions"], ascii ".json", false⟩,
    ⟨[kamaDir, ascii "locks"], ascii ".lock", false⟩]

/-- `strings.LastIndex`, with the text before and after the last occurrence. -/
def cutLast (s sep : Bytes) : Option (Bytes × Bytes) :=
  (List.range (s.length + 1)).reverse.findSome? fun i =>
    if sep <+: s.drop i then some (s.take i, s.drop (i + sep.length)) else none

/-- The operation that a metadata file, or the temporary file of a metadata write, belongs to. -/
def transientMetadataOperation (name suffix : Bytes) : Option Bytes :=
  match cutSuffix name suffix with
  | some operation => if operationIDPattern operation then some operation else none
  | none =>
    match name with
    | 46 :: trimmed =>
      match cutLast trimmed (suffix ++ ascii ".tmp-") with
      | some (operation, random) =>
        if operation ≠ [] ∧ operationIDPattern operation ∧ random.length = 16 ∧
            random.all isHex then some operation
        else none
      | none => none
    | _ => none

/-- The operation of an entry of an area, if the cleanup recognises the entry. -/
def TransientArea.operation (area : TransientArea) (name : Bytes) : Option Bytes :=
  if area.suffix = [] then some name else transientMetadataOperation name area.suffix

def removeAreaEntries (fuel : Nat) (prefix_ : Bytes) (area : TransientArea) :
    List Bytes → FdProg Unit
  | [] => pure ()
  | name :: names => do
    match area.operation name with
    | none => pure ()
    | some operation =>
      if prefix_ <+: operation ∧ operationIDPattern operation then
        unlessNotExist <|
          if area.tree then removeTreeNoFollow fuel (area.directory ++ [name])
          else removeNoFollow (area.directory ++ [name])
      else pure ()
    removeAreaEntries fuel prefix_ area names

def removeArea (fuel : Nat) (prefix_ : Bytes) (area : TransientArea) : FdProg Unit := do
  match ← attempt (openDirectory area.directory) with
  | .error e => if e.isNotExist then pure () else throw e
  | .ok directory => do
    let entries ← call (FdOp.readDir directory none)
    let closed ← call (FdOp.close directory)
    match (entries : Except Errno (List Bytes × Bool)), (closed : Except Errno Unit) with
    | .ok (names, _), .ok () => removeAreaEntries fuel prefix_ area names
    | .error e, .ok () | .ok _, .error e =>
      throw (ioFailure "enumerate transient artifact state" e)
    | .error e, .error e' =>
      throw (.failure .ioFailure "enumerate transient artifact state"
        (.join (.errno e) (.errno e')))

def removeAreas (fuel : Nat) (prefix_ : Bytes) : List TransientArea → FdProg Unit
  | [] => pure ()
  | area :: areas => do
    removeArea fuel prefix_ area
    removeAreas fuel prefix_ areas

def removeOperationState (fuel : Nat) (prefix_ : Bytes) : FdProg Unit := do
  ofResult (validateOperationPrefix prefix_)
  removeAreas fuel prefix_ transientAreas

end Kama.Artifact.Descriptors
