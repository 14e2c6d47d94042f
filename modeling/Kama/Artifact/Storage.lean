import Kama.Artifact.Descriptors
import Kama.Artifact.Gguf
import Kama.Foundations.FsCalls

/-!
# Publication

The code of `storage_linux.go` that turns a staging directory into content-addressed storage and
finds it again after a crash, as programs over the path-level calls of
`Kama.Foundations.FileTree`. A path is opened component by component, and is the path at that moment
as long as no directory on the way to it is renamed or removed. This code does so with staging
directories only, and a staging directory belongs to one process at a time, the one that holds the
operation lock.

`writeAtomic` writes a temporary file and renames it into place: it is the directories it makes,
one `replace`, and the sync of the parent. An `fsync` through a descriptor that is already open
changes nothing here and is left out; where syncing opens a path first, the open is kept.
`RemoveTreeNoFollow` takes `fuel`, as in `Kama.Artifact.Descriptors`.
-/

namespace Kama.Artifact

open Bytes FileTree Program Json

namespace Storage

abbrev CacheOp := FsOp Bytes Bytes

abbrev Cache := Tree Bytes Bytes

/-- Code over the cache that can fail. -/
abbrev CacheProg (α : Type) := ExceptT Err (Prog CacheOp FsOp.Res) α

/-! ## Paths -/

/-- What `OpenRegular` has opened, once it is known to be a regular file. -/
def regular (p : Path) (content : Option Bytes) : CacheProg Bytes :=
  match content with
  | some content => pure content
  | none =>
    throw (.failure .unsafePath "inspect artifact file"
      (.text "%q is not a regular file" [joinSlash p]))

/-- `OpenRegular` and reading to the end. -/
def readRegular (p : Path) : CacheProg Bytes := do
  validate "validate path" p
  let content ← check (unsafePath "open artifact path") (← call (FsOp.readFile p))
  regular p content

/-- `OpenRegular` and `Sync`. -/
def syncRegular (p : Path) : CacheProg Unit := do
  validate "validate path" p
  let content ← check (unsafePath "open artifact path") (← call (FsOp.syncFile p))
  let _ ← regular p content

/-- The check of `OpenDirectory`; the root has no name to check. -/
def validateDirectory (p : Path) : CacheProg Unit :=
  if p = [] then pure () else validate "validate directory path" p

def openDirectory (p : Path) : CacheProg Unit := do
  validateDirectory p
  check (unsafePath "open artifact directory") (← call (FsOp.openDir p))

def syncDirectory (p : Path) : CacheProg Unit := do
  validateDirectory p
  check (unsafePath "open artifact directory") (← call (FsOp.syncDir p))

def openParent (p : Path) : CacheProg Unit := do
  validate "validate artifact path" p
  openDirectory p.dropLast

/-- What `MkdirAll` makes of the answer to one `mkdir`. -/
def created (r : Except Errno Unit) : CacheProg Unit :=
  match r with
  | .ok () => pure ()
  | .error .EEXIST => pure ()
  | .error e => throw (storageError "create artifact directory" e)

/-- The loop of `MkdirAll`, below `base`. -/
def mkdirAllFrom (base : Path) : Path → CacheProg Unit
  | [] => pure ()
  | name :: rest => do
    created (← call (FsOp.mkdir (base ++ [name])))
    check (unsafePath "open artifact directory") (← call (FsOp.openDir (base ++ [name])))
    mkdirAllFrom (base ++ [name]) rest

def mkdirAll (p : Path) : CacheProg Unit := do
  validate "validate directory path" p
  mkdirAllFrom [] p

/-- The errors of putting a file in place: of the temporary file, or of the rename. -/
def replaceError (e : Errno) : Err :=
  if e = .EISDIR then storageError "rename artifact path" e
  else unsafePath "open writable directory" e

def makeParent (p : Path) : CacheProg Unit :=
  if p.dropLast = [] then pure () else mkdirAll p.dropLast

def writeAtomic (p : Path) (payload : Bytes) : CacheProg Unit := do
  makeParent p
  check replaceError (← call (FsOp.replace p payload))
  syncDirectory p.dropLast

def renameNoFollow (p q : Path) : CacheProg Unit := do
  openParent p
  openParent q
  check (storageError "rename artifact path") (← call (FsOp.rename p q))

def removeNoFollow (p : Path) : CacheProg Unit := do
  openParent p
  check (storageError "remove artifact path") (← call (FsOp.unlink p))

/-- One entry of a directory that is being emptied; `recurse` empties a directory below. -/
def removeEntry (recurse : Path → CacheProg Unit) (dir : Path) (name : Bytes) :
    CacheProg Unit := do
  if name = ascii "." ∨ name = ascii ".." ∨ 47 ∈ name ∨ 0 ∈ name then
    throw (.failure .unsafePath "read artifact tree"
      (.new "directory contains an invalid entry name"))
  else
    let isDir : Bool ←
      check (storageError "inspect artifact tree entry") (← call (FsOp.stat (dir ++ [name])))
    if isDir then do
      check (unsafePath "open artifact tree entry") (← call (FsOp.openDir (dir ++ [name])))
      recurse (dir ++ [name])
      check (storageError "remove artifact tree directory") (← call (FsOp.rmdir (dir ++ [name])))
    else check (storageError "remove artifact tree entry") (← call (FsOp.unlink (dir ++ [name])))

def removeEntries (recurse : Path → CacheProg Unit) (dir : Path) : List Bytes → CacheProg Unit
  | [] => pure ()
  | name :: names => do
    removeEntry recurse dir name
    removeEntries recurse dir names

def removeDirectoryContents : Nat → Path → CacheProg Unit
  | 0, _ => throw (.new "out of fuel")
  | fuel + 1, dir => do
    match (← call (FsOp.readDir dir) : Except Errno (List Bytes)) with
    -- a missing directory is neither an error nor the end: the source reads again
    | .error .ENOENT => removeDirectoryContents fuel dir
    | .error e => throw (storageError "read artifact tree" e)
    | .ok [] => pure ()
    | .ok names => do
      removeEntries (removeDirectoryContents fuel) dir (names.take 128)
      removeDirectoryContents fuel dir

def removeTreeNoFollow (fuel : Nat) (p : Path) : CacheProg Unit := do
  openParent p
  check (storageError "open artifact tree") (← call (FsOp.openDir p))
  removeDirectoryContents fuel p
  check (storageError "remove artifact tree") (← call (FsOp.rmdir p))

/-! ## Operation metadata -/

/-- `operationMarker`. -/
structure Marker where
  schemaVersion : Int64
  artifactDigest : Bytes
  publicationDigest : Bytes
  resolvedRevision : Bytes
  deriving DecidableEq, Repr

/-- `operationIntent`. -/
structure Intent where
  schemaVersion : Int64
  artifactDigest : Bytes
  publicationDigest : Bytes
  resolvedRevision : Bytes
  manifest : Manifest
  deriving DecidableEq, Repr

def Marker.toJson (marker : Marker) : Json :=
  .obj ([(ascii "schemaVersion", .num (decimal marker.schemaVersion.toInt)),
    (ascii "artifactDigest", .str marker.artifactDigest),
    (ascii "publicationDigest", .str marker.publicationDigest)] ++
    omitString "resolvedRevision" marker.resolvedRevision)

def Intent.toJson (intent : Intent) : Json :=
  .obj ([(ascii "schemaVersion", .num (decimal intent.schemaVersion.toInt)),
    (ascii "artifactDigest", .str intent.artifactDigest),
    (ascii "publicationDigest", .str intent.publicationDigest)] ++
    omitString "resolvedRevision" intent.resolvedRevision ++
    [(ascii "manifest", intent.manifest.toJson)])

def Marker.fields : Fields Marker :=
  [(ascii "schemaVersion", setInt fun i m => { m with schemaVersion := Int64.ofInt i }),
    (ascii "artifactDigest", setString fun b m => { m with artifactDigest := b }),
    (ascii "publicationDigest", setString fun b m => { m with publicationDigest := b }),
    (ascii "resolvedRevision", setString fun b m => { m with resolvedRevision := b })]

/-- A member that is a manifest is decoded into the manifest that is there. -/
def setManifest : Json → Intent → Option Intent
  | j, intent => (decodeStruct Manifest.fields intent.manifest j).map fun m =>
    { intent with manifest := m }

def Intent.fields : Fields Intent :=
  [(ascii "schemaVersion", setInt fun i m => { m with schemaVersion := Int64.ofInt i }),
    (ascii "artifactDigest", setString fun b m => { m with artifactDigest := b }),
    (ascii "publicationDigest", setString fun b m => { m with publicationDigest := b }),
    (ascii "resolvedRevision", setString fun b m => { m with resolvedRevision := b }),
    (ascii "manifest", setManifest)]

def Marker.zero : Marker := ⟨0, [], [], []⟩

def Intent.zero : Intent := ⟨0, [], [], [], Manifest.zero⟩

/-- The text of `readCanonicalMetadata`, decoded. -/
def decodeCanonical {σ : Type} (fields : Fields σ) (zero : σ) (toJson : σ → Json) (limit : Nat)
    (payload : Bytes) : Except Err σ :=
  if limit < payload.length then
    .error (.failure .publicationConflict "validate operation metadata"
      (.new "operation metadata exceeds size limit"))
  else
    match decodeDocument fields zero payload with
    | .error .decode =>
      .error (.failure .publicationConflict "decode operation metadata" (.new "invalid JSON"))
    | .error .trailing =>
      .error (.failure .publicationConflict "validate operation metadata"
        (.new "operation metadata contains multiple JSON values"))
    | .ok v =>
      if payload = Json.encode (toJson v) then .ok v
      else .error (.failure .publicationConflict "validate operation metadata"
        (.new "operation metadata is not canonical"))

/-- `readCanonicalMetadata`; `none` is a missing file. -/
def readCanonicalMetadata {σ : Type} (fields : Fields σ) (zero : σ) (toJson : σ → Json)
    (limit : Nat) (p : Path) : CacheProg (Option σ) := do
  match ← attempt (readRegular p) with
  | .error e => if e.isNotExist then pure none else throw e
  | .ok payload => do
    let v ← ofResult (decodeCanonical fields zero toJson limit payload)
    pure (some v)

def validRevision (revision : Bytes) : Bool := revision.isEmpty || validHubCommit revision

def validateOperationIdentity (version : Int64) (artifactDigest publicationDigest
    resolvedRevision : Bytes) : Except Err Unit :=
  if version ≠ schemaVersion ∨ validSHA256 artifactDigest = false ∨
      validSHA256 publicationDigest = false ∨ validRevision resolvedRevision = false then
    .error (.failure .publicationConflict "validate operation metadata"
      (.new "operation identity is invalid"))
  else .ok ()

/-! ## Published content -/

def blobsDir : Path := [ascii "blobs", ascii "sha256"]

def stagingDir : Path := [Descriptors.kamaDir, ascii "staging"]

def intentsDir : Path := [Descriptors.kamaDir, ascii "intents"]

def operationsDir : Path := [Descriptors.kamaDir, ascii "operations"]

def publishedRelative (digest : Bytes) : Path := blobsDir ++ [digest]

def stagingPath (operationID : Bytes) : Path := stagingDir ++ [operationID]

def intentPath (operationID : Bytes) : Path := intentsDir ++ [operationID ++ ascii ".json"]

def markerPath (operationID : Bytes) : Path := operationsDir ++ [operationID ++ ascii ".json"]

def readyPath (digest : Bytes) : Path := publishedRelative digest ++ [readyFilename]

/-- A file of a manifest below a directory. -/
def filePath (base : Path) (path : Bytes) : Path := base ++ splitSlash path

def readManifest (p : Path) : CacheProg Manifest := do
  let payload ← readRegular p
  ofResult (decodeManifest payload)

/-- `HashFile` of a file with this content. -/
def hashFile (path content : Bytes) : Except Err FileRecord := do
  (validateRelativePath path).mapError (.failure .unsafePath "validate manifest path")
  pure ⟨path, Int64.ofNat content.length, hexSHA256 content⟩

/-- The files are those of the records. -/
def validateFiles (base : Path) : List FileRecord → CacheProg Unit
  | [] => pure ()
  | expected :: records => do
    let content ← readRegular (filePath base expected.path)
    let actual ← ofResult (hashFile expected.path content)
    if actual.size ≠ expected.size ∨ actual.sha256 ≠ expected.sha256 then
      throw (.failure .publicationConflict "validate published file"
        (.text "%q differs from manifest" [expected.path]))
    else validateFiles base records

/-- Parse the files of the records. -/
def readDocuments (base : Path) : List FileRecord → CacheProg (List (Bytes × Gguf.Document))
  | [] => pure []
  | record :: records => do
    let content ← readRegular (filePath base record.path)
    let document ← ofResult ((Gguf.parseGGUF content).mapError fun e =>
      .failure .invalidGGUF "parse GGUF" (.wrap "%s: %w" [record.path] e))
    let documents ← readDocuments base records
    pure ((record.path, document) :: documents)

def validateGGUFSet (base : Path) (m : Manifest) : CacheProg Gguf.Metadata := do
  ofResult (validateManifest m)
  ofResult (Gguf.validateShardEntrypoint m.entrypoint)
  let documents ← readDocuments base m.files
  ofResult (Gguf.checkSet m documents)

def validateManifestContent (base : Path) (m : Manifest) : CacheProg Gguf.Metadata := do
  ofResult (validateManifest m)
  validateFiles base m.files
  validateGGUFSet base m

def validatePublishedContent (digest : Bytes) : CacheProg (Manifest × Gguf.Metadata) := do
  if validSHA256 digest = false then
    throw (.failure .invalidSpec "validate publication digest"
      (.new "digest is not lowercase SHA-256"))
  else
    let m ← readManifest (publishedRelative digest ++ [manifestFilename])
    let actual ← ofResult (manifestDigest m)
    if actual ≠ digest then
      throw (.failure .publicationConflict "validate published manifest"
        (.new "canonical manifest digest does not match publication directory"))
    else
      let metadata ← validateManifestContent (publishedRelative digest) m
      pure (m, metadata)

/-- The content of READY. -/
def readyLine (digest : Bytes) : Bytes := digest ++ [10]

def validatePublished (digest : Bytes) : CacheProg (Manifest × Gguf.Metadata) := do
  let (m, metadata) ← validatePublishedContent digest
  match ← attempt (readRegular (readyPath digest)) with
  | .error e => throw (.failure .publicationConflict "open READY marker" e)
  | .ok payload =>
    if payload ≠ readyLine digest then
      throw (.failure .publicationConflict "validate READY marker"
        (.new "READY content does not exactly match publication directory"))
    else pure (m, metadata)

/-! ## Publishing -/

def markerOf (operationArtifact operationPublication resolvedRevision : Bytes) : Bytes :=
  Json.encode
    (Marker.toJson ⟨schemaVersion, operationArtifact, operationPublication, resolvedRevision⟩)

def finalizePublication (operationID artifactDigest publicationDigest resolvedRevision : Bytes) :
    CacheProg Unit := do
  syncDirectory blobsDir
  writeAtomic (readyPath publicationDigest) (readyLine publicationDigest)
  syncDirectory (publishedRelative publicationDigest)
  mkdirAll operationsDir
  writeAtomic (markerPath operationID) (markerOf artifactDigest publicationDigest resolvedRevision)

/-- The checkpoint next to a file. -/
def checkpointPath (p : Path) : Path := p.dropLast ++ [p.getLastD [] ++ ascii ".resume.json"]

def resumePath (base : Path) (path : Bytes) : Path := checkpointPath (filePath base path)

def removeCheckpoints (staging : Path) : List FileRecord → CacheProg Unit
  | [] => pure ()
  | record :: records => do
    unlessNotExist (removeNoFollow (resumePath staging record.path))
    removeCheckpoints staging records

/-- The directories of the files, up to and with `base`. -/
def fileDirs (base : Path) (records : List FileRecord) : List Path :=
  (base :: records.flatMap fun r =>
    ((splitSlash r.path).dropLast.inits.map fun q => base ++ q)).dedup

def syncFiles (base : Path) : List FileRecord → CacheProg Unit
  | [] => pure ()
  | record :: records => do
    syncRegular (filePath base record.path)
    syncFiles base records

def syncDirs : List Path → CacheProg Unit
  | [] => pure ()
  | p :: ps => do
    syncDirectory p
    syncDirs ps

def syncArtifactTree (base : Path) (m : Manifest) : CacheProg Unit := do
  syncFiles base m.files
  syncDirs (fileDirs base m.files)

def manifestsEqual (left right : Manifest) : Bool :=
  match canonicalManifest left, canonicalManifest right with
  | .ok l, .ok r => l = r
  | _, _ => false

/-- The content that is there is the publication of the manifest. -/
def requireSame (op message : String) (existing m : Manifest) : CacheProg Unit :=
  if manifestsEqual existing m then pure ()
  else throw (.failure .publicationConflict op (.new message))

/-- Put the staging directory in place; `true` is a cache hit. -/
def place (staging : Path) (publicationDigest : Bytes) (m : Manifest) : CacheProg Bool := do
  match ← attempt (validatePublishedContent publicationDigest) with
  | .ok (existing, _) => do
    requireSame "publish artifact" "artifact digest already exists with a different manifest"
      existing m
    pure true
  | .error existingErr =>
    match ← attempt (openDirectory (publishedRelative publicationDigest)) with
    | .ok () => throw (.failure .publicationConflict "publish artifact" existingErr)
    | .error statErr =>
      if statErr.isNotExist = false then
        throw (.failure .publicationConflict "inspect artifact destination" statErr)
      else
        match ← attempt (renameNoFollow staging (publishedRelative publicationDigest)) with
        | .ok () => do
          syncDirectory staging.dropLast
          pure false
        | .error renameErr =>
          if failureReason renameErr = .insufficientStorage then throw renameErr
          else
            match ← attempt (validatePublishedContent publicationDigest) with
            | .error retryErr =>
              throw (.failure .publicationConflict "atomically publish artifact"
                (.join renameErr retryErr))
            | .ok (existing, _) => do
              requireSame "atomically publish artifact"
                "concurrent publisher used the same digest for a different manifest" existing m
              pure true

structure Published where
  artifactDigest : Bytes
  path : Path
  cacheHit : Bool
  deriving DecidableEq, Repr

def intentOf (m : Manifest) (artifactDigest publicationDigest resolvedRevision : Bytes) : Bytes :=
  Json.encode
    (Intent.toJson ⟨schemaVersion, artifactDigest, publicationDigest, resolvedRevision, m⟩)

def publish (fuel : Nat) (staging : Path) (operationID resolvedRevision : Bytes) (m : Manifest) :
    CacheProg Published := do
  ofResult (validateOperationID operationID)
  if ¬ ascii ".kama/staging/" <+: joinSlash staging then
    throw (.failure .unsafePath "validate staging path"
      (.new "staging directory is outside .kama/staging"))
  else
    let artifactDigest ← ofResult (artifactDigest m)
    let publicationDigest ← ofResult (manifestDigest m)
    if validRevision resolvedRevision = false then
      throw (.failure .invalidSpec "validate publication revision"
        (.new "resolved revision is not a full immutable Hub commit"))
    else
      mkdirAll intentsDir
      writeAtomic (intentPath operationID)
        (intentOf m artifactDigest publicationDigest resolvedRevision)
      removeCheckpoints staging m.files
      writeAtomic (staging ++ [manifestFilename]) m.encode
      syncArtifactTree staging m
      mkdirAll blobsDir
      let cacheHit ← place staging publicationDigest m
      finalizePublication operationID artifactDigest publicationDigest resolvedRevision
      (if cacheHit then unlessNotExist (removeTreeNoFollow fuel staging) else pure ())
      pure ⟨artifactDigest, publishedRelative publicationDigest, cacheHit⟩

/-! ## Recovering -/

structure Recovered where
  manifest : Manifest
  metadata : Gguf.Metadata
  digest : Bytes
  path : Path
  resolvedRevision : Bytes
  deriving DecidableEq, Repr

/-- Recovery from a marker. -/
def recoverMarker (marker : Marker) : CacheProg Recovered := do
  ofResult (validateOperationIdentity marker.schemaVersion marker.artifactDigest
    marker.publicationDigest marker.resolvedRevision)
  let (m, metadata) ← validatePublished marker.publicationDigest
  if artifactDigest m = .ok marker.artifactDigest then
    pure ⟨m, metadata, marker.artifactDigest, publishedRelative marker.publicationDigest,
      marker.resolvedRevision⟩
  else throw (.failure .publicationConflict "validate operation marker"
    (.new "artifact digest does not match operation marker"))

/-- The checks on an intent. -/
def validateIntent (intent : Intent) : Except Err Unit := do
  validateOperationIdentity intent.schemaVersion intent.artifactDigest intent.publicationDigest
    intent.resolvedRevision
  (validateManifest intent.manifest).mapError
    (.failure .publicationConflict "validate operation intent")
  if artifactDigest intent.manifest = .ok intent.artifactDigest ∧
      manifestDigest intent.manifest = .ok intent.publicationDigest then pure ()
  else throw (.failure .publicationConflict "validate operation intent"
    (.new "intent digests do not match its manifest"))

/-- Recovery from an intent. -/
def recoverIntent (fuel : Nat) (operationID : Bytes) (intent : Intent) : CacheProg Recovered := do
  ofResult (validateIntent intent)
  match ← attempt (validatePublishedContent intent.publicationDigest) with
  | .ok (m, metadata) =>
    if manifestsEqual m intent.manifest then do
      finalizePublication operationID intent.artifactDigest intent.publicationDigest
        intent.resolvedRevision
      pure ⟨m, metadata, intent.artifactDigest, publishedRelative intent.publicationDigest,
        intent.resolvedRevision⟩
    else throw (.failure .publicationConflict "recover operation intent"
      (.new "published manifest differs from operation intent"))
  | .error finalErr =>
    match ← attempt (openDirectory (publishedRelative intent.publicationDigest)) with
    | .ok () => throw (.failure .publicationConflict "recover operation intent" finalErr)
    | .error statErr =>
      if statErr.isNotExist = false then
        throw (.failure .publicationConflict "recover operation intent" statErr)
      else
        match ← attempt (validateManifestContent (stagingPath operationID) intent.manifest) with
        | .error e => throw (.failure .publicationConflict "recover staged operation intent" e)
        | .ok metadata => do
          let r ← publish fuel (stagingPath operationID) operationID intent.resolvedRevision
            intent.manifest
          pure ⟨intent.manifest, metadata, r.artifactDigest, r.path, intent.resolvedRevision⟩

/-- `RecoverPublished`; `none` is `found = false`. -/
def recoverPublished (fuel : Nat) (operationID : Bytes) : CacheProg (Option Recovered) := do
  ofResult (validateOperationID operationID)
  let marker ← readCanonicalMetadata Marker.fields Marker.zero Marker.toJson 1024
    (markerPath operationID)
  match marker with
  | some marker => do
    let r ← recoverMarker marker
    pure (some r)
  | none => do
    let intent ← readCanonicalMetadata Intent.fields Intent.zero Intent.toJson maxResultBytes
      (intentPath operationID)
    match intent with
    | none => pure none
    | some intent => do
      let r ← recoverIntent fuel operationID intent
      pure (some r)

end Storage

end Kama.Artifact
