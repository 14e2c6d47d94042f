import Kama.Artifact.Result
import Kama.Controller.Basic
import Kama.Controller.Volume

/-!
# Model artifacts

The `ModelArtifact` API of `modelartifact_types.go` and the decisions that
`modelartifact_controller.go` takes on values alone: the spec that it hands to an importer, the
name of an operation, which results of an importer it believes, and the status that it writes.

* `importerSpec` is the input of an importer. Once content has been verified it is pinned to that
  content.
* `Believed` is what the controller knows of a result after `validateSuccessfulResult`
  (`validateSuccessfulResult_ok`); the importer that reports it is not trusted.
* `Identity` is the part of a status that is taken from a result.

A time is in nanoseconds; what is written to the API keeps the seconds only (`stored`).
-/

namespace Kama.Controller

open Bytes Json Artifact Reader

/-! ## Conditions -/

inductive ConditionStatus
  | conditionTrue
  | conditionFalse
  | conditionUnknown
  deriving DecidableEq, Repr

def boolConditionStatus (value : Bool) : ConditionStatus :=
  if value then .conditionTrue else .conditionFalse

/-- A `metav1.Condition` whose type is one of `τ`. -/
structure Condition (τ : Type) where
  type : τ
  status : ConditionStatus
  observedGeneration : Nat
  lastTransitionTime : Nat
  reason : Bytes
  message : Bytes
  deriving DecidableEq, Repr

section Conditions

variable {τ : Type} [DecidableEq τ]

def findStatusCondition (conditions : List (Condition τ)) (type : τ) : Option (Condition τ) :=
  conditions.find? fun c => c.type = type

def isStatusConditionTrue (conditions : List (Condition τ)) (type : τ) : Bool :=
  (findStatusCondition conditions type).any fun c => c.status = .conditionTrue

/-- The condition already says so, since the time of its last change. -/
def reportedSince (conditions : List (Condition τ)) (type : τ) (status : ConditionStatus)
    (generation : Nat) (reason : Bytes) : Option Nat :=
  match findStatusCondition conditions type with
  | none => none
  | some c =>
    if c.status = status ∧ c.observedGeneration = generation ∧ c.reason = reason then
      some c.lastTransitionTime
    else none

/-- `meta.SetStatusCondition` of the apimachinery library, as it is documented: a condition of the
type is replaced, and its transition time is that of its last change of status; where there is none
the condition is added. -/
def setStatusCondition (now : Nat) (c : Condition τ) (conditions : List (Condition τ)) :
    List (Condition τ) :=
  match findStatusCondition conditions c.type with
  | none => conditions ++ [{ c with lastTransitionTime := now }]
  | some existing =>
    let time := if existing.status = c.status then existing.lastTransitionTime else now
    conditions.map fun old =>
      if old.type = c.type then { c with lastTransitionTime := time } else old

end Conditions

/-! ## The resource -/

structure SecretKeyReference where
  name : Bytes
  key : Bytes
  deriving DecidableEq, Repr

structure HuggingFaceSource where
  repository : Bytes
  revision : Bytes
  files : List Bytes
  tokenSecretRef : Option SecretKeyReference
  deriving DecidableEq, Repr

structure PersistentVolumeClaimSource where
  claimName : Bytes
  rootPath : Bytes
  importPolicy : Bytes
  deriving DecidableEq, Repr

structure ModelArtifactSource where
  huggingFace : Option HuggingFaceSource
  persistentVolumeClaim : Option PersistentVolumeClaimSource
  deriving DecidableEq, Repr

structure ModelArtifactVerificationSpec where
  expectedSHA256 : Bytes
  expectedSize : Option Int64
  deriving DecidableEq, Repr

structure ModelArtifactSpec where
  format : Bytes
  entrypoint : Bytes
  source : ModelArtifactSource
  /-- the name of the `ModelCache` -/
  cacheRef : Option Bytes
  verification : ModelArtifactVerificationSpec
  deriving DecidableEq, Repr

structure ModelArtifactJobReference where
  name : Bytes
  uid : Bytes
  deriving DecidableEq, Repr

structure ModelArtifactLocationStatus where
  claimName : Bytes
  claimUID : Bytes
  subPath : Bytes
  readOnly : Bool
  accessModes : List AccessMode
  volumeMode : VolumeMode
  mountScope : MountScope
  volumeName : Bytes
  volumeUID : Bytes
  nodeAffinity : Option VolumeNodeAffinity
  deriving DecidableEq, Repr

inductive ArtifactCondition
  | sourceResolved
  | storageReady
  | importing
  | verified
  | ready
  | invalidGGUF
  | checksumMismatch
  | missingShard
  | insufficientStorage
  | sourceUnavailable
  deriving DecidableEq, Repr

structure ModelArtifactStatus where
  observedGeneration : Nat
  resolvedRevision : Bytes
  /-- a `ModelArtifactFileStatus` has the fields of a manifest record -/
  files : List FileRecord
  artifactDigest : Bytes
  size : Int64
  architecture : Bytes
  quantization : Bytes
  shardCount : Int32
  validatedAt : Option Nat
  jobRef : Option ModelArtifactJobReference
  location : Option ModelArtifactLocationStatus
  cleanupOperationID : Bytes
  conditions : List (Condition ArtifactCondition)
  deriving DecidableEq, Repr

structure ModelArtifact where
  name : Bytes
  uid : Bytes
  generation : Nat
  deleting : Bool
  finalizers : List String
  spec : ModelArtifactSpec
  status : ModelArtifactStatus
  deriving DecidableEq, Repr

def modelArtifactFinalizer : String := "modelartifact.kama.tannerburns.github.io/finalizer"

def pvcImportPolicyCopy : Bytes := ascii "Copy"
def pvcImportPolicyDirect : Bytes := ascii "Direct"

/-- The time as the API keeps it. -/
def storedTime (time : Nat) : Nat := time / 10 ^ 9 * 10 ^ 9

/-- The status as it is written to the API. -/
def ModelArtifactStatus.stored (status : ModelArtifactStatus) : ModelArtifactStatus :=
  { status with
    validatedAt := status.validatedAt.map storedTime
    conditions := status.conditions.map fun c =>
      { c with lastTransitionTime := storedTime c.lastTransitionTime } }

/-- The verified part of a status. -/
structure Identity where
  resolvedRevision : Bytes
  files : List FileRecord
  artifactDigest : Bytes
  size : Int64
  deriving DecidableEq, Repr

def ModelArtifactStatus.identity (status : ModelArtifactStatus) : Identity :=
  ⟨status.resolvedRevision, status.files, status.artifactDigest, status.size⟩

/-! ### Encoding -/

def SecretKeyReference.toJson (r : SecretKeyReference) : Json :=
  .obj [(ascii "name", .str r.name), (ascii "key", .str r.key)]

def HuggingFaceSource.toJson (s : HuggingFaceSource) : Json :=
  .obj ([(ascii "repository", .str s.repository), (ascii "revision", .str s.revision),
      (ascii "files", strings s.files)] ++
    optional (ascii "tokenSecretRef") SecretKeyReference.toJson s.tokenSecretRef)

def PersistentVolumeClaimSource.toJson (s : PersistentVolumeClaimSource) : Json :=
  .obj ([(ascii "claimName", .str s.claimName), (ascii "rootPath", .str s.rootPath)] ++
    omitString "importPolicy" s.importPolicy)

def ModelArtifactSource.toJson (s : ModelArtifactSource) : Json :=
  .obj (optional (ascii "huggingFace") HuggingFaceSource.toJson s.huggingFace ++
    optional (ascii "persistentVolumeClaim") PersistentVolumeClaimSource.toJson
      s.persistentVolumeClaim)

def ModelArtifactVerificationSpec.toJson (v : ModelArtifactVerificationSpec) : Json :=
  .obj (omitString "expectedSHA256" v.expectedSHA256 ++
    optional (ascii "expectedSize") intJson v.expectedSize)

def ModelArtifactSpec.toJson (s : ModelArtifactSpec) : Json :=
  .obj ([(ascii "format", .str s.format), (ascii "entrypoint", .str s.entrypoint),
      (ascii "source", s.source.toJson)] ++
    optional (ascii "cacheRef") (fun name => .obj (omitString "name" name)) s.cacheRef ++
    [(ascii "verification", s.verification.toJson)])

/-! ## Operations -/

/-- `operationID`. -/
def operationID (value : Json) (additional : List Bytes) : Bytes :=
  (hexSHA256 (encode value ++ additional.flatMap fun item => 0 :: item)).take 20

/-- The source is read in place. -/
def PersistentVolumeClaimSource.isDirect (s : PersistentVolumeClaimSource) : Bool :=
  s.importPolicy == pvcImportPolicyDirect

/-- The bound volume of a claim. -/
structure VolumeIdentity where
  accessModes : List AccessMode
  volumeMode : VolumeMode
  mountScope : MountScope
  storageClassName : Bytes
  volumeName : Bytes
  volumeUID : Bytes
  nodeAffinity : Option VolumeNodeAffinity
  capacity : Option Nat
  deriving DecidableEq, Repr

structure ArtifactStorage where
  cacheClaim : Bytes
  cacheUID : Bytes
  cacheClaimUID : Bytes
  cacheVolumeUID : Bytes
  sourceClaim : Bytes
  sourceClaimUID : Bytes
  sourceVolumeUID : Bytes
  tokenSecret : Option SecretKeyReference
  location : Option ModelArtifactLocationStatus
  cacheIdentity : Option VolumeIdentity
  sourceIdentity : Option VolumeIdentity
  deriving DecidableEq, Repr

def ArtifactStorage.zero : ArtifactStorage := ⟨[], [], [], [], [], [], [], none, none, none, none⟩

def artifactOperationID (a : ModelArtifact) (storage : ArtifactStorage) : Bytes :=
  let identity := [a.uid, storage.cacheUID, storage.cacheClaimUID, storage.cacheVolumeUID] ++
    (if a.spec.source.persistentVolumeClaim.any PersistentVolumeClaimSource.isDirect then
      [storage.sourceClaimUID, storage.sourceVolumeUID] else [])
  a.uid ++ ascii "-" ++ operationID a.spec.toJson identity

def artifactLeaseFingerprint (a : ModelArtifact) (storage : ArtifactStorage) : Bytes :=
  operationID a.spec.source.toJson [a.spec.entrypoint, storage.cacheUID, storage.cacheClaimUID,
    storage.cacheVolumeUID, storage.sourceClaimUID, storage.sourceVolumeUID]

/-! ## Importer specs -/

def cacheMountPath : Bytes := ascii "/cache"
def sourceMountPath : Bytes := ascii "/source"
def tokenMountPath : Bytes := ascii "/var/run/secrets/kama"

/-- The content of the artifact has been verified before. -/
def ModelArtifactStatus.validated (status : ModelArtifactStatus) : Bool :=
  status.validatedAt.isSome && status.artifactDigest != []

/-- The revision that an importer is asked for. -/
def importerRevision (a : ModelArtifact) (source : HuggingFaceSource) : Bytes :=
  if a.status.validated && a.status.resolvedRevision != [] then a.status.resolvedRevision
  else source.revision

def importerHub (a : ModelArtifact) (source : HuggingFaceSource) : HubSpec where
  repository := source.repository
  revision := importerRevision a source
  fileSelectors := source.files
  tokenFile := if source.tokenSecretRef.isSome then tokenMountPath ++ ascii "/token" else []

def importerPVC (a : ModelArtifact) (source : PersistentVolumeClaimSource) : PVCSpec where
  mountRoot := sourceMountPath
  rootPath := source.rootPath
  selectedFiles := [a.spec.entrypoint]

def importerMode (source : ModelArtifactSource) : Bytes :=
  match source.persistentVolumeClaim with
  | some pvc => if pvc.isDirect then modeDirect else modeCopy
  | none => if source.huggingFace.isSome then modeHub else []

/-- `importerSpec`; `hubEndpoint` is an option of the controller. -/
def importerSpec (hubEndpoint : Bytes) (a : ModelArtifact) (operation : Bytes) : Spec where
  schemaVersion := schemaVersion
  mode := importerMode a.spec.source
  operationID := operation
  format := a.spec.format
  entrypoint := a.spec.entrypoint
  expectedSHA256 :=
    if a.status.validated then a.status.artifactDigest
    else a.spec.verification.expectedSHA256.map toLower
  expectedSize :=
    if a.status.validated && decide (0 < a.status.size) then some a.status.size
    else a.spec.verification.expectedSize
  cacheRoot :=
    if a.spec.source.persistentVolumeClaim.any PersistentVolumeClaimSource.isDirect then []
    else cacheMountPath
  hubEndpoint := hubEndpoint
  hub := a.spec.source.huggingFace.map (importerHub a)
  pvc := a.spec.source.persistentVolumeClaim.map (importerPVC a)
  probe := none
  cleanup := none
  http :=
    { HTTPClientOptions.zero with
      allowHTTP := decide (ascii "http://" <+: hubEndpoint)
      userAgent := ascii "kama-importer" }

/-! ## Importer results -/

/-- The directory of a publication below a cache. -/
def publicationPath (digest : Bytes) : Bytes := ascii "blobs/sha256/" ++ digest

/-- A publication is where its content says. -/
def validatePublishedPath (spec : Spec) (manifest : Manifest) (publishedPath : Bytes) :
    Except Artifact.Err Unit :=
  if spec.mode = modeHub ∨ spec.mode = modeCopy then do
    let publication ← (manifestDigest manifest).mapError
      (.wrap "validate result publication digest: %w" [])
    if publishedPath ≠ publicationPath publication then
      throw (.new "result publication path does not match its canonical manifest")
  else pure ()

/-- `validateSuccessfulResult`, from the manifest of the result on. -/
def validateResultManifest (spec : Spec) (operation : Bytes) (result : Result)
    (manifest : Manifest) : Except Artifact.Err Unit := do
  if result.operationID ≠ operation ∨ result.mode ≠ spec.mode ∨ result.artifactDigest = [] then
    throw (.new "result identity or verified metadata is incomplete")
  if manifest.format ≠ formatGGUF ∨ manifest.entrypoint ≠ spec.entrypoint then
    throw (.new "result manifest does not match requested artifact")
  let digest ← (artifactDigest manifest).mapError (.wrap "validate result manifest: %w" [])
  if digest ≠ result.artifactDigest then
    throw (.new "result digest does not match its canonical manifest")
  validatePublishedPath spec manifest result.publishedPath
  if spec.mode = modeDirect ∧ spec.pvc.any fun pvc => result.publishedPath ≠ pvc.rootPath then
    throw (.new "direct result path does not match its source root")
  (verifyExpectations manifest spec.expectedSHA256 spec.expectedSize).mapError
    (.wrap "validate result expectations: %w" [])
  if spec.mode = modeHub ∧ result.resolvedRevision = [] then
    throw (.new "hub result omitted immutable revision")
  if spec.mode = modeHub ∧ validHubCommit result.resolvedRevision = false then
    throw (.new "hub result contains an invalid immutable revision")
  if spec.mode = modeHub ∧ spec.hub.any fun hub =>
      validHubCommit hub.revision && result.resolvedRevision != hub.revision then
    throw (.new "hub result does not match the pinned immutable revision")

def validateSuccessfulResult (spec : Spec) (operation : Bytes) (result : Result) :
    Except Artifact.Err Unit :=
  match result.manifest, result.gguf with
  | some manifest, some _ => validateResultManifest spec operation result manifest
  | _, _ => .error (.new "result identity or verified metadata is incomplete")

/-- What the controller knows of a result that it believes. -/
structure Believed (spec : Spec) (result : Result) (manifest : Manifest) : Prop where
  manifest_eq : result.manifest = some manifest
  gguf : result.gguf.isSome = true
  mode : result.mode = spec.mode
  entrypoint : manifest.entrypoint = spec.entrypoint
  valid : validateManifest manifest = .ok ()
  digest : result.artifactDigest = manifest.artifact
  digest_ne : result.artifactDigest ≠ []
  publishedPath : spec.mode = modeHub ∨ spec.mode = modeCopy →
    result.publishedPath = publicationPath (hexSHA256 manifest.encode)
  total : (aggregateSize 0 manifest.files).isSome = true
  revision : spec.mode = modeHub → validHubCommit result.resolvedRevision = true

theorem isSome_aggregateSize {manifest : Manifest} {expectedSHA256 : Bytes}
    {expectedSize : Option Int64}
    (h : verifyExpectations manifest expectedSHA256 expectedSize = .ok ()) :
    (aggregateSize 0 manifest.files).isSome = true := by
  unfold verifyExpectations at h
  cases haggregate : aggregateSize 0 manifest.files with
  | none => rw [haggregate] at h; cases h
  | some total => rfl

/-- **What a result has that the controller believes.** -/
theorem validateSuccessfulResult_ok {spec : Spec} {operation : Bytes} {result : Result}
    (h : validateSuccessfulResult spec operation result = .ok ()) :
    ∃ manifest, Believed spec result manifest := by
  unfold validateSuccessfulResult at h
  split at h
  case h_2 => cases h
  case h_1 manifest gguf hmanifest hgguf =>
    obtain ⟨hidentity, h⟩ := except_refuse_eq_ok.1 h
    obtain ⟨hentry, h⟩ := except_refuse_eq_ok.1 h
    obtain ⟨digest, hdigest, h⟩ := except_bind_eq_ok.1 h
    obtain ⟨heq, h⟩ := except_refuse_eq_ok.1 h
    obtain ⟨_, hpath, h⟩ := except_bind_eq_ok.1 h
    obtain ⟨-, h⟩ := except_refuse_eq_ok.1 h
    obtain ⟨_, hexpected, h⟩ := except_bind_eq_ok.1 h
    obtain ⟨-, h⟩ := except_refuse_eq_ok.1 h
    obtain ⟨hcommit, -⟩ := except_refuse_eq_ok.1 h
    push Not at hidentity hentry heq hcommit
    have hvalid : validateManifest manifest = .ok () := by
      obtain ⟨_, hvalid, -⟩ := except_bind_eq_ok.1 (mapError_eq_ok.1 hdigest)
      exact hvalid
    rw [artifactDigest_of_ok hvalid] at hdigest
    obtain rfl := Except.ok.inj hdigest
    refine ⟨manifest, hmanifest, by rw [hgguf]; rfl, hidentity.2.1, hentry.2, hvalid, heq.symm,
      hidentity.2.2, fun hmode => ?_, isSome_aggregateSize (mapError_eq_ok.1 hexpected), fun hhub =>
      by simpa using hcommit hhub⟩
    rw [validatePublishedPath, if_pos hmode] at hpath
    obtain ⟨publication, hpublication, hpath⟩ := except_bind_eq_ok.1 hpath
    rw [manifestDigest_of_ok hvalid] at hpublication
    obtain rfl := Except.ok.inj hpublication
    by_contra hne
    rw [if_pos hne] at hpath
    cases hpath

end Kama.Controller
