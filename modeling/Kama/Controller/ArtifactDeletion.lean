import Kama.Controller.ArtifactStorage

/-!
# The deletion of a model artifact

`reconcileDelete` of `modelartifact_controller.go`. The finalizer of an artifact is held until
nothing serves it, its importer Jobs, their ConfigMaps and its leases are gone, and a detached
cleanup Job has removed what the importers left in the cache; the cleanup is recorded in
`status.cleanupOperationID` before its own resources are removed.

`seen` is the artifact as the controller's cache has it; all other reads go to the server.
-/

namespace Kama.Controller

open Bytes Api Program Artifact

variable (opts : Options) (seen : Object Bytes ArtifactBody) (rules : NameRules) (a : ModelArtifact)

/-- How long until the next reconcile, in nanoseconds; 0 is no request. -/
abbrev Requeue := Nat

def second : Requeue := nanosecondsPerSecond

def activeCleanupRequeue : Requeue := 10 * second
def cleanupRetryDelay : Requeue := 30 * second

/-- The answer to a call that has to succeed. -/
def orThrow {α : Type} : Except ApiErr α → Act α
  | .ok a => pure a
  | .error err => throw (.api err)

def updateArtifact (o : Object Bytes ArtifactBody) : Act Unit := do
  let _ ← orThrow (← updateAs artifacts o)
  pure ()

/-- The artifact with another status, as it is written. -/
def withStatus (o : Object Bytes ArtifactBody) (status : ModelArtifactStatus) :
    Object Bytes ArtifactBody :=
  { o with body := { o.body with status := status.stored } }

/-! ## References -/

def runtimeModelVolumeName : Bytes := ascii "model"
def runtimeModelMount : Bytes := ascii "/models"

/-- The path that a serving Pod mounts; the root of a claim is mounted without one. -/
def expectedSubPath (location : ModelArtifactLocationStatus) : Bytes :=
  if location.subPath = ascii "." then [] else location.subPath

def podMountsArtifactLocation (pod : PodSpec) :
    Option ModelArtifactLocationStatus → Bool
  | none => false
  | some location =>
    location.claimName != [] && location.subPath != [] &&
    (pod.volumes.any fun volume =>
      volume.name == runtimeModelVolumeName && volume.source == .claim location.claimName true) &&
    pod.containers.any fun container =>
      container.name == runtimeContainerName && container.volumeMounts.any fun mount =>
        mount.name == runtimeModelVolumeName && mount.mountPath == runtimeModelMount &&
          mount.subPath == expectedSubPath location && mount.readOnly

/-- A serving Pod of the artifact. -/
def isServingPod (pod : Pod) : Bool :=
  pod.labels.get .artifactUID == boundedLabelValue rules a.uid &&
    pod.labels.get .managedBy == kamaName &&
    pod.labels.get .component == modelDeploymentComponent &&
    podMountsArtifactLocation pod.spec a.status.location

def modelArtifactHasDeploymentReferences : Act Bool := do
  let deployments ← orThrow (← listAs modelDeployments)
  if deployments.any fun d => d.body.modelRef == a.name then pure true
  else do
    let found ← orThrow (← listAs pods)
    pure (found.any fun pod => isServingPod rules a pod.body)

/-! ## Importer resources -/

/-- A Job or ConfigMap of an importer of the artifact. -/
def isImporterResource (labels : Labels) (owners : List OwnerReference) : Bool :=
  labels.get .artifactUID == a.uid && labels.get .managedBy == kamaName &&
    labels.get .component == artifactImportComponent && hasControllerOwner owners a.uid artifactKind

/-- Start the deletion of a Job that is not being deleted; its Pods go before it. -/
def deleteJob (job : Object Bytes Job) : Act Unit :=
  if job.deleting then pure () else deleteForeground jobs job

def deleteConfigMap (configMap : Object Bytes ConfigMap) : Act Unit :=
  if configMap.deleting then pure () else deleteIfPresent configMaps configMap

def deleteJobs : List (Object Bytes Job) → Act Unit
  | [] => pure ()
  | job :: rest => do
    deleteJob job
    deleteJobs rest

def deleteConfigMaps : List (Object Bytes ConfigMap) → Act Unit
  | [] => pure ()
  | configMap :: rest => do
    deleteConfigMap configMap
    deleteConfigMaps rest

def importerJobs (found : List (Object Bytes Job)) : List (Object Bytes Job) :=
  found.filter fun job => isImporterResource a job.body.labels job.body.owners

def importerConfigMaps (found : List (Object Bytes ConfigMap)) : List (Object Bytes ConfigMap) :=
  found.filter fun configMap => isImporterResource a configMap.body.labels configMap.body.owners

/-- Stop the importers; says whether there is something left of them. -/
def cleanupArtifactImporterResources : Act Bool := do
  let running := importerJobs a (← orThrow (← listAs jobs))
  deleteJobs running
  if running ≠ [] then pure true
  else do
    let inputs := importerConfigMaps a (← orThrow (← listAs configMaps))
    deleteConfigMaps inputs
    pure (inputs ≠ [])

/-! ## Where to clean up -/

structure ArtifactCleanupStorage where
  claimName : Bytes
  claimUID : Bytes
  volumeUID : Bytes
  deriving DecidableEq, Repr

/-- The rest of a claim's checks before it is mounted for a cleanup. -/
def resolveCleanupVolume (opts : Options) (what : String) (claim : Object Bytes Claim)
    (volumeName volumeUID : Bytes) : Act (Option ArtifactCleanupStorage) := do
  let identity ← withContext ("resolve cleanup " ++ what ++ " volume: %w")
    (resolveVolume opts claim.body)
  if claim.body.phase ≠ .bound ∨ hasWritableMode identity.accessModes = false then
    throw (.text ("artifact cleanup " ++ what ++ " claim is not bound and writable") [])
  else if volumeName ≠ [] ∧ volumeName ≠ identity.volumeName ∨
      volumeUID ≠ [] ∧ volumeUID ≠ identity.volumeUID then
    throw (.text ("refusing cleanup after " ++ what ++ " volume identity changed") [])
  else pure (some ⟨claim.key, opts.uidText claim.uid, identity.volumeUID⟩)

/-- `resolveArtifactCleanupFromLocation`; `none` when there is nothing to clean. -/
def resolveArtifactCleanupFromLocation : Act (Option ArtifactCleanupStorage) :=
  match a.status.location with
  | none =>
    if a.status.jobRef.isSome then
      throw (.text "artifact cleanup location is unavailable for a recorded importer Job" [])
    else pure none
  | some location =>
    if location.claimName = [] ∨ location.claimUID = [] then
      throw (.text "artifact cleanup location has incomplete claim identity" [])
    else do
      match ← getAs claims location.claimName with
      | .error .notFound => pure none
      | .error err => throw (.api err)
      | .ok claim =>
        if opts.uidText claim.uid ≠ location.claimUID then
          throw (.text "refusing to mount replacement serving claim during artifact cleanup" [])
        else if claim.deleting then
          throw (.text "artifact cleanup serving claim is terminating" [])
        else resolveCleanupVolume opts "serving" claim location.volumeName location.volumeUID

def cacheClaimName (cache : Object Bytes ModelCache) : Bytes :=
  deterministicName (cache.key ++ ascii "-cache") [opts.uidText cache.uid]

/-- The claim carries the labels of the cache that manages it. -/
def managedClaimLabels (cache : Object Bytes ModelCache) : Labels :=
  [(.managedBy, kamaName), (.component, modelCacheComponent),
    (.cacheName, boundedLabelValue opts.rules cache.key), (.cacheUID, opts.uidText cache.uid)]

/-- The claim of a cache, for an artifact that has recorded no location. -/
def resolveArtifactCleanupFromCache (cache : Object Bytes ModelCache) :
    Act (Option ArtifactCleanupStorage) :=
  let status := cache.body.status
  let managed := cache.body.spec.claimTemplate.isSome
  if cache.body.spec.existingClaim.any (· ≠ status.claimName) then
    throw (.text "refusing cleanup with mismatched adopted cache claim identity" [])
  else if managed && status.claimName != cacheClaimName opts cache then
    throw (.text "refusing cleanup with mismatched managed cache claim identity" [])
  else do
    match ← getAs claims status.claimName with
    | .error .notFound => pure none
    | .error err => throw (.api err)
    | .ok claim =>
      if opts.uidText claim.uid ≠ status.claimUID then
        throw (.text "refusing to mount replacement cache claim during artifact cleanup" [])
      else if claim.deleting then throw (.text "artifact cleanup cache claim is terminating" [])
      else if managed && !requiredLabelsMatch (managedClaimLabels opts cache) claim.body.labels then
        throw (.text "refusing cleanup with mismatched managed cache claim labels" [])
      else resolveCleanupVolume opts "cache" claim status.volumeName status.volumeUID

def resolveArtifactCleanupStorage : Act (Option ArtifactCleanupStorage) :=
  match a.spec.cacheRef with
  | none => pure none
  | some cacheName =>
    if a.status.location.isSome then resolveArtifactCleanupFromLocation opts a
    else do
      match ← getAs caches cacheName with
      | .error .notFound => resolveArtifactCleanupFromLocation opts a
      | .error err => throw (.api err)
      | .ok cache =>
        if cache.body.status.claimName = [] ∨ cache.body.status.claimUID = [] then
          if a.status.jobRef.isSome then
            throw (.text
              "artifact cleanup storage identity is unavailable for a recorded importer Job" [])
          else pure none
        else resolveArtifactCleanupFromCache opts cache

/-! ## The cleanup Job -/

def cleanupPrefixOf : Bytes := a.uid ++ ascii "-"

/-- `artifactCleanupOperationID`, for an identity that can start the name of an operation. -/
def artifactCleanupOperationID (storage : ArtifactCleanupStorage) : Bytes :=
  operationID (.obj (CleanupSpec.members ⟨cleanupPrefixOf a⟩))
    [a.uid, storage.claimName, storage.claimUID, storage.volumeUID]

def cleanupSpec (operation : Bytes) : Spec :=
  { Spec.zero with
    schemaVersion := schemaVersion
    mode := modeCleanup
    operationID := operation
    cacheRoot := cacheMountPath
    cleanup := some ⟨cleanupPrefixOf a⟩ }

/-- The labels that tie a resource to the artifact. -/
def artifactLabels : Labels :=
  [(.artifactName, boundedLabelValue rules a.name), (.artifactUID, a.uid)]

/-- Detached resources have no owner: they outlive the artifact's own resources. -/
def cleanupConfigMap (operation : Bytes) : ConfigMap :=
  { newSpecConfigMap [] (cleanupSpec a operation) with
    labels := [(.managedBy, kamaName), (.component, artifactCleanupComponent),
      (.operationID, operation)] ++ artifactLabels rules a }

def cleanupJob (storage : ArtifactCleanupStorage) (operation configName : Bytes) : Job :=
  { newImportJob opts.importer ⟨[], configName, storage.claimName, [], none, operation, 0⟩ with
    labels := importLabels artifactCleanupComponent operation ++ artifactLabels opts.rules a
    templateLabels := importLabels artifactCleanupComponent operation ++
      artifactLabels opts.rules a }

def cleanupConfigName (operation : Bytes) : Bytes :=
  deterministicName (a.name ++ ascii "-cleanup-config") [operation]

def cleanupJobName (operation : Bytes) : Bytes :=
  deterministicName (a.name ++ ascii "-cleanup") [operation]

def validArtifactCleanupResult (result : Result) (operation : Bytes) : Bool :=
  decide (result.schemaVersion = schemaVersion ∧ result.mode = modeCleanup ∧
    result.operationID = operation ∧ result.success = true ∧ result.reason = [] ∧
    result.manifest = none ∧ result.gguf = none ∧ result.probe = none ∧
    result.artifactDigest = [] ∧ result.resolvedRevision = [] ∧ result.publishedPath = [] ∧
    result.bytesTransferred = 0 ∧ result.cacheHit = false)

def reconcileArtifactCleanupJob (storage : ArtifactCleanupStorage) (operation : Bytes) :
    Act Requeue := do
  let a := modelArtifact opts seen
  let _ ← withContext "create artifact cleanup config: %w" (ensureObject configMaps
    validateExistingConfigMap (cleanupConfigName a operation)
    (cleanupConfigMap opts.rules a operation))
  let _ ← withContext "create artifact cleanup Job: %w" (ensureObject jobs validateExistingJob
    (cleanupJobName a operation) (cleanupJob opts a storage operation
      (cleanupConfigName a operation)))
  let job ← orThrow (← getAs jobs (cleanupJobName a operation))
  if job.body.complete = false ∧ job.body.failed = false then pure activeCleanupRequeue
  else do
    let result ← attempt (readJobResult opts job)
    if result.toOption.any (validArtifactCleanupResult · operation) then do
      updateArtifact (withStatus seen { seen.body.status with cleanupOperationID := operation })
      pure second
    else do
      deleteJob job
      pure cleanupRetryDelay

/-! ## The end -/

def validCleanupOperationID (value : Bytes) : Bool :=
  decide (value.length = 20) && value.all isHexLower

def validDetachedCleanupMetadata (labels : Labels) (owners : List OwnerReference) : Bool :=
  owners.isEmpty && labels.get .managedBy == kamaName &&
    labels.get .component == artifactCleanupComponent &&
    labels.get .artifactName == boundedLabelValue rules a.name &&
    labels.get .artifactUID == a.uid && validCleanupOperationID (labels.get .operationID)

/-- A resource of a cleanup of the artifact. -/
def isCleanupResource (labels : Labels) : Bool :=
  labels.get .artifactUID == a.uid && labels.get .component == artifactCleanupComponent

/-- Delete the cleanup Jobs up to the first that is not what the controller creates. -/
def deleteCleanupJobs : List (Object Bytes Job) → Act Unit
  | [] => pure ()
  | job :: rest =>
    if validDetachedCleanupMetadata rules a job.body.labels job.body.owners = false then
      throw (.text "refusing cleanup Job %s/%s with mismatched detached identity" [job.key])
    else do
      deleteJob job
      deleteCleanupJobs rest

def deleteCleanupConfigMaps : List (Object Bytes ConfigMap) → Act Unit
  | [] => pure ()
  | configMap :: rest =>
    if validDetachedCleanupMetadata rules a configMap.body.labels configMap.body.owners =
        false then
      throw (.text "refusing cleanup ConfigMap %s/%s with mismatched detached identity"
        [configMap.key])
    else do
      deleteConfigMap configMap
      deleteCleanupConfigMaps rest

def cleanupDetachedArtifactResources : Act Bool := do
  let running := (← orThrow (← listAs jobs)).filter fun job => isCleanupResource a job.body.labels
  deleteCleanupJobs rules a running
  if running ≠ [] then pure true
  else do
    let inputs := (← orThrow (← listAs configMaps)).filter fun configMap =>
      isCleanupResource a configMap.body.labels
    deleteCleanupConfigMaps rules a inputs
    pure (inputs ≠ [])

def finalizeArtifactDeletion : Act Requeue := do
  updateArtifact { seen with finalizers := seen.finalizers.filter (· ≠ modelArtifactFinalizer) }
  pure 0

/-- Remove the resources of the cleanup, and then the finalizer. -/
def finishArtifactDeletion : Act Requeue := do
  if ← cleanupDetachedArtifactResources opts.rules (modelArtifact opts seen) then pure second
  else finalizeArtifactDeletion seen

/-- Clean up where the artifact was imported to. -/
def reconcileArtifactCleanup : Act Requeue := do
  let a := modelArtifact opts seen
  match ← resolveArtifactCleanupStorage opts a with
  | none => finishArtifactDeletion opts seen
  | some storage =>
    match validateOperationPrefix (cleanupPrefixOf a) with
    | .error _ => throw (.text "validate artifact cleanup identity: %w" [])
    | .ok () => reconcileArtifactCleanupJob opts seen storage (artifactCleanupOperationID a storage)

/-- What comes once nothing refers to the artifact and its importers are gone. -/
def reconcileUnreferenced : Act Requeue :=
  let completed := seen.body.status.cleanupOperationID
  if completed = [] then reconcileArtifactCleanup opts seen
  else if validCleanupOperationID completed = false then
    throw (.text "refusing invalid artifact cleanup completion identity" [])
  else finishArtifactDeletion opts seen

def reconcileDelete : Act Requeue :=
  let a := modelArtifact opts seen
  if modelArtifactFinalizer ∉ seen.finalizers then pure 0
  else do
    if ← modelArtifactHasDeploymentReferences opts.rules a then pure (5 * second)
    else if ← cleanupArtifactImporterResources a then pure second
    else if ← inCluster (cleanupArtifactLeases a.uid) then pure second
    else reconcileUnreferenced opts seen

end Kama.Controller
