import Kama.Controller.ArtifactDeletion

/-!
# Reconciling a model artifact

`ModelArtifactReconciler.Reconcile` of `modelartifact_controller.go`, cut into the stages it goes
through: resolve the storage and record it (`reconcileStorage`), keep a verified artifact as long
as its Job bears witness to it (`reconcileLocated`), become the importer of the content
(`reconcileOperation`), run the Job (`reconcileImport`) and judge its result (`reconcileResult`).
They hand their `Verdict` on: `reconcile` acts on it, and `verdict` is a reconcile up to there.

`seen` is the artifact as the controller's cache has it, possibly an old version; every write of
the artifact names that version. Metrics and events are left out.
-/

namespace Kama.Controller

open Bytes Api Program Artifact

variable (opts : Options) (a : ModelArtifact) (seen : Object Bytes ArtifactBody)
  (storage : ArtifactStorage)

def minute : Requeue := 60 * second
def activeImportRequeue : Requeue := 20 * second
def resultRetryDelay : Requeue := 5 * second
def defaultProbeInterval : Requeue := 5 * minute

/-! ## Writing the status -/

/-- The status is written when it differs from the one that was read. -/
def writeStatus (status : ModelArtifactStatus) : Act Unit :=
  if status = seen.body.status then pure () else updateArtifact (withStatus seen status)

/-- The message of a failure. -/
def failureMessage (message : Bytes) : Bytes :=
  let bounded := boundMessage (opts.sanitize message)
  if bounded = [] then ascii "artifact operation failed" else bounded

def artifactFailure (type : ArtifactCondition) (reason message : Bytes) (requeue : Requeue) :
    Act Requeue := do
  let now ← timeNow
  writeStatus seen (failureStatus now (modelArtifact opts seen) type reason
    (failureMessage opts message))
  pure requeue

def markImporting (jobRef : Option ModelArtifactJobReference) (reason message : Bytes)
    (requeue : Requeue) : Act Requeue := do
  let now ← timeNow
  writeStatus seen (importingStatus now (modelArtifact opts seen) jobRef reason message)
  pure requeue

/-- `completeArtifact`; a result without a manifest or metadata is not believed before. -/
def completeArtifact (result : Result) (jobRef : ModelArtifactJobReference) : Act Unit := do
  match result.manifest, result.gguf with
  | some manifest, some gguf =>
    let now ← timeNow
    writeStatus seen (completeStatus now (modelArtifact opts seen) storage result manifest gguf
      jobRef)
  | _, _ => throw (.text "invalid memory address or nil pointer dereference" [])

/-! ## Obsolete operations -/

/-- Of another operation of the artifact. -/
def isObsolete (current : Bytes) (labels : Labels) (owners : List OwnerReference) : Bool :=
  isImporterResource a labels owners && labels.get .operationID != current

def deleteObsoleteConfigMaps : List (Object Bytes ConfigMap) → Act Unit
  | [] => pure ()
  | configMap :: rest => do
    deleteIfPresent configMaps configMap
    deleteObsoleteConfigMaps rest

def cleanupObsoleteArtifactOperations (current : Bytes) (storage : ArtifactStorage) : Act Bool := do
  let running := (← orThrow (← listAs jobs)).filter fun job =>
    isObsolete a current job.body.labels job.body.owners
  deleteJobs running
  if running ≠ [] then pure true
  else do
    let inputs := (← orThrow (← listAs configMaps)).filter fun configMap =>
      isObsolete a current configMap.body.labels configMap.body.owners
    deleteObsoleteConfigMaps inputs
    let cleaning ← inCluster
      (cleanupObsoleteLeases a.uid (artifactLeaseFingerprint a storage))
    pure (decide (inputs ≠ []) || cleaning)

/-! ## The input of an importer -/

def importConfigName (operation : Bytes) : Bytes :=
  deterministicName (a.name ++ ascii "-import-config") [operation]

def importJobName (operation : Bytes) : Bytes :=
  deterministicName (a.name ++ ascii "-import") [operation]

def importConfigMap (operation : Bytes) : ConfigMap :=
  let configMap := newSpecConfigMap (ownerReference artifactKind a.uid)
    (importerSpec opts.importer.hubEndpoint a operation)
  { configMap with
    labels := configMap.labels ++ artifactLabels opts.rules a ++ [(.operationID, operation)] }

def importJob (operation : Bytes) : Job :=
  let job := newImportJob opts.importer ⟨ownerReference artifactKind a.uid,
    importConfigName a operation, storage.cacheClaim, storage.sourceClaim, storage.tokenSecret,
    operation, 0⟩
  { job with
    labels := job.labels ++ artifactLabels opts.rules a
    templateLabels := job.templateLabels ++ artifactLabels opts.rules a }

/-- Remove an input that no Job uses and that has changed since; says whether there was one. -/
def replaceUnusedImporterConfig (configName jobName : Bytes) (desired : ConfigMap) : Act Bool := do
  match ← getAs configMaps configName with
  | .error .notFound => pure false
  | .error err => throw (.api err)
  | .ok existing =>
    if existing.body.data = desired.data ∧ existing.body.binaryData = desired.binaryData then
      pure false
    else if hasControllerOwner existing.body.owners a.uid artifactKind = false ∨
        existing.body.labels.get .operationID ≠ desired.labels.get .operationID then
      throw (.text "refusing to replace importer ConfigMap %s/%s with mismatched identity"
        [existing.key])
    else do
      match ← getAs jobs jobName with
      | .ok job =>
        throw (.text "refusing to replace importer ConfigMap while Job %s/%s still exists"
          [job.key])
      | .error .notFound => do
        deleteIfPresent configMaps existing
        pure true
      | .error err => throw (.api err)

/-! ## Jobs that do not get on -/

/-- Why a Job does not get on. -/
structure Blocked where
  type : ArtifactCondition
  reason : Bytes
  message : Bytes
  type_ne : type ≠ .ready := by decide
  deriving DecidableEq, Repr

def waitingFailure (status : ContainerStatus) : Option Blocked :=
  if status.name ≠ importerContainer then none
  else
    match status.waitingReason with
    | none => none
    | some reason =>
      if reason = ascii "ErrImagePull" ∨ reason = ascii "ImagePullBackOff" ∨
          reason = ascii "InvalidImageName" then
        some { type := .sourceUnavailable, reason := ascii "ImporterImageUnavailable",
               message := ascii "importer image cannot be pulled" }
      else if reason = ascii "CreateContainerConfigError" then
        some { type := .sourceUnavailable, reason := ascii "ImporterConfigurationUnavailable",
               message := ascii "importer Pod configuration or credential volume is unavailable" }
      else if reason = ascii "RunContainerError" then
        some { type := .sourceUnavailable, reason := ascii "ImporterRuntimeUnavailable",
               message := ascii "importer container cannot start" }
      else none

def jobUsesSecretVolume (job : Job) : Bool :=
  job.template.volumes.any fun volume =>
    match volume.source with
    | .secret _ _ _ => true
    | _ => false

def eventFailure (job : Job) (podUID : Bytes) (event : Event) : Option Blocked :=
  if event.involvedUID ≠ podUID ∨ event.warning = false then none
  else if event.reason = ascii "FailedScheduling" ∨ event.reason = ascii "FailedAttachVolume" ∨
      event.reason = ascii "Multi-AttachError" then
    some { type := .storageReady, reason := ascii "VolumePlacementUnavailable",
           message := ascii "importer Pod cannot attach or schedule the resolved volumes" }
  else if event.reason = ascii "FailedMount" then
    if jobUsesSecretVolume job then
      some { type := .sourceUnavailable, reason := ascii "CredentialMountUnavailable",
             message := ascii "importer credential or input volume cannot be mounted" }
    else
      some { type := .storageReady, reason := ascii "VolumeMountUnavailable",
             message := ascii "importer source or cache volume cannot be mounted" }
  else if event.reason = ascii "Failed" ∨ event.reason = ascii "BackOff" then
    some { type := .sourceUnavailable, reason := ascii "ImporterRuntimeUnavailable",
           message := ascii "importer container cannot start" }
  else none

def inspectPods (job : Object Bytes Job) : List (Object Bytes Pod) → Act (Option Blocked)
  | [] => pure none
  | pod :: rest =>
    if isPodOf (opts.uidText job.uid) job.body pod.body = false then inspectPods job rest
    else if pod.body.unschedulable then
      pure (some
        { type := .storageReady, reason := ascii "Unschedulable",
          message := ascii "importer Pod cannot be scheduled with the resolved volume placement" })
    else
      match pod.body.containerStatuses.findSome? waitingFailure with
      | some blocked => pure (some blocked)
      | none => do
        let found ← orThrow (← listAs events)
        match found.findSome? fun event =>
            eventFailure job.body (opts.uidText pod.uid) event.body with
        | some blocked => pure (some blocked)
        | none => inspectPods job rest

def inspectPendingJob (job : Object Bytes Job) : Act (Option Blocked) := do
  let found ← orThrow (← listAs pods)
  inspectPods opts job (found.filter fun pod => pod.body.labels.get .jobName == job.key)

/-! ## Results -/

/-- The condition for a failure of the importer, and when to try again. -/
def conditionForReason (reason : Bytes) : ArtifactCondition × Requeue :=
  if reason = Reason.checksumMismatch.text then (.checksumMismatch, 0)
  else if reason = Reason.invalidGGUF.text ∨ reason = Reason.unsafePath.text ∨
      reason = Reason.invalidSpec.text then
    (.invalidGGUF, 0)
  else if reason = Reason.missingShard.text then (.missingShard, 0)
  else if reason = Reason.insufficientStorage.text then (.insufficientStorage, 5 * minute)
  else if reason = Reason.unauthorized.text ∨ reason = Reason.sourceUnavailable.text then
    (.sourceUnavailable, 5 * minute)
  else (.sourceUnavailable, minute)

/-- The status already says so, since the time of the condition. -/
def alreadyReported (type : ArtifactCondition) (reason : Bytes) : Option Nat :=
  reportedSince a.status.conditions type .conditionTrue a.generation reason

/-- What is left at `now` of a delay since `start`. -/
def remaining (delay start now : Nat) : Nat := start + delay - now

/-- Wait for the rest of the delay, then remove the Job and its input. -/
def retryAfter (delay start : Nat) (job : Object Bytes Job)
    (configMap : Object Bytes ConfigMap) : Act Requeue := do
  let now ← timeNow
  if remaining delay start now > 0 then pure (remaining delay start now)
  else do
    deleteIfPresent jobs job
    deleteIfPresent configMaps configMap
    pure second

/-- `releaseLease` where its error is not looked at. -/
def dropLease (leaseName : Bytes) : Act Unit := do
  let _ ← attempt (inCluster (releaseLease leaseName a.uid))
  pure ()

/-- Give up the lease and report a failure. -/
def dropAndFail (leaseName : Bytes) (type : ArtifactCondition) (reason message : Bytes)
    (requeue : Requeue) : Act Requeue := do
  dropLease (modelArtifact opts seen) leaseName
  artifactFailure opts seen type reason message requeue

/-- What is known of an importer that is over and has not succeeded; it may have no result. -/
structure FailedImport where
  job : Object Bytes Job
  configMap : Object Bytes ConfigMap
  leaseName : Bytes
  result : Option Result

def retryUnavailableResult (found : FailedImport) : Act Requeue := do
  let a := modelArtifact opts seen
  dropLease a found.leaseName
  match alreadyReported a .sourceUnavailable (ascii "ResultUnavailable") with
  | some start => retryAfter resultRetryDelay start found.job found.configMap
  | none =>
    artifactFailure opts seen .sourceUnavailable (ascii "ResultUnavailable")
      (ascii "importer result is unavailable; recreating the deterministic Job safely")
      resultRetryDelay

/-- A result that reports a failure. -/
def reconcileFailure (found : FailedImport) (result : Result) : Act Requeue := do
  let a := modelArtifact opts seen
  let (type, retry) := conditionForReason result.reason
  dropLease a found.leaseName
  match alreadyReported a type result.reason with
  | some start =>
    if retry > 0 then retryAfter retry start found.job found.configMap
    else artifactFailure opts seen type result.reason result.message retry
  | none => artifactFailure opts seen type result.reason result.message retry

def importFailure (found : FailedImport) : Act Requeue :=
  match found.result with
  | none => retryUnavailableResult opts seen found
  | some result => reconcileFailure opts seen found result

/-- A result that reports success. -/
def reconcileSuccess (operation leaseName : Bytes) (job : Object Bytes Job)
    (configMap : Object Bytes ConfigMap) (result : Result) : Act Requeue := do
  let a := modelArtifact opts seen
  if (validateSuccessfulResult (importerSpec opts.importer.hubEndpoint a operation) operation
      result).isOk = false then do
    dropLease a leaseName
    deleteIfPresent jobs job
    deleteIfPresent configMaps configMap
    artifactFailure opts seen .sourceUnavailable (ascii "InvalidResult")
      (ascii
        "importer result failed controller-side identity validation; recreating safely") minute
  else if a.status.resolvedRevision ≠ [] ∧
      result.resolvedRevision ≠ a.status.resolvedRevision then
    dropAndFail opts seen leaseName .checksumMismatch (ascii "ImmutableRevisionMismatch")
      (ascii "recovered source resolved to different content") 0
  else if a.status.artifactDigest ≠ [] ∧ result.artifactDigest ≠ a.status.artifactDigest then
    dropAndFail opts seen leaseName .checksumMismatch (ascii "ImmutableContentMismatch")
      (ascii "recovered source content differs from the previously verified artifact") 0
  else do
    completeArtifact opts seen storage result ⟨job.key, opts.uidText job.uid⟩
    inCluster (releaseLease leaseName a.uid)
    pure second

/-! ## Jobs -/

def waitForLease (jobRef : Option ModelArtifactJobReference) : Act Requeue :=
  markImporting opts seen jobRef (ascii "WaitingForLease")
    (ascii "another artifact operation holds the source/cache lease") (15 * second)

def acquireArtifactLease : Act (Bytes × Bool) :=
  inCluster (acquireLease a.uid (artifactLeaseFingerprint a storage))

/-- A Job that is not over. -/
def reconcilePending (job : Object Bytes Job) : Act Requeue := do
  let a := modelArtifact opts seen
  let jobRef : ModelArtifactJobReference := ⟨job.key, opts.uidText job.uid⟩
  let (_, renewed) ← acquireArtifactLease a storage
  if renewed = false then waitForLease opts seen (some jobRef)
  else do
    match ← inspectPendingJob opts job with
    | some blocked =>
      artifactFailure opts seen blocked.type blocked.reason blocked.message activeImportRequeue
    | none =>
      markImporting opts seen (some jobRef) (ascii "ImportRunning")
        (ascii "artifact import or validation Job is running") activeImportRequeue

/-! ## Verified artifacts -/

/-- The Job that a verified artifact was imported by. -/
def retainedJob : Option ModelArtifactJobReference :=
  if a.status.observedGeneration = a.generation ∧ a.status.isReady = true then
    a.status.jobRef.filter fun ref => ref.name ≠ []
  else none

def jobReferenceMatches (ref : ModelArtifactJobReference) (job : Object Bytes Job) : Bool :=
  ref.name == job.key && (ref.uid == [] || ref.uid == opts.uidText job.uid)

/-- The result of the retained Job still bears witness to the status. -/
def isEvidence (job : Job) (result : Result) : Bool :=
  let operation := job.labels.get .operationID
  hasControllerOwner job.owners a.uid artifactKind && operation != [] &&
    (validateSuccessfulResult (importerSpec opts.importer.hubEndpoint a operation) operation
      result).isOk &&
    result.artifactDigest == a.status.artifactDigest &&
    result.resolvedRevision == a.status.resolvedRevision

def reconcileRetained (job : Object Bytes Job) : Act Requeue := do
  let a := modelArtifact opts seen
  let result ← attempt (readJobResult opts job)
  if result.toOption.any (isEvidence opts a job.body) then do
    if ← inCluster (cleanupArtifactLeases a.uid) then pure second
    else pure defaultProbeInterval
  else do
    deleteIfPresent jobs job
    artifactFailure opts seen .sourceUnavailable (ascii "ResultUnavailable")
      (ascii "retained importer evidence is unavailable; recreating safely") second

/-! ## Verdicts -/

/-- What a reconcile has found out: that its Job has failed, with what is known of it, or something
else, with what is left to do. -/
inductive Verdict (φ : Type)
  | failed (found : φ)
  | other (rest : Act Requeue)

def Verdict.act {φ : Type} (failure : φ → Act Requeue) : Verdict φ → Act Requeue
  | .failed found => failure found
  | .other rest => rest

section Stages

variable {β : Type} (next : Verdict FailedImport → Act β) (opts : Options)
  (seen : Object Bytes ArtifactBody) (storage : ArtifactStorage)

/-- The result of a Job that is over. -/
def reconcileResult (operation leaseName : Bytes) (job : Object Bytes Job)
    (configMap : Object Bytes ConfigMap) (result : Result) : Act β :=
  if result.operationID ≠ [] ∧ result.operationID ≠ operation then
    next (.other (dropAndFail opts seen leaseName .sourceUnavailable
      (ascii "ResultIdentityMismatch")
      (ascii "importer result does not match the requested operation") 0))
  else if result.mode ≠ [] ∧
      result.mode ≠ importerMode (modelArtifact opts seen).spec.source then
    next (.other (dropAndFail opts seen leaseName .sourceUnavailable
      (ascii "ResultIdentityMismatch")
      (ascii "importer result mode does not match the requested operation") 0))
  else if result.success = false ∧ validReason result.reason = false then
    next (.other (dropAndFail opts seen leaseName .sourceUnavailable (ascii "InvalidResult")
      (ascii "importer result contains an unsupported failure reason") 0))
  else if result.success = false then next (.failed ⟨job, configMap, leaseName, some result⟩)
  else next (.other
    (reconcileSuccess opts seen storage operation leaseName job configMap result))

/-- The Job of the operation and its input. -/
def reconcileImport (operation leaseName : Bytes) : Act β := do
  let a := modelArtifact opts seen
  let desired := importConfigMap opts a operation
  if ← replaceUnusedImporterConfig a (importConfigName a operation) (importJobName a operation)
      desired then next (.other (pure second))
  else do
    let configMap ← withContext "create importer config: %w" (ensureObject configMaps
      validateExistingConfigMap (importConfigName a operation) desired)
    let _ ← withContext "create importer Job: %w" (ensureObject jobs validateExistingJob
      (importJobName a operation) (importJob opts a storage operation))
    let job ← orThrow (← getAs jobs (importJobName a operation))
    if job.body.complete = false ∧ job.body.failed = false then
      next (.other (reconcilePending opts seen storage job))
    else do
      match ← attempt (readJobResult opts job) with
      | .error _ => next (.failed ⟨job, configMap, leaseName, none⟩)
      | .ok result =>
        reconcileResult next opts seen storage operation leaseName job configMap result

/-- Clear away what belongs to another operation and become the importer. -/
def reconcileOperation : Act β := do
  let a := modelArtifact opts seen
  let operation := artifactOperationID a storage
  if ← cleanupObsoleteArtifactOperations a operation storage then next (.other (pure second))
  else do
    let (leaseName, acquired) ← acquireArtifactLease a storage
    if acquired = false then next (.other (waitForLease opts seen none))
    else reconcileImport next opts seen storage operation leaseName

/-- An artifact whose storage is where it was recorded. -/
def reconcileLocated : Act β :=
  match retainedJob (modelArtifact opts seen) with
  | none => reconcileOperation next opts seen storage
  | some ref => do
    match ← getAs jobs ref.name with
    | .ok job =>
      if job.body.complete && jobReferenceMatches opts ref job then
        next (.other (reconcileRetained opts seen job))
      else if job.body.complete then reconcileOperation next opts seen storage
      else if job.body.failed = false then next (.other (pure activeImportRequeue))
      else next (.other do
        deleteIfPresent jobs job
        pure second)
    | .error .notFound => reconcileOperation next opts seen storage
    | .error err => throw (.api err)

/-- Record where the artifact is kept before anything is created for it. -/
def reconcileStorage : Act β :=
  match storage.location, seen.body.status.location with
  | none, _ => next (.other (artifactFailure opts seen .storageReady
      (ascii "StorageIdentityUnavailable")
      (ascii "resolved artifact storage has no serving identity") 0))
  | some location, none => next (.other do
      updateArtifact (withStatus seen { seen.body.status with location := some location })
      pure second)
  | some location, some recorded =>
    if servingLocationIdentityEqual (some recorded) (some location) = false then
      next (.other (artifactFailure opts seen .storageReady (ascii "StorageIdentityChanged")
        (ascii "resolved artifact storage differs from its durable identity checkpoint") 0))
    else reconcileLocated next opts seen storage

def storageFailureReason (err : Err) : Bytes :=
  if err = errIncompatibleVolumePlacement then ascii "IncompatibleVolumePlacement"
  else ascii "StorageUnavailable"

/-- The stages from the first on. -/
def reconcileArtifact : Act β :=
  if seen.deleting then next (.other (reconcileDelete opts seen))
  else if modelArtifactFinalizer ∉ seen.finalizers then next (.other do
    updateArtifact { seen with finalizers := seen.finalizers ++ [modelArtifactFinalizer] }
    pure second)
  else do
    match ← attempt (resolveArtifactStorage opts (modelArtifact opts seen)) with
    | .error err => next (.other (artifactFailure opts seen .storageReady
        (storageFailureReason err) (opts.errorText err) (15 * second)))
    | .ok storage => reconcileStorage next opts seen storage

end Stages

/-- A reconcile up to its verdict. -/
def verdict : Act (Verdict FailedImport) :=
  reconcileArtifact pure opts seen

/-- What a reconcile does about its verdict. -/
def importNext : Verdict FailedImport → Act Requeue :=
  Verdict.act (importFailure opts seen)

def reconcile : Act Requeue :=
  reconcileArtifact (importNext opts seen) opts seen

end Kama.Controller
