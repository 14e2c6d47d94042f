import Kama.Controller.CacheDeletion

/-!
# The reconciliation of a model cache

`Reconcile` of `modelcache_controller.go`. A cache is ready while a probe of its filesystem is
recent: an importer Job that writes, renames, maps and locks files below the claim. A probe that is
over is judged by its result, and a failed one is removed for another try once the status has said
so for `probeRetry`.

* `reconcileFreshReady`, `canPreserveCacheReady`: the probe that the status records still counts.
* `judgeProbe`: what the result of a probe says.
* `reconcileProbe`, `probeFailure`, `completeProbe`: the Job of a probe and what follows from it.
* `reconcileStages`: the stages up to there. They hand their `Verdict` on: `reconcileCache` acts on
  it, and `cacheVerdict` is a reconcile up to there.

The reads of claims, Jobs and volumes through the client of the controller are reads of the server.
-/

namespace Kama.Controller

open Bytes Api Program Artifact

variable (opts : CacheOptions) (seen cache : Object Bytes ModelCache) (claim : Object Bytes Claim)
  (identity : VolumeIdentity)

def maxCacheReadyStaleness : Requeue := 2 * defaultProbeInterval

def probeRunningReason : Bytes := ascii "ProbeRunning"
def claimPendingReason : Bytes := ascii "ClaimPending"

/-! ## The Job of a probe -/

def probeOperation : Bytes :=
  deterministicName (ascii "probe") [opts.uidText cache.uid, opts.uidText claim.uid]

def probeConfigName (operation : Bytes) : Bytes :=
  deterministicName (cache.key ++ ascii "-probe-config") [operation]

def probeJobName (operation : Bytes) : Bytes :=
  deterministicName (cache.key ++ ascii "-probe") [operation]

def probeSpec (operation : Bytes) : Spec :=
  { Spec.zero with
    schemaVersion := schemaVersion
    mode := modeProbe
    operationID := operation
    probe := some ⟨cacheMountPath⟩ }

/-- The Job and its input; their names depend on the operation. -/
def desiredProbeResources : Job × ConfigMap :=
  let operation := probeOperation opts cache claim
  let owners := ownerReference cacheKind (opts.uidText cache.uid)
  (newImportJob opts.importer ⟨owners, probeConfigName cache operation, claim.key, [], none,
    operation, opts.probeTimeout⟩, newSpecConfigMap owners (probeSpec operation))

def ensureProbeResources : Act (Object Bytes Job × Object Bytes ConfigMap) := do
  let operation := probeOperation opts cache claim
  let (desiredJob, desiredConfigMap) := desiredProbeResources opts cache claim
  let configMap ← withContext "create cache probe config: %w" (ensureObject configMaps
    validateExistingConfigMap (probeConfigName cache operation) desiredConfigMap)
  let _ ← withContext "create cache probe Job: %w" (ensureObject jobs validateExistingJob
    (probeJobName cache operation) desiredJob)
  let job ← orThrow (← getAs jobs (probeJobName cache operation))
  pure (job, configMap)

/-- A retained Job of the probe, if there is one. -/
def readProbeJob (name : Bytes) (desired : Job) : Act (Option (Object Bytes Job)) := do
  match ← getAs jobs name with
  | .error .notFound => pure none
  | .error err => throw (.wrap "read retained cache probe Job: %w" [] (.api err))
  | .ok job =>
    match validateExistingJob name desired job.body with
    | .error err => throw err
    | .ok () => pure (some job)

/-- The retained input of the probe, if there is one. -/
def readProbeConfigMap (name : Bytes) (desired : ConfigMap) :
    Act (Option (Object Bytes ConfigMap)) := do
  match ← getAs configMaps name with
  | .error .notFound => pure none
  | .error err => throw (.wrap "read retained cache probe ConfigMap: %w" [] (.api err))
  | .ok configMap =>
    match validateExistingConfigMap name desired configMap.body with
    | .error err => throw err
    | .ok () => pure (some configMap)

/-- Remove what is left of a probe that is over; says whether there was something. -/
def cleanupCompletedProbeResources : Act Bool := do
  let operation := probeOperation opts cache claim
  let (desiredJob, desiredConfigMap) := desiredProbeResources opts cache claim
  let job ← readProbeJob (probeJobName cache operation) desiredJob
  if job.any fun job => !job.body.complete && !job.body.failed then pure true
  else do
    let configMap ← readProbeConfigMap (probeConfigName cache operation) desiredConfigMap
    deleteObsoleteConfigMaps configMap.toList
    match job with
    | none => pure configMap.isSome
    | some job => do
      deleteIfPresent jobs job
      pure true

/-! ## Recent probes -/

/-- The status says of this storage that its last probe is not too old. -/
def canPreserveCacheReady : Act Bool :=
  match cache.body.status.lastProbeTime with
  | none => pure false
  | some probed => do
    let now ← timeNow
    pure (decide (probed ≤ now ∧ now ≤ probed + maxCacheReadyStaleness ∧
      cache.body.status.observedGeneration = cache.body.generation ∧
      cacheStatusMatchesVolumeIdentity opts cache.body.status claim identity = true ∧
      isStatusConditionTrue cache.body.status.conditions .ready = true))

/-- A cache whose probe is recent is left as it is. -/
def reconcileFreshReady : Act (Option Requeue) :=
  match cache.body.status.lastProbeTime with
  | none => pure none
  | some probed => do
    let now ← timeNow
    if now < probed ∨ probed + defaultProbeInterval ≤ now then pure none
    else if ← canPreserveCacheReady opts cache claim identity then do
      if ← cleanupCompletedProbeResources opts cache claim then pure (some second)
      else pure (some (remaining defaultProbeInterval probed now))
    else pure none

/-! ## Results -/

/-- What is reported about a probe that has failed. -/
structure ProbeFailure where
  type : CacheCondition
  reason : Bytes
  message : Bytes
  deriving DecidableEq, Repr

inductive ProbeOutcome
  | failed (failure : ProbeFailure)
  | unsupported
  | passed (probe : ProbeResult)
  deriving DecidableEq, Repr

def validateCacheProbeResult (result : Result) (probe : ProbeResult) : Bool :=
  decide (probe.capacityBytes ≠ 0 ∧ probe.capacityBytes < 2 ^ 63 ∧ probe.freeBytes < 2 ^ 63 ∧
    probe.freeBytes ≤ probe.capacityBytes ∧ result.manifest = none ∧ result.gguf = none ∧
    result.artifactDigest = [] ∧ result.resolvedRevision = [] ∧ result.publishedPath = [] ∧
    result.bytesTransferred = 0)

/-- The filesystem can do what a cache needs. -/
def probeSupported (probe : ProbeResult) : Bool :=
  probe.write && probe.fsync && probe.atomicRename && probe.directoryRename && probe.mmap &&
    probe.lock

def unsupportedMessage : Bytes :=
  ascii ("cache filesystem did not pass write, fsync, file/directory atomic rename, mmap, " ++
    "and lock checks")

/-- The failure that an importer reports. -/
def reportedFailure (result : Result) : ProbeFailure :=
  let message :=
    if result.message = [] then ascii "filesystem capability probe failed" else result.message
  if result.reason = Reason.insufficientStorage.text then
    ⟨.insufficientCapacity, ascii "InsufficientStorage", message⟩
  else ⟨.storageUnavailable, ascii "ProbeFailed", message⟩

def resultUnavailableFailure : ProbeFailure :=
  ⟨.storageUnavailable, ascii "ResultUnavailable",
    ascii "filesystem capability probe result is unavailable; recreating safely"⟩

def judgeProbe (operation : Bytes) (result : Result) : ProbeOutcome :=
  if result.operationID ≠ operation ∨ result.mode ≠ modeProbe then
    .failed ⟨.storageUnavailable, ascii "ResultIdentityMismatch",
      ascii "filesystem capability probe result does not match the requested operation"⟩
  else
    match result.success, result.probe with
    | true, some probe =>
      if validateCacheProbeResult result probe = false then
        .failed ⟨.storageUnavailable, ascii "InvalidProbeResult",
          ascii "filesystem capability probe returned inconsistent or out-of-range data"⟩
      else if probeSupported probe = false then .unsupported
      else .passed probe
    | _, _ => .failed (reportedFailure result)

/-! ## Failed probes -/

def probeRetry : Requeue := minute

/-- The condition whose last change dates the report of a failure. -/
def observedType (type : CacheCondition) : CacheCondition :=
  if type = .storageUnavailable then .ready else type

/-- The status of that condition. -/
def observedStatus (type : CacheCondition) : ConditionStatus :=
  if type = .storageUnavailable then .conditionFalse else .conditionTrue

/-- The status already says so, since the time of the condition. -/
def probeReported (cache : ModelCache) (failure : ProbeFailure) : Option Nat :=
  reportedSince cache.status.conditions (observedType failure.type) (observedStatus failure.type)
    cache.generation failure.reason

def reportProbeFailure (failure : ProbeFailure) : Act Requeue :=
  if failure.type = .insufficientCapacity then
    cacheFailure opts
      (setCacheStatus cache (applyCacheIdentity opts cache.body.status claim identity))
      failure.type failure.reason failure.message probeRetry
  else
    updateClaimStatus opts cache claim (some identity) failure.reason failure.message probeRetry

/-- What is known of a probe that has failed. -/
structure FailedProbe where
  claim : Object Bytes Claim
  identity : VolumeIdentity
  job : Object Bytes Job
  configMap : Object Bytes ConfigMap
  failure : ProbeFailure

def probeFailure (found : FailedProbe) : Act Requeue :=
  match probeReported cache.body found.failure with
  | some since => retryAfter probeRetry since found.job found.configMap
  | none => reportProbeFailure opts cache found.claim found.identity found.failure

/-! ## Probes -/

/-- The result is recorded before its evidence is removed. -/
def completeProbe (job : Object Bytes Job) (configMap : Object Bytes ConfigMap)
    (probe : ProbeResult) : Act Requeue := do
  let now ← timeNow
  let _ ← writeCacheStatus cache (readyStatus opts now cache claim identity probe)
  deleteIfPresent configMaps configMap
  deleteIfPresent jobs job
  pure defaultProbeInterval

/-- Leave a cache that is still ready as it is, or else do this. -/
def preserveOr (otherwise : Act Requeue) : Act Requeue := do
  if ← canPreserveCacheReady opts cache claim identity then pure (5 * second) else otherwise

def reconcileProbe {β : Type} (next : Verdict FailedProbe → Act β) (opts : CacheOptions)
    (cache : Object Bytes ModelCache) (claim : Object Bytes Claim) (identity : VolumeIdentity) :
    Act β := do
  match ← attempt (ensureProbeResources opts cache claim) with
  | .error err =>
    next (.other (preserveOr opts cache claim identity (updateClaimStatus opts cache claim
      (some identity) (ascii "ProbeReconcileFailed") (opts.errorText err) minute)))
  | .ok (job, configMap) =>
    if job.body.complete = false ∧ job.body.failed = false then
      next (.other (preserveOr opts cache claim identity (updateClaimStatus opts cache claim
        (some identity) probeRunningReason (ascii "filesystem capability probe is running")
        (5 * second))))
    else
      match ← attempt (readJobResult opts.toOptions job) with
      | .error _ =>
        if ← canPreserveCacheReady opts cache claim identity then
          next (.other (pure (5 * second)))
        else next (.failed ⟨claim, identity, job, configMap, resultUnavailableFailure⟩)
      | .ok result =>
        match judgeProbe (probeOperation opts cache claim) result with
        | .failed failure => next (.failed ⟨claim, identity, job, configMap, failure⟩)
        | .unsupported =>
          next (.other (updateClaimStatus opts cache claim (some identity)
            (ascii "UnsupportedFilesystem") unsupportedMessage 0))
        | .passed probe =>
          next (.other (completeProbe opts cache claim identity job configMap probe))

/-! ## Claims -/

/-- A probe that is over cannot make its claim be bound any more. -/
def restartConsumer (job : Object Bytes Job) : Act Requeue := do
  match ← attempt (deleteJob job) with
  | .error err =>
    updateClaimStatus opts cache claim none (ascii "ProbeConsumerRestartFailed")
      (opts.errorText err) minute
  | .ok () =>
    updateClaimStatus opts cache claim none (ascii "ProbeConsumerRestarting")
      (ascii "terminal probe consumer is being recreated to continue delayed volume binding")
      second

/-- A claim that waits for a Pod is bound for that of the probe. -/
def reconcileUnbound : Act Requeue := do
  match ← attempt (claimWaitsForFirstConsumer claim.body) with
  | .error err =>
    updateClaimStatus opts cache claim none (ascii "StorageClassResolutionFailed")
      (opts.errorText err) minute
  | .ok false =>
    updateClaimStatus opts cache claim none claimPendingReason
      (ascii "cache PersistentVolumeClaim is not yet Bound") (10 * second)
  | .ok true =>
    match ← attempt (ensureProbeResources opts cache claim) with
    | .error err =>
      updateClaimStatus opts cache claim none (ascii "ProbeConsumerCreateFailed")
        (opts.errorText err) minute
    | .ok (job, _) =>
      if job.body.complete = true ∨ job.body.failed = true ∨ job.deleting = true then
        restartConsumer opts cache claim job
      else
        updateClaimStatus opts cache claim none claimPendingReason (ascii ("cache " ++
          "PersistentVolumeClaim is waiting for the probe consumer to schedule and bind storage"))
          (5 * second)

/-- Why a claim that the cache manages is not its own. -/
def claimConflict (managed : Bool) : Option Err :=
  match managed, validateManagedCacheClaim opts cache claim with
  | true, .error err => some err
  | _, _ => none

/-- To be reconciled again at once. -/
def addCacheFinalizer : Act Requeue := do
  updateCache { seen with finalizers := seen.finalizers ++ [modelCacheFinalizer] }
  pure 1

section Stages

variable {β : Type} (next : Verdict FailedProbe → Act β) (opts : CacheOptions)
  (cache : Object Bytes ModelCache) (claim : Object Bytes Claim)

def reconcileBound : Act β := do
  match ← attempt (resolveVolume opts.toOptions claim.body) with
  | .error err =>
    next (.other (updateClaimStatus opts cache claim none (ascii "InvalidVolume")
      (opts.errorText err) minute))
  | .ok identity =>
    if hasWritableMode identity.accessModes = false then
      next (.other (updateClaimStatus opts cache claim (some identity) (ascii "ReadOnlyCache")
        (ascii "cache claim requires a writable access mode") 0))
    else
      match ← reconcileFreshReady opts cache claim identity with
      | some requeue => next (.other (pure requeue))
      | none => reconcileProbe next opts cache claim identity

def reconcileClaim (managed : Bool) : Act β :=
  if claim.deleting then
    next (.other (updateClaimStatus opts cache claim none (ascii "ClaimTerminating")
      (ascii "cache PersistentVolumeClaim is terminating") (5 * second)))
  else
    match claimConflict opts cache claim managed with
    | some err =>
      next (.other (cacheFailure opts (setCacheStatus cache
        (clearCacheStorageStatus cache.body.status claim.key [])) .storageUnavailable
        (ascii "ClaimIdentityConflict") (opts.errorText err) 0))
    | none =>
      if claimHasCacheDeletionGuard claim.body then
        next (.other (updateClaimStatus opts cache claim none (ascii "ClaimDeletionGuarded")
          (ascii "cache PersistentVolumeClaim is guarded for deletion and cannot be adopted")
          (5 * second)))
      else
        match claim.body.phase with
        | .lost =>
          next (.other (updateClaimStatus opts cache claim none (ascii "ClaimLost")
            (ascii "cache PersistentVolumeClaim has lost its bound volume") minute))
        | .pending => next (.other (reconcileUnbound opts cache claim))
        | .bound => reconcileBound next opts cache claim

/-! ## Caches -/

def reconcileStorageClaim : Act β := do
  match ← attempt (ensureClaim opts cache) with
  | .error err =>
    next (.other (cacheFailure opts (setCacheStatus cache
      (clearCacheStorageStatus cache.body.status [] [])) .storageUnavailable
      (ascii "ClaimReconcileFailed") (opts.errorText err) minute))
  | .ok (claimName, managed) =>
    match ← getAs claims claimName with
    | .error .notFound =>
      next (.other (cacheFailure opts (setCacheStatus cache
        (clearCacheStorageStatus cache.body.status claimName [])) .storageUnavailable
        (ascii "ClaimNotFound") (ascii "cache PersistentVolumeClaim does not exist")
        (10 * second)))
    | .error err =>
      next (.other (cacheFailure opts cache .storageUnavailable (ascii "ClaimReadFailed")
        (opts.errorText (.wrap "read cache PersistentVolumeClaim: %v" [] (.api err))) minute))
    | .ok claim => reconcileClaim next opts cache claim managed

/-- The stages from the first on. -/
def reconcileStages : Act β :=
  if cache.deleting then next (.other (reconcileCacheDelete opts cache))
  else if modelCacheFinalizer ∉ cache.finalizers then next (.other (addCacheFinalizer cache))
  else reconcileStorageClaim next opts cache

end Stages

/-- A reconcile up to its verdict. -/
def cacheVerdict : Act (Verdict FailedProbe) :=
  reconcileStages pure opts seen

/-- What a reconcile does about its verdict. -/
def probeNext : Verdict FailedProbe → Act Requeue :=
  Verdict.act (probeFailure opts seen)

/-- `Reconcile` of the cache that it has read. -/
def reconcileCache : Act Requeue :=
  reconcileStages (probeNext opts seen) opts seen

end Kama.Controller
