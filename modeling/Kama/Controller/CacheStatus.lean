import Kama.Controller.ArtifactReconcile

/-!
# The status of a model cache

The statuses that a reconcile of a `ModelCache` writes, from `modelcache_controller.go`: that of a
claim that cannot be used (`updateClaimStatus`), of another failure (`cacheFailure`) and of a cache
that has passed its probe.

`cache` is the object in the memory of the controller. Its status may already have been changed
there: `cacheFailure` writes what it makes of the status only when it differs from that one, not
from the one that was read.
-/

namespace Kama.Controller

open Bytes Api Program Artifact

variable (opts : CacheOptions) (cache : Object Bytes ModelCache) (status : ModelCacheStatus)

/-- What the controller of caches needs besides `Options`: the texts of times in annotations, and
when the deletion of an object, by its identity, was requested. -/
structure CacheOptions extends Options where
  /-- in seconds -/
  probeTimeout : Nat
  timeText : Nat → Bytes
  parseTime : Bytes → Option Nat
  parseTime_timeText : ∀ time, parseTime (timeText time) = some time
  deletedAt : Nat → Nat

/-! ## Writing the status -/

def ModelCacheStatus.stored : ModelCacheStatus :=
  { status with
    lastProbeTime := status.lastProbeTime.map storedTime
    conditions := status.conditions.map fun c =>
      { c with lastTransitionTime := storedTime c.lastTransitionTime } }

/-- The cache with another status in memory. -/
def setCacheStatus : Object Bytes ModelCache :=
  { cache with body := { cache.body with status := status } }

/-- The status is written when it differs from the one in memory; the answer replaces the cache. -/
def writeCacheStatus : Act (Object Bytes ModelCache) :=
  if status = cache.body.status then pure cache
  else do
    orThrow (← updateAs caches (setCacheStatus cache status.stored))

def cacheCondition (type : CacheCondition) (status : Bool) (reason message : Bytes) :
    Condition CacheCondition :=
  ⟨type, boolConditionStatus status, cache.body.generation, 0, reason, message⟩

def conditionNotPresent : Bytes := ascii "condition is not present"

/-! ## Storage identities -/

def clearCacheStorageStatus (claimName claimUID : Bytes) : ModelCacheStatus :=
  { status with
    claimName := claimName
    claimUID := claimUID
    capacity := none
    freeSpace := none
    accessModes := []
    volumeMode := none
    mountScope := none
    storageClassName := []
    volumeName := []
    volumeUID := []
    nodeAffinity := none
    lastProbeTime := none }

def applyCacheIdentity (claim : Object Bytes Claim) (identity : VolumeIdentity) :
    ModelCacheStatus :=
  { status with
    claimName := claim.key
    claimUID := opts.uidText claim.uid
    accessModes := identity.accessModes
    volumeMode := some identity.volumeMode
    mountScope := some identity.mountScope
    storageClassName := identity.storageClassName
    volumeName := identity.volumeName
    volumeUID := identity.volumeUID
    nodeAffinity := identity.nodeAffinity
    capacity := identity.capacity }

def cacheStatusMatchesVolumeIdentity (claim : Object Bytes Claim) (identity : VolumeIdentity) :
    Bool :=
  decide (status.claimName = claim.key ∧ status.claimUID ≠ [] ∧
    status.claimUID = opts.uidText claim.uid ∧ status.accessModes = identity.accessModes ∧
    status.volumeMode = some identity.volumeMode ∧ status.mountScope = some identity.mountScope ∧
    status.storageClassName = identity.storageClassName ∧
    status.volumeName = identity.volumeName ∧ status.volumeUID = identity.volumeUID ∧
    status.nodeAffinity = identity.nodeAffinity ∧ status.capacity = identity.capacity)

/-! ## Failures -/

def claimConditions (reason message : Bytes) : List (Condition CacheCondition) :=
  [cacheCondition cache .ready false reason message,
    cacheCondition cache .storageUnavailable true reason message] ++
  [CacheCondition.insufficientCapacity, .degraded].map fun type =>
    cacheCondition cache type false reason conditionNotPresent

/-- The status of a claim: what its volume is, where that is known, and why it is not ready. -/
def claimStatus (now : Nat) (cache : Object Bytes ModelCache) (claim : Object Bytes Claim)
    (identity : Option VolumeIdentity) (reason message : Bytes) : ModelCacheStatus :=
  let cleared := clearCacheStorageStatus cache.body.status claim.key (opts.uidText claim.uid)
  let status :=
    match identity with
    | none => cleared
    | some identity =>
      if cacheStatusMatchesVolumeIdentity opts cache.body.status claim identity then
        applyCacheIdentity opts cache.body.status claim identity
      else applyCacheIdentity opts cleared claim identity
  { status with
    observedGeneration := cache.body.generation
    conditions := setConditions now (claimConditions cache reason message)
      cache.body.status.conditions }

/-- `sanitizeConditionMessage`. -/
def cacheMessage (message : Bytes) : Bytes :=
  boundMessage (opts.sanitize message)

def updateClaimStatus (claim : Object Bytes Claim) (identity : Option VolumeIdentity)
    (reason message : Bytes) (requeue : Requeue) : Act Requeue := do
  let now ← timeNow
  let _ ← writeCacheStatus cache
    (claimStatus opts now cache claim identity reason (cacheMessage opts message))
  pure requeue

def cacheFailureConditions (type : CacheCondition) (reason message : Bytes) :
    List (Condition CacheCondition) :=
  [cacheCondition cache .ready false reason message,
    cacheCondition cache type true reason message] ++
  ([CacheCondition.storageUnavailable, .insufficientCapacity, .degraded].filter (· ≠ type)).map
    fun other => cacheCondition cache other false reason conditionNotPresent

def cacheFailureStatus (now : Nat) (cache : Object Bytes ModelCache) (type : CacheCondition)
    (reason message : Bytes) : ModelCacheStatus :=
  { cache.body.status with
    observedGeneration := cache.body.generation
    conditions := setConditions now (cacheFailureConditions cache type reason message)
      cache.body.status.conditions }

/-- The cache as it is after the failure has been written. -/
def reportCacheFailure (type : CacheCondition) (reason message : Bytes) :
    Act (Object Bytes ModelCache) := do
  let now ← timeNow
  writeCacheStatus cache (cacheFailureStatus now cache type reason (cacheMessage opts message))

def cacheFailure (type : CacheCondition) (reason message : Bytes) (requeue : Requeue) :
    Act Requeue := do
  let _ ← reportCacheFailure opts cache type reason message
  pure requeue

/-! ## Success -/

def probeSucceededReason : Bytes := ascii "ProbeSucceeded"

def readyConditions : List (Condition CacheCondition) :=
  [cacheCondition cache .ready true probeSucceededReason
      (ascii "cache claim passed filesystem capability and capacity checks"),
    cacheCondition cache .storageUnavailable false (ascii "StorageAvailable")
      (ascii "cache storage is available")] ++
  [CacheCondition.insufficientCapacity, .degraded].map fun type =>
    cacheCondition cache type false probeSucceededReason conditionNotPresent

/-- The status of a cache whose probe has passed. -/
def readyStatus (now : Nat) (cache : Object Bytes ModelCache) (claim : Object Bytes Claim)
    (identity : VolumeIdentity) (probe : ProbeResult) : ModelCacheStatus :=
  { applyCacheIdentity opts cache.body.status claim identity with
    freeSpace := some probe.freeBytes
    lastProbeTime := some now
    observedGeneration := cache.body.generation
    conditions := setConditions now (readyConditions cache) cache.body.status.conditions }

end Kama.Controller
