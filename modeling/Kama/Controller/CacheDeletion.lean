import Kama.Controller.CacheClaim

/-!
# The deletion of a model cache

`reconcileDelete` of `modelcache_controller.go`. The finalizer of a cache is held until its probes
are gone and no artifact refers to it. A claim of its own that is to be deleted with it is guarded
first: the guard is an annotation with the identity of the cache and a time, and only after it has
been there for `cacheDeletionQuiescence` are the references looked at once more, the claim read
again, and the version that was read deleted.
-/

namespace Kama.Controller

open Bytes Api Program Artifact

variable (opts : CacheOptions) (cache : Object Bytes ModelCache) (claim : Object Bytes Claim)

def modelCacheFinalizer : String := "modelcache.kama.tannerburns.github.io/finalizer"

def cacheDeletionQuiescence : Requeue := 5 * second

def artifactReferencesRemainReason : Bytes := ascii "ArtifactReferencesRemain"
def artifactClaimRefsReason : Bytes := ascii "ArtifactClaimReferencesRemain"

/-! ## Probes -/

def isProbeResource (owners : List OwnerReference) : Bool :=
  hasControllerOwner owners (opts.uidText cache.uid) cacheKind

/-- Stop the probes; says whether there is one left. -/
def cleanupProbes : Act Bool := do
  let found ← orThrow (← listAs jobs)
  let running := found.filter fun job => isProbeResource opts cache job.body.owners
  deleteJobs running
  pure (running ≠ [])

/-- Every ConfigMap of a probe is deleted, also one that is being deleted. -/
def cleanupProbeConfigs : Act Unit := do
  let found ← orThrow (← listAs configMaps)
  deleteObsoleteConfigMaps
    (found.filter fun configMap => isProbeResource opts cache configMap.body.owners)

/-! ## The guard -/

def annotate (key : AnnotationKey) (value : Bytes) (annotations : Annotations) : Annotations :=
  (key, value) :: annotations.filter fun (other, _) => other ≠ key

def withAnnotations (annotations : Annotations) : Object Bytes Claim :=
  { claim with body := { claim.body with annotations := annotations } }

/-- The claim with the guard of the cache. -/
def guardClaim (guardedAt : Nat) : Object Bytes Claim :=
  withAnnotations claim (annotate .cacheDeletionGuardedAt (opts.timeText guardedAt)
    (annotate .cacheDeletionGuard (opts.uidText cache.uid) claim.body.annotations))

/-- The time of a guard of the cache that can be relied on: it is not in the future and not from
before the deletion was requested. -/
def guardedSince (claim : Claim) (now : Nat) : Option Nat :=
  (opts.parseTime (claim.annotations.get .cacheDeletionGuardedAt)).filter fun guardedAt =>
    decide (guardedAt ≤ now ∧ opts.deletedAt cache.uid ≤ guardedAt)

/-- The guard is set on the version of the claim that was read. -/
def applyDeletionGuard : Act Nat := do
  let guardedAt ← timeNow
  match ← updateAs claims (guardClaim opts cache claim guardedAt) with
  | .error err => throw (.wrap "apply managed claim deletion guard: %w" [] (.api err))
  | .ok _ => pure guardedAt

/-- The time of the guard, and whether it has only been set now. -/
def ensureClaimDeletionGuard : Act (Nat × Bool) := do
  match claim.body.annotations.lookup .cacheDeletionGuard with
  | none => pure (← applyDeletionGuard opts cache claim, true)
  | some guardOwner =>
    if guardOwner ≠ opts.uidText cache.uid then
      throw (.text "claim deletion guard belongs to another ModelCache identity" [])
    else
      match guardedSince opts cache claim.body (← timeNow) with
      | some guardedAt => pure (guardedAt, false)
      | none => pure (← applyDeletionGuard opts cache claim, true)

/-- The claim that was read again is still the guarded claim of the cache. -/
def checkGuardedClaim (original claim : Object Bytes Claim) (guardedAt : Nat) :
    Except Err Unit := do
  if opts.uidText claim.uid = [] ∨ claim.uid ≠ original.uid then
    throw (.text "managed cache claim identity changed during final deletion checks" [])
  if claim.deleting then
    throw (.text "managed cache claim began terminating during final deletion checks" [])
  (validateManagedCacheClaim opts cache claim).mapError
    (.wrap "revalidate managed cache claim: %w" [])
  if claim.body.annotations.lookup .cacheDeletionGuard ≠ some (opts.uidText cache.uid) then
    throw (.text "managed cache claim deletion guard changed during final deletion checks" [])
  if opts.parseTime (claim.body.annotations.get .cacheDeletionGuardedAt) ≠ some guardedAt then
    throw (.text
      "managed cache claim deletion guard timestamp changed during final deletion checks" [])
  if guardedAt < opts.deletedAt cache.uid then
    throw (.text "managed cache claim deletion guard predates cache deletion" [])

def revalidateManagedClaimDeletion (original : Object Bytes Claim) (guardedAt : Nat) :
    Act (Object Bytes Claim) := do
  let claim ← orThrow (← getAs claims original.key)
  match checkGuardedClaim opts cache original claim guardedAt with
  | .error err => throw err
  | .ok () =>
    if (← timeNow) < guardedAt + cacheDeletionQuiescence then
      throw (.text
        "managed cache claim deletion guard has not completed its quiescence period" [])
    else pure claim

/-- A claim that is retained loses the guard of the cache; says whether it had one. -/
def clearRetainedManagedClaimDeletionGuard : Act Bool := do
  match ← getAs claims (cacheClaimName opts.toOptions cache) with
  | .error .notFound => pure false
  | .error err => throw (.api err)
  | .ok claim =>
    if claim.body.annotations.lookup .cacheDeletionGuard ≠ some (opts.uidText cache.uid) ∨
        claim.deleting = true then pure false
    else
      match validateManagedCacheClaim opts cache claim with
      | .error err => throw (.wrap "revalidate retained managed cache claim: %w" [] err)
      | .ok () =>
        match ← updateAs claims (withAnnotations claim
            (claim.body.annotations.filter fun (key, _) => !key.isReserved)) with
        | .error err =>
          throw (.wrap "remove retained managed claim deletion guard: %w" [] (.api err))
        | .ok _ => pure true

/-! ## References -/

def artifactBlocks (claimName : Bytes) (a : ArtifactBody) : Option (Bytes × Bytes) :=
  if a.spec.cacheRef = some cache.key then
    some (artifactReferencesRemainReason,
      ascii "managed claim deletion is blocked while a ModelArtifact references the ModelCache")
  else if a.spec.source.persistentVolumeClaim.any fun source => source.claimName == claimName then
    some (artifactClaimRefsReason,
      ascii "managed claim deletion is blocked while a ModelArtifact PVC source references it")
  else if a.status.location.any fun location => location.claimName == claimName then
    some (artifactClaimRefsReason,
      ascii "managed claim deletion is blocked while a ModelArtifact status location references it")
  else none

/-- Why the claim must not be deleted: a reason and a message. -/
def managedClaimDeletionBlocked (claimName : Bytes) : Act (Option (Bytes × Bytes)) := do
  let others ← orThrow (← listAs caches)
  if others.any fun other =>
      other.key != cache.key && other.body.spec.existingClaim == some claimName then
    pure (some (ascii "ClaimAdoptedByAnotherCache",
      ascii "managed claim deletion is blocked while another ModelCache adopts it"))
  else do
    let found ← orThrow (← listAs artifacts)
    pure (found.findSome? fun a => artifactBlocks cache claimName a.body)

/-! ## Deletion -/

/-- The last checks of a claim whose guard has been there for long enough, and its deletion. -/
def deleteGuardedClaim (guardedAt : Nat) : Act Requeue := do
  match ← managedClaimDeletionBlocked cache (cacheClaimName opts.toOptions cache) with
  | some (reason, message) => cacheFailure opts cache .degraded reason message (15 * second)
  | none =>
    match ← attempt (revalidateManagedClaimDeletion opts cache claim guardedAt) with
    | .error (.api .notFound) => pure second
    | .error err =>
      cacheFailure opts cache .degraded (ascii "ClaimDeletionGuardChanged") (opts.errorText err)
        (5 * second)
    | .ok confirmed =>
      match ← deleteObject (claims.kind, confirmed.key) (deletionOf confirmed) with
      | .ok () => pure (2 * second)
      | .error .notFound => pure (2 * second)
      | .error err =>
        cacheFailure opts cache .degraded (ascii "ClaimDeleteFailed")
          (opts.errorText (.wrap "delete managed cache claim: %v" [] (.api err))) minute

/-- A claim that is deleted with its cache. -/
def reconcileClaimDeletion : Act Requeue :=
  if claim.deleting then pure second
  else
    match validateManagedCacheClaim opts cache claim with
    | .error err =>
      cacheFailure opts cache .degraded (ascii "ClaimIdentityConflict")
        (opts.errorText (.wrap "refusing to delete managed cache claim: %v" [] err)) 0
    | .ok () => do
      match ← attempt (ensureClaimDeletionGuard opts cache claim) with
      | .error err =>
        cacheFailure opts cache .degraded (ascii "ClaimDeletionGuardConflict")
          (opts.errorText err) 0
      | .ok (guardedAt, guardAdded) =>
        if guardAdded then pure cacheDeletionQuiescence
        else do
          let wait := remaining cacheDeletionQuiescence guardedAt (← timeNow)
          if wait > 0 then pure wait
          else deleteGuardedClaim opts cache claim guardedAt

def updateCache (o : Object Bytes ModelCache) : Act Unit := do
  let _ ← orThrow (← updateAs caches o)
  pure ()

def finishCacheDeletion : Act Requeue := do
  updateCache { cache with finalizers := cache.finalizers.filter (· ≠ modelCacheFinalizer) }
  pure 0

/-- What the retention policy says about the claim. -/
def reconcileRetention : Act Requeue :=
  match cache.body.spec.claimTemplate, cache.body.spec.retentionPolicy with
  | none, _ => finishCacheDeletion cache
  | some _, .delete => do
    match ← getAs claims (cacheClaimName opts.toOptions cache) with
    | .error .notFound => finishCacheDeletion cache
    | .error err => throw (.api err)
    | .ok claim => reconcileClaimDeletion opts cache claim
  | some _, .retain => do
    match ← attempt (clearRetainedManagedClaimDeletionGuard opts cache) with
    | .error err =>
      cacheFailure opts cache .degraded (ascii "RetainedClaimGuardCleanupFailed")
        (opts.errorText err) (5 * second)
    | .ok true => pure second
    | .ok false => finishCacheDeletion cache

/-- `Ready` is false for this generation. -/
def isMarkedTerminating (cache : ModelCache) : Bool :=
  (findStatusCondition cache.status.conditions .ready).any fun ready =>
    decide (ready.status = .conditionFalse ∧ ready.observedGeneration = cache.generation)

/-- The cache is not ready any more; nothing new refers to it. -/
def markCacheTerminating : Act (Object Bytes ModelCache) :=
  if isMarkedTerminating cache.body then pure cache
  else
    reportCacheFailure opts cache .degraded (ascii "CacheTerminating")
      (ascii "ModelCache is terminating and cannot accept new artifact references")

def reconcileCacheDelete (seen : Object Bytes ModelCache) : Act Requeue :=
  if modelCacheFinalizer ∉ seen.finalizers then pure 0
  else do
    let cache ← markCacheTerminating opts seen
    if ← cleanupProbes opts cache then pure second
    else do
      cleanupProbeConfigs opts cache
      let found ← orThrow (← listAs artifacts)
      if found.any fun a => a.body.spec.cacheRef == some cache.key then
        cacheFailure opts cache .degraded artifactReferencesRemainReason
          (ascii "cache deletion is blocked until every referenced ModelArtifact is fully removed")
          (15 * second)
      else reconcileRetention opts cache

end Kama.Controller
