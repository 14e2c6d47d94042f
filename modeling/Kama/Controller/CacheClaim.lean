import Kama.Controller.CacheStatus

/-!
# The claim of a model cache

A cache adopts a claim or has one of its own, that it creates from a template under a name that
depends on its identity. The claim has no owner, so that it can outlive its cache; what makes it
the claim of the cache is its name, its labels and the rest of `validateManagedCacheClaim`.
-/

namespace Kama.Controller

open Bytes Api Program Artifact

variable (opts : CacheOptions) (cache : Object Bytes ModelCache)

def LabelKey.text : LabelKey → Bytes
  | .managedBy => ascii "app.kubernetes.io/managed-by"
  | .component => ascii "app.kubernetes.io/component"
  | .cacheName => ascii "kama.tannerburns.github.io/model-cache"
  | .cacheUID => ascii "kama.tannerburns.github.io/model-cache-uid"
  | .artifactName => ascii "kama.tannerburns.github.io/model-artifact"
  | .artifactUID => ascii "kama.tannerburns.github.io/model-artifact-uid"
  | .operationID => ascii "kama.tannerburns.github.io/operation"
  | .jobName => ascii "job-name"
  | .other key => key

def AnnotationKey.text : AnnotationKey → Bytes
  | .cacheDeletionGuard => ascii "kama.tannerburns.github.io/cache-deletion-guard"
  | .cacheDeletionGuardedAt => ascii "kama.tannerburns.github.io/cache-deletion-guarded-at"
  | .other key => key

def VolumeMode.text : VolumeMode → Bytes
  | .filesystem => ascii "Filesystem"
  | .block => ascii "Block"

def Annotations.get (annotations : Annotations) (key : AnnotationKey) : Bytes :=
  (annotations.lookup key).getD []

/-- The annotations by which a claim is guarded for its deletion. -/
def AnnotationKey.isReserved : AnnotationKey → Bool
  | .cacheDeletionGuard => true
  | .cacheDeletionGuardedAt => true
  | .other _ => false

def reservedKeyErr (key : AnnotationKey) : Err :=
  .text "claim template annotation %q is reserved for safe cache deletion" [key.text]

/-! ## Creation -/

/-- `labels[key] = value`. -/
def Labels.set (labels : Labels) (key : LabelKey) (value : Bytes) : Labels :=
  (key, value) :: labels.filter fun (other, _) => other ≠ key

/-- A copy of the labels of the template, with the identity of the cache written over it. -/
def claimLabels (template : ModelCacheClaimTemplate) : Labels :=
  let labels := template.labels.set .managedBy kamaName
  let labels := labels.set .component modelCacheComponent
  let labels := labels.set .cacheName (boundedLabelValue opts.rules cache.key)
  labels.set .cacheUID (opts.uidText cache.uid)

/-- The claim that a template describes. -/
def templateClaim (template : ModelCacheClaimTemplate) : Claim where
  labels := claimLabels opts cache template
  annotations := template.annotations
  owners := []
  accessModes := template.accessModes
  volumeMode := some (template.volumeMode.getD .filesystem)
  storageClassName := template.storageClassName
  storageRequest := template.storageRequest
  otherRequests := template.otherRequests
  limits := []
  selected := false
  volumeAttributesClassName := none
  volumeName := []
  phase := .pending
  boundAccessModes := []
  capacity := none

/-- The name of the claim, and whether the cache manages it. -/
def ensureClaim : Act (Bytes × Bool) :=
  match cache.body.spec.existingClaim, cache.body.spec.claimTemplate with
  | some name, _ => pure (name, false)
  | none, none => throw (.text "claimTemplate or existingClaim is required" [])
  | none, some template =>
    match template.annotations.find? fun (key, _) => key.isReserved with
    | some (key, _) => throw (reservedKeyErr key)
    | none => do
      let name := cacheClaimName opts.toOptions cache
      match ← createAs claims name (templateClaim opts cache template) with
      | .ok _ => pure (name, true)
      | .error .alreadyExists => pure (name, true)
      | .error err => throw (.wrap "create managed cache claim: %w" [] (.api err))

/-! ## Identity -/

/-- The labels that say whose claim it is. -/
def reservedLabels : Labels :=
  [(.managedBy, kamaName), (.component, modelCacheComponent),
    (.cacheName, boundedLabelValue opts.rules cache.key), (.cacheUID, opts.uidText cache.uid)]

/-- The labels of a template join those that are wanted already, and replace none of them. -/
def addUnreserved (wantLabels : Labels) : Labels → Labels
  | [] => wantLabels
  | (key, value) :: rest =>
    addUnreserved
      (if (wantLabels.lookup key).isSome then wantLabels else wantLabels.set key value) rest

def wantLabels (template : ModelCacheClaimTemplate) : Labels :=
  addUnreserved (reservedLabels opts cache) template.labels

/-- The annotations of the template are on the claim. -/
def validateAnnotations (claim : Annotations) : Annotations → Except Err Unit
  | [] => .ok ()
  | (key, value) :: rest =>
    if key.isReserved then .error (reservedKeyErr key)
    else if claim.get key ≠ value then
      .error (.text "managed claim annotation %q does not match the claim template" [key.text])
    else validateAnnotations claim rest

/-- A template that names no storage class leaves the choice to the cluster. -/
def validateStorageClassName (claim : Option Bytes) : Option Bytes → Except Err Unit
  | some name =>
    if claim ≠ some name then
      .error (.text "managed claim storageClassName does not match claim template" [])
    else .ok ()
  | none =>
    if claim = some [] then .error (.text
      "managed claim disables default StorageClass selection contrary to claim template" [])
    else .ok ()

def validateStorageRequest (claim : Option Nat) : Option Nat → Except Err Unit
  | none => .error (.text "claim template has no storage request" [])
  | some wanted =>
    if claim.any (wanted ≤ ·) then .ok ()
    else .error (.text "managed claim storage request is smaller than claim template request %s"
      [Json.natDigits wanted])

def validateClaimContract (claim : Object Bytes Claim) (template : ModelCacheClaimTemplate) :
    Except Err Unit := do
  let wantName := cacheClaimName opts.toOptions cache
  if claim.key ≠ wantName then
    throw (.text "managed claim identity is %s/%s, want %s/%s" [claim.key, wantName])
  match (wantLabels opts cache template).find? fun (key, value) =>
      claim.body.labels.get key ≠ value with
  | some (key, _) =>
    throw (.text "managed claim label %q does not match the ModelCache identity" [key.text])
  | none => pure ()
  validateAnnotations claim.body.annotations template.annotations
  if claim.body.owners ≠ [] then throw (.text "managed cache claim must remain ownerless" [])
  if normalizeAccessModes claim.body.accessModes ≠ normalizeAccessModes template.accessModes then
    throw (.text "managed claim accessModes %v do not match claim template %v"
      (claim.body.accessModes.map AccessMode.text ++ template.accessModes.map AccessMode.text))
  let wantVolumeMode := template.volumeMode.getD .filesystem
  let gotVolumeMode := claim.body.volumeMode.getD .filesystem
  if gotVolumeMode ≠ wantVolumeMode then
    throw (.text "managed claim volumeMode %q does not match claim template %q"
      [gotVolumeMode.text, wantVolumeMode.text])
  validateStorageClassName claim.body.storageClassName template.storageClassName
  validateStorageRequest claim.body.storageRequest template.storageRequest
  match claim.body.otherRequests with
  | name :: _ => throw (.text "managed claim has unexpected resource request %q" [name])
  | [] => pure ()
  if claim.body.limits ≠ [] then
    throw (.text "managed claim has unexpected resource limits" [])
  if claim.body.selected then
    throw (.text "managed claim has an unexpected selector or data source" [])
  if claim.body.volumeAttributesClassName.any (· ≠ []) then
    throw (.text "managed claim has an unexpected volumeAttributesClassName" [])

def validateManagedCacheClaim (claim : Object Bytes Claim) : Except Err Unit :=
  match cache.body.spec.claimTemplate with
  | none => .error (.text "managed cache has no claim template" [])
  | some template => validateClaimContract opts cache claim template

/-! ## Storage classes -/

def resolveClaimStorageClass (claim : Claim) : Act (Option (Object Bytes StorageClass)) :=
  match claim.storageClassName with
  | some [] => pure none
  | some name => do
    match ← getAs storageClasses name with
    | .error err => throw (.wrap "resolve StorageClass %q: %w" [name] (.api err))
    | .ok storageClass => pure (some storageClass)
  | none => do
    match ← listAs storageClasses with
    | .error err => throw (.wrap "list default StorageClasses: %w" [] (.api err))
    | .ok found =>
      match found.filter fun storageClass => storageClass.body.isDefault with
      | [] => pure none
      | [selected] => pure (some selected)
      | _ :: _ :: _ => throw (.text
        "PVC has no resolved storageClassName and the cluster has multiple default StorageClasses"
        [])

def claimWaitsForFirstConsumer (claim : Claim) : Act Bool := do
  let storageClass ← resolveClaimStorageClass claim
  pure (storageClass.any fun storageClass => storageClass.body.waitForFirstConsumer)

end Kama.Controller
