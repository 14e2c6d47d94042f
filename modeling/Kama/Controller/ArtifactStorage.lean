import Kama.Controller.ImportJob

/-!
# The storage of a model artifact

`resolveVolume` of `common.go` and `resolveArtifactStorage` of `modelartifact_controller.go`: where
an artifact is kept and what an importer has to mount for it. All reads go to the server itself.

A claim that is being deleted, or guarded for its deletion, is never resolved.
-/

namespace Kama.Controller

open Bytes Api Program Artifact

/-- The artifact that an object of the cluster is. -/
def modelArtifact (opts : Options) (o : Object Bytes ArtifactBody) : ModelArtifact where
  name := o.key
  uid := opts.uidText o.uid
  generation := o.body.generation
  deleting := o.deleting
  finalizers := o.finalizers
  spec := o.body.spec
  status := o.body.status

/-! ## Volumes -/

/-- The access modes of a claim: those it is bound with, or those it asked for. -/
def claimAccessModes (claim : Claim) : List AccessMode :=
  normalizeAccessModes
    (if claim.boundAccessModes = [] then claim.accessModes else claim.boundAccessModes)

def resolveVolume (opts : Options) (claim : Claim) : Act VolumeIdentity :=
  if claim.volumeMode.getD .filesystem ≠ .filesystem then
    throw (.text "PVC volumeMode must be Filesystem" [])
  else
    match normalizeMountScope (claimAccessModes claim) with
    | none =>
      throw (.text "unsupported access modes %v" ((claimAccessModes claim).map AccessMode.text))
    | some scope => do
      let identity : VolumeIdentity := ⟨claimAccessModes claim, .filesystem, scope,
        claim.storageClassName.getD [], claim.volumeName, [], none, claim.capacity⟩
      if claim.volumeName = [] then pure identity
      else
        match ← getAs volumes claim.volumeName with
        | .error err => throw (.wrap "get bound PersistentVolume: %w" [] (.api err))
        | .ok volume =>
          pure { identity with
            volumeUID := opts.uidText volume.uid
            nodeAffinity := normalizeVolumeNodeAffinity volume.body.nodeAffinity }

/-! ## Locations -/

def locationFromVolume (claimName claimUID subPath : Bytes) (identity : VolumeIdentity) :
    ModelArtifactLocationStatus :=
  ⟨claimName, claimUID, subPath, true, identity.accessModes, identity.volumeMode,
    identity.mountScope, identity.volumeName, identity.volumeUID, identity.nodeAffinity⟩

/-- The path below a claim is found out by the importer and does not identify the storage. -/
def ModelArtifactLocationStatus.identity (location : ModelArtifactLocationStatus) :
    ModelArtifactLocationStatus :=
  { location with subPath := [] }

def servingLocationIdentityEqual (left right : Option ModelArtifactLocationStatus) : Bool :=
  decide (left.map ModelArtifactLocationStatus.identity =
    right.map ModelArtifactLocationStatus.identity)

/-! ## Resolution -/

def claimHasCacheDeletionGuard (claim : Claim) : Bool :=
  (claim.annotations.lookup .cacheDeletionGuard).isSome

/-- A claim that an importer can mount; `role` is what it is for. -/
def readBoundClaim (role : String) (name : Bytes) : Act (Object Bytes Claim) := do
  match ← getAs claims name with
  | .error err => throw (.wrap ("get " ++ role ++ " claim: %w") [] (.api err))
  | .ok claim =>
    if claim.deleting then throw (.text (role ++ " claim is terminating") [])
    else if claimHasCacheDeletionGuard claim.body then
      throw (.text (role ++ " claim is guarded for deletion") [])
    else if claim.body.phase ≠ .bound then throw (.text (role ++ " claim is not Bound") [])
    else pure claim

/-- The cache of the artifact. -/
def resolveNamedCache (opts : Options) (storage : ArtifactStorage) (cacheName : Bytes) :
    Act ArtifactStorage := do
  match ← getAs caches cacheName with
  | .error err => throw (.wrap "get ModelCache: %w" [] (.api err))
  | .ok cache =>
    if cache.deleting then throw (.text "referenced ModelCache is terminating" [])
    else if isStatusConditionTrue cache.body.status.conditions .ready = false then
      throw (.text "referenced ModelCache is not Ready" [])
    else if cache.body.status.claimName = [] then
      throw (.text "referenced ModelCache has no resolved claim" [])
    else do
      let claim ← readBoundClaim "cache" cache.body.status.claimName
      let claimUID := opts.uidText claim.uid
      if cache.body.status.claimUID ≠ [] ∧ cache.body.status.claimUID ≠ claimUID then
        throw (.text "cache claim identity changed" [])
      else do
        let identity ← withContext "resolve cache volume: %w" (resolveVolume opts claim.body)
        if hasWritableMode identity.accessModes = false then
          throw (.text "cache claim has no writable access mode" [])
        else
          pure { storage with
            cacheClaim := claim.key
            cacheUID := opts.uidText cache.uid
            cacheClaimUID := claimUID
            cacheVolumeUID := identity.volumeUID
            cacheIdentity := some identity
            location := some (locationFromVolume claim.key claimUID [] identity) }

def resolveCacheStorage (opts : Options) (storage : ArtifactStorage) :
    Option Bytes → Act ArtifactStorage
  | none => pure storage
  | some cacheName => resolveNamedCache opts storage cacheName

/-- The claim that the artifact is imported from, or served from. A verified copy does not depend
on its source any more. -/
def resolveClaimSource (opts : Options) (a : ModelArtifact) (storage : ArtifactStorage)
    (source : PersistentVolumeClaimSource) : Act ArtifactStorage :=
  if source.isDirect = false ∧ a.status.validated = true ∧
      servingLocationIdentityEqual a.status.location storage.location = true then
    pure storage
  else do
    let claim ← readBoundClaim "source" source.claimName
    let identity ← resolveVolume opts claim.body
    pure { storage with
      sourceClaim := claim.key
      sourceClaimUID := opts.uidText claim.uid
      sourceVolumeUID := identity.volumeUID
      sourceIdentity := some identity
      location :=
        if source.isDirect then
          some (locationFromVolume claim.key (opts.uidText claim.uid) source.rootPath identity)
        else storage.location }

def resolveSourceStorage (opts : Options) (a : ModelArtifact) (storage : ArtifactStorage) :
    Option PersistentVolumeClaimSource → Act ArtifactStorage
  | none => pure storage
  | some source => resolveClaimSource opts a storage source

def errIncompatibleVolumePlacement : Err :=
  .text "source and cache PersistentVolumes have incompatible node affinity" []

/-- No node can mount both volumes. -/
def incompatiblePlacement (storage : ArtifactStorage) : Bool :=
  match storage.cacheIdentity, storage.sourceIdentity with
  | some cache, some source =>
    !volumeNodeAffinitiesCompatible cache.nodeAffinity source.nodeAffinity
  | _, _ => false

/-- The token that an importer needs: none once the content has been verified. -/
def importToken (a : ModelArtifact) : Option SecretKeyReference :=
  a.spec.source.huggingFace.bind fun source =>
    if a.status.validated then none else source.tokenSecretRef

def resolveArtifactStorage (opts : Options) (a : ModelArtifact) : Act ArtifactStorage := do
  let storage ← resolveCacheStorage opts
    { ArtifactStorage.zero with tokenSecret := importToken a } a.spec.cacheRef
  let storage ← resolveSourceStorage opts a storage a.spec.source.persistentVolumeClaim
  if incompatiblePlacement storage then throw errIncompatibleVolumePlacement
  else pure storage

end Kama.Controller
