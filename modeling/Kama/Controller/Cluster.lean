import Kama.Controller.ArtifactStatus
import Kama.Controller.Lease

/-!
# The objects of a cluster

The objects of one namespace that the controllers read and write, as far as they look at them.
A cluster is the server of `Api` with a `Body` under each key; the volumes, which belong to no
namespace, are among its objects.

* `Resource` is one kind of object: `getAs`, `listAs`, `createAs`, `updateAs` are the calls of a
  typed client. An object under the key of a kind that is not of that kind is never returned.
* `inCluster` makes the lease programs part of a controller of the cluster.
* `deleteIfPresent`, `deleteForeground`: deletions with the identity and version that were read.

A label that is missing reads as the empty string. Conditions of Jobs and Pods are kept as the
facts that the controllers ask them for, and the fields of a Job or Pod that an importer never
sets, and that `validateExistingJob` refuses, as the list of those that are set.
-/

namespace Kama.Controller

open Bytes Api Program Artifact

/-! ## Objects -/

inductive Kind
  | modelArtifact
  | modelCache
  | modelDeployment
  | persistentVolumeClaim
  | persistentVolume
  | storageClass
  | job
  | configMap
  | pod
  | event
  | lease
  deriving DecidableEq, Repr

abbrev Key := Kind × Bytes

inductive LabelKey
  | managedBy
  | component
  | cacheName
  | cacheUID
  | artifactName
  | artifactUID
  | operationID
  | jobName
  | other (key : Bytes)
  deriving DecidableEq, Repr

abbrev Labels := List (LabelKey × Bytes)

def Labels.get (labels : Labels) (key : LabelKey) : Bytes := (labels.lookup key).getD []

def requiredLabelsMatch (required actual : Labels) : Bool :=
  required.all fun (key, value) => actual.get key = value

structure OwnerReference where
  kind : Bytes
  uid : Bytes
  controller : Bool
  deriving DecidableEq, Repr

/-- `hasControllerOwner`; the empty kind stands for any. -/
def hasControllerOwner (references : List OwnerReference) (uid kind : Bytes) : Bool :=
  references.any fun r => r.controller && r.uid == uid && (kind == [] || r.kind == kind)

inductive AnnotationKey
  | cacheDeletionGuard
  | cacheDeletionGuardedAt
  | other (key : Bytes)
  deriving DecidableEq, Repr

abbrev Annotations := List (AnnotationKey × Bytes)

inductive ClaimPhase
  | pending
  | bound
  | lost
  deriving DecidableEq, Repr

structure Claim where
  labels : Labels
  annotations : Annotations
  owners : List OwnerReference
  accessModes : List AccessMode
  volumeMode : Option VolumeMode
  storageClassName : Option Bytes
  /-- the request for storage, in bytes -/
  storageRequest : Option Nat
  /-- the names of the other requests and of the limits -/
  otherRequests : List Bytes
  limits : List Bytes
  /-- a selector or a data source is set -/
  selected : Bool
  volumeAttributesClassName : Option Bytes
  volumeName : Bytes
  phase : ClaimPhase
  boundAccessModes : List AccessMode
  capacity : Option Nat
  deriving DecidableEq, Repr

structure PersistentVolume where
  nodeAffinity : Option VolumeNodeAffinity
  deriving DecidableEq, Repr

structure StorageClass where
  /-- marked as the default by one of its annotations -/
  isDefault : Bool
  waitForFirstConsumer : Bool
  deriving DecidableEq, Repr

/-! ### Jobs and Pods -/

structure SecretItem where
  key : Bytes
  path : Bytes
  mode : Option Nat
  deriving DecidableEq, Repr

inductive VolumeSource
  | configMap (name : Bytes) (defaultMode : Option Nat)
  | claim (claimName : Bytes) (readOnly : Bool)
  | secret (name : Bytes) (defaultMode : Option Nat) (items : List SecretItem)
  | other (description : Bytes)
  deriving DecidableEq, Repr

structure Volume where
  name : Bytes
  source : VolumeSource
  deriving DecidableEq, Repr

structure VolumeMount where
  name : Bytes
  mountPath : Bytes
  subPath : Bytes
  readOnly : Bool
  deriving DecidableEq, Repr

structure ContainerSecurity where
  allowPrivilegeEscalation : Bool
  readOnlyRootFilesystem : Bool
  runAsNonRoot : Bool
  runAsUser : Nat
  runAsGroup : Nat
  drop : List Bytes
  deriving DecidableEq, Repr

/-- Requests and limits, processors in thousandths and memory in bytes. -/
structure ContainerResources where
  requestCPU : Nat
  requestMemory : Nat
  limitCPU : Nat
  limitMemory : Nat
  deriving DecidableEq, Repr

structure Container where
  name : Bytes
  image : Bytes
  imagePullPolicy : Bytes
  args : List Bytes
  terminationMessagePath : Bytes
  terminationMessagePolicy : Bytes
  securityContext : Option ContainerSecurity
  resources : Option ContainerResources
  volumeMounts : List VolumeMount
  /-- other fields that are set -/
  unexpected : List Bytes
  deriving DecidableEq, Repr

structure PodSecurity where
  runAsNonRoot : Bool
  runAsUser : Nat
  runAsGroup : Nat
  seccompProfile : Bytes
  fsGroup : Option Nat
  fsGroupChangePolicy : Option Bytes
  deriving DecidableEq, Repr

structure PodSpec where
  automountServiceAccountToken : Option Bool
  enableServiceLinks : Option Bool
  restartPolicy : Bytes
  imagePullSecrets : List Bytes
  serviceAccountName : Bytes
  securityContext : Option PodSecurity
  containers : List Container
  volumes : List Volume
  schedulingGates : List Bytes
  /-- other fields that are set -/
  unexpected : List Bytes
  deriving DecidableEq, Repr

/-- A Job. The server gives a Job that does not choose its selector the one of its own identity,
so that only a chosen one is among the `unexpected` fields. -/
structure Job where
  labels : Labels
  owners : List OwnerReference
  backoffLimit : Option Int
  activeDeadlineSeconds : Option Int
  /-- other fields of the execution policy that are set to more than their default -/
  unexpected : List Bytes
  templateLabels : Labels
  template : PodSpec
  complete : Bool
  failed : Bool
  deriving DecidableEq, Repr

structure ConfigMap where
  labels : Labels
  owners : List OwnerReference
  data : List (Bytes × Bytes)
  binaryData : List (Bytes × Bytes)
  immutable : Bool
  deriving DecidableEq, Repr

structure ContainerStatus where
  name : Bytes
  waitingReason : Option Bytes
  terminatedMessage : Option Bytes
  deriving DecidableEq, Repr

structure Pod where
  labels : Labels
  owners : List OwnerReference
  spec : PodSpec
  created : Nat
  /-- the scheduler has found no node -/
  unschedulable : Bool
  containerStatuses : List ContainerStatus
  /-- the log of the importer container -/
  log : Option Bytes
  deriving DecidableEq, Repr

structure Event where
  involvedUID : Bytes
  warning : Bool
  reason : Bytes
  deriving DecidableEq, Repr

/-! ### The resources of Kama -/

inductive RetentionPolicy
  | retain
  | delete
  deriving DecidableEq, Repr

structure ModelCacheClaimTemplate where
  labels : Labels
  annotations : Annotations
  storageClassName : Option Bytes
  accessModes : List AccessMode
  volumeMode : Option VolumeMode
  storageRequest : Option Nat
  otherRequests : List Bytes
  deriving DecidableEq, Repr

structure ModelCacheSpec where
  /-- the name of the claim -/
  existingClaim : Option Bytes
  claimTemplate : Option ModelCacheClaimTemplate
  retentionPolicy : RetentionPolicy
  deriving DecidableEq, Repr

inductive CacheCondition
  | ready
  | storageUnavailable
  | insufficientCapacity
  | degraded
  deriving DecidableEq, Repr

structure ModelCacheStatus where
  observedGeneration : Nat
  claimName : Bytes
  claimUID : Bytes
  capacity : Option Nat
  freeSpace : Option Nat
  accessModes : List AccessMode
  volumeMode : Option VolumeMode
  mountScope : Option MountScope
  storageClassName : Bytes
  volumeName : Bytes
  volumeUID : Bytes
  nodeAffinity : Option VolumeNodeAffinity
  lastProbeTime : Option Nat
  conditions : List (Condition CacheCondition)
  deriving DecidableEq, Repr

structure ModelCache where
  generation : Nat
  spec : ModelCacheSpec
  status : ModelCacheStatus
  deriving DecidableEq, Repr

/-- What a `ModelDeployment` has that the reconcilers of artifacts and caches read. -/
structure DeploymentBody where
  /-- the name of the `ModelArtifact` -/
  modelRef : Bytes
  deriving DecidableEq, Repr

/-- What a `ModelArtifact` has besides its metadata. -/
structure ArtifactBody where
  generation : Nat
  spec : ModelArtifactSpec
  status : ModelArtifactStatus
  deriving DecidableEq, Repr

inductive Body
  | modelArtifact (a : ArtifactBody)
  | modelCache (c : ModelCache)
  | modelDeployment (d : DeploymentBody)
  | persistentVolumeClaim (c : Claim)
  | persistentVolume (v : PersistentVolume)
  | storageClass (c : StorageClass)
  | job (j : Job)
  | configMap (c : ConfigMap)
  | pod (p : Pod)
  | event (e : Event)
  | lease (l : Lease)
  deriving DecidableEq, Repr

abbrev ClusterServer := Server Key Body

abbrev ClusterObject := Object Key Body

/-- A piece of code of a controller. -/
abbrev Act := Task Key Body

/-! ## Typed calls -/

/-- One kind of object. -/
structure Resource (γ : Type) where
  kind : Kind
  body : γ → Body
  ofBody : Body → Option γ
  ofBody_body : ∀ b, ofBody (body b) = some b
  body_ofBody : ∀ {b c}, ofBody b = some c → body c = b

def artifacts : Resource ArtifactBody where
  kind := .modelArtifact
  body := .modelArtifact
  ofBody | .modelArtifact a => some a | _ => none
  ofBody_body _ := rfl
  body_ofBody {b c} h := by cases b <;> cases h; rfl

def caches : Resource ModelCache where
  kind := .modelCache
  body := .modelCache
  ofBody | .modelCache c => some c | _ => none
  ofBody_body _ := rfl
  body_ofBody {b c} h := by cases b <;> cases h; rfl

def modelDeployments : Resource DeploymentBody where
  kind := .modelDeployment
  body := .modelDeployment
  ofBody | .modelDeployment d => some d | _ => none
  ofBody_body _ := rfl
  body_ofBody {b c} h := by cases b <;> cases h; rfl

def claims : Resource Claim where
  kind := .persistentVolumeClaim
  body := .persistentVolumeClaim
  ofBody | .persistentVolumeClaim c => some c | _ => none
  ofBody_body _ := rfl
  body_ofBody {b c} h := by cases b <;> cases h; rfl

def volumes : Resource PersistentVolume where
  kind := .persistentVolume
  body := .persistentVolume
  ofBody | .persistentVolume v => some v | _ => none
  ofBody_body _ := rfl
  body_ofBody {b c} h := by cases b <;> cases h; rfl

def storageClasses : Resource StorageClass where
  kind := .storageClass
  body := .storageClass
  ofBody | .storageClass c => some c | _ => none
  ofBody_body _ := rfl
  body_ofBody {b c} h := by cases b <;> cases h; rfl

def jobs : Resource Job where
  kind := .job
  body := .job
  ofBody | .job j => some j | _ => none
  ofBody_body _ := rfl
  body_ofBody {b c} h := by cases b <;> cases h; rfl

def configMaps : Resource ConfigMap where
  kind := .configMap
  body := .configMap
  ofBody | .configMap c => some c | _ => none
  ofBody_body _ := rfl
  body_ofBody {b c} h := by cases b <;> cases h; rfl

def pods : Resource Pod where
  kind := .pod
  body := .pod
  ofBody | .pod p => some p | _ => none
  ofBody_body _ := rfl
  body_ofBody {b c} h := by cases b <;> cases h; rfl

def events : Resource Event where
  kind := .event
  body := .event
  ofBody | .event e => some e | _ => none
  ofBody_body _ := rfl
  body_ofBody {b c} h := by cases b <;> cases h; rfl

def leases : Resource Lease where
  kind := .lease
  body := .lease
  ofBody | .lease l => some l | _ => none
  ofBody_body _ := rfl
  body_ofBody {b c} h := by cases b <;> cases h; rfl

section Typed

variable {γ : Type} (r : Resource γ)

/-- An object of the kind, by its name. -/
def Resource.object (o : Object Bytes γ) : ClusterObject :=
  ⟨(r.kind, o.key), o.uid, o.version, o.deleting, o.finalizers, r.body o.body⟩

/-- The object as one of the kind. -/
def Resource.ofObject (o : ClusterObject) : Option (Object Bytes γ) :=
  (r.ofBody o.body).map fun b => ⟨o.key.2, o.uid, o.version, o.deleting, o.finalizers, b⟩

/-- The answer to a call as one about the kind. -/
def Resource.ofAnswer : Except ApiErr ClusterObject → Except ApiErr (Object Bytes γ)
  | .error err => .error err
  | .ok o => (r.ofObject o).elim (.error .unavailable) .ok

def getAs (name : Bytes) : Act (Except ApiErr (Object Bytes γ)) := do
  pure (r.ofAnswer (← getObject (r.kind, name)))

def listAs : Act (Except ApiErr (List (Object Bytes γ))) := do
  match ← listObjects fun key => key.1 = r.kind with
  | .error err => pure (.error err)
  | .ok found => pure (.ok (found.filterMap r.ofObject))

def createAs (name : Bytes) (b : γ) : Act (Except ApiErr (Object Bytes γ)) := do
  pure (r.ofAnswer (← createObject (r.kind, name) [] (r.body b)))

def updateAs (o : Object Bytes γ) : Act (Except ApiErr (Object Bytes γ)) := do
  pure (r.ofAnswer (← updateObject (r.object o)))

/-- The identity and the version that a deletion is meant for. -/
def deletionOf (o : Object Bytes γ) : Option (Nat × Nat) := some (o.uid, o.version)

def ignoreNotFound : Except ApiErr Unit → Act Unit
  | .error .notFound => pure ()
  | .error err => throw (.api err)
  | .ok () => pure ()

def deleteIfPresent (o : Object Bytes γ) : Act Unit := do
  ignoreNotFound (← deleteObject (r.kind, o.key) (deletionOf o))

def deleteForeground (o : Object Bytes γ) : Act Unit := do
  ignoreNotFound (← deleteObjectForeground (r.kind, o.key) (deletionOf o))

end Typed

/-! ## Leases -/

/-- The call of the cluster for a call about leases. -/
def leaseOp : Op Bytes Lease → Op Key Body
  | .now => .now
  | .get name => .get (.lease, name)
  | .list selected => .list fun key => key.1 = .lease && selected key.2
  | .create name finalizers lease => .create (.lease, name) finalizers (.lease lease)
  | .update o => .update (leases.object o)
  | .delete name precondition => .delete (.lease, name) precondition
  | .deleteForeground name precondition => .deleteForeground (.lease, name) precondition

/-- The answer of the cluster as one about leases. -/
def leaseRes : (op : Op Bytes Lease) → Res Key Body (leaseOp op) → Res Bytes Lease op
  | .now, r => r
  | .get _, r => leases.ofAnswer r
  | .list _, r => r.map fun found => found.filterMap leases.ofObject
  | .create _ _ _, r => leases.ofAnswer r
  | .update _, r => leases.ofAnswer r
  | .delete _ _, r => r
  | .deleteForeground _ _, r => r

/-- A lease program as a part of a controller of the cluster. -/
def inCluster {α : Type} (p : LeaseTask α) : Act α :=
  ExceptT.mk (Prog.translate leaseOp leaseRes p.run)

end Kama.Controller
