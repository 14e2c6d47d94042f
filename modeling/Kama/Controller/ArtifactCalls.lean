import Kama.Controller.ArtifactReconcile
import Kama.Controller.Visits

/-!
# The calls of a reconcile

What a reconcile of an artifact may ask the server for, said once: besides its `Housekeeping` it
updates the artifact in one of the ways of `ArtifactUpdate` and creates importer and cleanup Jobs.

* `calls_` lemmas are for the code that does nothing but `Housekeeping`.
* `reconciles_reconcile`: every call of a reconcile is a `ReconcileCall`. The conditions of an
  artifact are only written by `meta.SetStatusCondition`, on the conditions that were read and with
  a time that the clock showed during the reconcile.
* `obeys_retryAfter`: a Job that is to be tried again is not removed before its delay is over.
* `reconcile_footprint`: what a reconcile leaves alone. Events and metrics are no objects of the
  server here: the Events that `r.Recorder` emits and the counters that are set are left out.
-/

namespace Kama.Controller

open Bytes Api Program Artifact

/-! ## Housekeeping -/

/-- Reads, the removal of Jobs and ConfigMaps, the creation of ConfigMaps, and all that is done
about leases. -/
inductive Housekeeping : Op Key Body → Prop
  | now : Housekeeping .now
  | get (key : Key) : Housekeeping (.get key)
  | list (selected : Key → Bool) : Housekeeping (.list selected)
  | createConfigMap (name : Bytes) (configMap : ConfigMap) :
      Housekeeping (.create (.configMap, name) [] (.configMap configMap))
  | deleteJob (name : Bytes) (precondition : Option (Nat × Nat)) :
      Housekeeping (.delete (.job, name) precondition)
  | deleteConfigMap (name : Bytes) (precondition : Option (Nat × Nat)) :
      Housekeeping (.delete (.configMap, name) precondition)
  | deleteJobForeground (name : Bytes) (precondition : Option (Nat × Nat)) :
      Housekeeping (.deleteForeground (.job, name) precondition)
  | lease (op : Op Bytes Lease) : Housekeeping (leaseOp op)

section Calls

variable {P : Op Key Body → Prop} {α γ : Type}

theorem calls_orThrow (r : Except ApiErr α) : Calls P (orThrow r) := by
  cases r with
  | error err => exact Calls.throw _
  | ok a => exact Calls.pure _

theorem calls_ignoreNotFound (answer : Except ApiErr Unit) : Calls P (ignoreNotFound answer) := by
  rcases answer with (_ | _ | _ | _) | _
  · exact Calls.pure _
  · exact Calls.throw _
  · exact Calls.throw _
  · exact Calls.throw _
  · exact Calls.pure _

theorem calls_withContext (format : String) {p : Act α} (hp : Calls P p) :
    Calls P (withContext format p) := by
  refine Calls.bind hp.attempt fun answer => ?_
  cases answer with
  | error err => exact Calls.throw _
  | ok a => exact Calls.pure _

theorem calls_createAs (r : Resource γ) (name : Bytes) (b : γ)
    (h : P (.create (r.kind, name) [] (r.body b))) : Calls P (createAs r name b) :=
  Calls.bind ⟨h, fun _ => trivial⟩ fun _ => Calls.pure _

variable (hP : ∀ op, Housekeeping op → P op)
include hP

theorem calls_timeNow : Calls P (timeNow : Act Nat) := ⟨hP _ .now, fun _ => trivial⟩

theorem calls_getAs (r : Resource γ) (name : Bytes) : Calls P (getAs r name) :=
  Calls.bind ⟨hP _ (.get _), fun _ => trivial⟩ fun _ => Calls.pure _

theorem calls_listAs (r : Resource γ) : Calls P (listAs r) := by
  refine Calls.bind ⟨hP _ (.list _), fun _ => trivial⟩ fun answer => ?_
  cases answer with
  | error err => exact Calls.pure _
  | ok found => exact Calls.pure _

/-- Code that starts by listing all objects of a kind. -/
theorem calls_listed (r : Resource γ) {f : List (Object Bytes γ) → Act α}
    (hf : ∀ found, Calls P (f found)) : Calls P (do f (← orThrow (← listAs r))) :=
  Calls.bind (calls_listAs hP r) fun _ => Calls.bind (calls_orThrow _) hf

theorem calls_deleteJobIfPresent (job : Object Bytes Job) : Calls P (deleteIfPresent jobs job) :=
  Calls.bind ⟨hP _ (.deleteJob _ _), fun _ => trivial⟩ fun _ => calls_ignoreNotFound _

theorem calls_deleteConfigMapIfPresent (configMap : Object Bytes ConfigMap) :
    Calls P (deleteIfPresent configMaps configMap) :=
  Calls.bind ⟨hP _ (.deleteConfigMap _ _), fun _ => trivial⟩ fun _ => calls_ignoreNotFound _

theorem calls_deleteForeground (job : Object Bytes Job) : Calls P (deleteForeground jobs job) :=
  Calls.bind ⟨hP _ (.deleteJobForeground _ _), fun _ => trivial⟩ fun _ => calls_ignoreNotFound _

theorem calls_inCluster (p : LeaseTask α) : Calls P (inCluster p) :=
  Prog.All.translate (fun op => hP _ (.lease op)) p.run

theorem calls_ensureObject (r : Resource γ) (validate : Bytes → γ → γ → Except Err Unit)
    (name : Bytes) (desired : γ) (h : P (.create (r.kind, name) [] (r.body desired))) :
    Calls P (ensureObject r validate name desired) := by
  refine Calls.bind (calls_createAs r name desired h) fun answer => ?_
  rcases answer with (_ | _ | _ | _) | o
  · exact Calls.throw _
  · refine Calls.bind (calls_getAs hP r name) fun answer => ?_
    cases answer with
    | error err => exact Calls.throw _
    | ok existing =>
      dsimp only
      split
      · exact Calls.throw _
      · exact Calls.pure _
  · exact Calls.throw _
  · exact Calls.throw _
  · exact Calls.pure _

theorem calls_ensureConfigMap (name : Bytes) (desired : ConfigMap) :
    Calls P (ensureObject configMaps validateExistingConfigMap name desired) :=
  calls_ensureObject hP _ _ _ _ (hP _ (.createConfigMap _ _))

/-! ### Results -/

theorem calls_getLogs (podName : Bytes) : Calls P (getLogs podName) := by
  refine Calls.bind (calls_getAs hP pods podName) fun answer => ?_
  cases answer with
  | error err => exact Calls.pure _
  | ok pod =>
    dsimp only
    split
    · exact Calls.pure _
    · exact Calls.pure _

theorem calls_readPodResults (uid : Bytes) (job : Job) (found : List (Object Bytes Pod)) :
    Calls P (readPodResults uid job found) := by
  induction found with
  | nil => exact Calls.throw _
  | cons pod rest ih =>
    refine Calls.ite ih (Calls.bind (calls_getLogs hP pod.key) fun answer => ?_)
    split
    · exact Calls.pure _
    · split
      · exact Calls.pure _
      · exact ih

theorem calls_readJobResult (opts : Options) (job : Object Bytes Job) :
    Calls P (readJobResult opts job) := by
  refine Calls.bind (calls_listAs hP pods) fun answer => ?_
  cases answer with
  | error err => exact Calls.throw _
  | ok found => exact calls_readPodResults hP _ _ _

/-! ### Storage -/

theorem calls_resolveVolume (opts : Options) (claim : Claim) :
    Calls P (resolveVolume opts claim) := by
  refine Calls.ite (Calls.throw _) ?_
  split
  · exact Calls.throw _
  · refine Calls.ite (Calls.pure _) (Calls.bind (calls_getAs hP volumes _) fun answer => ?_)
    cases answer with
    | error err => exact Calls.throw _
    | ok volume => exact Calls.pure _

theorem calls_readBoundClaim (role : String) (name : Bytes) :
    Calls P (readBoundClaim role name) := by
  refine Calls.bind (calls_getAs hP claims name) fun answer => ?_
  cases answer with
  | error err => exact Calls.throw _
  | ok claim =>
    exact .ite (Calls.throw _) (.ite (Calls.throw _) (.ite (Calls.throw _) (Calls.pure _)))

theorem calls_resolveNamedCache (opts : Options) (storage : ArtifactStorage)
    (cacheName : Bytes) : Calls P (resolveNamedCache opts storage cacheName) := by
  refine Calls.bind (calls_getAs hP caches cacheName) fun answer => ?_
  cases answer with
  | error err => exact Calls.throw _
  | ok cache =>
    refine .ite (Calls.throw _) (.ite (Calls.throw _) (.ite (Calls.throw _) ?_))
    refine Calls.bind (calls_readBoundClaim hP _ _) fun claim => .ite (Calls.throw _) ?_
    refine Calls.bind (calls_withContext _ (calls_resolveVolume hP _ _)) fun identity => ?_
    exact .ite (Calls.throw _) (Calls.pure _)

theorem calls_resolveClaimSource (opts : Options) (a : ModelArtifact)
    (storage : ArtifactStorage) (source : PersistentVolumeClaimSource) :
    Calls P (resolveClaimSource opts a storage source) :=
  .ite (Calls.pure _) (Calls.bind (calls_readBoundClaim hP _ _) fun _ =>
    Calls.bind (calls_resolveVolume hP _ _) fun _ => Calls.pure _)

theorem calls_resolveArtifactStorage (opts : Options) (a : ModelArtifact) :
    Calls P (resolveArtifactStorage opts a) := by
  refine Calls.bind ?_ fun storage => Calls.bind ?_ fun storage =>
    .ite (Calls.throw _) (Calls.pure _)
  · cases a.spec.cacheRef with
    | none => exact Calls.pure _
    | some cacheName => exact calls_resolveNamedCache hP _ _ _
  · cases a.spec.source.persistentVolumeClaim with
    | none => exact Calls.pure _
    | some source => exact calls_resolveClaimSource hP _ _ _ _

/-! ### Deletion -/

theorem calls_deleteJob (job : Object Bytes Job) : Calls P (deleteJob job) :=
  .ite (Calls.pure _) (calls_deleteForeground hP job)

theorem calls_deleteConfigMap (configMap : Object Bytes ConfigMap) :
    Calls P (deleteConfigMap configMap) :=
  .ite (Calls.pure _) (calls_deleteConfigMapIfPresent hP configMap)

theorem calls_deleteJobs (found : List (Object Bytes Job)) : Calls P (deleteJobs found) := by
  induction found with
  | nil => exact Calls.pure _
  | cons job rest ih => exact Calls.bind (calls_deleteJob hP job) fun _ => ih

theorem calls_deleteConfigMaps (found : List (Object Bytes ConfigMap)) :
    Calls P (deleteConfigMaps found) := by
  induction found with
  | nil => exact Calls.pure _
  | cons configMap rest ih => exact Calls.bind (calls_deleteConfigMap hP configMap) fun _ => ih

theorem calls_modelArtifactHasDeploymentReferences (rules : NameRules) (a : ModelArtifact) :
    Calls P (modelArtifactHasDeploymentReferences rules a) :=
  calls_listed hP _ fun _ => .ite (Calls.pure _) (calls_listed hP _ fun _ => Calls.pure _)

theorem calls_cleanupArtifactImporterResources (a : ModelArtifact) :
    Calls P (cleanupArtifactImporterResources a) :=
  calls_listed hP _ fun _ => Calls.bind (calls_deleteJobs hP _) fun _ =>
    .ite (Calls.pure _) (calls_listed hP _ fun _ =>
      Calls.bind (calls_deleteConfigMaps hP _) fun _ => Calls.pure _)

theorem calls_resolveCleanupVolume (opts : Options) (what : String) (claim : Object Bytes Claim)
    (volumeName volumeUID : Bytes) :
    Calls P (resolveCleanupVolume opts what claim volumeName volumeUID) :=
  Calls.bind (calls_withContext _ (calls_resolveVolume hP _ _)) fun _ =>
    .ite (Calls.throw _) (.ite (Calls.throw _) (Calls.pure _))

theorem calls_resolveArtifactCleanupFromLocation (opts : Options) (a : ModelArtifact) :
    Calls P (resolveArtifactCleanupFromLocation opts a) := by
  unfold resolveArtifactCleanupFromLocation
  split
  · exact .ite (Calls.throw _) (Calls.pure _)
  · refine .ite (Calls.throw _) (Calls.bind (calls_getAs hP claims _) fun answer => ?_)
    split
    · exact Calls.pure _
    · exact Calls.throw _
    · exact .ite (Calls.throw _) (.ite (Calls.throw _) (calls_resolveCleanupVolume hP _ _ _ _ _))

theorem calls_resolveArtifactCleanupFromCache (opts : Options) (cache : Object Bytes ModelCache) :
    Calls P (resolveArtifactCleanupFromCache opts cache) := by
  refine .ite (Calls.throw _) (.ite (Calls.throw _)
    (Calls.bind (calls_getAs hP claims _) fun answer => ?_))
  split
  · exact Calls.pure _
  · exact Calls.throw _
  · exact .ite (Calls.throw _) (.ite (Calls.throw _) (.ite (Calls.throw _)
      (calls_resolveCleanupVolume hP _ _ _ _ _)))

theorem calls_resolveArtifactCleanupStorage (opts : Options) (a : ModelArtifact) :
    Calls P (resolveArtifactCleanupStorage opts a) := by
  unfold resolveArtifactCleanupStorage
  split
  · exact Calls.pure _
  · refine .ite (calls_resolveArtifactCleanupFromLocation hP _ _)
      (Calls.bind (calls_getAs hP caches _) fun answer => ?_)
    split
    · exact calls_resolveArtifactCleanupFromLocation hP _ _
    · exact Calls.throw _
    · exact .ite (.ite (Calls.throw _) (Calls.pure _))
        (calls_resolveArtifactCleanupFromCache hP _ _)

theorem calls_deleteCleanupJobs (rules : NameRules) (a : ModelArtifact)
    (found : List (Object Bytes Job)) : Calls P (deleteCleanupJobs rules a found) := by
  induction found with
  | nil => exact Calls.pure _
  | cons job rest ih =>
    exact .ite (Calls.throw _) (Calls.bind (calls_deleteJob hP job) fun _ => ih)

theorem calls_deleteCleanupConfigMaps (rules : NameRules) (a : ModelArtifact)
    (found : List (Object Bytes ConfigMap)) : Calls P (deleteCleanupConfigMaps rules a found) := by
  induction found with
  | nil => exact Calls.pure _
  | cons configMap rest ih =>
    exact .ite (Calls.throw _) (Calls.bind (calls_deleteConfigMap hP configMap) fun _ => ih)

theorem calls_cleanupDetachedArtifactResources (rules : NameRules) (a : ModelArtifact) :
    Calls P (cleanupDetachedArtifactResources rules a) :=
  calls_listed hP _ fun _ => Calls.bind (calls_deleteCleanupJobs hP rules a _) fun _ =>
    .ite (Calls.pure _) (calls_listed hP _ fun _ =>
      Calls.bind (calls_deleteCleanupConfigMaps hP rules a _) fun _ => Calls.pure _)

end Calls

/-! ## Updates of the artifact -/

/-- What a reconcile that started at `start` makes of the artifact. -/
inductive ArtifactUpdate (start : Nat) (seen : Object Bytes ArtifactBody) :
    Object Bytes ArtifactBody → Prop
  | finalizers (finalizers : List String) :
      ArtifactUpdate start seen { seen with finalizers := finalizers }
  | unchanged {status : ModelArtifactStatus}
      (h : status.conditions = seen.body.status.conditions) :
      ArtifactUpdate start seen (withStatus seen status)
  | conditions {status : ModelArtifactStatus} {now : Nat} (hnow : start ≤ now)
      {updates : List (Condition ArtifactCondition)}
      (h : status.conditions = setConditions now updates seen.body.status.conditions) :
      ArtifactUpdate start seen (withStatus seen status)

inductive ReconcileCall (start : Nat) (seen : Object Bytes ArtifactBody) : Op Key Body → Prop
  | housekeeping {op : Op Key Body} (h : Housekeeping op) : ReconcileCall start seen op
  | createJob (name : Bytes) (job : Job) :
      ReconcileCall start seen (.create (.job, name) [] (.job job))
  | update {o : Object Bytes ArtifactBody} (h : ArtifactUpdate start seen o) :
      ReconcileCall start seen (.update (artifacts.object o))

/-- The code makes the calls of a reconcile. -/
abbrev Reconciles {α : Type} (start : Nat) (seen : Object Bytes ArtifactBody) (p : Act α) : Prop :=
  Obeys (NotBefore start) (ReconcileCall start seen) p

section Reconcile

variable {start : Nat} {seen : Object Bytes ArtifactBody} {α γ : Type}
variable (a : ModelArtifact) (opts : Options) (storage : ArtifactStorage)

theorem housekeeping_call (op : Op Key Body) (h : Housekeeping op) : ReconcileCall start seen op :=
  .housekeeping h

theorem reconciles_orThrow (r : Except ApiErr α) : Reconciles start seen (orThrow r) :=
  .of_calls (calls_orThrow r)

theorem reconciles_updateArtifact {o : Object Bytes ArtifactBody}
    (h : ArtifactUpdate start seen o) : Reconciles start seen (updateArtifact o) :=
  Obeys.bind (Obeys.bind (α := Except ApiErr ClusterObject) ⟨.update h, fun _ _ => trivial⟩
    fun _ => .pure _) fun _ => .bind (reconciles_orThrow _) fun _ => .pure _

theorem reconciles_writeStatus {status : ModelArtifactStatus}
    (h : ArtifactUpdate start seen (withStatus seen status)) :
    Reconciles start seen (writeStatus seen status) :=
  .ite (.pure _) (reconciles_updateArtifact h)

/-- Code that reads the clock. -/
theorem reconciles_timeNow {f : Nat → Act α}
    (hf : ∀ now, start ≤ now → Reconciles start seen (f now)) :
    Reconciles start seen (timeNow >>= f) :=
  ⟨.housekeeping .now, fun now hnow => hf now hnow⟩

theorem reconciles_artifactFailure (type : ArtifactCondition) (reason message : Bytes)
    (requeue : Requeue) :
    Reconciles start seen (artifactFailure opts seen type reason message requeue) :=
  reconciles_timeNow fun _ hnow =>
    .bind (reconciles_writeStatus (.conditions hnow rfl)) fun _ => .pure _

theorem reconciles_markImporting (jobRef : Option ModelArtifactJobReference)
    (reason message : Bytes) (requeue : Requeue) :
    Reconciles start seen (markImporting opts seen jobRef reason message requeue) :=
  reconciles_timeNow fun _ hnow =>
    .bind (reconciles_writeStatus (.conditions hnow rfl)) fun _ => .pure _

theorem reconciles_completeArtifact (result : Result) (jobRef : ModelArtifactJobReference) :
    Reconciles start seen (completeArtifact opts seen storage result jobRef) := by
  unfold completeArtifact
  split
  · exact reconciles_timeNow fun _ hnow => reconciles_writeStatus (.conditions hnow rfl)
  · exact .throw _

/-! ### Results -/

theorem reconciles_dropLease (leaseName : Bytes) : Reconciles start seen (dropLease a leaseName) :=
  .bind (.attempt (.of_calls (calls_inCluster housekeeping_call _))) fun _ => .pure _

theorem reconciles_deleteJobIfPresent (job : Object Bytes Job) :
    Reconciles start seen (deleteIfPresent jobs job) :=
  .of_calls (calls_deleteJobIfPresent housekeeping_call job)

theorem reconciles_deleteConfigMapIfPresent (configMap : Object Bytes ConfigMap) :
    Reconciles start seen (deleteIfPresent configMaps configMap) :=
  .of_calls (calls_deleteConfigMapIfPresent housekeeping_call configMap)

theorem reconciles_retryAfter (delay since : Nat) (job : Object Bytes Job)
    (configMap : Object Bytes ConfigMap) :
    Reconciles start seen (retryAfter delay since job configMap) :=
  reconciles_timeNow fun _ _ => .ite (.pure _) (.bind (reconciles_deleteJobIfPresent _) fun _ =>
    .bind (reconciles_deleteConfigMapIfPresent _) fun _ => .pure _)

theorem reconciles_dropAndFail (leaseName : Bytes) (type : ArtifactCondition)
    (reason message : Bytes) (requeue : Requeue) :
    Reconciles start seen (dropAndFail opts seen leaseName type reason message requeue) :=
  .bind (reconciles_dropLease _ _) fun _ => reconciles_artifactFailure _ _ _ _ _

theorem reconciles_importFailure (found : FailedImport) :
    Reconciles start seen (importFailure opts seen found) := by
  unfold importFailure
  split
  · refine .bind (reconciles_dropLease _ _) fun _ => ?_
    split
    · exact reconciles_retryAfter _ _ _ _
    · exact reconciles_artifactFailure _ _ _ _ _
  · refine .bind (reconciles_dropLease _ _) fun _ => ?_
    split
    · exact .ite (reconciles_retryAfter _ _ _ _) (reconciles_artifactFailure _ _ _ _ _)
    · exact reconciles_artifactFailure _ _ _ _ _

theorem reconciles_reconcileSuccess (operation leaseName : Bytes) (job : Object Bytes Job)
    (configMap : Object Bytes ConfigMap) (result : Result) : Reconciles start seen
      (reconcileSuccess opts seen storage operation leaseName job configMap result) := by
  refine .ite ?_ (.ite (reconciles_dropAndFail _ _ _ _ _ _)
    (.ite (reconciles_dropAndFail _ _ _ _ _ _) ?_))
  · exact .bind (reconciles_dropLease _ _) fun _ => .bind (reconciles_deleteJobIfPresent _) fun _ =>
      .bind (reconciles_deleteConfigMapIfPresent _) fun _ => reconciles_artifactFailure _ _ _ _ _
  · exact .bind (reconciles_completeArtifact _ _ _ _) fun _ =>
      .bind (.of_calls (calls_inCluster housekeeping_call _)) fun _ => .pure _

theorem reconciles_reconcileResult (operation leaseName : Bytes) (job : Object Bytes Job)
    (configMap : Object Bytes ConfigMap) (result : Result) :
    Reconciles start seen (reconcileResult (importNext opts seen) opts seen
      storage operation leaseName job configMap result) := by
  refine .ite ?_ (.ite ?_ (.ite ?_ (.ite ?_ ?_)))
  · exact reconciles_dropAndFail _ _ _ _ _ _
  · exact reconciles_dropAndFail _ _ _ _ _ _
  · exact reconciles_dropAndFail _ _ _ _ _ _
  · exact reconciles_importFailure opts ⟨job, configMap, leaseName, some result⟩
  · exact reconciles_reconcileSuccess _ _ _ _ _ _ _

/-! ### Jobs -/

theorem reconciles_getAs (r : Resource γ) (name : Bytes) : Reconciles start seen (getAs r name) :=
  .of_calls (calls_getAs housekeeping_call r name)

/-- Code that starts by listing all objects of a kind. -/
theorem reconciles_listed (r : Resource γ) {f : List (Object Bytes γ) → Act α}
    (hf : ∀ found, Reconciles start seen (f found)) :
    Reconciles start seen (do f (← orThrow (← listAs r))) :=
  .bind (.of_calls (calls_listAs housekeeping_call r)) fun _ => .bind (reconciles_orThrow _) hf

/-- Code that starts by reading an object that must be there. -/
theorem reconciles_read (r : Resource γ) (name : Bytes) {f : Object Bytes γ → Act α}
    (hf : ∀ o, Reconciles start seen (f o)) :
    Reconciles start seen (do f (← orThrow (← getAs r name))) :=
  .bind (reconciles_getAs r name) fun _ => .bind (reconciles_orThrow _) hf

theorem reconciles_acquireArtifactLease : Reconciles start seen (acquireArtifactLease a storage) :=
  .of_calls (calls_inCluster housekeeping_call _)

theorem calls_inspectPods {P : Op Key Body → Prop} (hP : ∀ op, Housekeeping op → P op)
    (opts : Options) (job : Object Bytes Job) (found : List (Object Bytes Pod)) :
    Calls P (inspectPods opts job found) := by
  induction found with
  | nil => exact Calls.pure _
  | cons pod rest ih =>
    refine .ite ih (.ite (Calls.pure _) ?_)
    split
    · exact Calls.pure _
    · refine calls_listed hP _ fun _ => ?_
      split
      · exact Calls.pure _
      · exact ih

theorem reconciles_inspectPendingJob (job : Object Bytes Job) :
    Reconciles start seen (inspectPendingJob opts job) :=
  reconciles_listed _ fun _ => .of_calls (calls_inspectPods housekeeping_call _ _ _)

theorem reconciles_reconcilePending (job : Object Bytes Job) :
    Reconciles start seen (reconcilePending opts seen storage job) := by
  refine .bind (reconciles_acquireArtifactLease _ _) fun ⟨_, renewed⟩ => ?_
  refine .ite (reconciles_markImporting _ _ _ _ _)
    (.bind (reconciles_inspectPendingJob _ _) fun blocked => ?_)
  cases blocked with
  | none => exact reconciles_markImporting _ _ _ _ _
  | some blocked => exact reconciles_artifactFailure _ _ _ _ _

theorem reconciles_replaceUnusedImporterConfig (configName jobName : Bytes) (desired : ConfigMap) :
    Reconciles start seen (replaceUnusedImporterConfig a configName jobName desired) := by
  refine .bind (reconciles_getAs _ _) fun answer => ?_
  split
  · exact .pure _
  · exact .throw _
  · refine .ite (.pure _) (.ite (.throw _) (.bind (reconciles_getAs _ _) fun answer => ?_))
    split
    · exact .throw _
    · exact .bind (reconciles_deleteConfigMapIfPresent _) fun _ => .pure _
    · exact .throw _

theorem reconciles_ensureJob (name : Bytes) (job : Job) (format : String) :
    Reconciles start seen (withContext format (ensureObject jobs validateExistingJob name job)) :=
  .of_calls (calls_withContext _
    (calls_ensureObject housekeeping_call _ _ _ _ (.createJob name job)))

theorem reconciles_ensureConfigMap (name : Bytes) (configMap : ConfigMap) (format : String) :
    Reconciles start seen
      (withContext format (ensureObject configMaps validateExistingConfigMap name configMap)) :=
  .of_calls (calls_withContext _ (calls_ensureConfigMap housekeeping_call _ _))

theorem reconciles_reconcileImport (operation leaseName : Bytes) :
    Reconciles start seen
      (reconcileImport (importNext opts seen) opts seen storage operation leaseName) := by
  refine .bind (reconciles_replaceUnusedImporterConfig _ _ _ _) fun replaced => ?_
  refine .ite (.pure _) (.bind (reconciles_ensureConfigMap _ _ _) fun configMap => ?_)
  refine .bind (reconciles_ensureJob _ _ _) fun _ => reconciles_read _ _ fun job => ?_
  refine .ite (reconciles_reconcilePending _ _ _) ?_
  refine .bind (.attempt (.of_calls (calls_readJobResult housekeeping_call _ _))) fun result => ?_
  cases result with
  | error err => exact reconciles_importFailure opts ⟨job, configMap, leaseName, none⟩
  | ok result => exact reconciles_reconcileResult _ _ _ _ _ _ _

/-! ### Operations -/

theorem reconciles_deleteJobs (found : List (Object Bytes Job)) :
    Reconciles start seen (deleteJobs found) :=
  .of_calls (calls_deleteJobs housekeeping_call found)

theorem calls_deleteObsoleteConfigMaps {P : Op Key Body → Prop}
    (hP : ∀ op, Housekeeping op → P op) (found : List (Object Bytes ConfigMap)) :
    Calls P (deleteObsoleteConfigMaps found) := by
  induction found with
  | nil => exact Calls.pure _
  | cons configMap rest ih =>
    exact Calls.bind (calls_deleteConfigMapIfPresent hP configMap) fun _ => ih

theorem reconciles_cleanupObsoleteArtifactOperations (current : Bytes) (storage : ArtifactStorage) :
    Reconciles start seen (cleanupObsoleteArtifactOperations a current storage) :=
  reconciles_listed _ fun _ => .bind (reconciles_deleteJobs _) fun _ =>
    .ite (.pure _) (reconciles_listed _ fun _ =>
      .bind (.of_calls (calls_deleteObsoleteConfigMaps housekeeping_call _)) fun _ =>
        .bind (.of_calls (calls_inCluster housekeeping_call _)) fun _ => .pure _)

theorem reconciles_reconcileOperation :
    Reconciles start seen (reconcileOperation (importNext opts seen) opts seen storage) := by
  refine .bind (reconciles_cleanupObsoleteArtifactOperations _ _ _) fun _ => .ite (.pure _) ?_
  refine .bind (reconciles_acquireArtifactLease _ _) fun ⟨leaseName, acquired⟩ => ?_
  exact .ite (reconciles_markImporting _ _ _ _ _) (reconciles_reconcileImport _ _ _ _)

theorem reconciles_reconcileRetained (job : Object Bytes Job) :
    Reconciles start seen (reconcileRetained opts seen job) := by
  refine .bind (.attempt (.of_calls (calls_readJobResult housekeeping_call _ _))) fun result => ?_
  refine .ite (.bind (.of_calls (calls_inCluster housekeeping_call _)) fun _ =>
    .ite (.pure _) (.pure _)) ?_
  exact .bind (reconciles_deleteJobIfPresent _) fun _ => reconciles_artifactFailure _ _ _ _ _

theorem reconciles_reconcileLocated :
    Reconciles start seen (reconcileLocated (importNext opts seen) opts seen storage) := by
  unfold reconcileLocated
  split
  · exact reconciles_reconcileOperation _ _
  · refine .bind (reconciles_getAs _ _) fun answer => ?_
    split
    · refine .ite (reconciles_reconcileRetained _ _) (.ite (reconciles_reconcileOperation _ _)
        (.ite (.pure _) ?_))
      exact .bind (reconciles_deleteJobIfPresent _) fun _ => .pure _
    · exact reconciles_reconcileOperation _ _
    · exact .throw _

/-! ### The artifact -/

theorem reconciles_reconcileStorage :
    Reconciles start seen (reconcileStorage (importNext opts seen) opts seen storage) := by
  unfold reconcileStorage
  split
  · exact reconciles_artifactFailure _ _ _ _ _
  · exact .bind (reconciles_updateArtifact (.unchanged rfl)) fun _ => .pure _
  · exact .ite (reconciles_artifactFailure _ _ _ _ _) (reconciles_reconcileLocated _ _)

theorem reconciles_reconcileArtifactCleanupJob (storage : ArtifactCleanupStorage)
    (operation : Bytes) :
    Reconciles start seen (reconcileArtifactCleanupJob opts seen storage operation) := by
  refine .bind (reconciles_ensureConfigMap _ _ _) fun _ => .bind (reconciles_ensureJob _ _ _)
    fun _ => reconciles_read _ _ fun job => .ite (.pure _) ?_
  refine .bind (.attempt (.of_calls (calls_readJobResult housekeeping_call _ _))) fun result => ?_
  refine .ite (.bind (reconciles_updateArtifact (.unchanged rfl)) fun _ => .pure _) ?_
  exact .bind (.of_calls (calls_deleteJob housekeeping_call _)) fun _ => .pure _

theorem reconciles_finishArtifactDeletion :
    Reconciles start seen (finishArtifactDeletion opts seen) :=
  .bind (.of_calls (calls_cleanupDetachedArtifactResources housekeeping_call _ _)) fun _ =>
    .ite (.pure _) (.bind (reconciles_updateArtifact (.finalizers _)) fun _ => .pure _)

theorem reconciles_reconcileArtifactCleanup :
    Reconciles start seen (reconcileArtifactCleanup opts seen) := by
  refine .bind (.of_calls (calls_resolveArtifactCleanupStorage housekeeping_call _ _))
    fun storage => ?_
  cases storage with
  | none => exact reconciles_finishArtifactDeletion _
  | some storage =>
    dsimp only
    split
    · exact .throw _
    · exact reconciles_reconcileArtifactCleanupJob _ _ _

theorem reconciles_reconcileDelete : Reconciles start seen (reconcileDelete opts seen) := by
  refine .ite (.pure _) ?_
  refine .bind (.of_calls (calls_modelArtifactHasDeploymentReferences housekeeping_call _ _))
    fun _ => .ite (.pure _) ?_
  refine .bind (.of_calls (calls_cleanupArtifactImporterResources housekeeping_call _))
    fun _ => .ite (.pure _) ?_
  refine .bind (.of_calls (calls_inCluster housekeeping_call _)) fun _ => .ite (.pure _) ?_
  exact .ite (reconciles_reconcileArtifactCleanup _)
    (.ite (.throw _) (reconciles_finishArtifactDeletion _))

/-- **Every call of a reconcile** of the artifact that it has seen. -/
theorem reconciles_reconcile (seen : Object Bytes ArtifactBody) :
    Reconciles start seen (reconcile opts seen) := by
  refine .ite (reconciles_reconcileDelete _) (.ite ?_ ?_)
  · exact .bind (reconciles_updateArtifact (.finalizers _)) fun _ => .pure _
  · refine .bind (.attempt (.of_calls (calls_resolveArtifactStorage housekeeping_call _ _)))
      fun storage => ?_
    cases storage with
    | error err => exact reconciles_artifactFailure _ _ _ _ _
    | ok storage => exact reconciles_reconcileStorage _ _

end Reconcile

/-! ## What a reconcile leaves alone -/

/-- Jobs, ConfigMaps and Leases come and go; of all other objects only the artifact is written, in
the version that was read and with the spec that it has. -/
def Footprint (seen : Object Bytes ArtifactBody) : Op Key Body → Prop
  | .create key _ _ | .delete key _ | .deleteForeground key _ =>
    key.1 = .job ∨ key.1 = .configMap ∨ key.1 = .lease
  | .update object => object.key.1 = .lease ∨ ∃ o, object = artifacts.object o ∧
      o.key = seen.key ∧ o.uid = seen.uid ∧ o.version = seen.version ∧
      o.body.spec = seen.body.spec ∧ o.body.generation = seen.body.generation
  | _ => True

theorem ReconcileCall.footprint {start : Nat} {seen : Object Bytes ArtifactBody} {op : Op Key Body}
    (h : ReconcileCall start seen op) : Footprint seen op := by
  cases h with
  | housekeeping h =>
    cases h with
    | lease op => cases op <;> simp [leaseOp, Footprint, Resource.object, leases]
    | _ => simp [Footprint]
  | createJob name job => exact .inl rfl
  | update h => cases h <;> exact .inr ⟨_, rfl, rfl, rfl, rfl, rfl, rfl⟩

/-- **A reconcile of an artifact never touches storage or another artifact**, whatever the server
answers: no claim, volume, cache or deployment is created, changed or deleted. The Events that it
emits are left out. -/
theorem reconcile_footprint (opts : Options) (seen : Object Bytes ArtifactBody) :
    Calls (Footprint seen) (reconcile opts seen) := by
  have hobeys : Reconciles 0 seen (reconcile opts seen) := reconciles_reconcile opts seen
  exact Prog.Obeys.all (fun op _ => by cases op <;> first | trivial | exact Nat.zero_le _)
    (Prog.Obeys.mono hobeys fun _ h => h.footprint)

/-! ## Waiting -/

/-- The call removes a Job. -/
def RemovesJob : Op Key Body → Prop
  | .delete (.job, _) _ => True
  | _ => False

/-- The Job is not removed before the delay is over. -/
theorem obeys_retryAfter {job : Object Bytes Job} {configMap : Object Bytes ConfigMap}
    (time delay start : Nat) :
    Obeys (NotAfter time) (fun op => RemovesJob op → start + delay ≤ time)
      (retryAfter delay start job configMap) := by
  refine ⟨False.elim, fun (now : Nat) (hnow : now ≤ time) => ?_⟩
  change Obeys _ _ (if remaining delay start now > 0 then _ else _)
  split
  · exact .pure _
  · rename_i hover
    have hle : start + delay ≤ time := by
      unfold remaining at hover
      omega
    refine .bind (.of_calls (Calls.bind ⟨fun _ => hle, fun _ => trivial⟩ fun _ =>
      calls_ignoreNotFound _)) fun _ => ?_
    exact .bind (.of_calls (Calls.bind ⟨False.elim, fun _ => trivial⟩ fun _ =>
      calls_ignoreNotFound _)) fun _ => .pure _

end Kama.Controller
