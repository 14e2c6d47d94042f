import Kama.Controller.ArtifactCalls
import Kama.Controller.CacheReconcile

/-!
# The calls of a reconcile of a model cache

The conditions of a cache are only written by `meta.SetStatusCondition`, on the conditions in memory
and with a time that the clock showed during the reconcile. The conditions in memory are those that
were read, or those that an earlier write of the same reconcile was answered with.

* `Trusted`: the clock does not go back, and what an update is answered with is what was sent.
* `Spares`: code that does not write the cache.
* `Lasting`: what the updates of a reconcile keep true of the conditions. `Keeps`: all writes of the
  code are such; `keeps_reconcileCache` says so for the whole reconcile, the other `keeps_` lemmas
  for its stages. One such property is that no condition is dated back (`lasting_heldSince`).
-/

namespace Kama.Controller

open Bytes Api Program Artifact

def cacheConditions (cache : ModelCache) : List (Condition CacheCondition) :=
  cache.status.conditions

/-- What can be relied on of the answers to a reconcile that started at `start`. -/
def Trusted (start : Nat) : (op : Op Key Body) → Res Key Body op → Prop
  | .now, now => start ≤ (now : Nat)
  | .update o, answer => ∀ o', (answer : Except ApiErr ClusterObject) = .ok o' → o'.body = o.body
  | _, _ => True

/-- Every write of the code makes the conditions ones that satisfy `P`. -/
abbrev Keeps {α : Type} (name : Bytes) (start : Nat) (P : List (Condition CacheCondition) → Prop)
    (p : Act α) : Prop :=
  Obeys (Trusted start) (WritesOnly caches name cacheConditions P) p

/-- What stays true of conditions under the updates of a reconcile that started at `start`. -/
structure Lasting (start : Nat) (P : List (Condition CacheCondition) → Prop) : Prop where
  claim : ∀ {now cache reason message conditions}, start ≤ now → P conditions →
    P (setConditions now (claimConditions cache reason message) conditions)
  failure : ∀ {now cache type reason message conditions}, start ≤ now → P conditions →
    P (setConditions now (cacheFailureConditions cache type reason message) conditions)
  ready : ∀ {now cache conditions}, start ≤ now → P conditions →
    P (setConditions now (readyConditions cache) conditions)
  stored : ∀ {conditions}, P conditions → P (storedConditions conditions)

/-- No condition is dated back to before a time of whole seconds. -/
theorem lasting_heldSince {type : CacheCondition} {status : ConditionStatus} {time start : Nat}
    (htime : time ≤ start) (hstored : storedTime time = time) :
    Lasting start (HeldSince type status time) where
  claim hnow h := h.setConditions (htime.trans hnow)
  failure hnow h := h.setConditions (htime.trans hnow)
  ready hnow h := h.setConditions (htime.trans hnow)
  stored h := h.storedConditions hstored

/-- The calls that do not write a cache. -/
theorem writesOnly_housekeeping {name : Bytes} {P : List (Condition CacheCondition) → Prop}
    (op : Op Key Body) (h : Housekeeping op) : WritesOnly caches name cacheConditions P op := by
  cases h with
  | createConfigMap name configMap => exact fun hkey => nomatch hkey
  | lease op =>
    cases op with
    | create name finalizers lease => exact fun hkey => nomatch hkey
    | update o => exact fun hkey => nomatch hkey
    | _ => trivial
  | _ => trivial

/-- Code that leaves the cache alone. -/
abbrev Spares {α : Type} (name : Bytes) (p : Act α) : Prop :=
  ∀ P, Calls (WritesOnly caches name cacheConditions P) p

section Spares

variable {name : Bytes} {α : Type} (opts : CacheOptions) (cache : Object Bytes ModelCache)

theorem spares_housekeeping {p : Act α}
    (h : ∀ {P : Op Key Body → Prop}, (∀ op, Housekeeping op → P op) → Calls P p) :
    Spares name p := fun _ => h writesOnly_housekeeping

theorem Spares.attempt {p : Act α} (hp : Spares name p) : Spares name (Program.attempt p) :=
  fun P => Calls.attempt (hp P)

theorem spares_getAs {γ : Type} (r : Resource γ) (key : Bytes) : Spares name (getAs r key) :=
  spares_housekeeping fun hP => calls_getAs hP r key

theorem spares_timeNow : Spares name (timeNow : Act Nat) :=
  spares_housekeeping fun hP => calls_timeNow hP

theorem spares_deleteProbe (job : Object Bytes Job) (configMap : Object Bytes ConfigMap) :
    Spares name (deleteIfPresent jobs job) ∧
      Spares name (deleteIfPresent configMaps configMap) :=
  ⟨spares_housekeeping fun hP => calls_deleteJobIfPresent hP job,
    spares_housekeeping fun hP => calls_deleteConfigMapIfPresent hP configMap⟩

theorem spares_retryAfter (delay since : Nat) (job : Object Bytes Job)
    (configMap : Object Bytes ConfigMap) : Spares name (retryAfter delay since job configMap) := by
  obtain ⟨hjob, hconfigMap⟩ := spares_deleteProbe job configMap
  exact fun P => .bind (spares_timeNow P) fun _ => .ite (.pure _)
    (.bind (hjob P) fun _ => .bind (hconfigMap P) fun _ => .pure _)

theorem spares_ensureProbeResources (claim : Object Bytes Claim) :
    Spares name (ensureProbeResources opts cache claim) := by
  intro P
  refine .bind (calls_withContext _ (calls_ensureConfigMap writesOnly_housekeeping _ _))
    fun configMap => ?_
  refine .bind (calls_withContext _ (calls_ensureObject writesOnly_housekeeping _ _ _ _
    fun hkey => nomatch hkey)) fun _ => ?_
  exact .bind (spares_getAs _ _ P) fun _ => .bind (calls_orThrow _) fun _ => .pure _

theorem spares_cleanupCompletedProbeResources (claim : Object Bytes Claim) :
    Spares name (cleanupCompletedProbeResources opts cache claim) := by
  intro P
  refine .bind (.bind (spares_getAs _ _ P) fun answer => ?_) fun job => .ite (.pure _)
    (.bind (.bind (spares_getAs _ _ P) fun answer => ?_) fun configMap => ?_)
  · split
    · exact .pure _
    · exact .throw _
    · split
      · exact .throw _
      · exact .pure _
  · split
    · exact .pure _
    · exact .throw _
    · split
      · exact .throw _
      · exact .pure _
  · refine .bind (calls_deleteObsoleteConfigMaps writesOnly_housekeeping _) fun _ => ?_
    cases job with
    | none => exact .pure _
    | some job =>
      exact .bind (calls_deleteJobIfPresent writesOnly_housekeeping job) fun _ => .pure _

theorem spares_canPreserveCacheReady (claim : Object Bytes Claim) (identity : VolumeIdentity) :
    Spares name (canPreserveCacheReady opts cache claim identity) := by
  intro P
  unfold canPreserveCacheReady
  split
  · exact .pure _
  · exact .bind (spares_timeNow P) fun _ => .pure _

theorem spares_reconcileFreshReady (claim : Object Bytes Claim) (identity : VolumeIdentity) :
    Spares name (reconcileFreshReady opts cache claim identity) := by
  intro P
  unfold reconcileFreshReady
  split
  · exact .pure _
  · refine .bind (spares_timeNow P) fun _ => .ite (.pure _)
      (.bind (spares_canPreserveCacheReady _ _ _ _ P) fun _ => .ite ?_ (.pure _))
    exact .bind (spares_cleanupCompletedProbeResources _ _ _ P) fun _ => .ite (.pure _) (.pure _)

theorem spares_claimWaitsForFirstConsumer (claim : Claim) :
    Spares name (claimWaitsForFirstConsumer claim) := by
  intro P
  refine .bind ?_ fun _ => .pure _
  unfold resolveClaimStorageClass
  split
  · exact .pure _
  · refine .bind (spares_getAs _ _ P) fun answer => ?_
    cases answer with
    | error err => exact .throw _
    | ok _ => exact .pure _
  · refine .bind (calls_listAs writesOnly_housekeeping _) fun answer => ?_
    cases answer with
    | error err => exact .throw _
    | ok found =>
      dsimp only
      split
      · exact .pure _
      · exact .pure _
      · exact .throw _

theorem spares_ensureClaim : Spares name (ensureClaim opts cache) := by
  intro P
  unfold ensureClaim
  split
  · exact .pure _
  · exact .throw _
  · split
    · exact .throw _
    · refine .bind (calls_createAs _ _ _ fun hkey => nomatch hkey) fun answer => ?_
      split
      · exact .pure _
      · exact .pure _
      · exact .throw _

end Spares

section Keeps

variable {name : Bytes} {start : Nat} {P : List (Condition CacheCondition) → Prop} {α : Type}
  {cache : Object Bytes ModelCache}

theorem keeps_of_spares {p : Act α} (h : Spares name p) : Keeps name start P p :=
  .of_calls (h _)

theorem keeps_housekeeping {p : Act α}
    (h : ∀ {P : Op Key Body → Prop}, (∀ op, Housekeeping op → P op) → Calls P p) :
    Keeps name start P p :=
  keeps_of_spares (spares_housekeeping h)

theorem keeps_orThrow (r : Except ApiErr α) : Keeps name start P (orThrow r) :=
  .of_calls (calls_orThrow r)

theorem keeps_getAs {γ : Type} (r : Resource γ) (key : Bytes) :
    Keeps name start P (getAs r key) :=
  keeps_housekeeping fun hP => calls_getAs hP r key

/-- Code that starts by listing all objects of a kind. -/
theorem keeps_listed {γ : Type} (r : Resource γ) {f : List (Object Bytes γ) → Act α}
    (hf : ∀ found, Keeps name start P (f found)) :
    Keeps name start P (do f (← orThrow (← listAs r))) :=
  .bind (keeps_housekeeping fun hP => calls_listAs hP r) fun _ => .bind (keeps_orThrow _) hf

theorem keeps_timeNow : Keeps name start P (timeNow : Act Nat) :=
  keeps_housekeeping fun hP => calls_timeNow hP

theorem keeps_updateClaim (claim : Object Bytes Claim) :
    Keeps name start P (updateAs claims claim) :=
  .bind (α := Except ApiErr ClusterObject) ⟨(fun hkey => nomatch hkey), fun _ _ => trivial⟩
    fun _ => .pure _

/-! ### Statuses -/

/-- The cache that is left in memory after its status has been written is the one that was sent. -/
theorem keeps_writeCacheStatus {s : ModelCacheStatus} {f : Object Bytes ModelCache → Act α}
    (hP : Lasting start P) (h : P s.conditions)
    (hf : ∀ written, P (cacheConditions written.body) →
      Keeps name start P (f written)) :
    Keeps name start P (writeCacheStatus cache s >>= f) := by
  unfold writeCacheStatus
  split
  · rename_i heq
    refine hf cache ?_
    rw [cacheConditions, ← heq]
    exact h
  · refine ⟨fun _ b hb => ?_, fun answer hanswer => ?_⟩
    · cases hb
      exact hP.stored h
    · rcases answer with err | o
      · trivial
      · have hbody := hanswer o rfl
        change Obeys _ _ (orThrow (caches.ofAnswer (.ok o)) >>= f)
        cases hdecoded : caches.ofObject o with
        | none =>
          simp only [Resource.ofAnswer, hdecoded]
          trivial
        | some written =>
          simp only [Resource.ofAnswer, hdecoded]
          refine hf written ?_
          obtain ⟨b, hb, rfl⟩ := Option.map_eq_some_iff.1 hdecoded
          rw [hbody] at hb
          cases hb
          exact hP.stored h

variable (opts : CacheOptions) (hP : Lasting start P) (h : P (cacheConditions cache.body))
include hP h

theorem keeps_reportCacheFailure (failure : CacheCondition) (reason message : Bytes)
    {f : Object Bytes ModelCache → Act α}
    (hf : ∀ written, P (cacheConditions written.body) →
      Keeps name start P (f written)) :
    Keeps name start P
      (reportCacheFailure opts cache failure reason message >>= f) := by
  refine ⟨trivial, fun (now : Nat) (hnow : start ≤ now) => ?_⟩
  exact keeps_writeCacheStatus hP (hP.failure hnow h) hf

theorem keeps_cacheFailure (failure : CacheCondition) (reason message : Bytes)
    (requeue : Requeue) : Keeps name start P
      (cacheFailure opts cache failure reason message requeue) :=
  keeps_reportCacheFailure opts hP h failure reason message fun _ _ => .pure _

/-- A failure that is reported after the status has been changed in memory. -/
theorem keeps_setCacheFailure {s : ModelCacheStatus}
    (hs : s.conditions = cache.body.status.conditions) (failure : CacheCondition)
    (reason message : Bytes) (requeue : Requeue) : Keeps name start P
      (cacheFailure opts (setCacheStatus cache s) failure reason message requeue) := by
  refine keeps_cacheFailure opts hP ?_ failure reason message requeue
  change P s.conditions
  rw [hs]
  exact h

theorem keeps_updateClaimStatus (claim : Object Bytes Claim) (identity : Option VolumeIdentity)
    (reason message : Bytes) (requeue : Requeue) : Keeps name start P
      (updateClaimStatus opts cache claim identity reason message requeue) := by
  refine ⟨trivial, fun (now : Nat) (hnow : start ≤ now) => ?_⟩
  exact keeps_writeCacheStatus hP (hP.claim hnow h) fun _ _ => .pure _

/-! ### Deletion -/

omit hP in
theorem keeps_updateCache {finalizers : List String} :
    Keeps name start P (updateCache { cache with finalizers := finalizers }) := by
  refine .bind (.bind (α := Except ApiErr ClusterObject) ⟨fun _ b hb => ?_, fun _ _ => trivial⟩
    fun _ => .pure _) fun _ => .bind (keeps_orThrow _) fun _ => .pure _
  cases hb
  exact h

omit hP in
theorem keeps_finishCacheDeletion :
    Keeps name start P (finishCacheDeletion cache) :=
  .bind (keeps_updateCache h) fun _ => .pure _

omit hP h in
theorem keeps_applyDeletionGuard (claim : Object Bytes Claim) :
    Keeps name start P (applyDeletionGuard opts cache claim) := by
  refine .bind keeps_timeNow fun now => .bind (keeps_updateClaim _) fun answer => ?_
  cases answer with
  | error err => exact .throw _
  | ok _ => exact .pure _

omit hP h in
theorem keeps_ensureClaimDeletionGuard (claim : Object Bytes Claim) :
    Keeps name start P (ensureClaimDeletionGuard opts cache claim) := by
  unfold ensureClaimDeletionGuard
  split
  · exact .bind (keeps_applyDeletionGuard _ _) fun _ => .pure _
  · refine .ite (.throw _) (.bind keeps_timeNow fun now => ?_)
    split
    · exact .pure _
    · exact .bind (keeps_applyDeletionGuard _ _) fun _ => .pure _

omit hP h in
theorem keeps_revalidateManagedClaimDeletion (claim : Object Bytes Claim) (guardedAt : Nat) :
    Keeps name start P
      (revalidateManagedClaimDeletion opts cache claim guardedAt) := by
  refine .bind (keeps_getAs _ _) fun _ => .bind (keeps_orThrow _) fun claim => ?_
  split
  · exact .throw _
  · exact .bind keeps_timeNow fun now => .ite (.throw _) (.pure _)

omit hP h in
theorem keeps_clearRetainedManagedClaimDeletionGuard :
    Keeps name start P (clearRetainedManagedClaimDeletionGuard opts cache) := by
  refine .bind (keeps_getAs _ _) fun answer => ?_
  split
  · exact .pure _
  · exact .throw _
  · refine .ite (.pure _) ?_
    split
    · exact .throw _
    · refine .bind (keeps_updateClaim _) fun answer => ?_
      cases answer with
      | error err => exact .throw _
      | ok _ => exact .pure _

omit hP h in
theorem keeps_managedClaimDeletionBlocked (claimName : Bytes) :
    Keeps name start P (managedClaimDeletionBlocked cache claimName) :=
  keeps_listed _ fun _ => .ite (.pure _) (keeps_listed _ fun _ => .pure _)

theorem keeps_deleteGuardedClaim (claim : Object Bytes Claim) (guardedAt : Nat) :
    Keeps name start P (deleteGuardedClaim opts cache claim guardedAt) := by
  have hfailure : ∀ failure reason message requeue, Keeps name start P
      (cacheFailure opts cache failure reason message requeue) :=
    keeps_cacheFailure opts hP h
  refine .bind (keeps_managedClaimDeletionBlocked _) fun blocked => ?_
  split
  · exact hfailure _ _ _ _
  · refine .bind (.attempt (keeps_revalidateManagedClaimDeletion _ _ _)) fun confirmed => ?_
    split
    · exact .pure _
    · exact hfailure _ _ _ _
    · refine .bind ⟨trivial, fun _ _ => trivial⟩ fun answer => ?_
      split
      · exact .pure _
      · exact .pure _
      · exact hfailure _ _ _ _

theorem keeps_reconcileClaimDeletion (claim : Object Bytes Claim) :
    Keeps name start P (reconcileClaimDeletion opts cache claim) := by
  have hfailure : ∀ failure reason message requeue, Keeps name start P
      (cacheFailure opts cache failure reason message requeue) :=
    keeps_cacheFailure opts hP h
  unfold reconcileClaimDeletion
  refine .ite (.pure _) ?_
  split
  · exact hfailure _ _ _ _
  · refine .bind (.attempt (keeps_ensureClaimDeletionGuard _ _)) fun guarded => ?_
    split
    · exact hfailure _ _ _ _
    · refine .ite (.pure _) (.bind keeps_timeNow fun now => .ite (.pure _) ?_)
      exact keeps_deleteGuardedClaim _ hP h _ _

theorem keeps_reconcileRetention :
    Keeps name start P (reconcileRetention opts cache) := by
  unfold reconcileRetention
  split
  · exact keeps_finishCacheDeletion h
  · refine .bind (keeps_getAs _ _) fun answer => ?_
    split
    · exact keeps_finishCacheDeletion h
    · exact .throw _
    · exact keeps_reconcileClaimDeletion _ hP h _
  · refine .bind (.attempt (keeps_clearRetainedManagedClaimDeletionGuard _)) fun cleared => ?_
    split
    · exact keeps_cacheFailure _ hP h _ _ _ _
    · exact .pure _
    · exact keeps_finishCacheDeletion h

theorem keeps_markCacheTerminating {f : Object Bytes ModelCache → Act α}
    (hf : ∀ written, P (cacheConditions written.body) →
      Keeps name start P (f written)) :
    Keeps name start P (markCacheTerminating opts cache >>= f) := by
  unfold markCacheTerminating
  split
  · exact hf cache h
  · exact keeps_reportCacheFailure _ hP h _ _ _ hf

theorem keeps_reconcileCacheDelete :
    Keeps name start P (reconcileCacheDelete opts cache) := by
  refine .ite (.pure _) (keeps_markCacheTerminating _ hP h fun written hwritten => ?_)
  refine .bind (keeps_listed _ fun _ => .bind (keeps_housekeeping fun hP =>
    calls_deleteJobs hP _) fun _ => .pure _) fun _ => .ite (.pure _) ?_
  refine .bind (keeps_listed _ fun _ => keeps_housekeeping fun hP =>
    calls_deleteObsoleteConfigMaps hP _) fun _ => keeps_listed _ fun found => ?_
  exact .ite (keeps_cacheFailure _ hP hwritten _ _ _ _)
    (keeps_reconcileRetention _ hP hwritten)

/-! ### Probes -/

theorem keeps_probeFailure (found : FailedProbe) :
    Keeps name start P (probeFailure opts cache found) := by
  unfold probeFailure
  split
  · exact keeps_of_spares (spares_retryAfter _ _ _ _)
  · exact .ite (keeps_setCacheFailure _ hP h (by rfl) _ _ _ _)
      (keeps_updateClaimStatus _ hP h _ _ _ _ _)

theorem keeps_completeProbe (claim : Object Bytes Claim) (identity : VolumeIdentity)
    (job : Object Bytes Job) (configMap : Object Bytes ConfigMap) (probe : ProbeResult) :
    Keeps name start P
      (completeProbe opts cache claim identity job configMap probe) := by
  refine ⟨trivial, fun (now : Nat) (hnow : start ≤ now) => ?_⟩
  refine keeps_writeCacheStatus hP (hP.ready hnow h) fun _ _ => ?_
  obtain ⟨hjob, hconfigMap⟩ := spares_deleteProbe job configMap
  exact .bind (keeps_of_spares hconfigMap) fun _ => .bind (keeps_of_spares hjob) fun _ => .pure _

theorem keeps_reconcileProbe (claim : Object Bytes Claim) (identity : VolumeIdentity) :
    Keeps name start P (reconcileProbe (probeNext opts cache) opts cache claim identity) := by
  have hclaim : ∀ reason message requeue, Keeps name start P
      (updateClaimStatus opts cache claim (some identity) reason message requeue) :=
    keeps_updateClaimStatus opts hP h claim (some identity)
  have hfailure : ∀ found, Keeps name start P (probeNext opts cache (.failed found)) :=
    keeps_probeFailure opts hP h
  have hpreserve {p q : Act Requeue} (hp : Keeps name start P p) (hq : Keeps name start P q) :
      Keeps name start P (do
        if ← canPreserveCacheReady opts cache claim identity then p else q) :=
    .bind (keeps_of_spares (spares_canPreserveCacheReady _ _ _ _)) fun _ => .ite hp hq
  refine .bind (.attempt (keeps_of_spares (spares_ensureProbeResources _ _ _))) fun found => ?_
  rcases found with err | ⟨job, configMap⟩
  · exact hpreserve (.pure _) (hclaim _ _ _)
  refine .ite (hpreserve (.pure _) (hclaim _ _ _)) (.bind (.attempt
    (keeps_housekeeping fun hP => calls_readJobResult hP _ _)) fun result => ?_)
  cases result with
  | error err => exact hpreserve (.pure _) (hfailure _)
  | ok result =>
    dsimp only
    split
    · exact hfailure _
    · exact hclaim _ _ _
    · exact keeps_completeProbe _ hP h _ _ _ _ _

/-! ### Claims -/

theorem keeps_reconcileUnbound (claim : Object Bytes Claim) :
    Keeps name start P (reconcileUnbound opts cache claim) := by
  have hclaim : ∀ reason message requeue, Keeps name start P
      (updateClaimStatus opts cache claim none reason message requeue) :=
    keeps_updateClaimStatus opts hP h claim none
  refine .bind (.attempt (keeps_of_spares (spares_claimWaitsForFirstConsumer _))) fun waits => ?_
  split
  · exact hclaim _ _ _
  · exact hclaim _ _ _
  · refine .bind (.attempt (keeps_of_spares (spares_ensureProbeResources _ _ _))) fun found => ?_
    rcases found with err | ⟨job, configMap⟩
    · exact hclaim _ _ _
    refine .ite (.bind (.attempt (keeps_housekeeping fun hP => calls_deleteJob hP _))
      fun answer => ?_) (hclaim _ _ _)
    cases answer with
    | error err => exact hclaim _ _ _
    | ok _ => exact hclaim _ _ _

theorem keeps_reconcileBound (claim : Object Bytes Claim) :
    Keeps name start P (reconcileBound (probeNext opts cache) opts cache claim) := by
  refine .bind (.attempt (keeps_housekeeping fun hP => calls_resolveVolume hP _ _))
    fun identity => ?_
  cases identity with
  | error err => exact keeps_updateClaimStatus _ hP h _ _ _ _ _
  | ok identity =>
    refine .ite (keeps_updateClaimStatus _ hP h _ _ _ _ _)
      (.bind (keeps_of_spares (spares_reconcileFreshReady _ _ _ _)) fun handled => ?_)
    cases handled with
    | some requeue => exact .pure _
    | none => exact keeps_reconcileProbe _ hP h _ _

theorem keeps_reconcileClaim (claim : Object Bytes Claim) (managed : Bool) :
    Keeps name start P (reconcileClaim (probeNext opts cache) opts cache claim managed) := by
  have hclaim : ∀ reason message requeue, Keeps name start P
      (updateClaimStatus opts cache claim none reason message requeue) :=
    keeps_updateClaimStatus opts hP h claim none
  unfold reconcileClaim
  refine .ite (hclaim _ _ _) ?_
  split
  · exact keeps_setCacheFailure _ hP h (by rfl) _ _ _ _
  · refine .ite (hclaim _ _ _) ?_
    split
    · exact hclaim _ _ _
    · exact keeps_reconcileUnbound _ hP h _
    · exact keeps_reconcileBound _ hP h _

theorem keeps_reconcileStorageClaim :
    Keeps name start P (reconcileStorageClaim (probeNext opts cache) opts cache) := by
  refine .bind (.attempt (keeps_of_spares (spares_ensureClaim _ _))) fun found => ?_
  rcases found with err | ⟨claimName, managed⟩
  · exact keeps_setCacheFailure _ hP h (by rfl) _ _ _ _
  refine .bind (keeps_getAs _ _) fun answer => ?_
  split
  · exact keeps_setCacheFailure _ hP h (by rfl) _ _ _ _
  · exact keeps_cacheFailure _ hP h _ _ _ _
  · exact keeps_reconcileClaim _ hP h _ _

/-- **A reconcile keeps true of the conditions what each of their updates keeps true.** -/
theorem keeps_reconcileCache :
    Keeps name start P (reconcileCache opts cache) := by
  refine .ite (keeps_reconcileCacheDelete _ hP h) (.ite ?_
    (keeps_reconcileStorageClaim _ hP h))
  exact .bind (keeps_updateCache h) fun _ => .pure _

end Keeps

/-- The answers of the server can be trusted. -/
theorem trusted_of_mem {γ τ : Type} {r : Resource γ} {name : Bytes}
    {conditions : γ → List (Condition τ)} {s : ClusterServer} {calls : List ClusterCall}
    (h : Answered (Served r name conditions) s calls) {c : ClusterCall} (hc : c ∈ calls) :
    Trusted s.clock c.op c.answer := by
  obtain ⟨before, after, rfl⟩ := List.append_of_mem hc
  obtain ⟨op, answer, t⟩ := c
  cases op with
  | now => exact ((clock_of_mem h hc).2.2 answer rfl).1
  | update o =>
    rintro o' rfl
    obtain ⟨u, choice, -, hexec⟩ := (answered_append.1 h).2.1
    obtain ⟨-, err, herr⟩ | ⟨w, before, hanswer | hanswer, -⟩ := Server.exec_update hexec
    · cases herr
    · cases hanswer
      rfl
    · cases hanswer
  | _ => trivial

end Kama.Controller
