import Kama.Controller.Backoff
import Kama.Controller.CacheCalls

/-!
# When a failed probe is tried again

A probe that has failed is removed, so that the next reconcile starts it again, when the status has
reported the failure for `probeRetry`. For most failures the time is that of the last change of the
condition `Ready`, which has been false since the cache was last ready, and not only since the probe
failed.

* `reconcileStages_eq`: a reconcile is its verdict and what follows from it.
* `probeJudging` is what the reconciles of a cache report about its probes.
* `probe_backedOff`: a probe is removed `probeRetry` after its failure was first recorded, in every
  run in which the condition that dates the report did not have its status yet at that time;
  `not_backedOff_probing` is a run in which it had.
-/

namespace Kama.Controller

open Bytes Api Program Artifact

/-! ## Verdicts -/

section Verdict

variable {β : Type} (next : Verdict FailedProbe → Act β) (opts : CacheOptions)
  (cache : Object Bytes ModelCache) (claim : Object Bytes Claim)

theorem reconcileProbe_eq (identity : VolumeIdentity) :
    reconcileProbe next opts cache claim identity =
      reconcileProbe pure opts cache claim identity >>= next := by
  simp only [reconcileProbe, bind_assoc]
  refine bind_congr fun found => ?_
  rcases found with err | ⟨job, configMap⟩
  · rfl
  dsimp only
  split
  · rfl
  simp only [bind_assoc]
  refine bind_congr fun result => ?_
  cases result with
  | error err =>
    simp only [bind_assoc]
    refine bind_congr fun preserved => ?_
    split
    · rfl
    · rfl
  | ok result =>
    dsimp only
    cases judgeProbe (probeOperation opts cache claim) result with
    | failed failure => rfl
    | unsupported => rfl
    | passed probe => rfl

theorem reconcileBound_eq : reconcileBound next opts cache claim =
    reconcileBound pure opts cache claim >>= next := by
  simp only [reconcileBound, bind_assoc]
  refine bind_congr fun identity => ?_
  cases identity with
  | error err => rfl
  | ok identity =>
    dsimp only
    split
    · rfl
    simp only [bind_assoc]
    refine bind_congr fun handled => ?_
    cases handled with
    | some requeue => rfl
    | none => exact reconcileProbe_eq ..

theorem reconcileClaim_eq (managed : Bool) : reconcileClaim next opts cache claim managed =
    reconcileClaim pure opts cache claim managed >>= next := by
  unfold reconcileClaim
  split
  · rfl
  split
  · rfl
  split
  · rfl
  split
  · rfl
  · rfl
  · exact reconcileBound_eq ..

theorem reconcileStorageClaim_eq : reconcileStorageClaim next opts cache =
    reconcileStorageClaim pure opts cache >>= next := by
  simp only [reconcileStorageClaim, bind_assoc]
  refine bind_congr fun found => ?_
  rcases found with err | ⟨claimName, managed⟩
  · rfl
  simp only [bind_assoc]
  refine bind_congr fun answer => ?_
  rcases answer with (_ | _ | _ | _) | claim
  · rfl
  · rfl
  · rfl
  · rfl
  · exact reconcileClaim_eq ..

/-- **A reconcile is its verdict and what follows from it.** -/
theorem reconcileStages_eq :
    reconcileStages next opts cache = cacheVerdict opts cache >>= next := by
  unfold cacheVerdict reconcileStages
  split
  · rfl
  split
  · rfl
  · exact reconcileStorageClaim_eq ..

end Verdict

/-! ## Waiting -/

/-- A probe that has failed is removed once `probeRetry` has passed since the time of the
condition that dates the report. -/
theorem obeys_probeFailure {opts : CacheOptions} {cache : Object Bytes ModelCache}
    (found : FailedProbe) (time : Nat) :
    Obeys (NotAfter time)
      (fun op => RemovesJob op → ∃ since, probeReported cache.body found.failure = some since ∧
        since + probeRetry ≤ time)
      (probeFailure opts cache found) := by
  have hwrite (c : Object Bytes ModelCache) (s : ModelCacheStatus) : Calls (fun op =>
      RemovesJob op → ∃ since, probeReported cache.body found.failure = some since ∧
        since + probeRetry ≤ time) (writeCacheStatus c s) := by
    refine Calls.ite (Calls.pure _) (Calls.bind ?_ fun _ => calls_orThrow _)
    exact Calls.bind (α := Except ApiErr ClusterObject) ⟨False.elim, fun _ => trivial⟩ fun _ =>
      Calls.pure _
  unfold probeFailure
  split
  · rename_i since hreported
    exact (obeys_retryAfter time _ since).mono fun op h hop => ⟨since, hreported, h hop⟩
  · refine .of_calls (Calls.ite ?_ ?_)
    · exact Calls.bind (Calls.bind ⟨False.elim, fun _ => trivial⟩ fun _ => hwrite _ _) fun _ =>
        Calls.pure _
    · exact Calls.bind ⟨False.elim, fun _ => trivial⟩ fun _ =>
        Calls.bind (hwrite _ _) fun _ => Calls.pure _

/-! ## Visits -/

/-- The visits of the cache of this name. -/
abbrev CacheVisits (opts : CacheOptions) (name : Bytes) (s : ClusterServer)
    (visits : List (Visit ModelCache)) : Prop :=
  Visits caches name cacheConditions (reconcileCache opts) s visits

/-- The status that reports the failure at the time `now`. -/
def probeReport (opts : CacheOptions) (cache : Object Bytes ModelCache) (found : FailedProbe)
    (now : Nat) : ModelCacheStatus :=
  if found.failure.type = .insufficientCapacity then
    cacheFailureStatus now (setCacheStatus cache
      (applyCacheIdentity opts cache.body.status found.claim found.identity))
      found.failure.type found.failure.reason (cacheMessage opts found.failure.message)
  else
    claimStatus opts now cache found.claim (some found.identity) found.failure.reason
      (cacheMessage opts found.failure.message)

/-- What is reported about the probes of a cache, by the condition and its reason. -/
def probeJudging (opts : CacheOptions) :
    Judging ModelCache CacheCondition (CacheCondition × Bytes) FailedProbe where
  resource := caches
  conditions := cacheConditions
  verdict := cacheVerdict opts
  failure := probeFailure opts
  job found := found.job
  kind found := some (found.failure.type, found.failure.reason)
  report seen found now := setCacheStatus seen (probeReport opts seen found now).stored
  type kind := observedType kind.1
  status kind := observedStatus kind.1
  delay _ := probeRetry

theorem conditions_probeReport (opts : CacheOptions) (cache : Object Bytes ModelCache)
    (found : FailedProbe) (now : Nat) :
    ∃ updates, (probeReport opts cache found now).conditions =
      setConditions now updates (cacheConditions cache.body) := by
  unfold probeReport
  split
  · exact ⟨_, rfl⟩
  · exact ⟨_, rfl⟩

theorem reconcileCache_eq_judging (opts : CacheOptions) :
    reconcileCache opts = (probeJudging opts).reconcile :=
  funext fun seen => reconcileStages_eq _ opts seen

theorem probeJudging_sound (opts : CacheOptions) (name : Bytes) :
    (probeJudging opts).Sound name where
  removes seen found time := by
    refine (obeys_probeFailure found time).mono fun op h hop k hk => ?_
    obtain rfl := Option.some.inj hk
    obtain ⟨since, hreported, hle⟩ := h hop
    obtain ⟨c, hc, hstatus, rfl⟩ := reportedSince_eq_some hreported
    exact ⟨(by decide : 0 < probeRetry), c, hc, hstatus, hle⟩
  report {seen found now k} _ := by
    obtain ⟨updates, hupdates⟩ := conditions_probeReport opts seen found now
    exact ⟨rfl, updates, congrArg storedConditions hupdates⟩
  writes hreach hanswered htime hstored h c hc := by
    obtain ⟨pre, post, hcalls⟩ := List.append_of_mem hc
    rw [hcalls] at hreach hanswered
    rw [← reconcileCache_eq_judging] at hreach
    exact Prog.Obeys.call_of_reach (keeps_reconcileCache opts (lasting_heldSince htime hstored) h)
      hreach fun d hd => trusted_of_mem hanswered (List.mem_append_left _ hd)

/-- **Probes are tried again after a minute**, in every run in which the condition that dates the
report of a failure does not have its status yet when the failure is recorded. -/
theorem probe_backedOff {opts : CacheOptions} {name : Bytes} {s : ClusterServer}
    {visits : List (Visit ModelCache)} (h : CacheVisits opts name s visits)
    (hfresh : Fresh (probeJudging opts) visits) :
    BackedOffSince (probeJudging opts) probeRetry visits := by
  rw [CacheVisits, reconcileCache_eq_judging] at h
  exact (probeJudging_sound opts name).backedOffSince h hfresh (fun _ => Option.some_ne_none _)
    fun _ => le_rfl

/-! ## Two runs

A cache that has adopted a claim. Nothing fails and nothing takes time but its probe. -/

section Runs

theorem length_unaryText (n : Nat) : some (unaryText n).length = some n := by
  rw [unaryText, List.length_replicate]

def sampleCacheOptions : CacheOptions where
  importer := ⟨ascii "kama", ascii "IfNotPresent", [], []⟩
  uidText := unaryText
  uidText_injective := unaryText_injective
  errorText _ := ascii "error"
  sanitize message := message
  rules := sampleRules
  probeTimeout := 300
  timeText := unaryText
  parseTime text := some text.length
  parseTime_timeText := length_unaryText
  deletedAt _ := 0

def cacheClaim : Object Bytes Claim :=
  ⟨ascii "models", 2, 2, false, [],
    { labels := [], annotations := [], owners := [], accessModes := [.readWriteOnce]
      volumeMode := none, storageClassName := none, storageRequest := none, otherRequests := []
      limits := [], selected := false, volumeAttributesClassName := none, volumeName := []
      phase := .bound, boundAccessModes := [], capacity := none }⟩

/-- A cache that has not been looked at. -/
def newCache : Object Bytes ModelCache :=
  ⟨ascii "c", 1, 1, false, [modelCacheFinalizer],
    { generation := 1, spec := ⟨some (ascii "models"), none, .retain⟩
      status :=
        { observedGeneration := 0, claimName := [], claimUID := [], capacity := none
          freeSpace := none, accessModes := [], volumeMode := none, mountScope := none
          storageClassName := [], volumeName := [], volumeUID := [], nodeAffinity := none
          lastProbeTime := none, conditions := [] } }⟩

/-- The same cache after a probe at the time 0. -/
def readyCache : Object Bytes ModelCache :=
  setCacheStatus newCache (readyStatus sampleCacheOptions 0 newCache cacheClaim
    ⟨[.readWriteOnce], .filesystem, .singleNode, [], [], [], none, none⟩
    ⟨2, 1, true, true, true, true, true, true⟩)

/-- The cluster with this cache after some seconds. -/
def clusterOf (cache : Object Bytes ModelCache) (seconds : Nat) : ClusterServer where
  objects := [caches.object cache, claims.object cacheClaim]
  next := 3
  clock := seconds * 10 ^ 9
  log := []

/-- The container of a probe that has failed. -/
def probeFailed : ContainerStatus :=
  ⟨importerContainer, none, some (Json.encode (.obj [(ascii "schemaVersion", .num [49]),
    (ascii "mode", .str modeProbe),
    (ascii "operationID", .str (probeOperation sampleCacheOptions newCache cacheClaim)),
    (ascii "reason", .str Reason.sourceUnavailable.text)]))⟩

/-- What happens to the sample. -/
abbrev probeRun : Judging ModelCache CacheCondition (CacheCondition × Bytes) FailedProbe :=
  probeJudging sampleCacheOptions

abbrev cacheIn : ClusterServer → Object Bytes ModelCache := probeRun.seenIn newCache

abbrev cacheVisitIn : ClusterServer → Visit ModelCache := probeRun.visitIn newCache

/-- Some seconds after a visit, when its probe has ended like this. -/
abbrev afterProbe (seconds : Nat) (status : ContainerStatus) (s : ClusterServer) :
    ClusterServer :=
  probeRun.laterOn newCache s sampleCacheOptions.uidText seconds true status

/-- The failure of a probe for which no other reason is reported. -/
def probeFailedKind : CacheCondition × Bytes := (.storageUnavailable, ascii "ProbeFailed")

/-! ### A probe that takes two minutes -/

def probingCluster : ClusterServer := clusterOf newCache 0

def probedCluster : ClusterServer := afterProbe 120 probeFailed probingCluster

def removedCluster : ClusterServer := afterProbe 121 probeFailed probedCluster

/-- The second visit records the failure, and a second later the third one removes the Job. -/
theorem probing_facts :
    ([probingCluster, probedCluster, removedCluster].all fun s =>
      (objectIn caches (ascii "c") s).isSome) = true ∧
    (probeRun.afterVisit newCache probingCluster).clock ≤ 120 * 10 ^ 9 ∧
    (probeRun.afterVisit newCache probedCluster).clock ≤ 121 * 10 ^ 9 ∧
    probeRun.recordedIn newCache probingCluster = none ∧
    probeRun.recordedIn newCache probedCluster = some (4, probeFailedKind, 120 * 10 ^ 9) ∧
    probeRun.removedIn newCache removedCluster = some (4, 121 * 10 ^ 9) := by
  decide +kernel

/-- **A probe is removed a second after its failure was recorded**: the cache has not been ready
since the probe was started. -/
theorem not_backedOff_probing : ∃ opts name s visits,
    CacheVisits opts name s visits ∧ ¬BackedOffSince (probeJudging opts) probeRetry visits := by
  obtain ⟨hseen, t₁, t₂, r₀, r₁, r₂⟩ := probing_facts
  simp only [List.all_cons, List.all_nil, Bool.and_true, Bool.and_eq_true] at hseen
  obtain ⟨h₀, h₁, h₂⟩ := hseen
  have hkind : caches.kind ≠ .job ∧ caches.kind ≠ .pod := by decide
  refine ⟨sampleCacheOptions, ascii "c", probingCluster, [cacheVisitIn probingCluster,
    cacheVisitIn probedCluster, cacheVisitIn removedCluster], ?_, fun hbacked => ?_⟩
  · rw [CacheVisits, reconcileCache_eq_judging]
    refine visits_visitIn (.refl _) h₀ (visits_laterOn hkind rfl t₁ h₁ ?_)
    exact visits_laterOn hkind rfl t₂ h₂ trivial
  · have hle := (hbacked [cacheVisitIn probingCluster, cacheVisitIn probedCluster]
      (cacheVisitIn removedCluster) [] 4 _ rfl (retries_of_removedIn r₂)).2
      [cacheVisitIn probingCluster] (cacheVisitIn probedCluster) [] _ _ rfl
      (recordedIn_eq_some_iff.1 r₁) ?_
    · exact absurd hle (by decide)
    · simp only [List.forall_mem_singleton]
      exact not_records_of_recordedIn r₀ _

/-! ### A cache that was ready until its probe failed -/

def staleCluster : ClusterServer := clusterOf readyCache 301

def staleFailedCluster : ClusterServer := afterProbe 330 probeFailed staleCluster

def staleRemovedCluster : ClusterServer := afterProbe 390 probeFailed staleFailedCluster

theorem stale_facts :
    ([staleCluster, staleFailedCluster, staleRemovedCluster].all fun s =>
      (objectIn caches (ascii "c") s).isSome) = true ∧
    (probeRun.afterVisit newCache staleCluster).clock ≤ 330 * 10 ^ 9 ∧
    (probeRun.afterVisit newCache staleFailedCluster).clock ≤ 390 * 10 ^ 9 ∧
    probeRun.judgedIn newCache staleCluster = none ∧
    probeRun.judgedIn newCache staleFailedCluster = some (4, some probeFailedKind) ∧
    probeRun.recordedIn newCache staleFailedCluster =
      some (4, probeFailedKind, 330 * 10 ^ 9) ∧
    ¬HasStatus (cacheConditions (cacheIn staleFailedCluster).body) .ready .conditionFalse ∧
    probeRun.judgedIn newCache staleRemovedCluster = some (4, some probeFailedKind) ∧
    probeRun.removedIn newCache staleRemovedCluster = some (4, 390 * 10 ^ 9) := by
  decide +kernel

theorem visits_stale : CacheVisits sampleCacheOptions (ascii "c") staleCluster
    [cacheVisitIn staleCluster, cacheVisitIn staleFailedCluster,
      cacheVisitIn staleRemovedCluster] := by
  obtain ⟨hseen, t₁, t₂, -⟩ := stale_facts
  simp only [List.all_cons, List.all_nil, Bool.and_true, Bool.and_eq_true] at hseen
  obtain ⟨h₀, h₁, h₂⟩ := hseen
  have hkind : caches.kind ≠ .job ∧ caches.kind ≠ .pod := by decide
  rw [CacheVisits, reconcileCache_eq_judging]
  refine visits_visitIn (.refl _) h₀ (visits_laterOn hkind rfl t₁ h₁ ?_)
  exact visits_laterOn hkind rfl t₂ h₂ trivial

/-- A failure of a cache that was ready is recorded, and the probe is removed a minute later. -/
theorem backedOff_staleVisits :
    probeRun.Records (cacheVisitIn staleFailedCluster) 4 probeFailedKind (330 * 10 ^ 9) ∧
    probeRun.Retries (cacheVisitIn staleRemovedCluster) 4 (390 * 10 ^ 9) ∧
    BackedOffSince probeRun probeRetry [cacheVisitIn staleCluster,
      cacheVisitIn staleFailedCluster, cacheVisitIn staleRemovedCluster] := by
  obtain ⟨-, -, -, j₀, j₁, r₁, c₁, j₂, r₂⟩ := stale_facts
  exact ⟨recordedIn_eq_some_iff.1 r₁, retries_of_removedIn r₂,
    probe_backedOff visits_stale (fresh_of_judgedIn j₀ j₁ r₁ j₂ c₁)⟩

end Runs

end Kama.Controller
