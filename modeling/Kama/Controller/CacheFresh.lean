import Kama.Controller.ProbeRetry

/-!
# A ready cache has been looked at

A reconcile that succeeds and leaves its cache ready has seen that the storage is the one that the
status records and that the last probe is recent. It has either written so itself, after a probe
that passed, or found that an earlier status still counts (`canPreserveCacheReady`).

* `Leaves`: what code that succeeds leaves of a cache that is ready then. Code that does not write
  the cache can be put in front (`Leaves.after`).
* `ready_fresh`: what a reconcile leaves ready is fresh. One exit of the reconcile looks at neither
  the storage nor the time: a probe that failed for want of space is not reported again when
  `InsufficientCapacity` is true. It keeps a cache ready whose status says that it is ready all the
  same (`stale_ready`). No status that the controller writes says both (`consistent_of_visits`).
-/

namespace Kama.Controller

open Bytes Api Program Artifact

/-! ## One reconcile -/

/-- What the others do meanwhile. They may delete the cache but leave its body as it is. -/
def Aside (name : Bytes) (s t : ClusterServer) : Prop :=
  ∀ o, t.get (caches.kind, name) = some o →
    ∃ o', s.get (caches.kind, name) = some o' ∧ o'.body = o.body

/-- A call is answered by the server, at some time. -/
def ServedAside (name : Bytes) (s : ClusterServer) (op : Op Key Body) (answer : Res Key Body op)
    (t : ClusterServer) : Prop :=
  ∃ u choice, Aside name s u ∧ Server.exec 0 op choice u = (answer, t)

/-- The cache, if it is there, satisfies `P`. -/
def Holds (name : Bytes) (P : ModelCache → Prop) (s : ClusterServer) : Prop :=
  ∀ o b, s.get (caches.kind, name) = some o → caches.ofBody o.body = some b → P b

def ModelCache.Ready (cache : ModelCache) : Prop :=
  isStatusConditionTrue cache.status.conditions .ready = true

instance (cache : ModelCache) : Decidable cache.Ready := inferInstanceAs (Decidable (_ = true))

section Served

variable {name : Bytes} {P : ModelCache → Prop} {s t : ClusterServer}

theorem Aside.refl (s : ClusterServer) : Aside name s s := fun o ho => ⟨o, ho, rfl⟩

theorem Aside.holds (h : Aside name s t) (hs : Holds name P s) : Holds name P t := by
  intro o b ho hb
  obtain ⟨o', ho', hbody⟩ := h o ho
  exact hs o' b ho' (hbody ▸ hb)

/-- A call that does not write the cache. -/
theorem ServedAside.holds {op : Op Key Body} {answer : Res Key Body op}
    (h : ServedAside name s op answer t)
    (hop : WritesOnly caches name cacheConditions (fun _ => False) op) (hs : Holds name P s) :
    Holds name P t := by
  obtain ⟨u, choice, hu, hexec⟩ := h
  have hheld := hu.holds hs
  intro o b ho hb
  obtain ⟨o', ho', heq⟩ | ⟨finalizers, rfl⟩ | ⟨object, rfl, hkey, hbody⟩ :=
    Server.exec_body hexec ho
  · exact hheld o' b ho' (heq ▸ hb)
  · exact (hop rfl b hb).elim
  · exact (hop hkey b (hbody ▸ hb)).elim

/-- An update of the cache that has been accepted. -/
theorem ServedAside.holds_update {object : ClusterObject} {o : ClusterObject} {b : ModelCache}
    (h : ServedAside name s (.update object) (.ok o) t) (hkey : object.key = (caches.kind, name))
    (hbody : object.body = caches.body b) : Holds name (· = b) t := by
  obtain ⟨u, choice, -, hexec⟩ := h
  intro o' b' ho' hb'
  obtain ⟨-, err, herr⟩ | ⟨w, before, -, hwrites, hwkey, -, -, hafter⟩ := Server.exec_update hexec
  · cases herr
  rw [hwrites.get, if_pos (hkey.symm.trans hwkey.symm)] at ho'
  obtain ⟨hnone, -⟩ | hsome := hafter
  · rw [hnone] at ho'
    cases ho'
  · rw [hsome] at ho'
    cases ho'
    rw [hbody, caches.ofBody_body] at hb'
    exact (Option.some.inj hb').symm

variable {α : Type} {p : Act α} {calls : List ClusterCall}
  {q : Prog (Op Key Body) (Res Key Body) (Except Err α)}

theorem Spares.holds (hp : Spares name p) (h : Reach p.run calls q)
    (hanswered : Answered (ServedAside name) s calls) (hs : Holds name P s) :
    Holds name P (final s calls) := by
  have hcalls : ∀ c ∈ calls, WritesOnly caches name cacheConditions (fun _ => False) c.op := by
    intro c hc
    obtain ⟨before, after, rfl⟩ := List.append_of_mem hc
    exact Prog.Obeys.call_of_reach (G := fun _ _ => True) (Obeys.of_calls (hp _)) h
      fun _ _ => trivial
  clear h
  induction calls generalizing s with
  | nil => exact hs
  | cons c calls ih =>
    exact ih hanswered.2 (hanswered.1.holds (hcalls c List.mem_cons_self) hs)
      fun d hd => hcalls d (List.mem_cons_of_mem _ hd)

end Served

/-! ## What is left ready -/

/-- When the code has succeeded on a cluster with this cache, and the cache is ready then, the
calls and the cache satisfy `R`. -/
def Leaves {α : Type} (name : Bytes) (cache : ModelCache)
    (R : List ClusterCall → ModelCache → Prop) (p : Act α) : Prop :=
  ∀ s calls a, Holds name (· = cache) s → Answered (ServedAside name) s calls →
    Reach p.run calls (.ret (.ok a)) →
      Holds name (fun b => b.Ready → R calls b) (final s calls)

section Leaves

variable {α β : Type} {name : Bytes} {cache : ModelCache} {R : List ClusterCall → ModelCache → Prop}
  {p : Act α} {f : α → Act β}

theorem Leaves.pure {a : α} (h : cache.Ready → R [] cache) :
    Leaves name cache R (Pure.pure a : Act α) := by
  intro s calls a' hs _ hreach
  obtain ⟨rfl, -⟩ := Reach.of_ret hreach
  intro o b ho hb hready
  obtain rfl := hs o b ho hb
  exact h hready

theorem Leaves.ite {c : Prop} [Decidable c] {p q : Act α} (hp : c → Leaves name cache R p)
    (hq : ¬c → Leaves name cache R q) : Leaves name cache R (if c then p else q) := by
  split
  · exact hp ‹_›
  · exact hq ‹_›

/-- Code that does not write the cache comes first. -/
theorem Leaves.after (hp : Spares name p) (hf : ∀ a calls, Reach p.run calls (.ret (.ok a)) →
    Leaves name cache (fun rest => R (calls ++ rest)) (f a)) : Leaves name cache R (p >>= f) := by
  intro s calls b hs hanswered hreach
  obtain ⟨a, before, after, rfl, hbefore, hafter⟩ := hreach.of_ok_bind
  rw [answered_append] at hanswered
  rw [final_append]
  exact hf a before hbefore _ _ _ (hp.holds hbefore hanswered.1 hs) hanswered.2 hafter

theorem Leaves.mono {R' : List ClusterCall → ModelCache → Prop} (h : Leaves name cache R p)
    (hR : ∀ {calls b}, R calls b → R' calls b) : Leaves name cache R' p :=
  fun s calls a hs hanswered hreach o b ho hb hready =>
    hR (h s calls a hs hanswered hreach o b ho hb hready)

theorem Leaves.skip (hR : ∀ {before calls b}, R calls b → R (before ++ calls) b)
    (hp : Spares name p) (hf : ∀ a, Leaves name cache R (f a)) : Leaves name cache R (p >>= f) :=
  .after hp fun a _ _ => (hf a).mono hR

/-- Code that does not write the cache leaves one that is not ready as it is. -/
theorem Leaves.of_spares (hp : Spares name p) (h : ¬cache.Ready) : Leaves name cache R p := by
  intro s calls a hs hanswered hreach o b ho hb hready
  obtain rfl := hp.holds hreach hanswered hs o b ho hb
  exact absurd hready h

/-- After the status has been written, the cache is the one that was sent. -/
theorem leaves_writeCacheStatus {c : Object Bytes ModelCache} {status : ModelCacheStatus}
    {f : Object Bytes ModelCache → Act β} (hname : c.key = name)
    (hsame : status = c.body.status → Leaves name cache R (f c))
    (hwritten : ∀ written call, Leaves name { c.body with status := status.stored }
      (fun rest => R (call :: rest)) (f written)) :
    Leaves name cache R (writeCacheStatus c status >>= f) := by
  unfold writeCacheStatus
  split
  · rename_i heq
    exact hsame heq
  intro s calls a hs hanswered hreach
  cases hreach with
  | call answer t hreach =>
    obtain ⟨hserved, hanswered⟩ := hanswered
    rcases answer with err | o
    · cases hreach
    · have ht := hserved.holds_update (b := { c.body with status := status.stored })
        (congrArg (Prod.mk _) hname) rfl
      change Reach (orThrow (caches.ofAnswer (.ok o)) >>= f).run _ _ at hreach
      cases hdecoded : caches.ofObject o with
      | none =>
        simp only [Resource.ofAnswer, hdecoded] at hreach
        cases hreach
      | some written =>
        simp only [Resource.ofAnswer, hdecoded] at hreach
        exact hwritten written _ _ _ _ ht hanswered hreach

end Leaves

/-! ## Reports -/

theorem ready_stored (cache : ModelCache) (status : ModelCacheStatus) :
    ({ cache with status := status.stored } : ModelCache).Ready ↔
      isStatusConditionTrue status.conditions .ready = true := by
  unfold ModelCache.Ready isStatusConditionTrue findStatusCondition ModelCacheStatus.stored
  rw [List.find?_map, Option.any_map]
  rfl

section Conditions

variable {now : Nat} {cache : Object Bytes ModelCache} {reason message : Bytes}
  {conditions : List (Condition CacheCondition)}

theorem ready_claimConditions : isStatusConditionTrue
    (setConditions now (claimConditions cache reason message) conditions) .ready = false :=
  isStatusConditionTrue_setConditions false ⟨_, .head _, rfl⟩ (by
    simp [claimConditions, cacheCondition, boolConditionStatus])

/-- A failure is the only condition that is true. -/
theorem status_cacheFailureConditions {type : CacheCondition} {c : Condition CacheCondition}
    (hc : c ∈ cacheFailureConditions cache type reason message) (h : c.type ≠ type) :
    decide (c.status = .conditionTrue) = false := by
  simp only [cacheFailureConditions, List.cons_append, List.nil_append, List.mem_cons,
    List.mem_map] at hc
  obtain rfl | rfl | ⟨other, -, rfl⟩ := hc
  · rfl
  · exact absurd rfl h
  · rfl

theorem ready_cacheFailureConditions {type : CacheCondition} (htype : type ≠ .ready) :
    isStatusConditionTrue
      (setConditions now (cacheFailureConditions cache type reason message) conditions)
      .ready = false :=
  isStatusConditionTrue_setConditions false ⟨_, .head _, rfl⟩ fun _ hc hready =>
    status_cacheFailureConditions hc fun heq => htype (heq.symm.trans hready)

end Conditions

section Reports

variable {name : Bytes} {opts : CacheOptions} {seen cache : Object Bytes ModelCache}
  {R : List ClusterCall → ModelCache → Prop} (hname : cache.key = name)
  (hconditions : cache.body.status.conditions = seen.body.status.conditions)
include hname hconditions

/-- What is written is not ready. -/
theorem leaves_unready {α : Type} {status : ModelCacheStatus} {a : α}
    (h : isStatusConditionTrue status.conditions .ready = false) :
    Leaves name seen.body R (do let _ ← writeCacheStatus cache status; pure a) := by
  refine leaves_writeCacheStatus hname (fun heq => .pure fun hready => ?_)
    fun written call => .pure fun hready => ?_
  · rw [ModelCache.Ready, ← hconditions, ← heq, h] at hready
    cases hready
  · rw [ready_stored, h] at hready
    cases hready

theorem leaves_updateClaimStatus (claim : Object Bytes Claim) (identity : Option VolumeIdentity)
    (reason message : Bytes) (requeue : Requeue) :
    Leaves name seen.body R (updateClaimStatus opts cache claim identity reason message requeue) :=
  .after spares_timeNow fun _ _ _ => leaves_unready hname hconditions ready_claimConditions

theorem leaves_cacheFailure {type : CacheCondition} (htype : type ≠ .ready)
    (reason message : Bytes) (requeue : Requeue) :
    Leaves name seen.body R (cacheFailure opts cache type reason message requeue) := by
  rw [cacheFailure, reportCacheFailure, bind_assoc]
  exact .after spares_timeNow fun _ _ _ => leaves_unready hname hconditions
    (ready_cacheFailureConditions htype)

end Reports

/-- A failure that is reported after the status has been changed in memory. -/
theorem leaves_setCacheFailure {name : Bytes} {opts : CacheOptions}
    {seen : Object Bytes ModelCache} {R : List ClusterCall → ModelCache → Prop}
    {s : ModelCacheStatus} (hname : seen.key = name)
    (hs : s.conditions = seen.body.status.conditions) {type : CacheCondition}
    (htype : type ≠ .ready) (reason message : Bytes) (requeue : Requeue) :
    Leaves name seen.body R
      (cacheFailure opts (setCacheStatus seen s) type reason message requeue) :=
  leaves_cacheFailure (show (setCacheStatus seen s).key = name from hname) hs htype reason message
    requeue

/-! ## Fresh statuses -/

/-- The clock has shown this time. -/
def ReadsClock (now : Nat) (calls : List ClusterCall) : Prop :=
  ∃ t, (⟨.now, now, t⟩ : ClusterCall) ∈ calls

/-- The object of this name has been read. -/
def Reads {γ : Type} (r : Resource γ) (name : Bytes) (o : Object Bytes γ)
    (calls : List ClusterCall) : Prop :=
  ∃ answer t, (⟨.get (r.kind, name), .ok answer, t⟩ : ClusterCall) ∈ calls ∧
    r.ofObject answer = some o

/-- The volume of the claim has been read; a claim can be without one. -/
def ReadsVolume (claim : Claim) (volume : Option (Object Bytes PersistentVolume))
    (calls : List ClusterCall) : Prop :=
  claim.volumeName = [] ∧ volume = none ∨ ∃ v, volume = some v ∧ claim.volumeName ≠ [] ∧
    Reads volumes claim.volumeName v calls

/-- The status records the claim and its volume as they are. -/
structure RecordsStorage (opts : CacheOptions) (status : ModelCacheStatus)
    (claim : Object Bytes Claim) (volume : Option (Object Bytes PersistentVolume)) : Prop where
  claimName : status.claimName = claim.key
  claimUID : status.claimUID = opts.uidText claim.uid
  accessModes : status.accessModes = claimAccessModes claim.body
  volumeMode : status.volumeMode = some (claim.body.volumeMode.getD .filesystem)
  mountScope : status.mountScope = normalizeMountScope (claimAccessModes claim.body)
  storageClassName : status.storageClassName = claim.body.storageClassName.getD []
  volumeName : status.volumeName = claim.body.volumeName
  volumeUID : status.volumeUID = (volume.map fun v => opts.uidText v.uid).getD []
  nodeAffinity : status.nodeAffinity =
    volume.bind fun v => normalizeVolumeNodeAffinity v.body.nodeAffinity
  capacity : status.capacity = claim.body.capacity

/-- The last probe was at most `maxCacheReadyStaleness` before `now`. -/
def ProbedBefore (status : ModelCacheStatus) (now : Nat) : Prop :=
  ∃ probed, status.lastProbeTime = some probed ∧ probed ≤ now ∧
    now ≤ probed + maxCacheReadyStaleness

/-- The status is about this generation, its probe is recent, and it records the storage that has
been read. -/
def FreshlyRead (opts : CacheOptions) (calls : List ClusterCall) (cache : ModelCache) : Prop :=
  ∃ claimName claim volume now, Reads claims claimName claim calls ∧
    ReadsVolume claim.body volume calls ∧ ReadsClock now calls ∧
    cache.status.observedGeneration = cache.generation ∧ ProbedBefore cache.status now ∧
    RecordsStorage opts cache.status claim volume

/-! ## Probes -/

/-- The clock has shown that the last probe is recent, and the status records this storage. -/
def RecentlyProbed (opts : CacheOptions) (claim : Object Bytes Claim) (identity : VolumeIdentity)
    (calls : List ClusterCall) (cache : ModelCache) : Prop :=
  ∃ now, ReadsClock now calls ∧ cache.status.observedGeneration = cache.generation ∧
    ProbedBefore cache.status now ∧
    applyCacheIdentity opts cache.status claim identity = cache.status

theorem ReadsClock.append_left {now : Nat} {before rest : List ClusterCall}
    (h : ReadsClock now rest) : ReadsClock now (before ++ rest) :=
  h.imp fun _ => List.mem_append_right before

theorem readsClock_of_timeNow {now : Nat} {calls : List ClusterCall}
    (h : Reach (timeNow : Act Nat).run calls (.ret (.ok now))) : ReadsClock now calls := by
  cases h with
  | call answer t h =>
    obtain ⟨rfl, hret⟩ := Reach.of_ret h
    cases hret
    exact ⟨t, List.mem_singleton_self _⟩

/-- The API keeps times to the second. -/
theorem storedTime_recent (now : Nat) :
    storedTime now ≤ now ∧ now ≤ storedTime now + maxCacheReadyStaleness := by
  have hminutes : maxCacheReadyStaleness = 600 * 10 ^ 9 := by decide
  rw [hminutes, storedTime]
  omega

section Probes

variable {name : Bytes} {opts : CacheOptions} {seen : Object Bytes ModelCache}
  {claim : Object Bytes Claim} {identity : VolumeIdentity} {calls : List ClusterCall}

theorem RecentlyProbed.append_left {before : List ClusterCall} {cache : ModelCache}
    (h : RecentlyProbed opts claim identity calls cache) :
    RecentlyProbed opts claim identity (before ++ calls) cache := by
  obtain ⟨now, hnow, h⟩ := h
  exact ⟨now, hnow.append_left, h⟩

theorem applyCacheIdentity_of_matches {status : ModelCacheStatus}
    (h : cacheStatusMatchesVolumeIdentity opts status claim identity = true) :
    applyCacheIdentity opts status claim identity = status := by
  obtain ⟨h₁, -, h₂, h₃, h₄, h₅, h₆, h₇, h₈, h₉, h₁₀⟩ := of_decide_eq_true h
  rw [applyCacheIdentity, ← h₁, ← h₂, ← h₃, ← h₄, ← h₅, ← h₆, ← h₇, ← h₈, ← h₉, ← h₁₀]

theorem recent_of_canPreserve
    (h : Reach (canPreserveCacheReady opts seen claim identity).run calls (.ret (.ok true))) :
    RecentlyProbed opts claim identity calls seen.body := by
  unfold canPreserveCacheReady at h
  split at h
  · cases h
  · rename_i probed hprobed
    obtain ⟨now, first, last, rfl, hnow, h⟩ := h.of_ok_bind
    obtain ⟨rfl, hret⟩ := Reach.of_ret h
    obtain ⟨hbefore, hafter, hgeneration, hmatches, -⟩ :=
      of_decide_eq_true (Except.ok.inj (Prog.ret.inj hret)).symm
    rw [List.append_nil]
    exact ⟨now, readsClock_of_timeNow hnow, hgeneration, ⟨probed, hprobed, hbefore, hafter⟩,
      applyCacheIdentity_of_matches hmatches⟩

theorem recent_of_reconcileFreshReady {requeue : Requeue}
    (h : Reach (reconcileFreshReady opts seen claim identity).run calls
      (.ret (.ok (some requeue)))) :
    RecentlyProbed opts claim identity calls seen.body := by
  unfold reconcileFreshReady at h
  split at h
  · cases h
  · obtain ⟨now, first, rest, rfl, -, h⟩ := h.of_ok_bind
    split at h
    · cases h
    · obtain ⟨preserved, middle, last, rfl, hpreserved, h⟩ := h.of_ok_bind
      split at h
      · rename_i htrue
        rw [htrue] at hpreserved
        obtain ⟨u, ⟨t, ht⟩, hrest⟩ := recent_of_canPreserve hpreserved
        exact ⟨u, ⟨t, List.mem_append_right _ (List.mem_append_left _ ht)⟩, hrest⟩
      · cases h

theorem leaves_preserveOr {otherwise : Act Requeue}
    (h : Leaves name seen.body (RecentlyProbed opts claim identity) otherwise) :
    Leaves name seen.body (RecentlyProbed opts claim identity)
      (preserveOr opts seen claim identity otherwise) := by
  refine .after (spares_canPreserveCacheReady _ _ _ _) fun preserved calls hreach => ?_
  refine .ite (fun htrue => .pure fun _ => ?_) fun _ => ?_
  · rw [List.append_nil]
    exact recent_of_canPreserve (htrue ▸ hreach)
  · exact h.mono fun hrest => hrest.append_left

variable (hname : seen.key = name)
include hname

theorem leaves_completeProbe (job : Object Bytes Job) (configMap : Object Bytes ConfigMap)
    (probe : ProbeResult) : Leaves name seen.body (RecentlyProbed opts claim identity)
      (completeProbe opts seen claim identity job configMap probe) := by
  obtain ⟨hjob, hconfigMap⟩ := spares_deleteProbe job configMap
  -- the status says when the clock was read, to the second
  refine .after spares_timeNow fun now before hnow => ?_
  have hclock : ∀ {rest : List ClusterCall}, ReadsClock now (before ++ rest) :=
    (readsClock_of_timeNow hnow).imp fun _ => List.mem_append_left _
  refine leaves_writeCacheStatus hname (fun hsame => ?_) fun written call => ?_
  · refine .after hconfigMap fun _ _ _ => .after hjob fun _ _ _ => .pure fun _ => ?_
    refine ⟨now, hclock, ?_⟩
    rw [← hsame]
    exact ⟨rfl, ⟨now, rfl, le_rfl, Nat.le_add_right _ _⟩, rfl⟩
  · refine .after hconfigMap fun _ _ _ => .after hjob fun _ _ _ => .pure fun _ => ?_
    exact ⟨now, hclock, rfl, ⟨storedTime now, rfl, storedTime_recent now⟩, rfl⟩

omit hname in
theorem type_of_judgeProbe {operation : Bytes} {result : Result} {failure : ProbeFailure}
    (h : judgeProbe operation result = .failed failure) :
    failure.type = .storageUnavailable ∨ failure.type = .insufficientCapacity := by
  unfold judgeProbe at h
  split at h
  · cases h
    exact .inl rfl
  split at h
  · split at h
    · cases h
      exact .inl rfl
    · split at h <;> cases h
  · cases h
    unfold reportedFailure
    dsimp only
    split
    · exact .inr rfl
    · exact .inl rfl

/-- The cache is not said to be ready and short of space at once. -/
def ModelCache.Consistent (cache : ModelCache) : Prop :=
  ¬(cache.Ready ∧ isStatusConditionTrue cache.status.conditions .insufficientCapacity = true)

variable (hconsistent : seen.body.Consistent)
include hconsistent

/-- A failure that has been reported is not reported again; the cache is not ready then. -/
theorem leaves_probeFailure (job : Object Bytes Job) (configMap : Object Bytes ConfigMap)
    {failure : ProbeFailure}
    (htype : failure.type = .storageUnavailable ∨ failure.type = .insufficientCapacity) :
    Leaves name seen.body (RecentlyProbed opts claim identity)
      (probeFailure opts seen ⟨claim, identity, job, configMap, failure⟩) := by
  unfold probeFailure
  split
  · rename_i since hreported
    obtain ⟨c, hc, hstatus, -⟩ := reportedSince_eq_some hreported
    refine .of_spares (spares_retryAfter _ _ _ _) fun hready => ?_
    obtain htype | htype := htype
    · obtain ⟨c', hc', htrue⟩ := isStatusConditionTrue_iff.1 hready
      simp only [observedType, observedStatus, htype, if_true] at hc hstatus
      obtain rfl := Option.some.inj (hc.symm.trans hc')
      rw [htrue] at hstatus
      cases hstatus
    · simp only [observedType, observedStatus, htype, reduceCtorEq, if_false] at hc hstatus
      exact hconsistent ⟨hready, isStatusConditionTrue_iff.2 ⟨c, hc, hstatus⟩⟩
  · refine .ite (fun hcapacity => ?_) fun _ => leaves_updateClaimStatus hname rfl _ _ _ _ _
    have hunready : failure.type ≠ .ready := by
      rw [hcapacity]
      decide
    exact leaves_setCacheFailure hname (by rfl) hunready _ _ _

theorem leaves_reconcileProbe : Leaves name seen.body (RecentlyProbed opts claim identity)
    (reconcileProbe (probeNext opts seen) opts seen claim identity) := by
  have hclaim : ∀ reason message requeue, Leaves name seen.body (RecentlyProbed opts claim identity)
      (updateClaimStatus opts seen claim (some identity) reason message requeue) :=
    leaves_updateClaimStatus hname rfl claim (some identity)
  refine .skip (fun h => h.append_left) (Spares.attempt (spares_ensureProbeResources _ _ _))
    fun found => ?_
  rcases found with err | ⟨job, configMap⟩
  · exact leaves_preserveOr (hclaim _ _ _)
  refine .ite (fun _ => leaves_preserveOr (hclaim _ _ _)) fun _ => ?_
  refine .skip (fun h => h.append_left)
    (Spares.attempt (spares_housekeeping fun hP => calls_readJobResult hP _ _)) fun result => ?_
  cases result with
  | error err =>
    exact leaves_preserveOr (leaves_probeFailure hname hconsistent job configMap (.inl rfl))
  | ok result =>
    dsimp only
    split
    · rename_i failure hjudged
      exact leaves_probeFailure hname hconsistent job configMap (type_of_judgeProbe hjudged)
    · exact hclaim _ _ _
    · exact leaves_completeProbe hname job configMap _

end Probes

/-! ## Claims -/

section Claims

variable {name : Bytes} {opts : CacheOptions} {seen : Object Bytes ModelCache}
  {claim : Object Bytes Claim} {calls : List ClusterCall}

theorem Reads.append {γ : Type} {r : Resource γ} {key : Bytes} {o : Object Bytes γ}
    {before after : List ClusterCall} (h : Reads r key o before) :
    Reads r key o (before ++ after) := by
  obtain ⟨answer, t, hmem, hdecoded⟩ := h
  exact ⟨answer, t, List.mem_append_left _ hmem, hdecoded⟩

theorem Reads.append_left {γ : Type} {r : Resource γ} {key : Bytes} {o : Object Bytes γ}
    {before after : List ClusterCall} (h : Reads r key o after) :
    Reads r key o (before ++ after) := by
  obtain ⟨answer, t, hmem, hdecoded⟩ := h
  exact ⟨answer, t, List.mem_append_right _ hmem, hdecoded⟩

theorem reads_of_getAs {γ : Type} {r : Resource γ} {key : Bytes} {o : Object Bytes γ}
    (h : Reach (getAs r key).run calls (.ret (.ok (.ok o)))) : Reads r key o calls := by
  cases h with
  | call answer t h =>
    obtain ⟨rfl, hret⟩ := Reach.of_ret h
    have hanswer : r.ofAnswer answer = .ok o := (Except.ok.inj (Prog.ret.inj hret)).symm
    cases answer with
    | error err => cases hanswer
    | ok answer =>
      refine ⟨answer, t, List.mem_singleton_self _, ?_⟩
      cases hdecoded : r.ofObject answer with
      | none => rw [Resource.ofAnswer, hdecoded] at hanswer; cases hanswer
      | some o' => rw [Resource.ofAnswer, hdecoded] at hanswer; cases hanswer; rfl

/-- What is resolved is the claim and its volume. -/
theorem records_of_resolveVolume {identity : VolumeIdentity} {status : ModelCacheStatus}
    (h : Reach (resolveVolume opts.toOptions claim.body).run calls (.ret (.ok identity)))
    (hstatus : applyCacheIdentity opts status claim identity = status) :
    ∃ volume, ReadsVolume claim.body volume calls ∧ RecordsStorage opts status claim volume := by
  unfold resolveVolume at h
  split at h
  · cases h
  rename_i hmode
  split at h
  · cases h
  rename_i scope hscope
  rw [not_not] at hmode
  dsimp only at h
  split at h
  · rename_i hvolume
    obtain ⟨rfl, hret⟩ := Reach.of_ret h
    cases hret
    refine ⟨none, .inl ⟨hvolume, rfl⟩, ?_⟩
    rw [← hstatus]
    exact ⟨rfl, rfl, rfl, congrArg some hmode.symm, hscope.symm, rfl, rfl, rfl, rfl, rfl⟩
  · rename_i hvolume
    obtain ⟨answer, before, after, rfl, hanswer, h⟩ := h.of_ok_bind
    cases answer with
    | error err => cases h
    | ok volume =>
      obtain ⟨rfl, hret⟩ := Reach.of_ret h
      cases hret
      refine ⟨some volume, .inr ⟨volume, rfl, hvolume, (reads_of_getAs hanswer).append⟩, ?_⟩
      rw [← hstatus]
      exact ⟨rfl, rfl, rfl, congrArg some hmode.symm, hscope.symm, rfl, rfl, rfl, rfl, rfl⟩

theorem ReadsVolume.append {claim : Claim} {volume : Option (Object Bytes PersistentVolume)}
    {before after : List ClusterCall} (h : ReadsVolume claim volume before) :
    ReadsVolume claim volume (before ++ after) :=
  h.imp_right fun ⟨v, hv, hnamed, hreads⟩ => ⟨v, hv, hnamed, hreads.append⟩

theorem ReadsVolume.append_left {claim : Claim} {volume : Option (Object Bytes PersistentVolume)}
    {before after : List ClusterCall} (h : ReadsVolume claim volume after) :
    ReadsVolume claim volume (before ++ after) :=
  h.imp_right fun ⟨v, hv, hnamed, hreads⟩ => ⟨v, hv, hnamed, hreads.append_left⟩

/-- Of this claim, the status is fresh. -/
def FreshlyReadOf (opts : CacheOptions) (claim : Object Bytes Claim) (calls : List ClusterCall)
    (cache : ModelCache) : Prop :=
  ∃ volume now, ReadsVolume claim.body volume calls ∧ ReadsClock now calls ∧
    cache.status.observedGeneration = cache.generation ∧ ProbedBefore cache.status now ∧
    RecordsStorage opts cache.status claim volume

theorem RecentlyProbed.of_resolveVolume {identity : VolumeIdentity} {rest : List ClusterCall}
    {cache : ModelCache} (h : RecentlyProbed opts claim identity rest cache)
    (hresolved : Reach (resolveVolume opts.toOptions claim.body).run calls (.ret (.ok identity))) :
    FreshlyReadOf opts claim (calls ++ rest) cache := by
  obtain ⟨now, hnow, hgeneration, hprobed, hrecords⟩ := h
  obtain ⟨volume, hvolume, hstorage⟩ := records_of_resolveVolume hresolved hrecords
  exact ⟨volume, now, hvolume.append, hnow.append_left, hgeneration, hprobed, hstorage⟩

variable (hname : seen.key = name)
include hname

theorem leaves_reconcileUnbound {R : List ClusterCall → ModelCache → Prop} :
    Leaves name seen.body R (reconcileUnbound opts seen claim) := by
  have hclaim : ∀ {R : List ClusterCall → ModelCache → Prop} reason message requeue,
      Leaves name seen.body R
        (updateClaimStatus opts seen claim none reason message requeue) :=
    leaves_updateClaimStatus hname rfl claim none
  refine .after (spares_claimWaitsForFirstConsumer _).attempt fun waits _ _ => ?_
  split
  · exact hclaim _ _ _
  · exact hclaim _ _ _
  · refine .after (spares_ensureProbeResources _ _ _).attempt fun found _ _ => ?_
    rcases found with err | ⟨job, configMap⟩
    · exact hclaim _ _ _
    refine .ite (fun _ => ?_) fun _ => hclaim _ _ _
    refine .after (spares_housekeeping fun hP => calls_deleteJob hP _).attempt fun answer _ _ => ?_
    cases answer with
    | error err => exact hclaim _ _ _
    | ok _ => exact hclaim _ _ _

variable (hconsistent : seen.body.Consistent)
include hconsistent

theorem leaves_reconcileBound :
    Leaves name seen.body (FreshlyReadOf opts claim)
      (reconcileBound (probeNext opts seen) opts seen claim) := by
  refine .after (spares_housekeeping fun hP => calls_resolveVolume hP _ _).attempt
    fun found before hfound => ?_
  have hfound := hfound.of_attempt
  cases found with
  | error err => exact leaves_updateClaimStatus hname rfl _ _ _ _ _
  | ok identity =>
    have hresolved : ∀ {rest cache}, RecentlyProbed opts claim identity rest cache →
        FreshlyReadOf opts claim (before ++ rest) cache := fun h => h.of_resolveVolume hfound
    refine Leaves.mono ?_ hresolved
    refine .ite (fun _ => leaves_updateClaimStatus hname rfl _ _ _ _ _) fun _ => ?_
    refine .after (spares_reconcileFreshReady _ _ _ _) fun handled middle hhandled => ?_
    cases handled with
    | some requeue =>
      refine .pure fun _ => ?_
      rw [List.append_nil]
      exact recent_of_reconcileFreshReady hhandled
    | none => exact (leaves_reconcileProbe hname hconsistent).mono fun h => h.append_left

theorem leaves_reconcileClaim (managed : Bool) :
    Leaves name seen.body (FreshlyReadOf opts claim)
      (reconcileClaim (probeNext opts seen) opts seen claim managed) := by
  have hclaim : ∀ reason message requeue, Leaves name seen.body (FreshlyReadOf opts claim)
      (updateClaimStatus opts seen claim none reason message requeue) :=
    leaves_updateClaimStatus hname rfl claim none
  unfold reconcileClaim
  refine .ite (fun _ => hclaim _ _ _) fun _ => ?_
  split
  · exact leaves_setCacheFailure hname (by rfl) (by decide) _ _ _
  · refine .ite (fun _ => hclaim _ _ _) fun _ => ?_
    split
    · exact hclaim _ _ _
    · exact leaves_reconcileUnbound hname
    · exact leaves_reconcileBound hname hconsistent

theorem leaves_reconcileStorageClaim :
    Leaves name seen.body (FreshlyRead opts)
      (reconcileStorageClaim (probeNext opts seen) opts seen) := by
  refine .after (spares_ensureClaim _ _).attempt fun found before _ => ?_
  rcases found with err | ⟨claimName, managed⟩
  · exact leaves_setCacheFailure hname (by rfl) (by decide) _ _ _
  refine .after (spares_getAs _ _) fun answer middle hanswer => ?_
  split
  · exact leaves_setCacheFailure hname (by rfl) (by decide) _ _ _
  · exact leaves_cacheFailure hname rfl (by decide) _ _ _
  · rename_i claim
    refine (leaves_reconcileClaim hname hconsistent managed).mono ?_
    rintro rest cache ⟨volume, now, hvolume, hnow, hfresh⟩
    exact ⟨claimName, claim, volume, now, (reads_of_getAs hanswer).append.append_left,
      hvolume.append_left.append_left, hnow.append_left.append_left, hfresh⟩

end Claims

/-! ## Reconciles -/

/-- **A cache is not ready for long without a look at it.** When a reconcile succeeds and the cache
is ready then, the status is about the present generation, the last probe is at most ten minutes
old, and the claim and the volume that the status records are those that the reconcile has read. -/
theorem ready_fresh {opts : CacheOptions} {name : Bytes} {s : ClusterServer}
    {seen stored : Object Bytes ModelCache} {calls : List ClusterCall} {requeue : Requeue}
    (hseen : objectIn caches name s = some seen) (hlive : seen.deleting = false)
    (hfinalizer : modelCacheFinalizer ∈ seen.finalizers) (hconsistent : seen.body.Consistent)
    (hanswered : Answered (ServedAside name) s calls)
    (hreturn : Reach (reconcileCache opts seen).run calls (.ret (.ok requeue)))
    (hstored : objectIn caches name (final s calls) = some stored) (hready : stored.body.Ready) :
    FreshlyRead opts calls stored.body := by
  have hget := get_of_objectIn hseen
  have hname : seen.key = name := congrArg Prod.snd (Server.key_of_get hget)
  have hs : Holds name (· = seen.body) s := by
    intro o b ho hb
    rw [hget] at ho
    cases ho
    exact (Option.some.inj ((caches.ofBody_body _).symm.trans hb)).symm
  rw [reconcileCache, reconcileStages, if_neg (by rw [hlive]; decide),
    if_neg (not_not.2 hfinalizer)] at hreturn
  exact leaves_reconcileStorageClaim hname hconsistent s calls requeue hs hanswered hreturn _ _
    (get_of_objectIn hstored) (caches.ofBody_body _) hready

/-! ### Two clusters

Nothing fails and nothing takes time. -/

/-- The calls of a reconcile of the cache in this cluster, and its result. -/
def reconciledIn (s : ClusterServer) : List ClusterCall × Except Err Requeue :=
  (reconcileCache sampleCacheOptions (cacheIn s)).run.trace calmly s

/-- The cache after that. -/
def cacheAfter (s : ClusterServer) : Option (Object Bytes ModelCache) :=
  objectIn caches (ascii "c") (final s (reconciledIn s).1)

theorem answered_reconciledIn (s : ClusterServer) :
    Answered (ServedAside (ascii "c")) s (reconciledIn s).1 :=
  answered_trace (fun s _ => ⟨s, ⟨0, .none⟩, .refl s, rfl⟩) _ s

theorem reach_reconciledIn {s : ClusterServer} {requeue : Requeue}
    (h : (reconciledIn s).2.toOption = some requeue) :
    Reach (reconcileCache sampleCacheOptions (cacheIn s)).run (reconciledIn s).1
      (.ret (.ok requeue)) := by
  have hreach := reach_trace calmly (reconcileCache sampleCacheOptions (cacheIn s)).run s
  change Reach _ (reconciledIn s).1 (.ret (reconciledIn s).2) at hreach
  cases hresult : (reconciledIn s).2 with
  | error err =>
    rw [hresult] at h
    cases h
  | ok requeue' =>
    rw [hresult] at h hreach
    cases h
    exact hreach

/-- A minute after the probe of `readyCache`. -/
def freshCluster : ClusterServer := clusterOf readyCache 60

theorem fresh_facts :
    objectIn caches (ascii "c") freshCluster = some (cacheIn freshCluster) ∧
    (cacheIn freshCluster).deleting = false ∧
    modelCacheFinalizer ∈ (cacheIn freshCluster).finalizers ∧
    (reconciledIn freshCluster).2.toOption = some (4 * minute) ∧
    cacheAfter freshCluster = some readyCache := by
  decide +kernel

/-- A cache that is ready a minute after its probe. -/
theorem ready_fresh_probed : readyCache.body.Ready ∧
    FreshlyRead sampleCacheOptions (reconciledIn freshCluster).1 readyCache.body := by
  obtain ⟨hseen, hlive, hfinalizer, hreturn, hafter⟩ := fresh_facts
  have hready : readyCache.body.Ready := by decide +kernel
  have hconsistent : (cacheIn freshCluster).body.Consistent := by
    unfold ModelCache.Consistent
    decide +kernel
  exact ⟨hready, ready_fresh hseen hlive hfinalizer hconsistent (answered_reconciledIn _)
    (reach_reconciledIn hreturn) hafter hready⟩

/-- The container of a probe that had no space. -/
def probeShort : ContainerStatus :=
  ⟨importerContainer, none, some (Json.encode (.obj [(ascii "schemaVersion", .num [49]),
    (ascii "mode", .str modeProbe),
    (ascii "operationID", .str (probeOperation sampleCacheOptions newCache cacheClaim)),
    (ascii "reason", .str Reason.insufficientStorage.text)]))⟩

/-- A cache that was never probed, and whose status says that it is ready and short of space. -/
def conflictingCache : Object Bytes ModelCache :=
  setCacheStatus newCache { newCache.body.status with
    conditions := [cacheCondition newCache .ready true probeSucceededReason [],
      cacheCondition newCache .insufficientCapacity true (ascii "InsufficientStorage") []] }

/-- The cluster with this cache in the place of the one that is there. -/
def withCache (cache : Object Bytes ModelCache) (s : ClusterServer) : ClusterServer :=
  { s with objects := caches.object cache ::
      s.objects.filter fun o => o.key ≠ (caches.kind, cache.key) }

def conflictingCluster : ClusterServer :=
  withCache conflictingCache
    (afterProbe 120 probeShort probingCluster)

theorem conflicting_facts :
    objectIn caches (ascii "c") conflictingCluster = some (cacheIn conflictingCluster) ∧
    (cacheIn conflictingCluster).deleting = false ∧
    modelCacheFinalizer ∈ (cacheIn conflictingCluster).finalizers ∧
    (reconciledIn conflictingCluster).2.toOption = some second ∧
    cacheAfter conflictingCluster = some conflictingCache := by
  decide +kernel

/-- **A stale cache stays ready** when its status says that it is short of space as well: the probe
that failed for want of space counts as reported. -/
theorem stale_ready : ∃ opts name s seen stored calls requeue,
    objectIn caches name s = some seen ∧ seen.deleting = false ∧
    modelCacheFinalizer ∈ seen.finalizers ∧ Answered (ServedAside name) s calls ∧
    Reach (reconcileCache opts seen).run calls (.ret (.ok requeue)) ∧
    objectIn caches name (final s calls) = some stored ∧ stored.body.Ready ∧
    ¬FreshlyRead opts calls stored.body := by
  obtain ⟨hseen, hlive, hfinalizer, hreturn, hafter⟩ := conflicting_facts
  refine ⟨sampleCacheOptions, ascii "c", conflictingCluster, _, conflictingCache, _, second, hseen,
    hlive, hfinalizer, answered_reconciledIn _, reach_reconciledIn hreturn, hafter,
    by decide +kernel, ?_⟩
  rintro ⟨claimName, claim, volume, now, -, -, -, hgeneration, -⟩
  exact absurd hgeneration (by decide)

/-! ## Consistent statuses -/

/-- `ModelCache.Consistent` of the conditions alone. -/
def ConsistentConditions (conditions : List (Condition CacheCondition)) : Prop :=
  ¬(isStatusConditionTrue conditions .ready = true ∧
    isStatusConditionTrue conditions .insufficientCapacity = true)

theorem isStatusConditionTrue_storedConditions (conditions : List (Condition CacheCondition))
    (type : CacheCondition) : isStatusConditionTrue (storedConditions conditions) type =
      isStatusConditionTrue conditions type := by
  unfold isStatusConditionTrue findStatusCondition storedConditions
  rw [List.find?_map, Option.any_map]
  rfl

/-- Every report says of one of the two conditions that it is false. -/
theorem lasting_consistent (start : Nat) : Lasting start ConsistentConditions where
  claim _ _ h := absurd h.1 (by rw [ready_claimConditions]; decide)
  failure := by
    rintro now cache type reason message conditions - - ⟨hready, hinsufficient⟩
    by_cases htype : type = .ready
    · rw [isStatusConditionTrue_setConditions false] at hinsufficient
      · cases hinsufficient
      · subst htype
        exact ⟨cacheCondition cache .insufficientCapacity false reason conditionNotPresent,
          by simp [cacheFailureConditions], rfl⟩
      · intro c hc hinsufficient
        refine status_cacheFailureConditions hc ?_
        rw [hinsufficient, htype]
        decide
    · rw [ready_cacheFailureConditions htype] at hready
      cases hready
  ready := by
    rintro now cache conditions - - ⟨-, hinsufficient⟩
    rw [isStatusConditionTrue_setConditions false] at hinsufficient
    · cases hinsufficient
    · exact ⟨cacheCondition cache .insufficientCapacity false probeSucceededReason
        conditionNotPresent, by simp [readyConditions], rfl⟩
    · simp [readyConditions, cacheCondition, boolConditionStatus]
  stored h := by
    unfold ConsistentConditions
    rw [isStatusConditionTrue_storedConditions, isStatusConditionTrue_storedConditions]
    exact h

/-- **The controller never makes a status that is not consistent.** -/
theorem consistent_of_visits {opts : CacheOptions} {name : Bytes} {s : ClusterServer}
    {before after : List (Visit ModelCache)} {v : Visit ModelCache}
    (h : CacheVisits opts name s (before ++ v :: after))
    (hs : Stored caches name cacheConditions ConsistentConditions s) : v.seen.body.Consistent := by
  refine h.stored (P := ConsistentConditions) (fun hnil => absurd hnil.1 (by decide)) hs ?_
  intro u w rest _ hseen hanswered hreach c hc
  obtain ⟨pre, post, hcalls⟩ := List.append_of_mem hc
  rw [hcalls] at hreach hanswered
  exact Prog.Obeys.call_of_reach (keeps_reconcileCache opts (lasting_consistent u.clock) hseen)
    hreach fun d hd => trusted_of_mem hanswered (List.mem_append_left _ hd)

/-- The visit that records a failure of a cache that was ready. -/
theorem consistent_of_visits_stale : (cacheVisitIn staleFailedCluster).seen.body.Consistent := by
  have hvisits : CacheVisits sampleCacheOptions (ascii "c") staleCluster
      ([cacheVisitIn staleCluster] ++ cacheVisitIn staleFailedCluster ::
        [cacheVisitIn staleRemovedCluster]) := visits_stale
  refine consistent_of_visits hvisits fun o b ho hb => ?_
  cases ho
  cases hb
  unfold ConsistentConditions
  decide +kernel

end Kama.Controller
