import Kama.Controller.Backoff

/-!
# When a failed import is tried again

A Job whose result is a failure that may pass is removed, so that the next reconcile starts it
again. `conditionForReason` says how long to wait before. The time is taken from the condition that
reports the failure, and that is the time at which the condition last became true, for whatever
reason.

* `reconcileArtifact_eq`: a reconcile is its verdict and what follows from it.
* `importJudging` is what the reconciles of an artifact report about its Jobs.
* `import_backedOff`: a Job is removed its delay after its result was first recorded, in every run
  in which the condition for the result was not true yet at that time; `not_backedOff_blocked` is a
  run in which it was.
-/

namespace Kama.Controller

open Bytes Api Program Artifact

/-! ## Verdicts -/

section Verdict

variable {β : Type} (next : Verdict FailedImport → Act β) (opts : Options)
  (seen : Object Bytes ArtifactBody) (storage : ArtifactStorage)

theorem reconcileResult_eq (operation leaseName : Bytes) (job : Object Bytes Job)
    (configMap : Object Bytes ConfigMap) (result : Result) :
    reconcileResult next opts seen storage operation leaseName job configMap result =
      reconcileResult pure opts seen storage operation leaseName job configMap result >>=
        next := by
  unfold reconcileResult
  split
  · rfl
  split
  · rfl
  split
  · rfl
  split
  · rfl
  · rfl

theorem reconcileImport_eq (operation leaseName : Bytes) :
    reconcileImport next opts seen storage operation leaseName =
      reconcileImport pure opts seen storage operation leaseName >>= next := by
  simp only [reconcileImport, bind_assoc]
  refine bind_congr fun replaced => ?_
  split
  · rfl
  simp only [bind_assoc]
  refine bind_congr fun configMap => bind_congr fun _ => bind_congr fun answer =>
    bind_congr fun job => ?_
  split
  · rfl
  simp only [bind_assoc]
  refine bind_congr fun result => ?_
  cases result with
  | error err => rfl
  | ok result => exact reconcileResult_eq ..

theorem reconcileOperation_eq : reconcileOperation next opts seen storage =
    reconcileOperation pure opts seen storage >>= next := by
  simp only [reconcileOperation, bind_assoc]
  refine bind_congr fun cleaning => ?_
  split
  · rfl
  simp only [bind_assoc]
  refine bind_congr fun ⟨leaseName, acquired⟩ => ?_
  dsimp only
  split
  · rfl
  · exact reconcileImport_eq ..

theorem reconcileLocated_eq : reconcileLocated next opts seen storage =
    reconcileLocated pure opts seen storage >>= next := by
  unfold reconcileLocated
  cases retainedJob (modelArtifact opts seen) with
  | none => exact reconcileOperation_eq ..
  | some ref =>
    simp only [bind_assoc]
    refine bind_congr fun answer => ?_
    rcases answer with (_ | _ | _ | _) | job
    · exact reconcileOperation_eq ..
    · rfl
    · rfl
    · rfl
    · dsimp only
      split
      · rfl
      split
      · exact reconcileOperation_eq ..
      split
      · rfl
      · rfl

theorem reconcileStorage_eq : reconcileStorage next opts seen storage =
    reconcileStorage pure opts seen storage >>= next := by
  unfold reconcileStorage
  split
  · rfl
  · rfl
  split
  · rfl
  · exact reconcileLocated_eq ..

/-- **A reconcile is its verdict and what follows from it.** -/
theorem reconcileArtifact_eq :
    reconcileArtifact next opts seen = verdict opts seen >>= next := by
  unfold verdict reconcileArtifact
  split
  · rfl
  split
  · rfl
  simp only [bind_assoc]
  refine bind_congr fun answer => ?_
  cases answer with
  | error err => rfl
  | ok storage => exact reconcileStorage_eq ..

end Verdict

/-! ## Waiting -/

section Waiting

variable {opts : Options} {seen : Object Bytes ArtifactBody} {P : Op Key Body → Prop}

/-- Giving up the lease and writing the status do not remove a Job. -/
theorem calls_dropLease (hP : ∀ op, ¬RemovesJob op → P op) (a : ModelArtifact)
    (leaseName : Bytes) : Calls P (dropLease a leaseName) := by
  refine Calls.bind (Calls.attempt (Prog.All.translate (fun op => hP _ ?_) _)) fun _ =>
    Calls.pure _
  cases op <;> exact id

theorem calls_artifactFailure (hP : ∀ op, ¬RemovesJob op → P op) (type : ArtifactCondition)
    (reason message : Bytes) (requeue : Requeue) :
    Calls P (artifactFailure opts seen type reason message requeue) := by
  refine Calls.bind ⟨hP _ id, fun _ => trivial⟩ fun now => Calls.bind ?_ fun _ => Calls.pure _
  refine Calls.ite (Calls.pure _) (Calls.bind ?_ fun _ => Calls.bind (calls_orThrow _) fun _ =>
    Calls.pure _)
  exact Calls.bind (α := Except ApiErr ClusterObject) ⟨hP _ id, fun _ => trivial⟩ fun _ =>
    Calls.pure _

/-- A Job that has failed is removed once the delay has passed since the condition that reports
the failure became true. -/
theorem obeys_reconcileFailure (time : Nat) (found : FailedImport) (result : Result) :
    Obeys (NotAfter time) (fun op => RemovesJob op → ∃ start,
        alreadyReported (modelArtifact opts seen) (conditionForReason result.reason).1
          result.reason = some start ∧ 0 < (conditionForReason result.reason).2 ∧
        start + (conditionForReason result.reason).2 ≤ time)
      (reconcileFailure opts seen found result) := by
  unfold reconcileFailure
  generalize conditionForReason result.reason = condition
  obtain ⟨type, retry⟩ := condition
  dsimp only
  have hno : ∀ op, ¬RemovesJob op → RemovesJob op → ∃ start,
      alreadyReported (modelArtifact opts seen) type result.reason = some start ∧ 0 < retry ∧
      start + retry ≤ time := fun op hop hop' => absurd hop' hop
  refine .bind (.of_calls (calls_dropLease hno _ _)) fun _ => ?_
  split
  · rename_i start hreported
    split
    · rename_i hretry
      exact (obeys_retryAfter time _ start).mono fun op h hop =>
        ⟨start, hreported, hretry, h hop⟩
    · exact .of_calls (calls_artifactFailure hno _ _ _ _)
  · exact .of_calls (calls_artifactFailure hno _ _ _ _)

end Waiting

/-! ## Visits -/

def artifactConditions (a : ArtifactBody) : List (Condition ArtifactCondition) :=
  a.status.conditions

/-- The visits of the artifact of this name. -/
abbrev ArtifactVisits (opts : Options) (name : Bytes) (s : ClusterServer)
    (visits : List (Visit ArtifactBody)) : Prop :=
  Visits artifacts name artifactConditions (reconcile opts) s visits

/-- The status that reports the result at the time `now`. -/
def reportedStatus (opts : Options) (seen : Object Bytes ArtifactBody) (result : Result)
    (now : Nat) : ModelArtifactStatus :=
  failureStatus now (modelArtifact opts seen) (conditionForReason result.reason).1 result.reason
    (failureMessage opts result.message)

/-- What is reported about the importers of an artifact, by the reason of the result. -/
def importJudging (opts : Options) :
    Judging ArtifactBody ArtifactCondition Bytes FailedImport where
  resource := artifacts
  conditions := artifactConditions
  verdict := verdict opts
  failure := importFailure opts
  job found := found.job
  kind found := found.result.map Result.reason
  report seen found now :=
    match found.result with
    | none => seen
    | some result => withStatus seen (reportedStatus opts seen result now)
  type reason := (conditionForReason reason).1
  status _ := .conditionTrue
  delay reason := (conditionForReason reason).2

section Reporting

variable {opts : Options} {name : Bytes}

/-- What a reconcile writes dates no condition back. -/
theorem writesOnly_of_reconcileCall {start time : Nat} {seen : Object Bytes ArtifactBody}
    {op : Op Key Body} {type : ArtifactCondition} {status : ConditionStatus}
    (hop : ReconcileCall start seen op) (htime : time ≤ start) (hstored : storedTime time = time)
    (h : HeldSince type status time (artifactConditions seen.body)) :
    WritesOnly artifacts name artifactConditions (HeldSince type status time) op := by
  cases hop with
  | housekeeping h =>
    cases h with
    | createConfigMap name configMap => exact fun hkey => nomatch hkey
    | lease op =>
      cases op with
      | create name finalizers lease => exact fun hkey => nomatch hkey
      | update o => exact fun hkey => nomatch hkey
      | _ => trivial
    | _ => trivial
  | createJob name job => exact fun hkey => nomatch hkey
  | update hupdate =>
    rintro - b hb
    cases hb
    cases hupdate with
    | finalizers finalizers => exact h
    | unchanged heq =>
      refine HeldSince.storedConditions ?_ hstored
      rw [heq]
      exact h
    | conditions hnow heq =>
      refine HeldSince.storedConditions ?_ hstored
      rw [heq]
      exact h.setConditions (htime.trans hnow)

theorem reconcile_eq_judging (opts : Options) : reconcile opts = (importJudging opts).reconcile :=
  funext fun seen => reconcileArtifact_eq _ opts seen

theorem importJudging_sound (opts : Options) (name : Bytes) : (importJudging opts).Sound name where
  removes seen found time := by
    obtain ⟨job, configMap, leaseName, result⟩ := found
    cases result with
    | none => exact (Prog.Obeys.of_all (Prog.all_true _)).mono fun op _ _ k hk => nomatch hk
    | some result =>
      refine (obeys_reconcileFailure time _ result).mono fun op h hop k hk => ?_
      obtain rfl := Option.some.inj hk
      obtain ⟨start, hreported, hdelay, hle⟩ := h hop
      obtain ⟨c, hc, hstatus, rfl⟩ := reportedSince_eq_some hreported
      exact ⟨hdelay, c, hc, hstatus, hle⟩
  report hk := by
    obtain ⟨result, hresult, rfl⟩ := Option.map_eq_some_iff.1 hk
    simp only [importJudging, hresult]
    exact ⟨rfl, _, rfl⟩
  writes hreach hanswered htime hstored h c hc := by
    obtain ⟨pre, post, hcalls⟩ := List.append_of_mem hc
    rw [hcalls] at hreach hanswered
    rw [← reconcile_eq_judging] at hreach
    refine writesOnly_of_reconcileCall ?_ htime hstored h
    exact Prog.Obeys.call_of_reach (reconciles_reconcile opts _) hreach fun d hd =>
      notBefore_of_mem hanswered (List.mem_append_left _ hd)

/-- **Imports are tried again after their delay**, in every run in which the condition for a result
is not true yet when the result is recorded, and a result is found again as long as its Job is
there. -/
theorem import_backedOff {s : ClusterServer} {visits : List (Visit ArtifactBody)}
    (h : ArtifactVisits opts name s visits) (hfresh : Fresh (importJudging opts) visits)
    (hsteady : Steady (importJudging opts) visits) : BackedOff (importJudging opts) visits := by
  rw [ArtifactVisits, reconcile_eq_judging] at h
  exact (importJudging_sound opts name).backedOff h hfresh hsteady

end Reporting

/-! ## Two runs

An artifact that is served from a claim. Its Job cannot start at first, since its image is not
there, and when it has started it fails. Nothing fails and nothing takes time but the Job. -/

section Runs

def sampleOptions : Options where
  importer := ⟨ascii "kama", ascii "IfNotPresent", [], []⟩
  uidText := unaryText
  uidText_injective := unaryText_injective
  errorText _ := ascii "error"
  sanitize message := message
  rules := sampleRules

def sampleClaim : Claim where
  labels := []
  annotations := []
  owners := []
  accessModes := [.readOnlyMany]
  volumeMode := none
  storageClassName := none
  storageRequest := none
  otherRequests := []
  limits := []
  selected := false
  volumeAttributesClassName := none
  volumeName := []
  phase := .bound
  boundAccessModes := []
  capacity := none

def sampleArtifact : Object Bytes ArtifactBody :=
  ⟨ascii "m", 1, 1, false, [modelArtifactFinalizer],
    { generation := 1
      spec := ⟨formatGGUF, ascii "m.gguf",
        ⟨none, some ⟨ascii "models", ascii "m", pvcImportPolicyDirect⟩⟩, none, ⟨[], none⟩⟩
      status :=
        { observedGeneration := 0, resolvedRevision := [], files := [], artifactDigest := [],
          size := 0, architecture := [], quantization := [], shardCount := 0, validatedAt := none,
          jobRef := none, cleanupOperationID := [], conditions := []
          location := some ⟨ascii "models", [97, 97], ascii "m", true, [.readOnlyMany],
            .filesystem, .multiNode, [], [], none⟩ } }⟩

def sampleCluster : ClusterServer where
  objects := [artifacts.object sampleArtifact,
    claims.object ⟨ascii "models", 2, 2, false, [], sampleClaim⟩]
  next := 3
  clock := 0
  log := []

/-- The container of a Pod whose image is not there. -/
def noImage : ContainerStatus := ⟨importerContainer, some (ascii "ErrImagePull"), none⟩

/-- The container of an importer that did not find its source. -/
def noSource : ContainerStatus :=
  ⟨importerContainer, none, some (Json.encode (.obj [(ascii "schemaVersion", .num [49]),
    (ascii "mode", .str modeDirect), (ascii "reason", .str Reason.sourceUnavailable.text)]))⟩

/-- What happens to the sample. -/
abbrev importRun : Judging ArtifactBody ArtifactCondition Bytes FailedImport :=
  importJudging sampleOptions

abbrev visitIn : ClusterServer → Visit ArtifactBody := importRun.visitIn sampleArtifact

/-- Some seconds after a visit. -/
abbrev afterVisit (seconds : Nat) (failed : Bool) (status : ContainerStatus) (s : ClusterServer) :
    ClusterServer :=
  importRun.laterOn sampleArtifact s sampleOptions.uidText seconds failed status

/-! ### A Job that could not start before it failed -/

def blockedCluster : ClusterServer := afterVisit 10 false noImage sampleCluster

def failedCluster : ClusterServer := afterVisit 610 true noSource blockedCluster

def retriedCluster : ClusterServer := afterVisit 611 true noSource failedCluster

/-- The visits of ten minutes: the third one records the failure, and a second later the fourth one
removes the Job. -/
theorem blocked_facts :
    ([sampleCluster, blockedCluster, failedCluster, retriedCluster].all fun s =>
      (objectIn artifacts (ascii "m") s).isSome) = true ∧
    (importRun.afterVisit sampleArtifact sampleCluster).clock ≤ 10 * 10 ^ 9 ∧
    (importRun.afterVisit sampleArtifact blockedCluster).clock ≤ 610 * 10 ^ 9 ∧
    (importRun.afterVisit sampleArtifact failedCluster).clock ≤ 611 * 10 ^ 9 ∧
    importRun.recordedIn sampleArtifact sampleCluster = none ∧
    importRun.recordedIn sampleArtifact blockedCluster = none ∧
    importRun.recordedIn sampleArtifact failedCluster =
      some (5, Reason.sourceUnavailable.text, 610 * 10 ^ 9) ∧
    importRun.removedIn sampleArtifact retriedCluster = some (5, 611 * 10 ^ 9) := by
  decide +kernel

/-- **A Job is removed a second after its failure was recorded**: the condition that reports the
failure had been true since the Job could not start. -/
theorem not_backedOff_blocked : ∃ opts name s visits,
    ArtifactVisits opts name s visits ∧ ¬BackedOff (importJudging opts) visits := by
  obtain ⟨hseen, t₁, t₂, t₃, r₀, r₁, r₂, r₃⟩ := blocked_facts
  simp only [List.all_cons, List.all_nil, Bool.and_true, Bool.and_eq_true] at hseen
  obtain ⟨h₀, h₁, h₂, h₃⟩ := hseen
  have hkind : artifacts.kind ≠ .job ∧ artifacts.kind ≠ .pod := by decide
  refine ⟨sampleOptions, ascii "m", sampleCluster, [visitIn sampleCluster, visitIn blockedCluster,
    visitIn failedCluster, visitIn retriedCluster], ?_, fun hbacked => ?_⟩
  · rw [ArtifactVisits, reconcile_eq_judging]
    refine visits_visitIn (.refl _) h₀ (visits_laterOn hkind rfl t₁ h₁ ?_)
    exact visits_laterOn hkind rfl t₂ h₂ (visits_laterOn hkind rfl t₃ h₃ trivial)
  · have hle := (hbacked [visitIn sampleCluster, visitIn blockedCluster, visitIn failedCluster]
      (visitIn retriedCluster) [] 5 _ rfl (retries_of_removedIn r₃)).1
      [visitIn sampleCluster, visitIn blockedCluster] (visitIn failedCluster) [] _ _ rfl
      (recordedIn_eq_some_iff.1 r₂) ?_
    · exact absurd hle (by decide)
    · simp only [List.forall_mem_cons]
      exact ⟨not_records_of_recordedIn r₀ _ _, not_records_of_recordedIn r₁ _ _, by simp⟩

/-! ### A Job that fails -/

def firstCluster : ClusterServer := afterVisit 610 true noSource sampleCluster

def secondCluster : ClusterServer := afterVisit 910 true noSource firstCluster

theorem failed_facts :
    ([sampleCluster, firstCluster, secondCluster].all fun s =>
      (objectIn artifacts (ascii "m") s).isSome) = true ∧
    (importRun.afterVisit sampleArtifact sampleCluster).clock ≤ 610 * 10 ^ 9 ∧
    (importRun.afterVisit sampleArtifact firstCluster).clock ≤ 910 * 10 ^ 9 ∧
    importRun.judgedIn sampleArtifact sampleCluster = none ∧
    importRun.judgedIn sampleArtifact firstCluster =
      some (5, some Reason.sourceUnavailable.text) ∧
    importRun.recordedIn sampleArtifact firstCluster =
      some (5, Reason.sourceUnavailable.text, 610 * 10 ^ 9) ∧
    ¬HasStatus (artifactConditions (importRun.seenIn sampleArtifact firstCluster).body)
      .sourceUnavailable .conditionTrue ∧
    importRun.judgedIn sampleArtifact secondCluster =
      some (5, some Reason.sourceUnavailable.text) ∧
    importRun.removedIn sampleArtifact secondCluster = some (5, 910 * 10 ^ 9) := by
  decide +kernel

/-- A failure that nothing preceded is recorded, and the Job is removed five minutes later. -/
theorem backedOff_failedVisits :
    importRun.Records (visitIn firstCluster) 5 Reason.sourceUnavailable.text (610 * 10 ^ 9) ∧
    importRun.Retries (visitIn secondCluster) 5 (910 * 10 ^ 9) ∧
    BackedOff importRun
      [visitIn sampleCluster, visitIn firstCluster, visitIn secondCluster] := by
  obtain ⟨hseen, t₁, t₂, j₀, j₁, r₁, c₁, j₂, r₂⟩ := failed_facts
  simp only [List.all_cons, List.all_nil, Bool.and_true, Bool.and_eq_true] at hseen
  obtain ⟨h₀, h₁, h₂⟩ := hseen
  have hkind : artifacts.kind ≠ .job ∧ artifacts.kind ≠ .pod := by decide
  have hvisits : ArtifactVisits sampleOptions (ascii "m") sampleCluster
      [visitIn sampleCluster, visitIn firstCluster, visitIn secondCluster] := by
    rw [ArtifactVisits, reconcile_eq_judging]
    refine visits_visitIn (.refl _) h₀ (visits_laterOn hkind rfl t₁ h₁ ?_)
    exact visits_laterOn hkind rfl t₂ h₂ trivial
  exact ⟨recordedIn_eq_some_iff.1 r₁, retries_of_removedIn r₂, import_backedOff hvisits
    (fresh_of_judgedIn j₀ j₁ r₁ j₂ c₁) (steady_of_judgedIn j₀ j₁ j₂)⟩

end Runs

end Kama.Controller
