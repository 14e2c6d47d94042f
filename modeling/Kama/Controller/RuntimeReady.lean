import Kama.Controller.ModelDeployment

/-!
# Which Pod the runtime conditions are about

`observeRuntime` asks the supervisor of the oldest of the current Pods, and counts a Pod as ready
whichever of them it is.

* `observePods_eq`: the Pod that is asked is the first of the oldest, and there is a ready replica
  if any of them is ready.
* `Judged o owned pod`: the Pod is the one that is asked, and its supervisor gives the expected
  answer.
* `OnePod` says that the conditions are about one Pod, `Mixed` that the one that is asked is not
  ready and another one is.
* `onePod_iff`: the first holds if and only if the second does not; `runtimeReady_twoPods` is a case
  of the second.
-/

namespace Kama.Controller.Serving

open Bytes Api

variable (o : Observation)

/-! ## The Pod that is asked -/

/-- The Pods that the loop looks at. -/
def currentPods (owned : List Bytes) (pods : List ServingPod) : List ServingPod :=
  pods.filter (current o owned)

/-- Some current Pod is ready. -/
def anyReady (owned : List Bytes) (pods : List ServingPod) : Bool :=
  (currentPods o owned pods).any fun pod => podConditionTrue pod.conditions podReady

/-- **The loop over the Pods** finds the first of the oldest, and counts one replica if any is
ready. -/
theorem observePods_eq (owned : List Bytes) (pods : List ServingPod) :
    observePods o owned pods =
      ((currentPods o owned pods).argmin ServingPod.created,
        if anyReady o owned pods then 1 else 0) := by
  induction pods using List.reverseRecOn with
  | nil => rfl
  | append_singleton pods pod ih =>
    have hstep : observePods o owned (pods ++ [pod]) =
        if current o owned pod then
          (if (observePods o owned pods).1.all fun c => pod.created < c.created then some pod
            else (observePods o owned pods).1,
            if podConditionTrue pod.conditions podReady then
              if (observePods o owned pods).2 = 0 then 1 else (observePods o owned pods).2
            else (observePods o owned pods).2)
        else observePods o owned pods := by
      rw [observePods, List.foldl_append]
      rfl
    rw [hstep, ih]
    by_cases hcurrent : current o owned pod
    · rw [if_pos hcurrent]
      have hpods : currentPods o owned (pods ++ [pod]) = currentPods o owned pods ++ [pod] := by
        simp [currentPods, List.filter_append, hcurrent]
      have hany : anyReady o owned (pods ++ [pod]) =
          (anyReady o owned pods || podConditionTrue pod.conditions podReady) := by
        simp [anyReady, hpods]
      rw [hpods, hany, List.argmin_concat]
      refine Prod.ext ?_ ?_
      · cases (currentPods o owned pods).argmin ServingPod.created with
        | none => rfl
        | some c => simp
      · cases podConditionTrue pod.conditions podReady <;> cases anyReady o owned pods <;> rfl
    · have hpods : currentPods o owned (pods ++ [pod]) = currentPods o owned pods := by
        simp [currentPods, List.filter_append, hcurrent]
      rw [if_neg hcurrent, anyReady, anyReady, hpods]

/-- The supervisor of the Pod gives the expected answer. -/
def Answers (pod : ServingPod) : Prop :=
  pod.podIP ≠ [] ∧ ∃ state, o.supervisor pod.podIP = some state ∧
    supervisorStateMatches o state = true

/-- The Pod is the one that is asked, and its supervisor gives the expected answer. -/
def Judged (owned : List Bytes) (pods : List ServingPod) (pod : ServingPod) : Prop :=
  (currentPods o owned pods).argmin ServingPod.created = some pod ∧ Answers o pod

theorem contract_iff (asked : Option ServingPod) :
    runtimeContractReady o asked = true ↔ ∃ pod, asked = some pod ∧ Answers o pod := by
  unfold runtimeContractReady
  cases asked with
  | none => simp [supervisorAnswer]
  | some pod =>
    simp only [Option.some.injEq, exists_eq_left', Answers]
    by_cases hip : pod.podIP = []
    · simp [supervisorAnswer, hip]
    · cases hstate : o.supervisor pod.podIP with
      | none => simp [supervisorAnswer, hip, hstate]
      | some state =>
        simp only [supervisorAnswer, Option.bind_eq_bind, Option.bind_some, hip, if_false, hstate,
          ne_eq, not_false_eq_true, Option.some.injEq, exists_eq_left', true_and]
        split
        case isTrue => rw [Option.any_some]
        case isFalse hidentity =>
          -- the contract asks for the same identity
          have hfalse : supervisorStateMatches o state ≠ true := by
            intro hmatches
            simp only [supervisorStateMatches, Bool.and_eq_true, beq_iff_eq] at hmatches
            tauto
          simp [hfalse]

/-! ## The conditions -/

theorem isStatusConditionTrue_setDeploymentCondition (type : DeploymentCondition) (report : Report)
    (conditions : List (Condition DeploymentCondition)) (asked : DeploymentCondition) :
    isStatusConditionTrue (setDeploymentCondition o type report conditions) asked =
      if asked = type then decide (report.1 = .conditionTrue)
      else isStatusConditionTrue conditions asked :=
  isStatusConditionTrue_set _ _ _ _

theorem readyConditions_runtimeReady (ready endpointReady : Bool) {pending : Report}
    (hpending : pending.1 = .conditionFalse) :
    decide ((readyConditions ready endpointReady pending).1.1 = .conditionTrue) = ready := by
  cases ready
  · simp [readyConditions, hpending]
  · rfl

theorem readyConditions_serving (ready endpointReady : Bool) (pending : Report) :
    decide ((readyConditions ready endpointReady pending).2.1 = .conditionTrue) =
      (ready && endpointReady) := by
  cases ready <;> cases endpointReady <;> rfl

theorem status_pendingCondition (readyReplicas : Nat) (answer : Option SupervisorState)
    (contractReady : Bool) (state : RuntimeState) :
    (pendingCondition readyReplicas answer contractReady state).1 = .conditionFalse := by
  unfold pendingCondition
  split_ifs <;> rfl

theorem isStatusConditionTrue_runtimeReady (asked : Option ServingPod) (readyReplicas : Nat)
    (endpointReady : Bool) :
    isStatusConditionTrue (deploymentStatus o asked readyReplicas endpointReady).conditions
      .runtimeReady = runtimeReady o asked readyReplicas := by
  simp only [deploymentStatus, isStatusConditionTrue_setDeploymentCondition, reduceCtorEq, if_false,
    if_true]
  exact readyConditions_runtimeReady _ _ (status_pendingCondition _ _ _ _)

theorem isStatusConditionTrue_serving (asked : Option ServingPod) (readyReplicas : Nat)
    (endpointReady : Bool) :
    isStatusConditionTrue (deploymentStatus o asked readyReplicas endpointReady).conditions
      .serving = (runtimeReady o asked readyReplicas && endpointReady) := by
  simp only [deploymentStatus, isStatusConditionTrue_setDeploymentCondition, reduceCtorEq, if_false,
    if_true]
  exact readyConditions_serving _ _ _

variable {o} {replicaSets : List ReplicaSet} {pods : List ServingPod} {status : DeploymentStatus}

/-- What is left of a call once the lists have been read. -/
theorem observeRuntime_eq (hreplicaSets : o.replicaSets = .ok replicaSets)
    (hpods : o.pods = .ok pods) {asked : Option ServingPod} {readyReplicas : Nat}
    (hfound : observePods o (ownedServingReplicaSetUIDs o replicaSets) pods =
      (asked, readyReplicas)) :
    observeRuntime o =
      (endpointReady o asked readyReplicas).map (deploymentStatus o asked readyReplicas) := by
  unfold observeRuntime
  rw [hreplicaSets, hpods]
  show (endpointReady o (observePods o _ pods).1 (observePods o _ pods).2 >>= _) = _
  rw [hfound]
  rfl

/-- A Pod is asked and its supervisor gives the expected answer, and some Pod is ready. -/
theorem runtimeReady_observePods (owned : List Bytes) {asked : Option ServingPod}
    {readyReplicas : Nat} (hfound : observePods o owned pods = (asked, readyReplicas)) :
    runtimeReady o asked readyReplicas = true ↔
      (∃ other ∈ currentPods o owned pods, podConditionTrue other.conditions podReady = true) ∧
        ∃ pod, Judged o owned pods pod := by
  rw [observePods_eq] at hfound
  obtain ⟨rfl, rfl⟩ := Prod.mk.inj hfound
  have hany : (0 < if anyReady o owned pods = true then 1 else 0) ↔
      ∃ other ∈ currentPods o owned pods, podConditionTrue other.conditions podReady = true := by
    rw [← List.any_eq_true]
    show _ ↔ anyReady o owned pods = true
    split <;> simp_all
  rw [runtimeReady, Bool.and_eq_true, decide_eq_true_eq, hany, contract_iff]
  rfl

theorem endpointReady_eq_ok {pod : ServingPod} {readyReplicas : Nat} {serving : Bool}
    (hready : runtimeReady o (some pod) readyReplicas = true)
    (h : endpointReady o (some pod) readyReplicas = .ok serving) :
    ∃ endpoints, o.endpoints = .ok endpoints ∧
      (serving = true → ∃ endpoint ∈ endpoints, servesPod pod endpoint = true) := by
  rw [endpointReady, if_pos hready, servingEndpointReady] at h
  cases hendpoints : o.endpoints with
  | error e =>
    rw [hendpoints] at h
    exact nomatch h
  | ok endpoints =>
    rw [hendpoints] at h
    obtain rfl := Except.ok.inj h
    exact ⟨endpoints, rfl, List.any_eq_true.1⟩

theorem endpointReady_of_ok {endpoints : List Endpoint} (h : o.endpoints = .ok endpoints)
    (asked : Option ServingPod) (readyReplicas : Nat) :
    ∃ serving, endpointReady o asked readyReplicas = .ok serving := by
  unfold endpointReady
  split
  · cases asked with
    | none => exact ⟨false, rfl⟩
    | some pod =>
      rw [servingEndpointReady, h]
      exact ⟨_, rfl⟩
  · exact ⟨false, rfl⟩

/-! ## One Pod -/

variable (o)

/-- The conditions that a call sets are about one Pod: it is owned, current and not being deleted,
it is ready, it is the one whose supervisor gave the expected answer, and it has the ready endpoint
where the deployment is said to serve. -/
def OnePod : Prop :=
  ∀ replicaSets pods status, o.replicaSets = .ok replicaSets → o.pods = .ok pods →
    observeRuntime o = .ok status →
    (isStatusConditionTrue status.conditions .runtimeReady = true →
      ∃ pod ∈ pods, current o (ownedServingReplicaSetUIDs o replicaSets) pod = true ∧
        podConditionTrue pod.conditions podReady = true ∧
        Judged o (ownedServingReplicaSetUIDs o replicaSets) pods pod ∧
        (isStatusConditionTrue status.conditions .serving = true →
          ∃ endpoints, o.endpoints = .ok endpoints ∧
            ∃ endpoint ∈ endpoints, servesPod pod endpoint = true)) ∧
    (isStatusConditionTrue status.conditions .serving = true →
      isStatusConditionTrue status.conditions .runtimeReady = true)

/-- The supervisor of the oldest current Pod gives the expected answer, and this Pod is not ready,
but another one is. -/
def Mixed : Prop :=
  ∃ replicaSets pods endpoints pod other, o.replicaSets = .ok replicaSets ∧ o.pods = .ok pods ∧
    o.endpoints = .ok endpoints ∧ Judged o (ownedServingReplicaSetUIDs o replicaSets) pods pod ∧
    podConditionTrue pod.conditions podReady = false ∧
    other ∈ currentPods o (ownedServingReplicaSetUIDs o replicaSets) pods ∧
    podConditionTrue other.conditions podReady = true

variable {o}

theorem not_onePod_of_mixed (h : Mixed o) : ¬OnePod o := by
  obtain ⟨replicaSets, pods, endpoints, pod, other, hreplicaSets, hpods, hendpoints, hjudged, hnot,
    hother, hotherReady⟩ := h
  intro hone
  rcases hfound : observePods o (ownedServingReplicaSetUIDs o replicaSets) pods
    with ⟨asked, readyReplicas⟩
  obtain ⟨serving, hserving⟩ := endpointReady_of_ok hendpoints asked readyReplicas
  have heq := observeRuntime_eq hreplicaSets hpods hfound
  rw [hserving] at heq
  have hready := (runtimeReady_observePods _ hfound).2 ⟨⟨other, hother, hotherReady⟩, pod, hjudged⟩
  obtain ⟨pod', -, -, hpodReady, hjudged', -⟩ := (hone _ _ _ hreplicaSets hpods heq).1
    ((isStatusConditionTrue_runtimeReady o _ _ _).trans hready)
  obtain rfl := Option.some.inj (hjudged.1.symm.trans hjudged'.1)
  exact Bool.false_ne_true (hnot.symm.trans hpodReady)

theorem onePod_of_not_mixed (hmixed : ¬Mixed o) : OnePod o := by
  intro replicaSets pods status hreplicaSets hpods h
  rcases hfound : observePods o (ownedServingReplicaSetUIDs o replicaSets) pods
    with ⟨asked, readyReplicas⟩
  rw [observeRuntime_eq hreplicaSets hpods hfound] at h
  cases hserving : endpointReady o asked readyReplicas with
  | error e =>
    rw [hserving] at h
    exact nomatch h
  | ok serving =>
    rw [hserving] at h
    obtain rfl := Except.ok.inj h
    rw [isStatusConditionTrue_runtimeReady, isStatusConditionTrue_serving]
    refine ⟨fun hready => ?_, fun htrue => (Bool.and_eq_true_iff.1 htrue).1⟩
    obtain ⟨⟨other, hother, hotherReady⟩, pod, hjudged⟩ :=
      (runtimeReady_observePods _ hfound).1 hready
    have hasked : asked = some pod := by
      rw [observePods_eq] at hfound
      exact (Prod.mk.inj hfound).1.symm.trans hjudged.1
    subst hasked
    obtain ⟨endpoints, hendpoints, hserves⟩ := endpointReady_eq_ok hready hserving
    obtain ⟨hmem, hcurrent⟩ := List.mem_filter.1 (List.argmin_mem hjudged.1)
    refine ⟨pod, hmem, hcurrent, ?_, hjudged, fun htrue =>
      ⟨endpoints, hendpoints, hserves (Bool.and_eq_true_iff.1 htrue).2⟩⟩
    -- otherwise the answer of this Pod and the readiness of the other one are put together
    by_contra hnot
    exact hmixed ⟨replicaSets, pods, endpoints, pod, other, hreplicaSets, hpods, hendpoints,
      hjudged, Bool.eq_false_iff.2 hnot, hother, hotherReady⟩

/-- **The conditions are about one Pod** if and only if the Pods are not mixed. -/
theorem onePod_iff (o : Observation) : OnePod o ↔ ¬Mixed o :=
  ⟨fun hone hmixed => not_onePod_of_mixed hmixed hone, onePod_of_not_mixed⟩

/-! ### Two Pods -/

def servingLabels : Labels := [(.managedBy, kamaName), (.component, modelDeploymentComponent)]

def sampleCommit : Bytes := List.replicate 40 97

def sampleFingerprint : Bytes := List.replicate 20 98

/-- A Pod of the ReplicaSet `rs-uid`. -/
def samplePod (name podIP : Bytes) (created : Nat) (ready : ConditionStatus) : ServingPod :=
  { name := name
    namespace_ := ascii "default"
    uid := name
    labels := servingLabels
    annotations := [(runtimeFingerprintKey, sampleFingerprint)]
    owners := [⟨replicaSetKind, ascii "rs-uid", true⟩]
    created := created
    terminating := false
    podIP := podIP
    conditions := [⟨podReady, ready, [], []⟩]
    containerStatuses := [] }

/-- What a supervisor answers that has loaded the model. -/
def sampleState : SupervisorState :=
  { phase := RuntimeState.ready.text
    reason := ascii "RuntimeReady"
    message := ascii "llama-server is ready"
    ready := true
    deploymentUID := ascii "deployment-uid"
    deploymentFingerprint := sampleFingerprint
    mode := PlacementMode.cpu.text
    effectiveContextTokens := some 2048
    desiredConcurrency := 1
    llamaCommit := sampleCommit
    acceleratorDetected := false
    visibleAccelerators := none
    offloadedLayers := none
    totalLayers := none }

/-- The older Pod has loaded the model and is not ready yet, the newer one is ready. -/
def twoPods : Observation :=
  { deployment :=
      { uid := ascii "deployment-uid"
        generation := 1
        mode := .cpu
        desiredConcurrency := some 1
        maxContextTokens := some 2048
        status := ⟨0, none, none, none, none, 0, 0, []⟩ }
    artifact := ⟨ascii "model", ascii "artifact-uid", []⟩
    service := ⟨ascii "serving", ascii "service-uid"⟩
    workload := ⟨ascii "serving", ascii "workload-uid"⟩
    fingerprint := sampleFingerprint
    image := ascii "runtime"
    artifactStatus := .conditionTrue
    artifactReason := ascii "Ready"
    artifactMessage := []
    llamaCommit := sampleCommit
    replicaSets := .ok
      [⟨ascii "rs-uid", servingLabels, [⟨ascii "Deployment", ascii "workload-uid", true⟩]⟩]
    pods := .ok
      [samplePod (ascii "older") (ascii "10.0.0.1") 1 .conditionFalse,
        samplePod (ascii "newer") (ascii "10.0.0.2") 2 .conditionTrue]
    supervisor := fun podIP => if podIP = ascii "10.0.0.1" then some sampleState else none
    endpoints := .ok []
    now := fun _ => 0
    sanitize := id }

/-- **The conditions can be about two Pods.** -/
theorem runtimeReady_twoPods :
    (observeRuntime twoPods).toOption.map
        (fun status => isStatusConditionTrue status.conditions .runtimeReady) = some true ∧
      ¬OnePod twoPods := by
  refine ⟨by decide +kernel, not_onePod_of_mixed ⟨_, _, _,
    samplePod (ascii "older") (ascii "10.0.0.1") 1 .conditionFalse,
    samplePod (ascii "newer") (ascii "10.0.0.2") 2 .conditionTrue, rfl, rfl, rfl, ⟨?_, ?_⟩, ?_, ?_,
    ?_⟩⟩
  · decide +kernel
  · exact ⟨by decide +kernel, sampleState, by decide +kernel, by decide +kernel⟩
  · decide +kernel
  · decide +kernel
  · decide +kernel

end Kama.Controller.Serving
