import Kama.Controller.ArtifactStatus
import Kama.Controller.ImportJob
import Mathlib.Data.List.MinMax

/-!
# Model deployments

The part of `modeldeployment_controller.go` that looks at the serving workload: which Pods are
looked at, what the supervisor of one of them answers, and the status that `observeRuntime` makes
of it.

* `observePods` is its loop over the Pods: the Pod that is asked, and whether any of them is ready.
* `supervisorStateMatches` and `servingEndpointReady` are the checks of the answer and of the
  EndpointSlices.
* `observeRuntime` puts them together. Its status is what `persistDeploymentStatus` writes where it
  differs from the one before.

The lists are those that the API server returned for the selectors of the source. A time is in
nanoseconds.
-/

namespace Kama.Controller.Serving

open Bytes Api

/-! ## Serving workloads -/

structure PodCondition where
  type : Bytes
  status : ConditionStatus
  reason : Bytes
  message : Bytes
  deriving DecidableEq, Repr

/-- A Pod of the serving workload. -/
structure ServingPod where
  name : Bytes
  namespace_ : Bytes
  uid : Bytes
  labels : Labels
  annotations : Annotations
  owners : List OwnerReference
  created : Nat
  /-- a deletion timestamp is set -/
  terminating : Bool
  podIP : Bytes
  conditions : List PodCondition
  /-- the names and image identities of the containers -/
  containerStatuses : List (Bytes × Bytes)
  deriving DecidableEq, Repr

structure ReplicaSet where
  uid : Bytes
  labels : Labels
  owners : List OwnerReference
  deriving DecidableEq, Repr

structure TargetReference where
  kind : Bytes
  namespace_ : Bytes
  name : Bytes
  uid : Bytes
  deriving DecidableEq, Repr

structure Endpoint where
  ready : Option Bool
  terminating : Option Bool
  target : Option TargetReference
  deriving DecidableEq, Repr

/-- What the supervisor of a Pod answers. -/
structure SupervisorState where
  phase : Bytes
  reason : Bytes
  message : Bytes
  ready : Bool
  deploymentUID : Bytes
  deploymentFingerprint : Bytes
  mode : Bytes
  effectiveContextTokens : Option Int
  desiredConcurrency : Int
  llamaCommit : Bytes
  acceleratorDetected : Bool
  visibleAccelerators : Option Int
  offloadedLayers : Option Int
  totalLayers : Option Int
  deriving DecidableEq, Repr

/-! ## The resource -/

inductive PlacementMode
  | cpu
  | accelerator
  deriving DecidableEq, Repr

def PlacementMode.text : PlacementMode → Bytes
  | .cpu => ascii "CPU"
  | .accelerator => ascii "Accelerator"

inductive RuntimeState
  | initializing
  | loading
  | ready
  | draining
  | loadFailed
  | exited
  deriving DecidableEq, Repr

def RuntimeState.text : RuntimeState → Bytes
  | .initializing => ascii "Initializing"
  | .loading => ascii "Loading"
  | .ready => ascii "Ready"
  | .draining => ascii "Draining"
  | .loadFailed => ascii "LoadFailed"
  | .exited => ascii "Exited"

inductive DeploymentCondition
  | artifactReady
  | resourcesAvailable
  | runtimeReady
  | serving
  | degraded
  deriving DecidableEq, Repr

structure RuntimeStatus where
  state : RuntimeState
  desiredImage : Bytes
  observedImage : Bytes
  llamaCommit : Bytes
  desiredFingerprint : Bytes
  observedFingerprint : Bytes
  loadedFingerprint : Bytes
  effectiveContextTokens : Option Int
  effectiveConcurrency : Int
  acceleratorDetected : Option Bool
  offloadedLayers : Option Int
  deriving DecidableEq, Repr

structure ObjectReference where
  name : Bytes
  uid : Bytes
  deriving DecidableEq, Repr

structure DeploymentArtifact where
  name : Bytes
  uid : Bytes
  digest : Bytes
  deriving DecidableEq, Repr

structure DeploymentStatus where
  observedGeneration : Nat
  artifact : Option DeploymentArtifact
  runtime : Option RuntimeStatus
  deploymentRef : Option ObjectReference
  serviceRef : Option ObjectReference
  desiredReplicas : Nat
  readyReplicas : Nat
  conditions : List (Condition DeploymentCondition)
  deriving DecidableEq, Repr

/-- The fields of a `ModelDeployment` that `observeRuntime` reads. -/
structure ModelDeployment where
  uid : Bytes
  generation : Nat
  mode : PlacementMode
  desiredConcurrency : Option Int
  maxContextTokens : Option Int
  status : DeploymentStatus
  deriving DecidableEq, Repr

/-! ## Texts from outside -/

/-- Letters, and digits after the first byte. -/
def isReason : Bytes → Bool
  | [] => true
  | b :: rest => (isUpper b || isLower b) && rest.all isAlphanumeric

def boundedConditionReason (value fallback : Bytes) : Bytes :=
  let value := Utf8.trimSpace value
  if value = [] ∨ 64 < value.length then fallback
  else if isReason value then value else fallback

def boundedRuntimeState (value : Bytes) : RuntimeState :=
  ([.initializing, .loading, .ready, .draining, .loadFailed, .exited] : List RuntimeState).find?
    (fun state => state.text = value) |>.getD .initializing

def validLowerHex (value : Bytes) (length : Nat) : Bool :=
  decide (value.length = length) && value.all isHexLower

def validRuntimeCommit (value : Bytes) : Bool := validLowerHex value 40

def validRuntimeFingerprint (value : Bytes) : Bool := validLowerHex value 20

/-! ## What is looked at -/

def replicaSetKind : Bytes := ascii "ReplicaSet"

def runtimePendingReason : Bytes := ascii "WorkloadPending"

def runtimeFingerprintKey : AnnotationKey :=
  .other (ascii "kama.tannerburns.github.io/runtime-fingerprint-full")

def podReady : Bytes := ascii "Ready"

def podScheduled : Bytes := ascii "PodScheduled"

/-- `podConditionTrue`: the first condition of the type decides. -/
def podConditionTrue (conditions : List PodCondition) (type : Bytes) : Bool :=
  (conditions.find? fun c => c.type = type).any fun c => c.status = .conditionTrue

/-- Everything that a call of `observeRuntime` is given, and the answers that it gets. -/
structure Observation where
  deployment : ModelDeployment
  artifact : DeploymentArtifact
  service : ObjectReference
  workload : ObjectReference
  fingerprint : Bytes
  image : Bytes
  artifactStatus : ConditionStatus
  artifactReason : Bytes
  artifactMessage : Bytes
  /-- the commit that the controller was started with -/
  llamaCommit : Bytes
  replicaSets : Except ApiErr (List ReplicaSet)
  pods : Except ApiErr (List ServingPod)
  /-- `readSupervisorState` for a Pod address; none where it fails -/
  supervisor : Bytes → Option SupervisorState
  /-- the endpoints of the EndpointSlices of the Service -/
  endpoints : Except ApiErr (List Endpoint)
  /-- the clock at each write of a condition -/
  now : DeploymentCondition → Nat
  /-- `artifact.Sanitize` -/
  sanitize : Bytes → Bytes

variable (o : Observation)

/-- `ownedServingReplicaSetUIDs`. -/
def ownedServingReplicaSetUIDs (replicaSets : List ReplicaSet) : List Bytes :=
  (replicaSets.filter fun rs =>
    rs.labels.get .managedBy == kamaName && rs.labels.get .component == modelDeploymentComponent &&
      hasControllerOwner rs.owners o.workload.uid (ascii "Deployment")).map ReplicaSet.uid

def ownedByAnyReplicaSet (references : List OwnerReference) (replicaSetUIDs : List Bytes) : Bool :=
  references.any fun r =>
    r.controller && r.kind == replicaSetKind && replicaSetUIDs.contains r.uid

/-- The Pod runs the current fingerprint for the deployment and is not being deleted. -/
def current (owned : List Bytes) (pod : ServingPod) : Bool :=
  pod.labels.get .managedBy == kamaName && pod.labels.get .component == modelDeploymentComponent &&
    (pod.annotations.lookup runtimeFingerprintKey).getD [] == o.fingerprint && !pod.terminating &&
    ownedByAnyReplicaSet pod.owners owned

/-- The loop over the Pods: the one that is asked, and the number of ready replicas. -/
def observePods (owned : List Bytes) (pods : List ServingPod) : Option ServingPod × Nat :=
  pods.foldl
    (fun (currentPod, readyReplicas) pod =>
      if current o owned pod then
        (if currentPod.all fun c => pod.created < c.created then some pod else currentPod,
          if podConditionTrue pod.conditions podReady then
            if readyReplicas = 0 then 1 else readyReplicas
          else readyReplicas)
      else (currentPod, readyReplicas))
    (none, 0)

/-- The answer of the supervisor, if it is about this deployment and fingerprint. -/
def supervisorAnswer (currentPod : Option ServingPod) : Option SupervisorState := do
  let pod ← currentPod
  if pod.podIP = [] then none
  else
    let observed ← o.supervisor pod.podIP
    if observed.deploymentUID = o.deployment.uid ∧
        observed.deploymentFingerprint = o.fingerprint then some observed
    else none

def defaultConcurrency : Int := 1

def maximumConcurrency : Int := 128

/-- `supervisorStateMatches`, of an answer that is available. -/
def supervisorStateMatches (state : SupervisorState) : Bool :=
  let configured := o.deployment.desiredConcurrency.getD 0
  let expectedConcurrency := if configured = 0 then defaultConcurrency else configured
  state.ready && state.phase == RuntimeState.ready.text &&
    state.deploymentUID == o.deployment.uid && state.deploymentFingerprint == o.fingerprint &&
    state.mode == o.deployment.mode.text && state.llamaCommit == o.llamaCommit &&
    validRuntimeCommit state.llamaCommit && state.desiredConcurrency == expectedConcurrency &&
    state.effectiveContextTokens.any (fun tokens => decide (1 ≤ tokens)) &&
    o.deployment.maxContextTokens.all (fun tokens => state.effectiveContextTokens == some tokens) &&
    (o.deployment.mode != .accelerator ||
      state.acceleratorDetected && state.visibleAccelerators == some 1 &&
        state.totalLayers.any (fun total =>
          decide (1 ≤ total) && state.offloadedLayers == some total))

/-- The endpoint is a ready, non-terminating one of the Pod. -/
def servesPod (pod : ServingPod) (endpoint : Endpoint) : Bool :=
  endpoint.ready == some true && endpoint.terminating != some true &&
    endpoint.target.any fun target =>
      target.name == pod.name && (target.kind == [] || target.kind == ascii "Pod") &&
        (target.namespace_ == [] || target.namespace_ == pod.namespace_) &&
        (target.uid == [] || pod.uid == [] || target.uid == pod.uid)

def servingEndpointReady (pod : Option ServingPod) : Except ApiErr Bool :=
  match pod with
  | none => .ok false
  | some pod => o.endpoints.map fun endpoints => endpoints.any (servesPod pod)

/-! ## The status -/

/-- The status, reason and message of a condition. -/
abbrev Report := ConditionStatus × Bytes × Bytes

def resourceCondition (pod : Option ServingPod) : Report :=
  match pod with
  | none =>
    (.conditionFalse, runtimePendingReason,
      ascii "serving Pod has not been created by the Deployment controller")
  | some pod =>
    match pod.conditions.find? fun c => c.type = podScheduled with
    | none =>
      (.conditionFalse, ascii "SchedulingPending", ascii "serving Pod has no scheduling decision")
    | some c =>
      if c.status = .conditionTrue then
        (.conditionTrue, ascii "Scheduled",
          ascii "serving Pod has been assigned to a compatible node")
      else (.conditionFalse, boundedConditionReason c.reason (ascii "Unschedulable"), c.message)

def setDeploymentCondition (type : DeploymentCondition) (report : Report)
    (conditions : List (Condition DeploymentCondition)) :
    List (Condition DeploymentCondition) :=
  setStatusCondition (o.now type)
    ⟨type, report.1, o.deployment.generation, 0,
      boundedConditionReason report.2.1 (ascii "Unknown"), boundMessage (o.sanitize report.2.2)⟩
    conditions

def degradedCondition : Report :=
  match o.deployment.mode with
  | .cpu =>
    (.conditionTrue, ascii "CPUOnlyRequested",
      ascii "CPU mode is supported with reduced performance guarantees")
  | .accelerator =>
    (.conditionFalse, ascii "AcceleratorRequested",
      ascii "no intentional runtime degradation is configured")

/-- The runtime status before it is known whether the answer matches. -/
def runtimeStatus (currentPod : Option ServingPod) (answer : Option SupervisorState) :
    RuntimeStatus :=
  let status : RuntimeStatus :=
    { state := .initializing
      desiredImage := o.image
      observedImage :=
        (currentPod.bind fun pod =>
          pod.containerStatuses.lookup runtimeContainerName).getD []
      llamaCommit := []
      desiredFingerprint := o.fingerprint
      observedFingerprint := []
      loadedFingerprint :=
        if o.deployment.status.runtime.any fun r => r.loadedFingerprint == o.fingerprint then
          o.fingerprint
        else []
      effectiveContextTokens := none
      effectiveConcurrency := 0
      acceleratorDetected := none
      offloadedLayers := none }
  match answer with
  | none => status
  | some state =>
    { status with
      state := boundedRuntimeState state.phase
      observedFingerprint :=
        if validRuntimeFingerprint state.deploymentFingerprint then state.deploymentFingerprint
        else []
      effectiveContextTokens := state.effectiveContextTokens.filter fun tokens => 0 < tokens
      effectiveConcurrency :=
        if 1 ≤ state.desiredConcurrency ∧ state.desiredConcurrency ≤ maximumConcurrency then
          state.desiredConcurrency
        else 0
      acceleratorDetected := some state.acceleratorDetected
      offloadedLayers := state.offloadedLayers.filter fun layers => 0 ≤ layers
      llamaCommit := if validRuntimeCommit state.llamaCommit then state.llamaCommit else [] }

/-- Why the runtime is not ready. -/
def pendingCondition (readyReplicas : Nat) (answer : Option SupervisorState)
    (runtimeContractReady : Bool) (state : RuntimeState) : Report :=
  let pending := (runtimePendingReason, ascii "serving Pod has not completed model loading")
  let (reason, message) :=
    match answer with
    | none => pending
    | some observed =>
      if observed.reason ≠ [] then
        (boundedConditionReason observed.reason (ascii "RuntimeNotReady"), observed.message)
      else pending
  let (reason, message) :=
    if 0 < readyReplicas ∧ runtimeContractReady = false ∧
        answer.any fun observed => observed.ready && observed.phase == RuntimeState.ready.text then
      (ascii "RuntimeContractMismatch",
        ascii "supervisor state does not match the expected runtime configuration and build" ++
          ascii " identity")
    else (reason, message)
  if state = .loadFailed ∨ state = .exited then
    (.conditionFalse, if reason = runtimePendingReason then state.text else reason,
      if message = [] then
        ascii "runtime child exited and will not be restarted inside this Pod"
      else message)
  else (.conditionFalse, reason, message)

/-- The reports for `RuntimeReady` and `Serving`. -/
def readyConditions (runtimeReady endpointReady : Bool) (pending : Report) : Report × Report :=
  if runtimeReady then
    ((.conditionTrue, ascii "Loaded",
        ascii "runtime loaded the current artifact and configuration"),
      if endpointReady then
        (.conditionTrue, ascii "Available",
          ascii "current runtime fingerprint has a ready Service endpoint")
      else
        (.conditionFalse, ascii "EndpointPending",
          ascii "current runtime is ready but is not yet published in a ready EndpointSlice"))
  else
    (pending, (.conditionFalse, ascii "RuntimeNotReady",
      ascii "Service has no ready endpoint for the current runtime fingerprint"))

/-- The answer of the supervisor matches what the deployment expects. -/
def runtimeContractReady (currentPod : Option ServingPod) : Bool :=
  (supervisorAnswer o currentPod).any (supervisorStateMatches o)

def runtimeReady (currentPod : Option ServingPod) (readyReplicas : Nat) : Bool :=
  decide (0 < readyReplicas) && runtimeContractReady o currentPod

/-- The status that is built from the Pods and the endpoints. -/
def deploymentStatus (currentPod : Option ServingPod) (readyReplicas : Nat)
    (endpointReady : Bool) : DeploymentStatus :=
  let answer := supervisorAnswer o currentPod
  let contractReady := runtimeContractReady o currentPod
  let runtime := runtimeStatus o currentPod answer
  let reports := readyConditions (runtimeReady o currentPod readyReplicas) endpointReady
    (pendingCondition readyReplicas answer contractReady runtime.state)
  { observedGeneration := o.deployment.generation
    artifact := some o.artifact
    runtime := some
      (if contractReady then { runtime with loadedFingerprint := o.fingerprint } else runtime)
    deploymentRef := some o.workload
    serviceRef := some o.service
    desiredReplicas := 1
    readyReplicas := readyReplicas
    conditions :=
      setDeploymentCondition o .degraded (degradedCondition o)
        (setDeploymentCondition o .serving reports.2
          (setDeploymentCondition o .runtimeReady reports.1
            (setDeploymentCondition o .resourcesAvailable (resourceCondition currentPod)
              (setDeploymentCondition o .artifactReady
                (o.artifactStatus, o.artifactReason, o.artifactMessage)
                o.deployment.status.conditions)))) }

/-- The EndpointSlices are read only where the runtime is ready. -/
def endpointReady (currentPod : Option ServingPod) (readyReplicas : Nat) : Except ApiErr Bool :=
  if runtimeReady o currentPod readyReplicas then servingEndpointReady o currentPod else .ok false

/-- `observeRuntime`, up to `persistDeploymentStatus`. -/
def observeRuntime : Except ApiErr DeploymentStatus := do
  let owned := ownedServingReplicaSetUIDs o (← o.replicaSets)
  let found := observePods o owned (← o.pods)
  let serving ← endpointReady o found.1 found.2
  pure (deploymentStatus o found.1 found.2 serving)

end Kama.Controller.Serving
