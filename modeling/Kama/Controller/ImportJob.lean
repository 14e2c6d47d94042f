import Kama.Controller.Cluster

/-!
# Importer Jobs

The Jobs and ConfigMaps that `common.go` generates, the checks of an object that is already there
under the name of a generated one, and the result of a Job: the last line of the log of one of its
Pods, or the summary in a termination message.

* `newSpecConfigMap`, `newImportJob`: what is created.
* `ensureObject`: it is created, or what is there has been validated against it.
* `readJobResult`: the Pods are asked from the youngest on.

The error of a result that cannot be read is only told apart from success by the callers.
-/

namespace Kama.Controller

open Bytes Json Api Program Artifact

structure ImporterOptions where
  image : Bytes
  pullPolicy : Bytes
  imagePullSecrets : List Bytes
  hubEndpoint : Bytes
  deriving DecidableEq, Repr

/-- What a controller is configured with, and what it takes from its surroundings: the text of an
identity, of an error, and a text without credentials. -/
structure Options where
  importer : ImporterOptions
  uidText : Nat → Bytes
  uidText_injective : Function.Injective uidText
  errorText : Err → Bytes
  sanitize : Bytes → Bytes
  rules : NameRules

/-! ## Generated objects -/

def artifactCleanupComponent : Bytes := ascii "artifact-cleanup"
def modelCacheComponent : Bytes := ascii "model-cache"
def modelDeploymentComponent : Bytes := ascii "model-serving"
def importerContainer : Bytes := ascii "importer"
def runtimeContainerName : Bytes := ascii "runtime"
def importSpecKey : Bytes := ascii "spec.json"
def importSpecMount : Bytes := ascii "/etc/kama/import"
def importSpecPath : Bytes := importSpecMount ++ ascii "/" ++ importSpecKey
def terminationLogPath : Bytes := ascii "/dev/termination-log"
def specVolumeName : Bytes := ascii "spec"
def cacheVolumeName : Bytes := ascii "cache"
def sourceVolumeName : Bytes := ascii "source"
def tokenName : Bytes := ascii "token"

def artifactKind : Bytes := ascii "ModelArtifact"
def cacheKind : Bytes := ascii "ModelCache"
def jobKind : Bytes := ascii "Job"

/-- The controller reference of an owner. -/
def ownerReference (kind uid : Bytes) : List OwnerReference := [⟨kind, uid, true⟩]

def newSpecConfigMap (owners : List OwnerReference) (spec : Spec) : ConfigMap where
  labels := [(.managedBy, kamaName), (.component, artifactImportComponent)]
  owners := owners
  data := [(importSpecKey, spec.encode)]
  binaryData := []
  immutable := true

structure ImportJobOptions where
  owners : List OwnerReference
  configMapName : Bytes
  cacheClaim : Bytes
  sourceClaim : Bytes
  tokenSecret : Option SecretKeyReference
  operationID : Bytes
  /-- in seconds -/
  activeTimeout : Nat
  deriving DecidableEq, Repr

def defaultActiveTimeout : Nat := 24 * 60 * 60

def importVolumes (options : ImportJobOptions) : List Volume :=
  [⟨specVolumeName, .configMap options.configMapName (some 0o644)⟩] ++
  (if options.cacheClaim = [] then [] else [⟨cacheVolumeName, .claim options.cacheClaim false⟩]) ++
  (if options.sourceClaim = [] then []
    else [⟨sourceVolumeName, .claim options.sourceClaim true⟩]) ++
  (options.tokenSecret.map fun ref => (⟨tokenName, .secret ref.name (some 0o440)
    [⟨ref.key, tokenName, some 0o440⟩]⟩ : Volume)).toList

def importMounts (options : ImportJobOptions) : List VolumeMount :=
  [⟨specVolumeName, importSpecMount, [], true⟩] ++
  (if options.cacheClaim = [] then [] else [⟨cacheVolumeName, cacheMountPath, [], false⟩]) ++
  (if options.sourceClaim = [] then [] else [⟨sourceVolumeName, sourceMountPath, [], true⟩]) ++
  (options.tokenSecret.map fun _ => (⟨tokenName, tokenMountPath, [], true⟩ : VolumeMount)).toList

def importerUser : Nat := 65532

/-- The group of the importer is given the content of a cache, never that of a source. -/
def importSecurity (options : ImportJobOptions) : PodSecurity where
  runAsNonRoot := true
  runAsUser := importerUser
  runAsGroup := importerUser
  seccompProfile := ascii "RuntimeDefault"
  fsGroup :=
    if options.cacheClaim ≠ [] ∧ options.sourceClaim = [] then some importerUser else none
  fsGroupChangePolicy :=
    if options.cacheClaim ≠ [] ∧ options.sourceClaim = [] then some (ascii "OnRootMismatch")
    else none

def importContainer (importer : ImporterOptions) (options : ImportJobOptions) : Container where
  name := importerContainer
  image := importer.image
  imagePullPolicy := importer.pullPolicy
  args := [ascii "--spec-file=" ++ importSpecPath, ascii "--result-file=" ++ terminationLogPath]
  terminationMessagePath := terminationLogPath
  terminationMessagePolicy := ascii "File"
  securityContext := some ⟨false, true, true, importerUser, importerUser, [ascii "ALL"]⟩
  resources := some ⟨25, 64 * 2 ^ 20, 2000, 2 ^ 30⟩
  volumeMounts := importMounts options
  unexpected := []

/-- The labels of a Job and of its Pods. -/
def importLabels (component operation : Bytes) : Labels :=
  [(.managedBy, kamaName), (.component, component), (.operationID, operation)]

def newImportJob (importer : ImporterOptions) (options : ImportJobOptions) : Job where
  labels := importLabels artifactImportComponent options.operationID
  owners := options.owners
  backoffLimit := some 0
  activeDeadlineSeconds :=
    some (if options.activeTimeout = 0 then defaultActiveTimeout else options.activeTimeout)
  unexpected := []
  templateLabels := importLabels artifactImportComponent options.operationID
  template :=
    { automountServiceAccountToken := some false
      enableServiceLinks := some false
      restartPolicy := ascii "Never"
      imagePullSecrets := importer.imagePullSecrets
      serviceAccountName := []
      securityContext := some (importSecurity options)
      containers := [importContainer importer options]
      volumes := importVolumes options
      schedulingGates := []
      unexpected := [] }
  complete := false
  failed := false

/-! ## Objects that are already there -/

def ownerIdentityMatches (desired existing : List OwnerReference) : Bool :=
  match desired.find? OwnerReference.controller with
  | some r => hasControllerOwner existing r.uid []
  | none => desired.isEmpty && existing.isEmpty

def validateExistingConfigMap (name : Bytes) (desired existing : ConfigMap) : Except Err Unit := do
  if ownerIdentityMatches desired.owners existing.owners = false then
    throw (.text "refusing ConfigMap %s/%s with mismatched owner identity" [name])
  if requiredLabelsMatch desired.labels existing.labels = false ∨ desired.data ≠ existing.data ∨
      desired.binaryData ≠ existing.binaryData ∨ existing.immutable = false then
    throw (.text "refusing ConfigMap %s/%s with mismatched immutable importer input" [name])

def sameContainer (desired existing : Container) : Bool :=
  decide (existing.name = desired.name ∧ existing.image = desired.image ∧
    existing.imagePullPolicy = desired.imagePullPolicy ∧ existing.args = desired.args ∧
    existing.resources = desired.resources ∧ existing.volumeMounts = desired.volumeMounts ∧
    existing.terminationMessagePath = desired.terminationMessagePath ∧
    existing.terminationMessagePolicy = desired.terminationMessagePolicy ∧
    existing.securityContext = desired.securityContext ∧ existing.unexpected = [])

def validateExistingPodSpec (desired existing : PodSpec) : Except Err Unit :=
  match desired.containers, existing.containers with
  | [desiredContainer], [existingContainer] => do
    if existing.unexpected ≠ [] ∨ existing.automountServiceAccountToken ≠ some false ∨
        existing.enableServiceLinks ≠ some false ∨
        existing.restartPolicy ≠ desired.restartPolicy ∨
        existing.securityContext ≠ desired.securityContext ∨
        existing.imagePullSecrets ≠ desired.imagePullSecrets ∨
        existing.volumes ≠ desired.volumes then
      throw (.text "pod security, scheduling, or volume contract differs" [])
    if existing.serviceAccountName ≠ [] ∧ existing.serviceAccountName ≠ ascii "default" then
      throw (.text "pod uses an unexpected service account" [])
    if sameContainer desiredContainer existingContainer = false then
      throw (.text "importer container contract differs" [])
  | _, _ => .error (.text "pod security, scheduling, or volume contract differs" [])

def validateExistingJob (name : Bytes) (desired existing : Job) : Except Err Unit := do
  if ownerIdentityMatches desired.owners existing.owners = false then
    throw (.text "refusing Job %s/%s with mismatched owner identity" [name])
  if requiredLabelsMatch desired.labels existing.labels = false ∨
      requiredLabelsMatch desired.templateLabels existing.templateLabels = false then
    throw (.text "refusing Job %s/%s with mismatched operation labels" [name])
  if desired.backoffLimit = none ∨ existing.backoffLimit ≠ desired.backoffLimit ∨
      desired.activeDeadlineSeconds = none ∨
      existing.activeDeadlineSeconds ≠ desired.activeDeadlineSeconds ∨
      existing.unexpected ≠ [] then
    throw (.text "refusing Job %s/%s with mismatched execution policy" [name])
  (validateExistingPodSpec desired.template existing.template).mapError
    (.wrap "refusing Job %s/%s: %w" [name])

/-- The object is created, or the one under its name passes `validate`. -/
def ensureObject {γ : Type} (r : Resource γ) (validate : Bytes → γ → γ → Except Err Unit)
    (name : Bytes) (desired : γ) : Act (Object Bytes γ) := do
  match ← createAs r name desired with
  | .ok o => pure o
  | .error .alreadyExists =>
    match ← getAs r name with
    | .error err => throw (.api err)
    | .ok existing =>
      match validate name desired existing.body with
      | .error err => throw err
      | .ok () => pure existing
  | .error err => throw (.api err)

/-- The error of a part of the code, with what was being done. -/
def withContext {α : Type} (format : String) (p : Act α) : Act α := do
  match ← attempt p with
  | .ok a => pure a
  | .error err => throw (.wrap format [] err)

/-! ## Results -/

/-- The last line of a log. -/
def tailLine (log : Bytes) : Bytes :=
  let line := if log.getLast? = some 10 then log.dropLast else log
  (line.reverse.takeWhile (· ≠ 10)).reverse ++ (if log.getLast? = some 10 then [10] else [])

/-- `GetLogs` of the importer container: one line, of a bounded length. -/
def getLogs (podName : Bytes) : Act (Except ApiErr Bytes) := do
  match ← getAs pods podName with
  | .error err => pure (.error err)
  | .ok pod =>
    match pod.body.log with
    | none => pure (.error .unavailable)
    | some log => pure (.ok ((tailLine log).take maxResultBytes))

/-- The part of a result that a termination message holds. -/
def summaryFields : Fields Result :=
  [(ascii "schemaVersion", setInt fun i r => { r with schemaVersion := Int64.ofInt i }),
    (ascii "mode", setString fun b r => { r with mode := b }),
    (ascii "operationID", setString fun b r => { r with operationID := b }),
    (ascii "success", setBool fun b r => { r with success := b }),
    (ascii "reason", setString fun b r => { r with reason := b }),
    (ascii "message", setString fun b r => { r with message := b }),
    (ascii "artifactDigest", setString fun b r => { r with artifactDigest := b })]

/-- The summary that a container left. -/
def statusSummary (status : ContainerStatus) : Option Result :=
  if status.name ≠ importerContainer then none
  else
    match status.terminatedMessage with
    | none => none
    | some message =>
      if message = [] then none
      else
        (unmarshal summaryFields Result.zero message).filter fun summary =>
          summary.schemaVersion == schemaVersion && validMode summary.mode &&
            (summary.success || validReason summary.reason)

/-- The Pod belongs to the Job and to its operation. -/
def isPodOf (uid : Bytes) (job : Job) (pod : Pod) : Bool :=
  hasControllerOwner pod.owners uid jobKind &&
    pod.labels.get .operationID == job.labels.get .operationID

def resultUnavailable : Err := .text "importer result is unavailable" []

/-- The first of the Pods that has a result. -/
def readPodResults (uid : Bytes) (job : Job) : List (Object Bytes Pod) → Act Result
  | [] => throw resultUnavailable
  | pod :: rest =>
    if isPodOf uid job pod.body = false then readPodResults uid job rest
    else do
      let answer ← getLogs pod.key
      match answer.toOption.bind fun payload => (parseResult payload).toOption with
      | some result => pure result
      | none =>
        match pod.body.containerStatuses.findSome? statusSummary with
        | some result => pure result
        | none => readPodResults uid job rest

/-- The Pods with the name of the Job, from the youngest on. -/
def jobPods (job : Bytes) (found : List (Object Bytes Pod)) : List (Object Bytes Pod) :=
  ((found.filter fun pod => pod.body.labels.get .jobName == job).mergeSort
    fun left right => decide (left.body.created ≤ right.body.created)).reverse

def readJobResult (opts : Options) (job : Object Bytes Job) : Act Result := do
  match ← listAs pods with
  | .error err => throw (.wrap "list importer Pods: %w" [] (.api err))
  | .ok found => readPodResults (opts.uidText job.uid) job.body (jobPods job.key found)

end Kama.Controller
