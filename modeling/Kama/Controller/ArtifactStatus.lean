import Kama.Controller.ModelArtifact

/-!
# The status of a model artifact

The statuses that a reconcile of a `ModelArtifact` writes: `importingStatus` while an importer
runs (`markImporting`), `failureStatus` when something is wrong (`artifactFailure`) and
`completeStatus` once a result has been verified (`completeArtifact`).

* `InRange` is about the numbers in it. The size is always the sum of the sizes, but the number of
  shards is whatever the importer says (`inRange_completeStatus_iff`, `shardCount_negative`).

The clock is read once for a status.
-/

namespace Kama.Controller

open Bytes Json Artifact

/-! ## Conditions -/

section Conditions

variable {τ : Type} [DecidableEq τ]

/-- The conditions after a series of `meta.SetStatusCondition`. -/
def setConditions (now : Nat) (updates : List (Condition τ)) (conditions : List (Condition τ)) :
    List (Condition τ) :=
  updates.foldl (fun conditions c => setStatusCondition now c conditions) conditions

theorem findStatusCondition_set {now : Nat} {c : Condition τ} {conditions : List (Condition τ)}
    {type : τ} (h : type ≠ c.type) :
    findStatusCondition (setStatusCondition now c conditions) type =
      findStatusCondition conditions type := by
  have hne : ¬c.type = type := fun hc => h hc.symm
  unfold setStatusCondition
  cases hfound : findStatusCondition conditions c.type with
  | none => simp [findStatusCondition, List.find?_append, hne]
  | some existing =>
    simp only
    generalize (if existing.status = c.status then existing.lastTransitionTime else now) = time
    unfold findStatusCondition
    rw [List.find?_map]
    clear hfound
    induction conditions with
    | nil => rfl
    | cons old rest ih =>
      by_cases hold : old.type = c.type
      · simpa [hold, hne] using ih
      · by_cases htype : old.type = type
        · simp [htype, h]
        · simpa [hold, htype] using ih

theorem status_findStatusCondition_set (now : Nat) (c : Condition τ)
    (conditions : List (Condition τ)) :
    (findStatusCondition (setStatusCondition now c conditions) c.type).map Condition.status =
      some c.status := by
  unfold setStatusCondition
  cases hfound : findStatusCondition conditions c.type with
  | none =>
    have hnone : conditions.find? (fun old => decide (old.type = c.type)) = none := hfound
    simp [findStatusCondition, List.find?_append, hnone]
  | some existing =>
    simp only
    generalize (if existing.status = c.status then existing.lastTransitionTime else now) = time
    unfold findStatusCondition at hfound ⊢
    induction conditions with
    | nil => cases hfound
    | cons old rest ih =>
      by_cases hold : old.type = c.type
      · simp [hold]
      · simp only [List.find?_cons, hold, decide_false] at hfound
        simpa [hold] using ih hfound

theorem isStatusConditionTrue_set (now : Nat) (c : Condition τ) (conditions : List (Condition τ))
    (type : τ) :
    isStatusConditionTrue (setStatusCondition now c conditions) type =
      if type = c.type then decide (c.status = .conditionTrue)
      else isStatusConditionTrue conditions type := by
  unfold isStatusConditionTrue
  split
  case isTrue h =>
    subst h
    have hstatus := status_findStatusCondition_set now c conditions
    obtain ⟨found, hfound, heq⟩ := Option.map_eq_some_iff.1 hstatus
    rw [hfound, Option.any_some, heq]
  case isFalse h => rw [findStatusCondition_set h]

/-- What the last of the updates of a condition says is what holds after them. -/
theorem isStatusConditionTrue_setConditions {now : Nat} {updates : List (Condition τ)}
    {conditions : List (Condition τ)} {type : τ} (b : Bool) (hmem : ∃ c ∈ updates, c.type = type)
    (hall : ∀ c ∈ updates, c.type = type → decide (c.status = .conditionTrue) = b) :
    isStatusConditionTrue (setConditions now updates conditions) type = b := by
  have key : ∀ (updates : List (Condition τ)) (conditions : List (Condition τ)),
      (∀ c ∈ updates, c.type = type → decide (c.status = .conditionTrue) = b) →
      ((∃ c ∈ updates, c.type = type) ∨ isStatusConditionTrue conditions type = b) →
      isStatusConditionTrue (setConditions now updates conditions) type = b := by
    intro updates
    induction updates with
    | nil =>
      rintro conditions - (⟨c, hc, -⟩ | h)
      · cases hc
      · exact h
    | cons c updates ih =>
      intro conditions hall h
      refine ih (setStatusCondition now c conditions)
        (fun c' hc' => hall c' (List.mem_cons_of_mem _ hc')) ?_
      rw [isStatusConditionTrue_set]
      split
      case isTrue htype => exact .inr (hall c (List.mem_cons_self ..) htype.symm)
      case isFalse htype =>
        rcases h with ⟨c', hc', heq⟩ | h
        · rcases List.mem_cons.1 hc' with rfl | hc'
          · exact absurd heq.symm htype
          · exact .inl ⟨c', hc', heq⟩
        · exact .inr h
  exact key updates conditions hall (.inl hmem)

end Conditions

/-! ## Messages -/

/-- Each run of bytes that belong to no character as one U+FFFD. -/
def replaceInvalid : Bool → List Utf8.Piece → List Bytes
  | _, [] => []
  | _, .char c :: rest => c :: replaceInvalid false rest
  | inRun, .bad _ :: rest =>
    (if inRun then [] else [Utf8.replacement]) ++ replaceInvalid true rest

/-- `sanitizeConditionMessage`, after `artifact.Sanitize`. -/
def boundMessage (message : Bytes) : Bytes :=
  ((replaceInvalid false (Utf8.pieces message)).take 1024).flatten

/-- A condition of the artifact's generation, before `meta.SetStatusCondition`. -/
def condition {τ : Type} (a : ModelArtifact) (type : τ) (status : Bool) (reason message : Bytes) :
    Condition τ :=
  ⟨type, boolConditionStatus status, a.generation, 0, reason, message⟩

def failureNotPresent : Bytes := ascii "failure is not present"

def artifactFailureConditions : List ArtifactCondition :=
  [.invalidGGUF, .checksumMismatch, .missingShard, .insufficientStorage, .sourceUnavailable]

/-! ## Statuses -/

def importingConditions (a : ModelArtifact) (reason message : Bytes) :
    List (Condition ArtifactCondition) :=
  [condition a .storageReady true (ascii "StorageAvailable")
      (ascii "source and cache storage are available"),
    condition a .importing true reason message,
    condition a .ready false reason message,
    condition a .sourceResolved false reason (ascii "source resolution is not complete"),
    condition a .verified false reason (ascii "artifact verification is not complete")] ++
  artifactFailureConditions.map fun type => condition a type false reason failureNotPresent

/-- The status that `markImporting` writes. -/
def importingStatus (now : Nat) (a : ModelArtifact) (jobRef : Option ModelArtifactJobReference)
    (reason message : Bytes) : ModelArtifactStatus :=
  { a.status with
    observedGeneration := a.generation
    jobRef := jobRef
    conditions := setConditions now (importingConditions a reason message) a.status.conditions }

/-- The source was resolved before the failure. -/
def failureSourceResolved (type : ArtifactCondition) (reason : Bytes) : Bool :=
  decide (type ≠ .sourceUnavailable ∧ type ≠ .storageReady ∧ reason ≠ Reason.invalidSpec.text ∧
    reason ≠ Reason.unsafePath.text)

def failureConditions (a : ModelArtifact) (type : ArtifactCondition) (reason message : Bytes) :
    List (Condition ArtifactCondition) :=
  let storage := decide (type ≠ .storageReady)
  let source := failureSourceResolved type reason
  [condition a .ready false reason message,
    condition a .importing false reason (ascii "artifact operation is not running"),
    condition a type true reason message] ++
  (artifactFailureConditions.filter (· ≠ type)).map
    (fun other => condition a other false reason failureNotPresent) ++
  [condition a .verified false reason (ascii "artifact verification did not succeed"),
    condition a .storageReady storage reason
      (if storage then ascii "source and cache storage were available for the operation"
        else ascii "source or cache storage is unavailable"),
    condition a .sourceResolved source reason
      (if source then ascii "artifact source resolved before validation failed"
        else ascii "artifact source is not resolved")] ++
  (if storage then [] else [condition a .storageReady false reason message])

/-- The status that `artifactFailure` writes; the message has been sanitized. -/
def failureStatus (now : Nat) (a : ModelArtifact) (type : ArtifactCondition)
    (reason message : Bytes) : ModelArtifactStatus :=
  { a.status with
    observedGeneration := a.generation
    conditions := setConditions now (failureConditions a type reason message) a.status.conditions }

def successConditions (a : ModelArtifact) : List (Condition ArtifactCondition) :=
  [ArtifactCondition.sourceResolved, .storageReady, .verified, .ready].map
    (fun type => condition a type true (ascii "Succeeded")
      (ascii "artifact source and verified storage are ready")) ++
  [condition a .importing false (ascii "Complete") (ascii "artifact operation completed")] ++
  artifactFailureConditions.map fun type =>
    condition a type false (ascii "Succeeded") failureNotPresent

/-- The sum of the sizes, as an `int64`. -/
def totalSize (files : List FileRecord) : Int64 :=
  files.foldl (fun total file => total + file.size) 0

/-- Where the content is. -/
def completeLocation (location : Option ModelArtifactLocationStatus) (mode publishedPath : Bytes) :
    Option ModelArtifactLocationStatus :=
  location.map fun l => if mode = modeDirect then l else { l with subPath := publishedPath }

/-- The status that `completeArtifact` writes for a result with this manifest and metadata. -/
def completeStatus (now : Nat) (a : ModelArtifact) (storage : ArtifactStorage) (result : Result)
    (manifest : Manifest) (gguf : Gguf.Metadata) (jobRef : ModelArtifactJobReference) :
    ModelArtifactStatus :=
  { a.status with
    observedGeneration := a.generation
    resolvedRevision := result.resolvedRevision
    files := manifest.files
    artifactDigest := result.artifactDigest
    size := totalSize manifest.files
    architecture := gguf.architecture
    quantization := gguf.quantization
    shardCount := Int32.ofNat gguf.shardCount
    validatedAt := some now
    jobRef := some jobRef
    location := completeLocation storage.location result.mode result.publishedPath
    conditions := setConditions now (successConditions a) a.status.conditions }

/-- The identity that a result with this manifest gives an artifact. -/
def resultIdentity (result : Result) (manifest : Manifest) : Identity :=
  ⟨result.resolvedRevision, manifest.files, result.artifactDigest, totalSize manifest.files⟩

/-! ## Ready -/

def ModelArtifactStatus.isReady (status : ModelArtifactStatus) : Bool :=
  isStatusConditionTrue status.conditions .ready

/-! ## The size of the files -/

theorem totalSize_of_aggregateSize {files : List FileRecord} {total : Int64}
    (h : aggregateSize 0 files = some total) : totalSize files = total := by
  unfold totalSize
  generalize (0 : Int64) = start at h ⊢
  induction files generalizing start with
  | nil => exact Option.some.inj h
  | cons file files ih =>
    rw [aggregateSize] at h
    split at h
    · cases h
    · exact ih (start + file.size) h

/-- The sizes of a result that is believed add up without overflow. -/
theorem toInt_totalSize {spec : Spec} {result : Result} {manifest : Manifest}
    (h : Believed spec result manifest) :
    (totalSize manifest.files).toInt = (manifest.files.map fun file => file.size.toInt).sum := by
  obtain ⟨total, htotal⟩ := Option.isSome_iff_exists.1 h.total
  rw [totalSize_of_aggregateSize htotal, toInt_aggregateSize htotal (by decide)
    fun r hr => ((validateManifest_ok h.valid).record r hr).2.1]
  exact Int.zero_add _

/-! ## The numbers of a status -/

/-- The numbers that a status takes from a result are in range. -/
structure InRange (status : ModelArtifactStatus) (manifest : Manifest) (gguf : Gguf.Metadata) :
    Prop where
  size : status.size.toInt = (manifest.files.map fun file => file.size.toInt).sum
  shards : status.shardCount.toInt = gguf.shardCount
  shards_pos : 1 ≤ status.shardCount.toInt
  shards_le : status.shardCount.toInt ≤ manifest.files.length

theorem toInt_ofNat_shards {n : Nat} (h : n ≤ maxSelectedFiles) : (Int32.ofNat n).toInt = n := by
  have hmax : maxSelectedFiles = 128 := rfl
  exact Int32.toInt_ofNat_of_lt (by omega)

/-- **The numbers are in range if and only if the reported number of shards is.** Nothing checks
that number before it is narrowed. -/
theorem inRange_completeStatus_iff {operation : Bytes} {spec : Spec} {result : Result}
    {manifest : Manifest} (hok : validateSuccessfulResult spec operation result = .ok ())
    (hmanifest : result.manifest = some manifest) (gguf : Gguf.Metadata) (now : Nat)
    (a : ModelArtifact) (storage : ArtifactStorage) (jobRef : ModelArtifactJobReference) :
    InRange (completeStatus now a storage result manifest gguf jobRef) manifest gguf ↔
      1 ≤ gguf.shardCount ∧ gguf.shardCount ≤ manifest.files.length := by
  obtain ⟨manifest', hbelieved⟩ := validateSuccessfulResult_ok hok
  obtain rfl : manifest = manifest' := Option.some.inj (hmanifest.symm.trans hbelieved.manifest_eq)
  constructor
  · intro h
    have hpos := h.shards_pos
    have hle := h.shards_le
    rw [h.shards] at hpos hle
    omega
  · rintro ⟨hpos, hle⟩
    have hshards : (completeStatus now a storage result manifest gguf jobRef).shardCount.toInt =
        gguf.shardCount := toInt_ofNat_shards (hle.trans (length_files_le hbelieved.valid))
    exact ⟨toInt_totalSize hbelieved, hshards, by omega, by omega⟩

/-- An artifact in a directory of a claim, to be used where it is. -/
def directArtifact : ModelArtifact where
  name := ascii "model"
  uid := ascii "01234567-89ab-4cde-8f01-23456789abcd"
  generation := 1
  deleting := false
  finalizers := []
  spec :=
    { format := formatGGUF
      entrypoint := ascii "m.gguf"
      source := ⟨none, some ⟨ascii "models", ascii "llama", pvcImportPolicyDirect⟩⟩
      cacheRef := none
      verification := ⟨[], none⟩ }
  status := ⟨0, [], [], [], 0, [], [], 0, none, none, none, [], []⟩

def directManifest : Manifest :=
  ⟨schemaVersion, formatGGUF, ascii "m.gguf", [⟨ascii "m.gguf", 7, List.replicate 64 97⟩]⟩

def directMetadata (shardCount : Nat) : Gguf.Metadata :=
  ⟨3, ascii "llama", ascii "F16", shardCount, 1⟩

/-- The result of its import, with this number of shards. -/
def directResult (shardCount : Nat) : Result :=
  { Result.zero with
    schemaVersion := schemaVersion
    mode := modeDirect
    operationID := ascii "op"
    success := true
    artifactDigest := List.replicate 64 97
    manifest := some directManifest
    gguf := some (directMetadata shardCount)
    publishedPath := ascii "llama" }

/-- The same as it stands in the log. -/
def directPayload (shardCount : Nat) : Bytes :=
  ascii "\x7b\"schemaVersion\":1,\"mode\":\"direct\",\"operationID\":\"op\",\"success\":true," ++
  ascii "\"artifactDigest\":\"" ++ List.replicate 64 97 ++
  ascii "\",\"manifest\":\x7b\"schemaVersion\":1,\"format\":\"GGUF\",\"entrypoint\":\"m.gguf\"," ++
  ascii "\"files\":[\x7b\"path\":\"m.gguf\",\"size\":7,\"sha256\":\"" ++ List.replicate 64 97 ++
  ascii "\"\x7d]\x7d,\"gguf\":\x7b\"version\":3,\"architecture\":\"llama\"," ++
  ascii "\"quantization\":\"F16\"," ++
  ascii "\"shardCount\":" ++ natDigits shardCount ++
  ascii ",\"tensorCount\":1\x7d,\"publishedPath\":\"llama\"\x7d"

theorem inRange_oneShard :
    parseResult (directPayload 1) = .ok (directResult 1) ∧
      InRange (completeStatus 0 directArtifact .zero (directResult 1) directManifest
        (directMetadata 1) ⟨[], []⟩) directManifest (directMetadata 1) := by
  have hok : validateSuccessfulResult (importerSpec [] directArtifact (ascii "op")) (ascii "op")
      (directResult 1) = .ok () := by decide +kernel
  refine ⟨by decide +kernel, ?_⟩
  exact (inRange_completeStatus_iff hok rfl (directMetadata 1) _ _ _ _).2 ⟨by decide, by decide⟩

/-- With 2³² - 1 reported shards the status says -1. -/
theorem shardCount_negative :
    parseResult (directPayload 4294967295) = .ok (directResult 4294967295) ∧
      validateSuccessfulResult (importerSpec [] directArtifact (ascii "op")) (ascii "op")
        (directResult 4294967295) = .ok () ∧
      (completeStatus 0 directArtifact .zero (directResult 4294967295) directManifest
        (directMetadata 4294967295) ⟨[], []⟩).shardCount = -1 ∧
      ¬InRange (completeStatus 0 directArtifact .zero (directResult 4294967295) directManifest
        (directMetadata 4294967295) ⟨[], []⟩) directManifest (directMetadata 4294967295) := by
  refine ⟨by decide +kernel, by decide +kernel, by decide, fun h => ?_⟩
  exact absurd h.shards_pos (by decide)

end Kama.Controller
