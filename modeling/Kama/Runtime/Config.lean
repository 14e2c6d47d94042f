import Kama.Artifact.Manifest
import Kama.Foundations.Reader
import Kama.Runtime.State

/-!
# The runtime configuration

`config.go`: the contract between the controller and a serving Pod. A `ServingConfig` (`Config` in
the source) is decoded from a ConfigMap, gets its defaults (`withDefaults`), is checked
(`validate`) and is turned into the arguments of `llama-server` (`arguments`).

* `validate_withDefaults`: the defaults pass the checks of the fields that they fill.
* `valid_of_validate`: what an accepted configuration satisfies. Its bounds are those that the
  supervisor relies on (`ServingConfig.Bounded.boundsValid`), and the product that `arguments`
  computes does not wrap around (`toInt_contextSize`).

The decoding of the JSON document is left out.
-/

namespace Kama.Runtime

open Bytes Json Reader
open Artifact (Err clean joinPath validSHA256)

variable (config : ServingConfig)

/-! ## The fields -/

def schemaVersion : Bytes := ascii "kama.runtime/v1alpha1"
def modelMountRoot : Bytes := ascii "/models"

def defaultConcurrency : Int32 := 1
def defaultDrainSeconds : Int64 := 600
def defaultBatchSize : Int32 := 2048
def defaultMicroBatchSize : Int32 := 512
def maximumArtifactFiles : Nat := 128
def minimumDrainSeconds : Int64 := 30
def maximumDrainSeconds : Int64 := 3600
def maximumDesiredConcurrency : Int32 := 128

def kvCacheF16 : Bytes := ascii "f16"
def kvCacheQ8 : Bytes := ascii "q8_0"
def kvCacheQ4 : Bytes := ascii "q4_0"
def llamaOptionOff : Bytes := ascii "off"

def modeCPU : Bytes := ascii "CPU"
def modeAccelerator : Bytes := ascii "Accelerator"

def flashAttentionAuto : Bytes := ascii "Auto"
def flashAttentionEnabled : Bytes := ascii "Enabled"
def flashAttentionDisabled : Bytes := ascii "Disabled"

structure DeploymentIdentity where
  nameSpace : Bytes
  name : Bytes
  uid : Bytes
  fingerprint : Bytes
  deriving DecidableEq, Repr

structure ArtifactFile where
  path : Bytes
  size : Int64
  sha256 : Bytes
  deriving DecidableEq, Repr

structure ArtifactIdentity where
  uid : Bytes
  digest : Bytes
  entrypoint : Bytes
  files : List ArtifactFile
  deriving DecidableEq, Repr

structure KVCacheConfig where
  keyType : Bytes
  valueType : Bytes
  deriving DecidableEq, Repr

/-- No thread count, which is 0, leaves the choice to `llama-server`. -/
structure ExpertConfig where
  batchSize : Int32
  microBatchSize : Int32
  threads : Int32
  batchThreads : Int32
  flashAttention : Bytes
  deriving DecidableEq, Repr

structure ServingConfig where
  schemaVersion : Bytes
  deployment : DeploymentIdentity
  artifact : ArtifactIdentity
  mode : Bytes
  maxContextTokens : Int64
  desiredConcurrency : Int32
  drainTimeoutSeconds : Int64
  kvCache : KVCacheConfig
  expert : ExpertConfig
  deriving DecidableEq, Repr

/-- A field that is not set takes its default. -/
def orDefault {α : Type} [DecidableEq α] (unset fallback value : α) : α :=
  if value = unset then fallback else value

/-- `Default`. -/
def ServingConfig.withDefaults : ServingConfig :=
  { config with
    desiredConcurrency := orDefault 0 defaultConcurrency config.desiredConcurrency
    drainTimeoutSeconds := orDefault 0 defaultDrainSeconds config.drainTimeoutSeconds
    kvCache :=
      { keyType := orDefault [] kvCacheF16 config.kvCache.keyType
        valueType := orDefault [] kvCacheF16 config.kvCache.valueType }
    expert :=
      { config.expert with
        batchSize := orDefault 0 defaultBatchSize config.expert.batchSize
        microBatchSize := orDefault 0 defaultMicroBatchSize config.expert.microBatchSize
        flashAttention := orDefault [] flashAttentionAuto config.expert.flashAttention } }

/-! ## Validation -/

def validateIdentity (identity : DeploymentIdentity) : Except Err Unit :=
  if Utf8.trimSpace identity.nameSpace = [] ∨ Utf8.trimSpace identity.name = [] ∨
      Utf8.trimSpace identity.uid = [] ∨ Utf8.trimSpace identity.fingerprint = [] then
    .error (.new "deployment namespace, name, uid, and fingerprint are required")
  else if 253 < identity.nameSpace.length ∨ 253 < identity.name.length ∨
      128 < identity.uid.length ∨ 128 < identity.fingerprint.length then
    .error (.new "deployment identity field exceeds its size limit")
  else .ok ()

/-- The path check of the runtime, which asks for less than that of the importer. -/
def validateRelativePath (value : Bytes) : Except Err Unit :=
  if value = [] ∨ value = ascii "." ∨ value.head? = some 47 ∨ clean value ≠ value ∨ 92 ∈ value then
    .error (.new "must be a clean POSIX relative path")
  else if value = ascii ".." ∨ ascii "../" <+: value then
    .error (.new "must remain below the model mount")
  else .ok ()

def validateArtifactFile (seen : List Bytes) (file : ArtifactFile) : Except Err Unit := do
  (validateRelativePath file.path).mapError (.wrap "artifact file %q: %w" [file.path])
  if file.path ∈ seen then throw (.text "artifact file path %q is duplicated" [file.path])
  if file.size < 1 then throw (.text "artifact file %q size must be positive" [file.path])
  if validSHA256 file.sha256 = false then
    throw (.text "artifact file %q sha256 must be lowercase hexadecimal" [file.path])

def validateArtifactFileList (seen : List Bytes) : List ArtifactFile → Except Err Unit
  | [] => .ok ()
  | file :: files => do
    validateArtifactFile seen file
    validateArtifactFileList (file.path :: seen) files

def validateArtifact (artifact : ArtifactIdentity) : Except Err Unit := do
  if Utf8.trimSpace artifact.uid = [] then throw (.new "artifact uid is required")
  if validSHA256 artifact.digest = false then
    throw (.new "artifact digest must be a lowercase SHA-256")
  (validateRelativePath artifact.entrypoint).mapError (.wrap "artifact entrypoint: %w" [])
  if artifact.files.length < 1 ∨ maximumArtifactFiles < artifact.files.length then
    throw (.text "artifact files must contain between 1 and %d entries"
      [natDigits maximumArtifactFiles])
  validateArtifactFileList [] artifact.files
  if artifact.files.all fun file => decide (file.path ≠ artifact.entrypoint) then
    throw (.new "artifact entrypoint is not present in files")

def validKVType (value : Bytes) : Bool :=
  value == kvCacheF16 || value == kvCacheQ8 || value == kvCacheQ4

/-- The checks on the context, the concurrency and the time to drain. -/
def ServingConfig.validateBounds : Except Err Unit := do
  if config.maxContextTokens < 0 then throw (.new "maxContextTokens must not be negative")
  if config.desiredConcurrency < 1 ∨ maximumDesiredConcurrency < config.desiredConcurrency then
    throw (.text "desiredConcurrency must be between 1 and %d"
      [decimal maximumDesiredConcurrency.toInt])
  if config.maxContextTokens = 0 ∧ config.desiredConcurrency ≠ 1 then
    throw (.new "model-native context requires desiredConcurrency to be 1")
  if 0 < config.maxContextTokens ∧
      Int64.maxValue / config.desiredConcurrency.toInt64 < config.maxContextTokens then
    throw (.new "maxContextTokens multiplied by desiredConcurrency overflows int64")
  if config.drainTimeoutSeconds < minimumDrainSeconds ∨
      maximumDrainSeconds < config.drainTimeoutSeconds then
    throw (.text "drainTimeoutSeconds must be between %d and %d"
      [decimal minimumDrainSeconds.toInt, decimal maximumDrainSeconds.toInt])

/-- The checks on the tuning of `llama-server`. -/
def ServingConfig.validateTuning : Except Err Unit := do
  if validKVType config.kvCache.keyType = false ∨ validKVType config.kvCache.valueType = false then
    throw (.new "kvCache keyType and valueType must be one of f16, q8_0, or q4_0")
  if config.expert.batchSize < 1 ∨ config.expert.microBatchSize < 1 then
    throw (.new "expert batchSize and microBatchSize must be positive")
  if config.expert.batchSize < config.expert.microBatchSize then
    throw (.new "expert microBatchSize must not exceed batchSize")
  if config.expert.threads < 0 ∨ config.expert.batchThreads < 0 then
    throw (.new "expert thread counts must be positive when present")
  if config.expert.flashAttention ≠ flashAttentionAuto ∧
      config.expert.flashAttention ≠ flashAttentionEnabled ∧
      config.expert.flashAttention ≠ flashAttentionDisabled then
    throw (.new "expert flashAttention must be Auto, Enabled, or Disabled")

/-- `Validate`. -/
def ServingConfig.validate : Except Err Unit := do
  if config.schemaVersion ≠ Runtime.schemaVersion then
    throw (.text "schemaVersion must be %q" [Runtime.schemaVersion])
  validateIdentity config.deployment
  validateArtifact config.artifact
  if config.mode ≠ modeCPU ∧ config.mode ≠ modeAccelerator then
    throw (.new "mode must be CPU or Accelerator")
  config.validateBounds
  config.validateTuning

/-! ## The arguments of llama-server -/

/-- `ModelPath`: the path of the entrypoint. -/
def ServingConfig.modelPath : Bytes :=
  joinPath modelMountRoot config.artifact.entrypoint

/-- The context of all slots together, as an `int64`. -/
def ServingConfig.contextSize : Int64 :=
  if 0 < config.maxContextTokens then
    config.maxContextTokens * config.desiredConcurrency.toInt64
  else config.maxContextTokens

def ServingConfig.flashAttentionOption : Bytes :=
  if config.expert.flashAttention = flashAttentionEnabled then ascii "on"
  else if config.expert.flashAttention = flashAttentionDisabled then llamaOptionOff
  else ascii "auto"

/-- A number that is passed on if it is positive. -/
def positiveOption (name : Bytes) (value : Int32) : List Bytes :=
  if 0 < value then [name, decimal value.toInt] else []

/-- `Arguments`. -/
def ServingConfig.arguments : List Bytes :=
  [ascii "--model", config.modelPath, ascii "--mmap", ascii "--alias", config.deployment.name,
    ascii "--host", ascii "0.0.0.0", ascii "--port", ascii "8080",
    ascii "--ctx-size", decimal config.contextSize.toInt,
    ascii "--parallel", decimal config.desiredConcurrency.toInt,
    ascii "--cache-type-k", config.kvCache.keyType,
    ascii "--cache-type-v", config.kvCache.valueType,
    ascii "--cache-ram", ascii "0", ascii "--no-cache-idle-slots",
    ascii "--batch-size", decimal config.expert.batchSize.toInt,
    ascii "--ubatch-size", decimal config.expert.microBatchSize.toInt,
    ascii "--flash-attn", config.flashAttentionOption] ++
  positiveOption (ascii "--threads") config.expert.threads ++
  positiveOption (ascii "--threads-batch") config.expert.batchThreads ++
  [ascii "--metrics", ascii "--slots", ascii "--no-ui", ascii "--no-mmproj", ascii "--offline",
    ascii "--log-verbosity", if config.mode = modeAccelerator then ascii "4" else ascii "3",
    ascii "--log-colors", llamaOptionOff, ascii "--no-log-prefix", ascii "--no-log-timestamps",
    ascii "--fit", llamaOptionOff, ascii "--no-kv-unified", ascii "--no-context-shift",
    ascii "--warmup", ascii "--cont-batching"] ++
  if config.mode = modeCPU then
    [ascii "--device", ascii "none", ascii "--n-gpu-layers", ascii "0"]
  else [ascii "--split-mode", ascii "none", ascii "--n-gpu-layers", ascii "all"]

/-! ## What is accepted -/

/-- A text as the characters with the numbers of its bytes. -/
def byteText (s : Bytes) : String := String.ofList (s.map fun b => Char.ofNat b.toNat)

/-- What the supervisor reads of the configuration. -/
def ServingConfig.supervised : Config where
  mode := if config.mode = modeAccelerator then .accelerator else .cpu
  modelPath := byteText config.modelPath
  maxContextTokens := config.maxContextTokens.toInt
  desiredConcurrency := config.desiredConcurrency.toInt
  drainTimeoutSeconds := config.drainTimeoutSeconds.toInt

/-- The bounds of an accepted configuration. -/
structure ServingConfig.Bounded : Prop where
  context : 0 ≤ config.maxContextTokens.toInt
  concurrency : 1 ≤ config.desiredConcurrency.toInt ∧ config.desiredConcurrency.toInt ≤ 128
  native : config.maxContextTokens.toInt = 0 → config.desiredConcurrency.toInt = 1
  product : config.maxContextTokens.toInt ≤ (2 ^ 63 - 1) / config.desiredConcurrency.toInt
  drain : 30 ≤ config.drainTimeoutSeconds.toInt ∧ config.drainTimeoutSeconds.toInt ≤ 3600

theorem toInt_maxValue_div (c : Int32) :
    (Int64.maxValue / c.toInt64).toInt = (2 ^ 63 - 1) / c.toInt := by
  rw [Int64.toInt_div_of_ne_left _ _ (by decide), Int32.toInt_toInt64,
    Int.tdiv_eq_ediv_of_nonneg (by decide)]
  rfl

theorem bounded_of_validateBounds {config : ServingConfig} (h : config.validateBounds = .ok ()) :
    config.Bounded := by
  obtain ⟨hcontext, h⟩ := except_refuse_eq_ok.1 h
  obtain ⟨hconcurrency, h⟩ := except_refuse_eq_ok.1 h
  obtain ⟨hnative, h⟩ := except_refuse_eq_ok.1 h
  obtain ⟨hproduct, h⟩ := except_refuse_eq_ok.1 h
  have hdrain : ¬(config.drainTimeoutSeconds < minimumDrainSeconds ∨
      maximumDrainSeconds < config.drainTimeoutSeconds) := by
    intro hdrain
    rw [if_pos hdrain] at h
    cases h
  rw [Int64.lt_iff_toInt_lt] at hcontext
  rw [Int32.lt_iff_toInt_lt, Int32.lt_iff_toInt_lt] at hconcurrency
  rw [Int64.lt_iff_toInt_lt, Int64.lt_iff_toInt_lt] at hdrain
  rw [Int64.lt_iff_toInt_lt, Int64.lt_iff_toInt_lt, toInt_maxValue_div] at hproduct
  have hone : (1 : Int32).toInt = 1 := rfl
  have hmax : maximumDesiredConcurrency.toInt = 128 := rfl
  have hzero : (0 : Int64).toInt = 0 := rfl
  have hleast : minimumDrainSeconds.toInt = 30 := rfl
  have hmost : maximumDrainSeconds.toInt = 3600 := rfl
  rw [hzero] at hcontext hproduct
  rw [hone, hmax] at hconcurrency
  rw [hleast, hmost] at hdrain
  have hquotient : 0 ≤ (2 ^ 63 - 1) / config.desiredConcurrency.toInt :=
    Int.ediv_nonneg (by decide) (by omega)
  refine ⟨by omega, by omega, fun hnone => ?_, by omega, by omega⟩
  by_contra hother
  refine hnative ⟨Int64.toInt_inj.1 hnone, fun hsame => hother ?_⟩
  rw [hsame]
  rfl

theorem Config.boundsValid_of {config : Config} (hcontext : 0 ≤ config.maxContextTokens)
    (hconcurrency : 1 ≤ config.desiredConcurrency ∧ config.desiredConcurrency ≤ 128)
    (hnative : config.maxContextTokens = 0 → config.desiredConcurrency = 1)
    (hproduct : config.maxContextTokens ≤ (2 ^ 63 - 1) / config.desiredConcurrency)
    (hdrain : 30 ≤ config.drainTimeoutSeconds ∧ config.drainTimeoutSeconds ≤ 3600) :
    config.boundsValid = true := by
  simp only [Config.boundsValid, Bool.and_eq_true, decide_eq_true_eq, Bool.not_eq_true',
    Bool.and_eq_false_iff, beq_eq_false_iff_ne, bne_eq_false_iff_eq, decide_eq_false_iff_not]
  refine ⟨⟨⟨⟨hcontext, hconcurrency⟩, ?_⟩, .inr (Int.not_lt.2 hproduct)⟩, hdrain⟩
  exact or_iff_not_imp_left.2 fun hzero => hnative (not_not.1 hzero)

/-- The supervisor of an accepted configuration finds the bounds that it relies on. -/
theorem ServingConfig.Bounded.boundsValid {config : ServingConfig} (h : config.Bounded) :
    config.supervised.boundsValid = true :=
  Config.boundsValid_of h.context h.concurrency h.native h.product h.drain

/-- **The context of all slots together does not wrap around.** -/
theorem toInt_contextSize {config : ServingConfig} (h : config.Bounded) :
    config.contextSize.toInt = config.maxContextTokens.toInt * config.desiredConcurrency.toInt := by
  unfold ServingConfig.contextSize
  obtain ⟨hcontext, hconcurrency, hnative, hproduct, -⟩ := h
  have hle : config.maxContextTokens.toInt * config.desiredConcurrency.toInt ≤ 2 ^ 63 - 1 := by
    rwa [Int.le_ediv_iff_mul_le (by omega)] at hproduct
  have hpos : 0 ≤ config.maxContextTokens.toInt * config.desiredConcurrency.toInt :=
    Int.mul_nonneg hcontext (by omega)
  split
  · rw [Int64.toInt_mul, Int32.toInt_toInt64]
    exact Int.bmod_eq_of_le_mul_two (by omega) (by omega)
  · rename_i hzero
    rw [Int64.lt_iff_toInt_lt, show (0 : Int64).toInt = 0 from rfl] at hzero
    have hnone : config.maxContextTokens.toInt = 0 := by omega
    rw [hnone, Int.zero_mul]

theorem except_and_then_eq_ok {ε : Type} {x y : Except ε Unit} :
    (do
      x
      y) = .ok () ↔ x = .ok () ∧ y = .ok () := by
  rw [except_bind_eq_ok]
  exact ⟨fun ⟨_, hx, hy⟩ => ⟨hx, hy⟩, fun ⟨hx, hy⟩ => ⟨(), hx, hy⟩⟩

/-- The parts of an accepted configuration. -/
structure ServingConfig.Valid : Prop where
  version : config.schemaVersion = Runtime.schemaVersion
  identity : validateIdentity config.deployment = .ok ()
  artifact : validateArtifact config.artifact = .ok ()
  mode : config.mode = modeCPU ∨ config.mode = modeAccelerator
  bounded : config.Bounded
  tuning : config.validateTuning = .ok ()

theorem valid_of_validate {config : ServingConfig} (h : config.validate = .ok ()) :
    config.Valid := by
  obtain ⟨hversion, h⟩ := except_refuse_eq_ok.1 h
  obtain ⟨hidentity, h⟩ := except_and_then_eq_ok.1 h
  obtain ⟨hartifact, h⟩ := except_and_then_eq_ok.1 h
  obtain ⟨hmode, h⟩ := except_refuse_eq_ok.1 h
  obtain ⟨hbounds, htuning⟩ := except_and_then_eq_ok.1 h
  refine ⟨not_not.1 hversion, hidentity, hartifact, ?_, bounded_of_validateBounds hbounds, htuning⟩
  exact or_iff_not_imp_left.2 fun hcpu => not_not.1 fun hacc => hmode ⟨hcpu, hacc⟩

/-- **What `Validate` accepts** has the exact context of all its slots, and the bounds that the
supervisor relies on. -/
theorem contextSize_of_validate {config : ServingConfig} (h : config.validate = .ok ()) :
    config.contextSize.toInt = config.maxContextTokens.toInt * config.desiredConcurrency.toInt ∧
      config.supervised.boundsValid = true := by
  have hbounded := (valid_of_validate h).bounded
  exact ⟨toInt_contextSize hbounded, hbounded.boundsValid⟩

def twoSlots : ServingConfig :=
  ⟨schemaVersion, ⟨[97], [97], [97], [97]⟩, ⟨[97], List.replicate 64 97, [97],
    [⟨[97], 1, List.replicate 64 97⟩]⟩, modeCPU, 4096, 2, 600, ⟨kvCacheF16, kvCacheF16⟩,
    ⟨2048, 512, 0, 0, flashAttentionAuto⟩⟩

theorem contextSize_twoSlots : twoSlots.contextSize.toInt = 4096 * 2 ∧
    twoSlots.supervised.boundsValid = true :=
  contextSize_of_validate (by decide +kernel)

/-- The tuning of a document that sets none of it. -/
def ServingConfig.untuned : Prop :=
  config.maxContextTokens = 0 ∧ config.desiredConcurrency = 0 ∧ config.drainTimeoutSeconds = 0 ∧
    config.kvCache = ⟨[], []⟩ ∧ config.expert = ⟨0, 0, 0, 0, []⟩

/-- **Every default passes its own check.** -/
theorem validate_withDefaults {config : ServingConfig} (h : config.untuned) :
    config.withDefaults.validateBounds = .ok () ∧ config.withDefaults.validateTuning = .ok () := by
  obtain ⟨version, deployment, artifact, mode, context, concurrency, drain, cache, expert⟩ := config
  obtain ⟨rfl, rfl, rfl, rfl, rfl⟩ := h
  constructor
  · simp only [ServingConfig.validateBounds, ServingConfig.withDefaults, orDefault, if_true]
    decide
  · simp only [ServingConfig.validateTuning, ServingConfig.withDefaults, orDefault, if_true]
    decide

end Kama.Runtime
