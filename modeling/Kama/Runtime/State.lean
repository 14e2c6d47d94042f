import Mathlib.Algebra.Order.Ring.Int
import Mathlib.Data.List.Basic
import Mathlib.Data.Int.DivMod

/-!
# The state a runtime supervisor guards

`internal/runtime/supervisor.go` owns one `llama-server` child. Several goroutines share the
record behind `supervisor.mu`; this module has that record and every critical section that writes
it, one function each, under the names of the source. Which goroutine runs which of them, and
when, is the business of `Kama.Runtime.Supervisor`.

* `State.setPhase` and `State.fail` write the phase unconditionally; `State.setLoading`,
  `State.commitReady` and `State.recordExit` first look at it.
* `probeOutcome` is `updateReadiness` between its two critical sections: what the answers of
  `/health`, `/props` and `/slots` amount to.
* `State.observeStartupLog` folds one line of the child's log into the accelerator evidence.

Left out are `Message`, `ObservedAt`, the identities and the address, which are written or copied
and never read again by the supervisor.
-/

namespace Kama.Runtime

variable (config : Config) (s : State)

inductive Mode
  | cpu
  | accelerator
  deriving DecidableEq, Repr

inductive Phase
  | initializing
  | loading
  | ready
  | draining
  | loadFailed
  | exited
  deriving DecidableEq, Repr

inductive Reason
  | invalidConfig
  | artifactInvalid
  | modelLoading
  | childStartFailed
  | childExited
  | runtimeContractMismatch
  | acceleratorNotReady
  | runtimeReady
  | terminating
  deriving DecidableEq, Repr

/-- The fields of the runtime configuration that the supervisor reads after startup. -/
structure Config where
  mode : Mode
  modelPath : String
  maxContextTokens : Int
  desiredConcurrency : Int
  drainTimeoutSeconds : Int
  deriving DecidableEq, Repr

/-- The part of `Config.Validate` that reads the fields of `Config`. -/
def Config.boundsValid : Bool :=
  decide (0 ≤ config.maxContextTokens) &&
  decide (1 ≤ config.desiredConcurrency ∧ config.desiredConcurrency ≤ 128) &&
  !(config.maxContextTokens == 0 && config.desiredConcurrency != 1) &&
  !(decide (0 < config.maxContextTokens) &&
    decide ((2 ^ 63 - 1) / config.desiredConcurrency < config.maxContextTokens)) &&
  decide (30 ≤ config.drainTimeoutSeconds ∧ config.drainTimeoutSeconds ≤ 3600)

/-- Durations are in nanoseconds. -/
structure Options where
  probeInterval : Nat
  endpointPropagationDelay : Nat
  childShutdownTimeout : Nat
  llamaCPPCommit : String
  llamaCPPBuildNumber : String
  deriving DecidableEq, Repr

structure RuntimeState where
  effectiveContextTokens : Int
  activeRequests : Int
  acceleratorDetected : Bool
  visibleAccelerators : Option Nat
  offloadedLayers : Option Nat
  totalLayers : Option Nat
  acceleratorDevice : String
  deriving DecidableEq, Repr

/-- What the goroutines share: the exported state, the fields of `Supervisor` under its mutex,
and whether the two channels are closed. -/
structure State where
  phase : Phase
  reason : Option Reason
  ready : Bool
  runtime : RuntimeState
  exitCode : Option Int
  initialized : Bool
  child : Bool
  becameReady : Bool
  observedCUDADevices : List (Nat × String)
  childDone : Bool
  drainDone : Bool
  deriving DecidableEq, Repr

/-- `newSupervisor`. -/
def newSupervisor : State where
  phase := .initializing
  reason := none
  ready := false
  runtime := ⟨0, 0, false, none, none, none, ""⟩
  exitCode := none
  initialized := false
  child := false
  becameReady := false
  observedCUDADevices := []
  childDone := false
  drainDone := false

namespace State

/-! ## Phase writes -/

/-- The phases that `setLoading`, `updateReadiness` and the readiness commit leave alone. -/
def terminal : Bool :=
  s.phase == .draining || s.phase == .loadFailed || s.phase == .exited

def setPhase (phase : Phase) (reason : Reason) (ready : Bool) : State :=
  { s with phase := phase, reason := some reason, ready := ready }

def fail (reason : Reason) : State := s.setPhase .loadFailed reason false

def setLoading (reason : Reason) : State :=
  if s.terminal then s else { s with phase := .loading, reason := some reason, ready := false }

/-- The last critical section of `updateReadiness`. -/
def commitReady (effectiveContext active : Int) : State :=
  if s.terminal then s
  else
    { s with
      phase := .ready
      reason := some .runtimeReady
      ready := true
      becameReady := true
      runtime := { s.runtime with
        effectiveContextTokens := effectiveContext, activeRequests := active } }

/-- The critical section of `waitForChild`. -/
def recordExit (code : Int) : State :=
  let s := { s with exitCode := some code }
  if s.phase = .draining then s
  else
    { s with
      ready := false
      phase := if s.becameReady then .exited else .loadFailed
      reason := some .childExited }

def closeChildDone : State := { s with childDone := true }

theorem terminal_of_draining {s : State} (h : s.phase = .draining) : s.terminal = true := by
  simp [terminal, h]

theorem setLoading_of_draining {s : State} (h : s.phase = .draining) (reason : Reason) :
    s.setLoading reason = s := by
  simp [setLoading, terminal_of_draining h]

theorem commitReady_of_draining {s : State} (h : s.phase = .draining)
    (effectiveContext active : Int) : s.commitReady effectiveContext active = s := by
  simp [commitReady, terminal_of_draining h]

theorem recordExit_of_draining {s : State} (h : s.phase = .draining) (code : Int) :
    s.recordExit code = { s with exitCode := some code } := by
  simp [recordExit, h]

/-- `drain` publishes the number of requests it saw. -/
def recordActive (active : Int) : State :=
  { s with runtime := { s.runtime with activeRequests := active } }

end State

/-! ## Readiness probes -/

/-- One element of the `/slots` answer. -/
structure SlotState where
  nContext : Int
  isProcessing : Bool
  deriving DecidableEq, Repr

/-- The `/props` answer. -/
structure PropertiesState where
  nContext : Int
  totalSlots : Int
  modelPath : String
  buildInfo : String
  deriving DecidableEq, Repr

/-- `^[1-9][0-9]{0,9}$`. -/
def validLlamaBuildNumber (value : String) : Bool :=
  match value.toList with
  | [] => false
  | c :: cs => c.isDigit && c != '0' && decide (cs.length ≤ 9) && cs.all Char.isDigit

/-- `^[a-f0-9]{40}$`. -/
def sha1Pattern (value : String) : Bool :=
  decide (value.toList.length = 40) &&
  value.toList.all fun c => c.isDigit || decide ( 'a' ≤ c ∧ c ≤ 'f')

def validateProperties (options : Options) (properties : PropertiesState) : Bool :=
  properties.modelPath == config.modelPath &&
  properties.totalSlots == config.desiredConcurrency &&
  decide (1 ≤ properties.nContext) &&
  !(decide (0 < config.maxContextTokens) && properties.nContext != config.maxContextTokens) &&
  validLlamaBuildNumber options.llamaCPPBuildNumber && sha1Pattern options.llamaCPPCommit &&
  properties.buildInfo == "b" ++ options.llamaCPPBuildNumber ++ "-" ++ options.llamaCPPCommit

/-- The answers of one round of probes; `none` stands for any failure of the request. -/
structure ProbeAnswers where
  health : Bool
  properties : Option PropertiesState
  slots : Option (List SlotState)
  deriving DecidableEq, Repr

inductive ProbeOutcome
  | loading (reason : Reason)
  | pass (effectiveContext active : Int)
  deriving DecidableEq, Repr

def countProcessing (slots : List SlotState) : Int := slots.countP SlotState.isProcessing

/-- The slot loop of `updateReadiness`: every slot has the context of the first one, which is the
configured one if there is one. -/
def slotOutcome (slots : List SlotState) : ProbeOutcome :=
  match slots with
  -- unreachable: the lengths agree and a validated configuration asks for at least one slot
  | [] => .loading .runtimeContractMismatch
  | slot :: _ =>
    if slot.nContext < 1 then .loading .runtimeContractMismatch
    else if slots.any fun other => other.nContext != slot.nContext ||
        (decide (0 < config.maxContextTokens) && other.nContext != config.maxContextTokens) then
      .loading .runtimeContractMismatch
    else .pass slot.nContext (countProcessing slots)

/-- `updateReadiness` from the first probe to the accelerator check. -/
def probeOutcome (options : Options) (answers : ProbeAnswers) : ProbeOutcome :=
  if answers.health = false then .loading .modelLoading
  else
    match answers.properties with
    | none => .loading .runtimeContractMismatch
    | some properties =>
      if validateProperties config options properties = false then
        .loading .runtimeContractMismatch
      else
        match answers.slots with
        | none => .loading .runtimeContractMismatch
        | some slots =>
          if (slots.length : Int) ≠ config.desiredConcurrency then
            .loading .runtimeContractMismatch
          else slotOutcome config slots

/-- The accelerator check of `updateReadiness`, on the snapshot it takes under the read lock. -/
def RuntimeState.acceleratorReady (runtime : RuntimeState) : Bool :=
  runtime.acceleratorDetected && runtime.visibleAccelerators == some 1 &&
  match runtime.offloadedLayers, runtime.totalLayers with
  | some offloaded, some total => decide (1 ≤ total) && offloaded == total
  | _, _ => false

/-! ## The child's log -/

/-- What the four patterns of `observeStartupLog` find in one line: a device count, a pair of
offloaded and total layers, and up to two devices with their sanitized names. -/
structure LogFacts where
  cudaCount : Option Nat
  offload : Option (Nat × Nat)
  legacyDevice : Option (Nat × String)
  inventoryDevice : Option (Nat × String)
  deriving DecidableEq, Repr

/-- `strconv.ParseInt(digits, 10, 32)` succeeds. -/
def fitsInt32 (n : Nat) : Bool := decide (n < 2 ^ 31)

namespace State

def updateVisibleAcceleratorsLocked (observed : Nat) : State :=
  let devices := s.observedCUDADevices.length
  let count := max (max observed (s.runtime.visibleAccelerators.getD 0)) devices
  { s with runtime := { s.runtime with
      visibleAccelerators := some count
      acceleratorDetected := s.runtime.acceleratorDetected || decide (0 < count)
      acceleratorDevice :=
        match s.observedCUDADevices with
        | [(_, device)] => if count = 1 then device else ""
        | _ => "" } }

def observeCUDADeviceLocked (index : Nat) (device : String) : State :=
  if device = "" then s
  else
    let devices := s.observedCUDADevices
    let devices := if devices.any (·.1 == index) then devices else devices ++ [(index, device)]
    { s with observedCUDADevices := devices }.updateVisibleAcceleratorsLocked devices.length

/-- The match of `cudaCountPattern`. -/
def observeCount : Option Nat → State
  | some count => if fitsInt32 count then s.updateVisibleAcceleratorsLocked count else s
  | none => s

/-- The match of `offloadPattern`. -/
def observeOffload : Option (Nat × Nat) → State
  | some (offloaded, total) =>
    if fitsInt32 offloaded && fitsInt32 total && decide (offloaded ≤ total) then
      { s with runtime := { s.runtime with
          offloadedLayers := some offloaded
          totalLayers := some total
          acceleratorDetected := s.runtime.acceleratorDetected || decide (0 < offloaded) } }
    else s
  | none => s

/-- The match of `legacyDevicePattern` or of `deviceInventoryPattern`. -/
def observeDevice : Option (Nat × String) → State
  | some (index, device) => s.observeCUDADeviceLocked index device
  | none => s

def observeStartupLog (facts : LogFacts) : State :=
  if config.mode = .accelerator then
    (((s.observeCount facts.cudaCount).observeOffload facts.offload).observeDevice
      facts.legacyDevice).observeDevice facts.inventoryDevice
  else s

/-! A log line touches the accelerator evidence and nothing else. -/

/-- Two states that differ at most in the accelerator evidence. -/
structure SameLifecycle (t : State) : Prop where
  phase : t.phase = s.phase
  ready : t.ready = s.ready
  child : t.child = s.child
  childDone : t.childDone = s.childDone

theorem SameLifecycle.refl : SameLifecycle s s := ⟨rfl, rfl, rfl, rfl⟩

theorem SameLifecycle.trans {s t u : State} (h : SameLifecycle s t) (h' : SameLifecycle t u) :
    SameLifecycle s u :=
  ⟨h'.phase.trans h.phase, h'.ready.trans h.ready, h'.child.trans h.child,
    h'.childDone.trans h.childDone⟩

theorem observeCount_sameLifecycle (count : Option Nat) :
    SameLifecycle s (s.observeCount count) := by
  cases count with
  | none => exact .refl s
  | some count =>
    simp only [observeCount]
    split
    · exact ⟨rfl, rfl, rfl, rfl⟩
    · exact .refl s

theorem observeOffload_sameLifecycle (offload : Option (Nat × Nat)) :
    SameLifecycle s (s.observeOffload offload) := by
  rcases offload with _ | ⟨offloaded, total⟩
  · exact .refl s
  · simp only [observeOffload]
    split
    · exact ⟨rfl, rfl, rfl, rfl⟩
    · exact .refl s

theorem observeDevice_sameLifecycle (device : Option (Nat × String)) :
    SameLifecycle s (s.observeDevice device) := by
  rcases device with _ | ⟨index, device⟩
  · exact .refl s
  · simp only [observeDevice, observeCUDADeviceLocked]
    split
    · exact .refl s
    · exact ⟨rfl, rfl, rfl, rfl⟩

theorem observeStartupLog_sameLifecycle (facts : LogFacts) :
    SameLifecycle s (s.observeStartupLog config facts) := by
  unfold observeStartupLog
  split
  · exact (observeCount_sameLifecycle s _).trans <| (observeOffload_sameLifecycle _ _).trans <|
      (observeDevice_sameLifecycle _ _).trans (observeDevice_sameLifecycle _ _)
  · exact .refl s

end State

end Kama.Runtime
