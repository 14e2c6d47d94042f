import Kama.Runtime.Evidence
import Kama.Runtime.LogLine
import Kama.Runtime.Phases

/-!
# Accelerator readiness

With a GPU, `updateReadiness` looks at the accelerator evidence before it makes the supervisor
ready, and the readers of the child's log go on adding to that evidence.

* `evidence_fold`: after any lines, the number of visible accelerators is the largest of the
  reported counts and of the number of devices that were named.
* `Agrees s facts`: the line reports no second device and no partial offload, so that evidence that
  was sufficient stays so (`Agrees.sufficient`).
* `acceleratorReady_of_ready`: as long as the lines that arrive after the check agree with it, a
  ready supervisor has the evidence.
* `ready_without_evidence`: a line that arrives after the check does not keep the supervisor from
  being ready.
-/

namespace Kama.Runtime

open Bytes Machine

/-! ## The evidence -/

/-- `observeStartupLog` of a line. -/
def State.observeLine (config : Config) (s : State) (line : Bytes) : State :=
  s.observeStartupLog config (logFacts line)

/-- The state of a fresh supervisor after these lines. -/
def observeLines (config : Config) (lines : List Bytes) : State :=
  lines.foldl (State.observeLine config) newSupervisor

/-- The counts that fit and the named devices that the lines report. -/
def reports (lines : List Bytes) : List Sighting := sightingsOf (lines.map logFacts)

theorem seen_observeLines {config : Config} (hmode : config.mode = .accelerator)
    (lines : List Bytes) : Seen (reports lines) (observeLines config lines).evidence := by
  have h := seen_lines hmode (lines.map logFacts)
  rwa [List.foldl_map] at h

theorem mem_reports_congr {lines lines' : List Bytes} (h : ∀ line, line ∈ lines ↔ line ∈ lines')
    (s : Sighting) : s ∈ reports lines ↔ s ∈ reports lines' := by
  simp only [reports, sightingsOf, List.mem_flatMap, List.mem_map, h]

/-- **The accelerator evidence is a maximum.** Whatever the lines, in whatever order and however
often they come. -/
theorem evidence_fold (config : Config) (hmode : config.mode = .accelerator) (lines : List Bytes) :
    (reports lines = [] → (observeLines config lines).runtime.visibleAccelerators = none) ∧
    (reports lines ≠ [] → (observeLines config lines).runtime.visibleAccelerators =
      some (max ((counts (reports lines)).sup id) (indices (reports lines)).card)) ∧
    (∀ more v, (observeLines config lines).runtime.visibleAccelerators = some v →
      ∃ v', v ≤ v' ∧ (observeLines config (lines ++ more)).runtime.visibleAccelerators = some v') ∧
    (∀ lines', (∀ line, line ∈ lines ↔ line ∈ lines') →
      (observeLines config lines').runtime.visibleAccelerators =
        (observeLines config lines).runtime.visibleAccelerators) ∧
    ((observeLines config lines).runtime.acceleratorDevice ≠ "" ↔
      (observeLines config lines).runtime.visibleAccelerators = some 1 ∧
        (indices (reports lines)).card = 1) := by
  have hseen := fun lines => seen_observeLines hmode lines
  have hvisible : ∀ lines, (observeLines config lines).runtime.visibleAccelerators =
      visible (reports lines) := fun lines => (hseen lines).visible
  refine ⟨fun hnil => ?_, fun hne => ?_, fun more v hv => ?_, fun lines' hmem => ?_, ?_⟩
  · rw [hvisible, hnil]
    rfl
  · rw [hvisible, visible, if_neg hne]
    rfl
  · rw [hvisible] at hv
    have happend : reports (lines ++ more) = reports lines ++ reports more := by
      rw [reports, List.map_append, sightingsOf, List.flatMap_append]
      rfl
    rw [hvisible, happend]
    exact visible_mono hv (reports more)
  · rw [hvisible, hvisible]
    exact visible_eq_of_mem_iff fun s => (mem_reports_congr hmem s).symm
  · exact (hseen lines).device_ne_iff

/-- A supervisor for one GPU. -/
def acceleratorConfig : Config := { sampleConfig with mode := .accelerator }

/-- The lines of a server that has found its GPU and loaded the model. -/
def gpuLines : List Bytes :=
  [ascii "ggml_cuda_init: found 1 CUDA devices:",
    ascii "  Device 0: NVIDIA L4, compute capability 8.9",
    ascii "load_tensors: offloaded 33/33 layers to GPU"]

/-- What the lines say; the runs below are evaluated from here. -/
theorem logFacts_gpuLines : gpuLines.map logFacts =
    [⟨some 1, none, none, none⟩, ⟨none, none, some (0, "NVIDIA L4"), none⟩,
      ⟨none, some (33, 33), none, none⟩] := by decide +kernel

theorem evidence_fold_gpuLines :
    (observeLines acceleratorConfig gpuLines).runtime.visibleAccelerators = some 1 ∧
      (observeLines acceleratorConfig gpuLines).runtime.acceleratorDevice ≠ "" := by
  have hreports : reports gpuLines = [.count 1, .device 0 "NVIDIA L4"] := by
    rw [reports, logFacts_gpuLines]
    rfl
  obtain ⟨-, hvisible, -, -, hdevice⟩ := evidence_fold acceleratorConfig rfl gpuLines
  have hone := hvisible (by rw [hreports]; exact List.cons_ne_nil _ _)
  rw [hreports] at hone hdevice
  exact ⟨hone, hdevice.2 ⟨hone, rfl⟩⟩

/-! ## The gate -/

/-- What the gate of `updateReadiness` looks at. -/
structure AcceleratorFacts where
  detected : Bool
  evidence : Evidence
  offloaded : Option Nat
  total : Option Nat
  deriving DecidableEq, Repr

def State.acceleratorFacts (s : State) : AcceleratorFacts :=
  ⟨s.runtime.acceleratorDetected, s.evidence, s.runtime.offloadedLayers, s.runtime.totalLayers⟩

/-- An accelerator was detected, exactly one is visible and all layers are on it. -/
def AcceleratorFacts.Sufficient (f : AcceleratorFacts) : Prop :=
  f.detected = true ∧ f.evidence.visible = some 1 ∧
    ∃ layers, f.offloaded = some layers ∧ f.total = some layers ∧ 1 ≤ layers

theorem acceleratorReady_iff (s : State) :
    s.runtime.acceleratorReady = true ↔ s.acceleratorFacts.Sufficient := by
  unfold RuntimeState.acceleratorReady AcceleratorFacts.Sufficient State.acceleratorFacts
    State.evidence
  simp only [Bool.and_eq_true, beq_iff_eq, and_assoc]
  refine and_congr_right fun _ => and_congr_right fun _ => ?_
  cases s.runtime.offloadedLayers with
  | none => simp
  | some offloaded =>
    cases s.runtime.totalLayers with
    | none => simp
    | some total =>
      simp only [Bool.and_eq_true, decide_eq_true_eq, beq_iff_eq, Option.some.injEq]
      constructor
      · rintro ⟨htotal, rfl⟩
        exact ⟨offloaded, rfl, rfl, htotal⟩
      · rintro ⟨layers, rfl, rfl, hlayers⟩
        exact ⟨hlayers, rfl⟩

/-- The monitor has passed the gate and is about to make the supervisor ready. -/
def Monitor.passed : Monitor → Bool
  | .committing _ _ => true
  | _ => false

structure Gate where
  ready : Bool
  passed : Bool
  facts : AcceleratorFacts
  deriving DecidableEq, Repr

def World.gate (w : World) : Gate := ⟨w.state.ready, w.monitor.passed, w.state.acceleratorFacts⟩

/-- What a step can do to the gate. -/
inductive GateStep (g : Gate) : Gate → Prop
  | hold (ready passed : Bool) (hready : ready = true → g.ready = true)
      (hpassed : passed = true → g.passed = true) : GateStep g ⟨ready, passed, g.facts⟩
  | pass (h : g.facts.Sufficient) : GateStep g { g with passed := true }
  | commit (h : g.passed = true) : GateStep g { g with ready := true, passed := false }

variable {config : Config} {options : Options} {w w' : World}

theorem GateStep.same (g : Gate) : GateStep g g := .hold g.ready g.passed id id

/-- A step that does not touch the facts and sets neither flag. -/
theorem GateStep.of_facts {g g' : Gate} (hfacts : g'.facts = g.facts)
    (hready : g'.ready = true → g.ready = true) (hpassed : g'.passed = true → g.passed = true) :
    GateStep g g' := by
  obtain ⟨ready, passed, facts⟩ := g'
  obtain rfl : facts = g.facts := hfacts
  exact .hold ready passed hready hpassed

theorem gateStep_of_stepStartup {e : StartupEvent} (h : stepStartup config w e = some w') :
    GateStep w.gate w'.gate := by
  cases e with
  | listen ok | checkConfig ok | hashArtifact ok | openPipes ok | startProcess ok | closeChildDone
  | finish =>
    have hgate : w'.gate = w.gate := by
      simp only [stepStartup] at h
      (repeat' split at h) <;> simp only [Option.some.injEq, reduceCtorEq] at h <;> subst h <;> rfl
    rw [hgate]
    exact .same _
  | setLoading =>
    simp only [stepStartup, Option.ite_none_right_eq_some, Option.some.injEq] at h
    obtain ⟨-, rfl⟩ := h
    exact .of_facts rfl (fun hready => absurd hready Bool.false_ne_true) id
  | fail =>
    simp only [stepStartup] at h
    split at h
    · obtain rfl := Option.some.inj h
      exact .of_facts rfl (fun hready => absurd hready Bool.false_ne_true) id
    · cases h
  | storeChild =>
    simp only [stepStartup, Option.ite_none_right_eq_some, Option.some.injEq] at h
    obtain ⟨-, rfl⟩ := h
    exact .of_facts rfl id fun hpassed => absurd hpassed Bool.false_ne_true
  | initiateDrain =>
    simp only [stepStartup, Option.ite_none_right_eq_some, Option.some.injEq] at h
    obtain ⟨-, rfl⟩ := h
    unfold World.initiateDrain
    split <;> exact .same _

theorem gateStep_of_stepDrain {e : DrainEvent} (h : stepDrain config options w e = some w') :
    GateStep w.gate w'.gate := by
  cases e with
  | begin =>
    simp only [stepDrain, Option.ite_none_right_eq_some, Option.some.injEq] at h
    obtain ⟨-, rfl⟩ := h
    exact .of_facts rfl (fun hready => absurd hready Bool.false_ne_true) id
  | request loopback =>
    simp only [stepDrain, Option.ite_none_right_eq_some, Option.some.injEq] at h
    obtain ⟨-, rfl⟩ := h
    unfold World.initiateDrain
    (repeat' split) <;> exact .same _
  | propagated | test | poll | slots answer | metrics answer | record | wake | readChild | signal
  | kill | exited =>
    have hgate : w'.gate = w.gate := by
      simp only [stepDrain] at h
      (repeat' split at h) <;> simp only [Option.some.injEq, reduceCtorEq] at h <;> subst h <;> rfl
    rw [hgate]
    exact .same _

theorem gateStep_of_stepMonitor (hmode : config.mode = .accelerator) {e : MonitorEvent}
    (h : stepMonitor config options w e = some w') : GateStep w.gate w'.gate := by
  cases e with
  | check =>
    simp only [stepMonitor, Option.ite_none_right_eq_some, Option.some.injEq] at h
    obtain ⟨-, rfl⟩ := h
    refine .of_facts rfl id fun hpassed => ?_
    simp only [World.gate] at hpassed
    split at hpassed <;> cases hpassed
  | probe answers =>
    -- with an accelerator the probes lead to the inspection of the facts
    simp only [stepMonitor, Option.ite_none_right_eq_some, Option.some.injEq, if_pos hmode] at h
    obtain ⟨-, rfl⟩ := h
    refine .of_facts rfl id fun hpassed => ?_
    simp only [World.gate] at hpassed
    split at hpassed <;> cases hpassed
  | inspect =>
    simp only [stepMonitor] at h
    split at h
    · obtain rfl := Option.some.inj h
      split
      · rename_i hready
        exact .pass ((acceleratorReady_iff w.state).1 hready)
      · exact .of_facts rfl id fun hpassed => absurd hpassed Bool.false_ne_true
    · cases h
  | refuse =>
    simp only [stepMonitor] at h
    split at h
    · obtain rfl := Option.some.inj h
      unfold State.setLoading
      split
      · exact .of_facts rfl id fun hpassed => absurd hpassed Bool.false_ne_true
      · exact .of_facts rfl (fun hready => absurd hready Bool.false_ne_true)
          fun hpassed => absurd hpassed Bool.false_ne_true
    · cases h
  | commit =>
    simp only [stepMonitor] at h
    split at h
    · rename_i hcommitting
      obtain rfl := Option.some.inj h
      unfold State.commitReady
      split
      · exact .of_facts rfl id fun hpassed => absurd hpassed Bool.false_ne_true
      · exact .commit (by simp [World.gate, hcommitting, Monitor.passed])
    · cases h
  | tick | stop =>
    simp only [stepMonitor, Option.ite_none_right_eq_some, Option.some.injEq] at h
    obtain ⟨-, rfl⟩ := h
    exact .of_facts rfl id fun hpassed => absurd hpassed Bool.false_ne_true

theorem gateStep_of_stepWaiter {e : WaiterEvent} (h : stepWaiter w e = some w') :
    GateStep w.gate w'.gate := by
  cases e with
  | wait | close =>
    have hgate : w'.gate = w.gate := by
      simp only [stepWaiter] at h
      split at h <;> simp only [Option.some.injEq, reduceCtorEq] at h
      subst h
      rfl
    rw [hgate]
    exact .same _
  | record =>
    simp only [stepWaiter] at h
    split at h
    · obtain rfl := Option.some.inj h
      by_cases hphase : w.state.phase = .draining
      · rw [State.recordExit_of_draining hphase]
        exact .same _
      · simp only [State.recordExit, if_neg hphase]
        exact .of_facts rfl (fun hready => absurd hready Bool.false_ne_true) id
    · cases h

/-- **What a step other than a line of the log can do to the gate.** -/
theorem gateStep_of_step (hmode : config.mode = .accelerator) {e : Event}
    (h : step config options w e = some w') (hlog : ∀ facts, e ≠ .log facts) :
    GateStep w.gate w'.gate := by
  cases e with
  | startup e => exact gateStep_of_stepStartup h
  | drain e => exact gateStep_of_stepDrain h
  | monitor e => exact gateStep_of_stepMonitor hmode h
  | waiter e => exact gateStep_of_stepWaiter h
  | exit code =>
    simp only [step, Option.ite_none_right_eq_some, Option.some.injEq] at h
    obtain ⟨-, rfl⟩ := h
    exact .same _
  | log facts => exact absurd rfl (hlog facts)
  | clock elapsed =>
    obtain rfl := Option.some.inj h
    exact .same _

/-! ## Lines that agree -/

/-- The line reports no second device and no partial offload. The pattern of the offload asks for a
positive total. -/
structure Agrees (s : State) (facts : LogFacts) : Prop where
  count : ∀ n ∈ counts facts.sightings, n ≤ 1
  device : ∀ i ∈ indices facts.sightings, ∀ j ∈ indices facts.sightings ∪
    (s.observedCUDADevices.map Prod.fst).toFinset, i = j
  offload : ∀ p ∈ facts.offload, fitsInt32 p.1 = true → fitsInt32 p.2 = true → p.1 = p.2 ∧ 1 ≤ p.2

theorem agrees_iff (s : State) (facts : LogFacts) :
    ((∀ n ∈ counts facts.sightings, n ≤ 1) ∧
      (∀ i ∈ indices facts.sightings, ∀ j ∈ indices facts.sightings ∪
        (s.observedCUDADevices.map Prod.fst).toFinset, i = j) ∧
      ∀ p ∈ facts.offload, fitsInt32 p.1 = true → fitsInt32 p.2 = true →
        p.1 = p.2 ∧ 1 ≤ p.2) ↔ Agrees s facts :=
  ⟨fun ⟨hcount, hdevice, hoffload⟩ => ⟨hcount, hdevice, hoffload⟩,
    fun h => ⟨h.count, h.device, h.offload⟩⟩

instance (s : State) (facts : LogFacts) : Decidable (Agrees s facts) :=
  decidable_of_iff _ (agrees_iff s facts)

theorem detected_observeStartupLog {s : State} (facts : LogFacts)
    (h : s.runtime.acceleratorDetected = true) :
    (s.observeStartupLog config facts).runtime.acceleratorDetected = true := by
  have hcount : ∀ {s : State} count, s.runtime.acceleratorDetected = true →
      (s.observeCount count).runtime.acceleratorDetected = true := by
    intro s count h
    cases count with
    | none => exact h
    | some count =>
      simp only [State.observeCount]
      split
      · simp [State.updateVisibleAcceleratorsLocked, h]
      · exact h
  have hoffload : ∀ {s : State} offload, s.runtime.acceleratorDetected = true →
      (s.observeOffload offload).runtime.acceleratorDetected = true := by
    rintro s (_ | ⟨offloaded, total⟩) h
    · exact h
    · simp only [State.observeOffload]
      split
      · simp [h]
      · exact h
  have hdevice : ∀ {s : State} device, s.runtime.acceleratorDetected = true →
      (s.observeDevice device).runtime.acceleratorDetected = true := by
    rintro s (_ | ⟨index, name⟩) h
    · exact h
    · simp only [State.observeDevice, State.observeCUDADeviceLocked]
      split
      · exact h
      · simp [State.updateVisibleAcceleratorsLocked, h]
  unfold State.observeStartupLog
  split
  · exact hdevice _ (hdevice _ (hoffload _ (hcount _ h)))
  · exact h

/-- The layers are those of the offload that the line reports. -/
theorem layers_observeStartupLog (hmode : config.mode = .accelerator) (s : State)
    (facts : LogFacts) :
    (s.observeStartupLog config facts).runtime.offloadedLayers =
        (s.observeOffload facts.offload).runtime.offloadedLayers ∧
      (s.observeStartupLog config facts).runtime.totalLayers =
        (s.observeOffload facts.offload).runtime.totalLayers := by
  have hcount : ∀ (s : State) count, ((s.observeCount count).observeOffload
      facts.offload).runtime.offloadedLayers =
        (s.observeOffload facts.offload).runtime.offloadedLayers ∧
      ((s.observeCount count).observeOffload facts.offload).runtime.totalLayers =
        (s.observeOffload facts.offload).runtime.totalLayers := by
    intro s count
    have hsame : (s.observeCount count).runtime.offloadedLayers = s.runtime.offloadedLayers ∧
        (s.observeCount count).runtime.totalLayers = s.runtime.totalLayers := by
      cases count with
      | none => exact ⟨rfl, rfl⟩
      | some count =>
        simp only [State.observeCount]
        split <;> exact ⟨rfl, rfl⟩
    cases facts.offload with
    | none => exact hsame
    | some p =>
      simp only [State.observeOffload]
      split
      · exact ⟨rfl, rfl⟩
      · exact hsame
  have hdevice : ∀ (s : State) device, (s.observeDevice device).runtime.offloadedLayers =
      s.runtime.offloadedLayers ∧
      (s.observeDevice device).runtime.totalLayers = s.runtime.totalLayers := by
    rintro s (_ | ⟨index, name⟩)
    · exact ⟨rfl, rfl⟩
    · simp only [State.observeDevice, State.observeCUDADeviceLocked]
      split <;> exact ⟨rfl, rfl⟩
  rw [State.observeStartupLog, if_pos hmode]
  have h₁ := hcount s facts.cudaCount
  have h₂ := hdevice ((s.observeCount facts.cudaCount).observeOffload facts.offload)
    facts.legacyDevice
  have h₃ := hdevice (((s.observeCount facts.cudaCount).observeOffload facts.offload).observeDevice
    facts.legacyDevice) facts.inventoryDevice
  exact ⟨h₃.1.trans (h₂.1.trans h₁.1), h₃.2.trans (h₂.2.trans h₁.2)⟩

/-- A line that agrees with sufficient evidence leaves it sufficient. -/
theorem Agrees.sufficient {s : State} {facts : LogFacts} {l : List Sighting}
    (hagrees : Agrees s facts) (hmode : config.mode = .accelerator) (hseen : Seen l s.evidence)
    (h : s.acceleratorFacts.Sufficient) :
    (s.observeStartupLog config facts).acceleratorFacts.Sufficient := by
  obtain ⟨hdetected, hvisible, layers, hoffloaded, htotal, hlayers⟩ := h
  refine ⟨detected_observeStartupLog facts hdetected, ?_, ?_⟩
  · show (s.observeStartupLog config facts).evidence.visible = some 1
    rw [evidence_observeStartupLog hmode]
    have hnamed : ∀ index, .device index "" ∉ facts.sightings := by
      intro index hmem
      exact named_sightingsOf [facts] index (by simpa [sightingsOf] using hmem)
    refine hseen.one hvisible hnamed hagrees.count ?_
    rw [← hseen.devices]
    exact hagrees.device
  · obtain ⟨hoffloaded', htotal'⟩ := layers_observeStartupLog hmode s facts
    simp only [State.acceleratorFacts] at hoffloaded htotal ⊢
    rw [hoffloaded', htotal']
    cases hoffload : facts.offload with
    | none => exact ⟨layers, hoffloaded, htotal, hlayers⟩
    | some p =>
      simp only [State.observeOffload]
      split
      · rename_i hfits
        simp only [Bool.and_eq_true, decide_eq_true_eq] at hfits
        obtain ⟨hequal, hpositive⟩ := hagrees.offload p hoffload hfits.1.1 hfits.1.2
        exact ⟨p.2, congrArg some hequal, rfl, hpositive⟩
      · exact ⟨layers, hoffloaded, htotal, hlayers⟩

/-! ## Runs -/

/-- A supervisor that is ready, or about to be, has sufficient evidence. -/
structure Truthful (w : World) : Prop where
  seen : ∃ l, Seen l w.state.evidence
  sufficient : w.gate.ready = true ∨ w.gate.passed = true → w.gate.facts.Sufficient

/-- A line that arrives after the gate was passed agrees with the evidence. -/
def AgreesOnceReady (w : World) : Event → Prop
  | .log facts => w.state.ready = true ∨ w.monitor.passed = true → Agrees w.state facts
  | _ => True

instance (w : World) : (e : Event) → Decidable (AgreesOnceReady w e)
  | .log _ => inferInstanceAs (Decidable (_ → _))
  | .startup _ | .drain _ | .monitor _ | .waiter _ | .exit _ | .clock _ => .isTrue trivial

theorem Truthful.step (hmode : config.mode = .accelerator) {e : Event} (h : Truthful w)
    (hagrees : AgreesOnceReady w e)
    (hstep : step config options w e = some w') : Truthful w' := by
  by_cases hlog : ∃ facts, e = .log facts
  · obtain ⟨facts, rfl⟩ := hlog
    simp only [Runtime.step, Option.ite_none_right_eq_some, Option.some.injEq] at hstep
    obtain ⟨-, rfl⟩ := hstep
    obtain ⟨l, hseen⟩ := h.seen
    refine ⟨⟨l ++ facts.sightings, ?_⟩, fun hgate => ?_⟩
    · show Seen _ (w.state.observeStartupLog config facts).evidence
      rw [evidence_observeStartupLog hmode]
      refine hseen.foldl fun index hmem => ?_
      exact named_sightingsOf [facts] index (by simpa [sightingsOf] using hmem)
    · have hready : (w.state.observeStartupLog config facts).ready = w.state.ready :=
        (w.state.observeStartupLog_sameLifecycle config facts).ready
      have hgate' : w.state.ready = true ∨ w.monitor.passed = true :=
        hgate.imp (fun hr => hready ▸ hr) id
      exact (hagrees hgate').sufficient hmode hseen (h.sufficient hgate')
  · have hgate := gateStep_of_step hmode hstep fun facts he => hlog ⟨facts, he⟩
    have hfacts : w'.gate.facts = w.gate.facts := by
      generalize w'.gate = g' at hgate
      cases hgate <;> rfl
    refine ⟨?_, ?_⟩
    · show ∃ l, Seen l w'.gate.facts.evidence
      rw [hfacts]
      exact h.seen
    · generalize w'.gate = g' at hgate
      cases hgate with
      | hold ready passed hready hpassed =>
        exact fun hgate => h.sufficient (hgate.imp hready hpassed)
      | pass hsufficient => exact fun _ => hsufficient
      | commit hpassed => exact fun _ => h.sufficient (.inr hpassed)

theorem truthful_init : Truthful World.init :=
  ⟨⟨[], seen_empty⟩, fun h => by rcases h with h | h <;> cases h⟩

/-- **Accelerator readiness is truthful as long as the log agrees with it.** In a run in which the
lines that arrive after the gate was passed report no second device and no partial offload, a ready
supervisor has detected its accelerator, sees exactly one and has all layers on it. -/
theorem acceleratorReady_of_ready (config : Config) (options : Options)
    (hmode : config.mode = .accelerator) {events : List Event} {w : World}
    (hagrees : Allowed (step config options) AgreesOnceReady World.init events)
    (hrun : run config options World.init events = some w) (hready : w.state.ready = true) :
    w.state.runtime.acceleratorDetected = true ∧ w.state.runtime.visibleAccelerators = some 1 ∧
      ∃ layers, w.state.runtime.offloadedLayers = some layers ∧
        w.state.runtime.totalLayers = some layers ∧ 1 ≤ layers := by
  have h : Truthful w := run_invariant (fun _ _ _ h hagrees hstep => h.step hmode hagrees hstep)
    truthful_init hagrees hrun
  exact h.sufficient (.inl hready)

/-- Startup and a probe after the lines of one GPU. -/
def gpuEvents : List Event :=
  startupEvents ++ (gpuLines.map fun line => .log (logFacts line)) ++
    [.monitor .check, .monitor (.probe releaseAnswers), .monitor .inspect, .monitor .commit]

/-- The lines as events, with what they say. -/
theorem logEvents_gpuLines : (gpuLines.map fun line => Event.log (logFacts line)) =
    [.log ⟨some 1, none, none, none⟩, .log ⟨none, none, some (0, "NVIDIA L4"), none⟩,
      .log ⟨none, some (33, 33), none, none⟩] := by
  have hlog : (gpuLines.map fun line => Event.log (logFacts line)) =
      (gpuLines.map logFacts).map .log := by
    rw [List.map_map]
    rfl
  rw [hlog, logFacts_gpuLines]
  rfl

/-- The world after these events. -/
def gpuWorld (events : List Event) : World :=
  (run acceleratorConfig releaseOptions World.init events).getD World.init

/-- The same lines again, once the supervisor is ready. -/
def repeatedEvents : List Event :=
  gpuEvents ++ gpuLines.map fun line => .log (logFacts line)

theorem acceleratorReady_repeated :
    (gpuWorld repeatedEvents).state.ready = true ∧
      (gpuWorld repeatedEvents).state.runtime.visibleAccelerators = some 1 := by
  have hagrees : Allowed (step acceleratorConfig releaseOptions) AgreesOnceReady World.init
      repeatedEvents := by
    rw [repeatedEvents, gpuEvents, logEvents_gpuLines]
    decide +kernel
  have hrun : run acceleratorConfig releaseOptions World.init repeatedEvents =
      some (gpuWorld repeatedEvents) := by
    rw [repeatedEvents, gpuEvents, logEvents_gpuLines]
    decide +kernel
  have hready : (gpuWorld repeatedEvents).state.ready = true := by
    rw [repeatedEvents, gpuEvents, logEvents_gpuLines]
    decide +kernel
  exact ⟨hready, (acceleratorReady_of_ready acceleratorConfig releaseOptions rfl hagrees hrun
    hready).2.1⟩

/-- The server finds a second GPU. -/
def secondDevice : Event := .log (logFacts (ascii "ggml_cuda_init: found 2 CUDA devices:"))

theorem secondDevice_eq : secondDevice = .log ⟨some 2, none, none, none⟩ := by decide +kernel

/-- The line arrives between the check of the evidence and the write that makes the supervisor
ready. -/
def overtakenEvents : List Event :=
  startupEvents ++ (gpuLines.map fun line => .log (logFacts line)) ++
    [.monitor .check, .monitor (.probe releaseAnswers), .monitor .inspect, secondDevice,
      .monitor .commit]

/-- **Readiness does not follow the evidence.** The write that makes the supervisor ready looks at
the phase again and not at the evidence, and a later line does not take readiness back. -/
theorem ready_without_evidence :
    run acceleratorConfig releaseOptions World.init overtakenEvents =
        some (gpuWorld overtakenEvents) ∧
      (gpuWorld overtakenEvents).state.ready = true ∧
      (gpuWorld overtakenEvents).state.runtime.visibleAccelerators = some 2 ∧
    run acceleratorConfig releaseOptions World.init (gpuEvents ++ [secondDevice]) =
        some (gpuWorld (gpuEvents ++ [secondDevice])) ∧
      (gpuWorld (gpuEvents ++ [secondDevice])).state.ready = true ∧
      (gpuWorld (gpuEvents ++ [secondDevice])).state.runtime.visibleAccelerators = some 2 := by
  rw [overtakenEvents, gpuEvents, logEvents_gpuLines, secondDevice_eq]
  refine ⟨?_, ?_, ?_, ?_, ?_, ?_⟩ <;> decide +kernel

end Kama.Runtime
