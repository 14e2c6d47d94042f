import Kama.Runtime.Draining

/-!
# The discipline of the phases

The goroutines of the supervisor write the phase, the ready flag and the exit code in several
places, some of them without looking. `Life` is the part of the supervisor that matters for these
writes and `LifeStep` says what any step of any goroutine can do to it (`lifeStep_of_step`).

* `Disciplined`: the ready flag says whether the phase is `Ready`; a phase of failure or exit comes
  with a `Run` and a waiter that have made their last write; so does a recorded exit code.
* `phase_discipline`: what follows for every state and every step of every run.
-/

namespace Kama.Runtime

open Machine

/-! ## What a step can do -/

/-- `Run` has given up or has stored its child. -/
def Startup.past : Startup → Bool
  | .failed | .selecting | .awaitingDrain | .finished => true
  | .listening | .validating | .hashing | .starting | .opening | .spawning | .failing _
  | .started => false

/-- `Run` waits for the end, or has reached it. -/
def Startup.served : Startup → Bool
  | .selecting | .awaitingDrain | .finished => true
  | _ => false

/-- `waitForChild` has no phase to write any more. -/
def Waiter.past : Waiter → Bool
  | .idle | .closing | .stopped => true
  | .waiting | .recording _ => false

theorem Startup.past_of_served {startup : Startup} (h : startup.served = true) :
    startup.past = true := by
  cases startup <;> first | rfl | cases h

structure Life where
  phase : Phase
  ready : Bool
  exitCode : Option Int
  startup : Startup
  waiter : Waiter
  deriving DecidableEq, Repr

def World.life (w : World) : Life :=
  ⟨w.state.phase, w.state.ready, w.state.exitCode, w.startup, w.waiter⟩

/-- A phase that only `drain` may overwrite, or that is `drain`'s own. -/
def Life.terminal (l : Life) : Prop :=
  l.phase = .draining ∨ l.phase = .loadFailed ∨ l.phase = .exited

inductive LifeStep (l : Life) : Life → Prop
  | same : LifeStep l l
  /-- `Run` goes on towards its child -/
  | advance (startup : Startup) (h : l.startup.past = false) (h' : startup.past = false) :
      LifeStep l { l with startup := startup }
  /-- `Run` cannot listen -/
  | quit (h : l.startup.past = false) : LifeStep l { l with startup := .finished }
  /-- `startChild` writes the phase -/
  | load (startup : Startup) (h : l.startup.past = false) (h' : startup.past = false) :
      LifeStep l { l with startup := startup, phase := .loading, ready := false }
  | fail (h : l.startup.past = false) :
      LifeStep l { l with startup := .failed, phase := .loadFailed, ready := false }
  | store (h : l.startup.past = false) :
      LifeStep l { l with startup := .selecting, waiter := .waiting }
  /-- `Run` goes on towards its end -/
  | settle (startup : Startup) (h : l.startup.past = true) (h' : startup.served = true) :
      LifeStep l { l with startup := startup }
  | drain : LifeStep l { l with phase := .draining, ready := false }
  | refuse (h : ¬ l.terminal) : LifeStep l { l with phase := .loading, ready := false }
  | commit (h : ¬ l.terminal) : LifeStep l { l with phase := .ready, ready := true }
  | wait (code : Int) (h : l.waiter = .waiting) : LifeStep l { l with waiter := .recording code }
  | recordDraining (code : Int) (h : l.waiter = .recording code) (hphase : l.phase = .draining) :
      LifeStep l { l with waiter := .closing, exitCode := some code }
  | recordExit (code : Int) (phase : Phase) (h : l.waiter = .recording code)
      (hphase : phase = .exited ∨ phase = .loadFailed) :
      LifeStep l { l with
        waiter := .closing, exitCode := some code, phase := phase, ready := false }
  | close (h : l.waiter = .closing) : LifeStep l { l with waiter := .stopped }

variable {config : Config} {options : Options} {w w' : World}

theorem terminal_iff (w : World) : w.life.terminal ↔ w.state.terminal = true := by
  simp [Life.terminal, World.life, State.terminal, or_assoc]

@[simp] theorem World.initiateDrain_life (w : World) : w.initiateDrain.life = w.life := by
  unfold initiateDrain
  split <;> rfl

theorem lifeStep_of_stepStartup {e : StartupEvent} (h : stepStartup config w e = some w') :
    LifeStep w.life w'.life := by
  cases e with
  | listen ok =>
    simp only [stepStartup, Option.ite_none_right_eq_some] at h
    obtain ⟨hpc, h⟩ := h
    split at h
    · obtain rfl := Option.some.inj h
      exact .advance .validating (by simp [World.life, hpc, Startup.past]) rfl
    · obtain rfl := Option.some.inj h
      exact .quit (by simp [World.life, hpc, Startup.past])
  | checkConfig ok | hashArtifact ok | openPipes ok =>
    simp only [stepStartup, Option.ite_none_right_eq_some, Option.some.injEq] at h
    obtain ⟨hpc, rfl⟩ := h
    refine .advance _ (by simp [World.life, hpc, Startup.past]) ?_
    split <;> rfl
  | setLoading =>
    simp only [stepStartup, Option.ite_none_right_eq_some, Option.some.injEq] at h
    obtain ⟨hpc, rfl⟩ := h
    exact .load .opening (by simp [World.life, hpc, Startup.past]) rfl
  | startProcess ok =>
    simp only [stepStartup, Option.ite_none_right_eq_some] at h
    obtain ⟨hpc, h⟩ := h
    split at h
    · obtain rfl := Option.some.inj h
      exact .advance .started (by simp [World.life, hpc, Startup.past]) rfl
    · obtain rfl := Option.some.inj h
      exact .advance (.failing .childStartFailed) (by simp [World.life, hpc, Startup.past]) rfl
  | fail =>
    simp only [stepStartup] at h
    split at h
    · rename_i reason hpc
      obtain rfl := Option.some.inj h
      exact .fail (by simp [World.life, hpc, Startup.past])
    · cases h
  | closeChildDone =>
    simp only [stepStartup, Option.ite_none_right_eq_some, Option.some.injEq] at h
    obtain ⟨hpc, rfl⟩ := h
    exact .settle .selecting (by simp [World.life, hpc, Startup.past]) rfl
  | storeChild =>
    simp only [stepStartup, Option.ite_none_right_eq_some, Option.some.injEq] at h
    obtain ⟨hpc, rfl⟩ := h
    exact .store (by simp [World.life, hpc, Startup.past])
  | initiateDrain =>
    simp only [stepStartup, Option.ite_none_right_eq_some, Option.some.injEq] at h
    obtain ⟨hpc, rfl⟩ := h
    have hlife : ({ w.initiateDrain with startup := .awaitingDrain } : World).life =
        { w.initiateDrain.life with startup := .awaitingDrain } := rfl
    rw [hlife, World.initiateDrain_life]
    exact .settle .awaitingDrain (by simp [World.life, hpc, Startup.past]) rfl
  | finish =>
    simp only [stepStartup, Option.ite_none_right_eq_some, Option.some.injEq] at h
    obtain ⟨hpc, rfl⟩ := h
    refine .settle .finished ?_ rfl
    rcases hpc with hpc | ⟨hpc, -⟩ <;> simp [World.life, hpc, Startup.past]

theorem lifeStep_of_stepDrain {e : DrainEvent} (h : stepDrain config options w e = some w') :
    LifeStep w.life w'.life := by
  cases e with
  | begin =>
    simp only [stepDrain, Option.ite_none_right_eq_some, Option.some.injEq] at h
    obtain ⟨-, rfl⟩ := h
    exact .drain
  | request loopback =>
    simp only [stepDrain, Option.ite_none_right_eq_some, Option.some.injEq] at h
    obtain ⟨-, rfl⟩ := h
    split
    · rw [World.initiateDrain_life]
      exact .same
    · exact .same
  | propagated | test | poll | slots answer | metrics answer | record | wake | readChild | signal
  | kill | exited =>
    -- these write the count of requests, the program counter and the channel
    have hlife : w'.life = w.life := by
      simp only [stepDrain] at h
      (repeat' split at h) <;> simp only [Option.some.injEq, reduceCtorEq] at h <;> subst h <;> rfl
    rw [hlife]
    exact .same

theorem lifeStep_of_stepMonitor {e : MonitorEvent}
    (h : stepMonitor config options w e = some w') : LifeStep w.life w'.life := by
  cases e with
  | check | probe answers | tick | stop =>
    simp only [stepMonitor, Option.ite_none_right_eq_some, Option.some.injEq] at h
    obtain ⟨-, rfl⟩ := h
    exact .same
  | inspect =>
    simp only [stepMonitor] at h
    split at h
    · obtain rfl := Option.some.inj h
      exact .same
    · cases h
  | refuse =>
    simp only [stepMonitor] at h
    split at h
    · obtain rfl := Option.some.inj h
      unfold State.setLoading
      split
      · exact .same
      · rename_i hterminal
        exact .refuse fun hl => hterminal ((terminal_iff w).1 hl)
    · cases h
  | commit =>
    simp only [stepMonitor] at h
    split at h
    · obtain rfl := Option.some.inj h
      unfold State.commitReady
      split
      · exact .same
      · rename_i hterminal
        exact .commit fun hl => hterminal ((terminal_iff w).1 hl)
    · cases h

theorem lifeStep_of_stepWaiter {e : WaiterEvent} (h : stepWaiter w e = some w') :
    LifeStep w.life w'.life := by
  cases e with
  | wait =>
    simp only [stepWaiter] at h
    split at h
    · rename_i code hwaiter _
      obtain rfl := Option.some.inj h
      exact .wait code hwaiter
    · cases h
  | record =>
    simp only [stepWaiter] at h
    split at h
    · rename_i code hwaiter
      obtain rfl := Option.some.inj h
      by_cases hphase : w.state.phase = .draining
      · rw [State.recordExit_of_draining hphase]
        exact .recordDraining code hwaiter hphase
      · simp only [State.recordExit, if_neg hphase]
        refine .recordExit code _ hwaiter ?_
        split
        · exact .inl rfl
        · exact .inr rfl
    · cases h
  | close =>
    simp only [stepWaiter, Option.ite_none_right_eq_some, Option.some.injEq] at h
    obtain ⟨hwaiter, rfl⟩ := h
    exact .close hwaiter

/-- A line of the log changes the accelerator evidence and nothing else. -/
theorem observeStartupLog_eq (config : Config) (s : State) (facts : LogFacts) :
    ∃ runtime devices, s.observeStartupLog config facts =
      { s with runtime := runtime, observedCUDADevices := devices } := by
  have hcount : ∀ (s : State) count, ∃ runtime devices, s.observeCount count =
      { s with runtime := runtime, observedCUDADevices := devices } := by
    intro s count
    cases count with
    | none => exact ⟨_, _, rfl⟩
    | some count =>
      simp only [State.observeCount]
      split <;> exact ⟨_, _, rfl⟩
  have hoffload : ∀ (s : State) offload, ∃ runtime devices, s.observeOffload offload =
      { s with runtime := runtime, observedCUDADevices := devices } := by
    rintro s (_ | ⟨offloaded, total⟩)
    · exact ⟨_, _, rfl⟩
    · simp only [State.observeOffload]
      split <;> exact ⟨_, _, rfl⟩
  have hdevice : ∀ (s : State) device, ∃ runtime devices, s.observeDevice device =
      { s with runtime := runtime, observedCUDADevices := devices } := by
    rintro s (_ | ⟨index, device⟩)
    · exact ⟨_, _, rfl⟩
    · simp only [State.observeDevice, State.observeCUDADeviceLocked]
      split <;> exact ⟨_, _, rfl⟩
  unfold State.observeStartupLog
  split
  · obtain ⟨r₁, d₁, h₁⟩ := hcount s facts.cudaCount
    obtain ⟨r₂, d₂, h₂⟩ := hoffload (s.observeCount facts.cudaCount) facts.offload
    obtain ⟨r₃, d₃, h₃⟩ := hdevice ((s.observeCount facts.cudaCount).observeOffload facts.offload)
      facts.legacyDevice
    obtain ⟨r₄, d₄, h₄⟩ := hdevice (((s.observeCount facts.cudaCount).observeOffload
      facts.offload).observeDevice facts.legacyDevice) facts.inventoryDevice
    refine ⟨r₄, d₄, ?_⟩
    rw [h₄, h₃, h₂, h₁]
  · exact ⟨_, _, rfl⟩

/-- **What a step of the supervisor can do to its phase.** -/
theorem lifeStep_of_step {e : Event} (h : step config options w e = some w') :
    LifeStep w.life w'.life := by
  cases e with
  | startup e => exact lifeStep_of_stepStartup h
  | drain e => exact lifeStep_of_stepDrain h
  | monitor e => exact lifeStep_of_stepMonitor h
  | waiter e => exact lifeStep_of_stepWaiter h
  | exit code =>
    simp only [step, Option.ite_none_right_eq_some, Option.some.injEq] at h
    obtain ⟨-, rfl⟩ := h
    exact .same
  | log facts =>
    simp only [step, Option.ite_none_right_eq_some, Option.some.injEq] at h
    obtain ⟨-, rfl⟩ := h
    obtain ⟨runtime, devices, hlog⟩ := observeStartupLog_eq config w.state facts
    rw [hlog]
    exact .same
  | clock elapsed =>
    obtain rfl := Option.some.inj h
    exact .same

/-! ## The invariant -/

/-- What holds of the supervisor at any time. -/
structure Disciplined (l : Life) : Prop where
  ready : l.ready = true ↔ l.phase = .ready
  waiter : l.waiter ≠ .idle → l.startup.served = true
  /-- nobody but `drain` has a phase to write after a failure or an exit -/
  ended : l.phase = .loadFailed ∨ l.phase = .exited → l.startup.past = true ∧ l.waiter.past = true
  exited : l.exitCode ≠ none → l.startup.past = true ∧ l.terminal

/-- As long as `Run` is on its way to its child nothing has failed and nothing has exited. -/
theorem Disciplined.early {l : Life} (h : Disciplined l) (hpast : l.startup.past = false) :
    l.waiter = .idle ∧ l.exitCode = none ∧ ¬(l.phase = .loadFailed ∨ l.phase = .exited) := by
  refine ⟨?_, ?_, fun hphase => ?_⟩
  · by_contra hwaiter
    have := Startup.past_of_served (h.waiter hwaiter)
    rw [hpast] at this
    cases this
  · by_contra hexit
    have := (h.exited hexit).1
    rw [hpast] at this
    cases this
  · have := (h.ended hphase).1
    rw [hpast] at this
    cases this

theorem Disciplined.step {l l' : Life} (h : Disciplined l) (hstep : LifeStep l l') :
    Disciplined l' := by
  cases hstep with
  | same => exact h
  | advance startup hpast hpast' =>
    obtain ⟨hwaiter, hexit, hphase⟩ := h.early hpast
    exact ⟨h.ready, fun hne => absurd hwaiter hne, fun hp => absurd hp hphase,
      fun hne => absurd hexit hne⟩
  | quit hpast =>
    obtain ⟨hwaiter, hexit, hphase⟩ := h.early hpast
    exact ⟨h.ready, fun _ => rfl, fun hp => absurd hp hphase, fun hne => absurd hexit hne⟩
  | load startup hpast hpast' =>
    obtain ⟨hwaiter, hexit, -⟩ := h.early hpast
    exact ⟨by simp, fun hne => absurd hwaiter hne, by simp, fun hne => absurd hexit hne⟩
  | fail hpast =>
    obtain ⟨hwaiter, hexit, -⟩ := h.early hpast
    refine ⟨by simp, fun hne => absurd hwaiter hne, fun _ => ⟨rfl, ?_⟩, fun hne => absurd hexit hne⟩
    simp [hwaiter, Waiter.past]
  | store hpast =>
    obtain ⟨-, hexit, hphase⟩ := h.early hpast
    exact ⟨h.ready, fun _ => rfl, fun hp => absurd hp hphase, fun hne => absurd hexit hne⟩
  | settle startup hpast hserved =>
    exact ⟨h.ready, fun _ => hserved,
      fun hp => ⟨Startup.past_of_served hserved, (h.ended hp).2⟩,
      fun hne => ⟨Startup.past_of_served hserved, (h.exited hne).2⟩⟩
  | drain => exact ⟨by simp, h.waiter, by simp, fun hne => ⟨(h.exited hne).1, .inl rfl⟩⟩
  | refuse hterminal =>
    exact ⟨by simp, h.waiter, by simp, fun hne => absurd (h.exited hne).2 hterminal⟩
  | commit hterminal =>
    exact ⟨by simp, h.waiter, by simp, fun hne => absurd (h.exited hne).2 hterminal⟩
  | wait code hwaiter =>
    have hserved := h.waiter (by rw [hwaiter]; exact Waiter.noConfusion)
    refine ⟨h.ready, fun _ => hserved, fun hp => ?_, h.exited⟩
    have := (h.ended hp).2
    rw [hwaiter] at this
    cases this
  | recordDraining code hwaiter hphase =>
    have hserved := h.waiter (by rw [hwaiter]; exact Waiter.noConfusion)
    exact ⟨h.ready, fun _ => hserved, fun _ => ⟨Startup.past_of_served hserved, rfl⟩,
      fun _ => ⟨Startup.past_of_served hserved, .inl hphase⟩⟩
  | recordExit code phase hwaiter hphase =>
    have hserved := h.waiter (by rw [hwaiter]; exact Waiter.noConfusion)
    refine ⟨?_, fun _ => hserved, fun _ => ⟨Startup.past_of_served hserved, rfl⟩,
      fun _ => ⟨Startup.past_of_served hserved, .inr hphase.symm⟩⟩
    rcases hphase with rfl | rfl <;> simp
  | close hwaiter =>
    have hserved := h.waiter (by rw [hwaiter]; exact Waiter.noConfusion)
    exact ⟨h.ready, fun _ => hserved, fun hp => ⟨(h.ended hp).1, rfl⟩, h.exited⟩

/-- A failure or an exit is left for `Draining` only. -/
theorem Disciplined.left_for_draining {l l' : Life} (h : Disciplined l) (hstep : LifeStep l l')
    (hphase : l.phase = .loadFailed ∨ l.phase = .exited) :
    l'.phase = l.phase ∨ l'.phase = .draining := by
  obtain ⟨hstartup, hwaiter⟩ := h.ended hphase
  cases hstep with
  | same | advance | quit | store | settle | wait | recordDraining | close => exact .inl rfl
  | drain => exact .inr rfl
  | load startup hpast hpast' | fail hpast =>
    rw [hstartup] at hpast
    cases hpast
  | refuse hterminal | commit hterminal => exact absurd (.inr hphase) hterminal
  | recordExit code phase hrecording hphase' =>
    rw [hrecording] at hwaiter
    cases hwaiter

/-- Once an exit code has been recorded, no step makes the supervisor ready. -/
theorem Disciplined.not_ready {l : Life} (h : Disciplined l) (hexit : l.exitCode ≠ none) :
    l.ready = false := by
  rw [← Bool.not_eq_true, h.ready]
  intro hready
  rcases (h.exited hexit).2 with hphase | hphase | hphase <;> rw [hready] at hphase <;> cases hphase

theorem exitCode_of_lifeStep {l l' : Life} (hstep : LifeStep l l') (hexit : l.exitCode ≠ none) :
    l'.exitCode ≠ none := by
  cases hstep <;> first | exact hexit | exact Option.some_ne_none _

theorem disciplined_init : Disciplined World.init.life := by
  refine ⟨?_, ?_, ?_, ?_⟩ <;> simp [World.life, World.init, newSupervisor]

theorem disciplined_of_run {events : List Event} (h : Disciplined w.life)
    (hrun : run config options w events = some w') : Disciplined w'.life := by
  have hstep : ∀ (s : World) (e : Event) (t : World), Disciplined s.life →
      step config options s e = some t → Disciplined t.life :=
    fun s e t h hstep => h.step (lifeStep_of_step hstep)
  exact run_invariant_all hstep h hrun

theorem exitCode_of_run {events : List Event} (h : w.state.exitCode ≠ none)
    (hrun : run config options w events = some w') : w'.state.exitCode ≠ none := by
  have hstep : ∀ (s : World) (e : Event) (t : World), s.life.exitCode ≠ none →
      step config options s e = some t → t.life.exitCode ≠ none :=
    fun s e t h hstep => exitCode_of_lifeStep (lifeStep_of_step hstep) h
  exact run_invariant_all hstep h hrun

/-- **The phases are disciplined.** In every state that a supervisor reaches the ready flag is set
exactly when the phase is `Ready`; from a state with a recorded exit code on it is never set again;
and a step from `LoadFailed` or `Exited` to another phase is one to `Draining`. -/
theorem phase_discipline (config : Config) (options : Options) {events : List Event} {w : World}
    (hrun : run config options World.init events = some w) :
    (w.state.ready = true ↔ w.state.phase = .ready) ∧
    (w.state.exitCode ≠ none → ∀ later w', run config options w later = some w' →
      w'.state.ready = false) ∧
    ∀ e w', step config options w e = some w' →
      w.state.phase = .loadFailed ∨ w.state.phase = .exited →
      w'.state.phase = w.state.phase ∨ w'.state.phase = .draining := by
  have h : Disciplined w.life := disciplined_of_run disciplined_init hrun
  refine ⟨h.ready, fun hexit later w' hlater => ?_, fun e w' hstep hphase => ?_⟩
  · exact (disciplined_of_run h hlater).not_ready (exitCode_of_run hexit hlater)
  · exact h.left_for_draining (lifeStep_of_step hstep) hphase

/-- The options of an image that was built for a release of `llama-server`. -/
def releaseOptions : Options :=
  { defaultOptions with
    llamaCPPCommit := "b4d6c7d8ff69c2e05e4e8ee7e6e710a08abd7b45", llamaCPPBuildNumber := "10091" }

/-- The answers of that release with the model of the sample configuration. -/
def releaseAnswers : ProbeAnswers :=
  ⟨true, some ⟨4096, 1, "/models/model.gguf", "b10091-b4d6c7d8ff69c2e05e4e8ee7e6e710a08abd7b45"⟩,
    some [⟨4096, false⟩]⟩

/-- A child that gets ready and exits. -/
def exitedEvents : List Event :=
  startupEvents ++ [.monitor .check, .monitor (.probe releaseAnswers), .monitor .commit, .exit 0,
    .waiter .wait, .waiter .record]

def exitedWorld : World :=
  (run sampleConfig releaseOptions World.init exitedEvents).getD World.init

theorem phase_discipline_exited :
    exitedWorld.state.becameReady = true ∧ exitedWorld.state.phase = .exited ∧
      ∀ later w', run sampleConfig releaseOptions exitedWorld later = some w' →
        w'.state.ready = false := by
  have hrun : run sampleConfig releaseOptions World.init exitedEvents = some exitedWorld := by
    decide +kernel
  refine ⟨by decide +kernel, by decide +kernel, ?_⟩
  exact (phase_discipline sampleConfig releaseOptions hrun).2.1 (by decide +kernel)

end Kama.Runtime
