import Kama.Runtime.Supervisor

/-!
# When draining is final

`drain` writes the phase `Draining`, and the setters that `monitorChild` and `waitForChild` use
leave that phase alone. `startChild` and `fail` do not look: `Run` may still be checking files
when the drain endpoint is called, and it then overwrites the phase and starts a child.

* `drain_irrevocable_iff`: draining is final exactly when `drain` writes the phase at a moment at
  which `Run` has made its last unguarded write and its attempt to start a child
  (`Startup.settled`).
* `drain_during_hashing_is_revoked`: a drain request during the hashing of the artifact, after
  which the child is started and the phase is `Loading`.
-/

namespace Kama.Runtime

open Machine

/-- `Run` is past `startChild`'s phase write, past `fail` and past `command.Start`. -/
def Startup.settled : Startup → Bool
  | .failed | .started | .selecting | .awaitingDrain | .finished => true
  | .listening | .validating | .hashing | .starting | .opening | .spawning | .failing _ => false

/-- The event in which `command.Start` creates the child process. -/
def Event.startsChild (e : Event) : Prop := e = .startup (.startProcess true)

/-- From `w` on, the phase stays `Draining`, readiness stays false and no child is started. -/
def Irrevocable (config : Config) (options : Options) (w : World) : Prop :=
  ∀ events w', run config options w events = some w' →
    w'.state.phase = .draining ∧ w'.state.ready = false ∧ ∀ e ∈ events, ¬ e.startsChild

/-! ## What a settled startup guarantees -/

/-- Draining, with nothing left in `Run` that could end it. -/
structure Drained (w : World) : Prop where
  phase : w.state.phase = .draining
  ready : w.state.ready = false
  settled : w.startup.settled = true

theorem Drained.of_eq {w w' : World} (h : Drained w) (hphase : w'.state.phase = w.state.phase)
    (hready : w'.state.ready = w.state.ready) (hstartup : w'.startup = w.startup) : Drained w' :=
  ⟨hphase.trans h.phase, hready.trans h.ready, by rw [hstartup, h.settled]⟩

variable {config : Config} {options : Options} {w w' : World}

theorem Drained.stepStartup (h : Drained w) {e : StartupEvent}
    (hstep : stepStartup config w e = some w') : Drained w' ∧ e ≠ .startProcess true := by
  have hs := h.settled
  cases e with
  | listen ok | checkConfig ok | hashArtifact ok | setLoading | openPipes ok | startProcess ok =>
    -- these belong to an unsettled startup
    simp only [Runtime.stepStartup] at hstep
    split at hstep
    · rename_i hpc
      simp [hpc, Startup.settled] at hs
    · simp at hstep
  | fail =>
    simp only [Runtime.stepStartup] at hstep
    split at hstep
    · rename_i hpc
      simp [hpc, Startup.settled] at hs
    · simp at hstep
  | closeChildDone | storeChild =>
    simp only [Runtime.stepStartup, Option.ite_none_right_eq_some, Option.some.injEq] at hstep
    obtain ⟨-, rfl⟩ := hstep
    exact ⟨⟨h.phase, h.ready, rfl⟩, by simp⟩
  | initiateDrain =>
    simp only [Runtime.stepStartup, Option.ite_none_right_eq_some, Option.some.injEq] at hstep
    obtain ⟨-, rfl⟩ := hstep
    exact ⟨⟨by simpa using h.phase, by simpa using h.ready, rfl⟩, by simp⟩
  | finish =>
    simp only [Runtime.stepStartup, Option.ite_none_right_eq_some, Option.some.injEq] at hstep
    obtain ⟨-, rfl⟩ := hstep
    exact ⟨⟨h.phase, h.ready, rfl⟩, by simp⟩

theorem Drained.stepDrain (h : Drained w) {e : DrainEvent}
    (hstep : stepDrain config options w e = some w') : Drained w' := by
  have hstartup := (stepDrain_frame hstep).startup
  rcases stepDrain_phase hstep with ⟨hphase, hready⟩ | ⟨-, hphase, hready⟩
  · exact h.of_eq hphase hready hstartup
  · exact ⟨hphase, hready, by rw [hstartup, h.settled]⟩

theorem Drained.stepMonitor (h : Drained w) {e : MonitorEvent}
    (hstep : stepMonitor config options w e = some w') : Drained w' := by
  have hphase := h.phase
  cases e with
  | check | probe answers | tick | stop =>
    simp only [Runtime.stepMonitor, Option.ite_none_right_eq_some, Option.some.injEq] at hstep
    obtain ⟨-, rfl⟩ := hstep
    exact h.of_eq rfl rfl rfl
  | inspect =>
    simp only [Runtime.stepMonitor] at hstep
    split at hstep
    · obtain rfl := Option.some.inj hstep
      exact h.of_eq rfl rfl rfl
    · simp at hstep
  | refuse | commit =>
    -- both writes are guarded by the phase
    simp only [Runtime.stepMonitor] at hstep
    split at hstep
    · obtain rfl := Option.some.inj hstep
      exact h.of_eq (by simp [State.setLoading_of_draining, State.commitReady_of_draining, hphase])
        (by simp [State.setLoading_of_draining, State.commitReady_of_draining, hphase]) rfl
    · simp at hstep

theorem Drained.stepWaiter (h : Drained w) {e : WaiterEvent}
    (hstep : stepWaiter w e = some w') : Drained w' := by
  cases e with
  | wait =>
    simp only [Runtime.stepWaiter] at hstep
    split at hstep
    · obtain rfl := Option.some.inj hstep
      exact h.of_eq rfl rfl rfl
    · simp at hstep
  | record =>
    simp only [Runtime.stepWaiter] at hstep
    split at hstep
    · obtain rfl := Option.some.inj hstep
      exact h.of_eq (by simp [State.recordExit_of_draining h.phase])
        (by simp [State.recordExit_of_draining h.phase]) rfl
    · simp at hstep
  | close =>
    simp only [Runtime.stepWaiter, Option.ite_none_right_eq_some, Option.some.injEq] at hstep
    obtain ⟨-, rfl⟩ := hstep
    exact h.of_eq rfl rfl rfl

/-- One step of any goroutine keeps a drained supervisor drained, and starts no child. -/
theorem Drained.step (h : Drained w) {e : Event} (hstep : step config options w e = some w') :
    Drained w' ∧ ¬ e.startsChild := by
  cases e with
  | startup e =>
    obtain ⟨h', he⟩ := h.stepStartup hstep
    exact ⟨h', by simpa [Event.startsChild] using he⟩
  | drain e => exact ⟨h.stepDrain hstep, by simp [Event.startsChild]⟩
  | monitor e => exact ⟨h.stepMonitor hstep, by simp [Event.startsChild]⟩
  | waiter e => exact ⟨h.stepWaiter hstep, by simp [Event.startsChild]⟩
  | exit code =>
    simp only [Runtime.step, Option.ite_none_right_eq_some, Option.some.injEq] at hstep
    obtain ⟨-, rfl⟩ := hstep
    exact ⟨h.of_eq rfl rfl rfl, by simp [Event.startsChild]⟩
  | log facts =>
    simp only [Runtime.step, Option.ite_none_right_eq_some, Option.some.injEq] at hstep
    obtain ⟨-, rfl⟩ := hstep
    have hlog := w.state.observeStartupLog_sameLifecycle config facts
    exact ⟨h.of_eq hlog.phase hlog.ready rfl, by simp [Event.startsChild]⟩
  | clock elapsed =>
    obtain rfl := Option.some.inj hstep
    exact ⟨h.of_eq rfl rfl rfl, by simp [Event.startsChild]⟩

theorem Drained.irrevocable (h : Drained w) : Irrevocable config options w := by
  intro events w' hrun
  have hinv : Drained w' := run_invariant_all (fun _ _ _ h hs => (h.step hs).1) h hrun
  exact ⟨hinv.phase, hinv.ready, forall_mem_of_run (fun _ _ _ h hs => h.step hs) h hrun⟩

/-! ## What an unsettled startup can still do -/

/-- Some run from `w` ends with another phase than `Draining`. -/
def Revocable (config : Config) (options : Options) (w : World) : Prop :=
  ∃ events w', run config options w events = some w' ∧ w'.state.phase ≠ .draining

theorem Revocable.of_step {e : Event} (hstep : step config options w e = some w')
    (h : Revocable config options w') : Revocable config options w := by
  obtain ⟨events, v, hrun, hphase⟩ := h
  exact ⟨e :: events, v, run_cons_eq_some.2 ⟨w', hstep, hrun⟩, hphase⟩

theorem revocable_of_phase (h : w.state.phase ≠ .draining) : Revocable config options w :=
  ⟨[], w, rfl, h⟩

theorem revocable_of_failing {reason : Reason} (hpc : w.startup = .failing reason) :
    Revocable config options w := by
  have hstep : step config options w (.startup .fail) =
      some { w with startup := .failed, state := w.state.fail reason } := by
    simp [step, stepStartup, hpc]
  exact .of_step hstep (revocable_of_phase (by simp [State.fail, State.setPhase]))

/-- Every unsettled point of `Run` is followed by an unguarded phase write. -/
theorem revocable_of_unsettled (h : w.startup.settled = false) : Revocable config options w := by
  have hvalidating : ∀ v : World, v.startup = .validating → Revocable config options v := by
    intro v hv
    have hstep : step config options v (.startup (.checkConfig false)) =
        some { v with startup := .failing .invalidConfig } := by
      simp [step, stepStartup, hv]
    exact .of_step hstep (revocable_of_failing rfl)
  cases hpc : w.startup with
  | listening =>
    have hstep : step config options w (.startup (.listen true)) =
        some { w with
          startup := .validating, state := { w.state with initialized := true } } := by
      simp [step, stepStartup, hpc]
    exact .of_step hstep (hvalidating _ rfl)
  | validating => exact hvalidating w hpc
  | hashing =>
    have hstep : step config options w (.startup (.hashArtifact false)) =
        some { w with startup := .failing .artifactInvalid } := by
      simp [step, stepStartup, hpc]
    exact .of_step hstep (revocable_of_failing rfl)
  | starting =>
    have hstep : step config options w (.startup .setLoading) =
        some { w with
          startup := .opening, state := w.state.setPhase .loading .modelLoading false } := by
      simp [step, stepStartup, hpc]
    exact .of_step hstep (revocable_of_phase (by simp [State.setPhase]))
  | opening =>
    have hstep : step config options w (.startup (.openPipes false)) =
        some { w with startup := .failing .childStartFailed } := by
      simp [step, stepStartup, hpc]
    exact .of_step hstep (revocable_of_failing rfl)
  | spawning =>
    have hstep : step config options w (.startup (.startProcess false)) =
        some { w with startup := .failing .childStartFailed } := by
      simp [step, stepStartup, hpc]
    exact .of_step hstep (revocable_of_failing rfl)
  | failing reason => exact revocable_of_failing hpc
  | failed | started | selecting | awaitingDrain | finished => simp [hpc, Startup.settled] at h

/-! ## The characterisation -/

/-- **Draining is final exactly when startup is settled.** After `drain`'s phase write, every
later state of every run has the phase `Draining`, is not ready and no child has been started
since, if and only if `Run` was settled at that write. -/
theorem drain_irrevocable_iff (config : Config) (options : Options) {w w' : World}
    (hbegin : step config options w (.drain .begin) = some w') :
    Irrevocable config options w' ↔ w.startup.settled = true := by
  have hdrain : stepDrain config options w .begin = some w' := hbegin
  have hstartup : w'.startup = w.startup := (stepDrain_frame hdrain).startup
  constructor
  · intro h
    by_contra hunsettled
    obtain ⟨events, v, hrun, hphase⟩ : Revocable config options w' :=
      revocable_of_unsettled (by simpa [hstartup] using hunsettled)
    exact hphase (h events v hrun).1
  · intro hsettled
    simp only [stepDrain, Option.ite_none_right_eq_some, Option.some.injEq] at hdrain
    obtain ⟨-, rfl⟩ := hdrain
    exact Drained.irrevocable ⟨rfl, rfl, hsettled⟩

/-- A configuration that `Config.Validate` accepts, for the concrete runs of this directory. -/
def sampleConfig : Config where
  mode := .cpu
  modelPath := "/models/model.gguf"
  maxContextTokens := 4096
  desiredConcurrency := 1
  drainTimeoutSeconds := 600

/-- The intervals of `Options.defaultValues`. -/
def defaultOptions : Options where
  probeInterval := 500000000
  endpointPropagationDelay := 5000000000
  childShutdownTimeout := 10000000000
  llamaCPPCommit := "unknown"
  llamaCPPBuildNumber := "unknown"

/-- Startup up to the stored child. -/
def startupEvents : List Event :=
  [.startup (.listen true), .startup (.checkConfig true), .startup (.hashArtifact true),
    .startup .setLoading, .startup (.openPipes true), .startup (.startProcess true),
    .startup .storeChild]

/-- A world in which the drain goroutine is about to write the phase over a running child. -/
def drainRequestedWhileServing : World :=
  ((run sampleConfig defaultOptions World.init
    (startupEvents ++ [.drain (.request true)])).getD World.init)

theorem drain_irrevocable_while_serving :
    Irrevocable sampleConfig defaultOptions
      { drainRequestedWhileServing with
        drain := .propagating 5000000000
        state := drainRequestedWhileServing.state.setPhase .draining .terminating false } :=
  (drain_irrevocable_iff sampleConfig defaultOptions
    (w := drainRequestedWhileServing) (by decide)).2 (by decide)

/-- **A drain during startup is revoked.** The drain endpoint is called while the artifact is
being hashed; `drain` writes `Draining`, and then `startChild` writes `Loading` and starts the
child. -/
theorem drain_during_hashing_is_revoked :
    let drained : List Event := [.startup (.listen true), .startup (.checkConfig true),
      .drain (.request true), .drain .begin]
    let revived : List Event := [.startup (.hashArtifact true), .startup .setLoading,
      .startup (.openPipes true), .startup (.startProcess true)]
    (run sampleConfig defaultOptions World.init drained).map
        (fun w => (w.state.phase, w.process)) = some (.draining, .absent) ∧
      (run sampleConfig defaultOptions World.init (drained ++ revived)).map
        (fun w => (w.state.phase, w.process)) = some (.loading, .running) := by
  decide

end Kama.Runtime
