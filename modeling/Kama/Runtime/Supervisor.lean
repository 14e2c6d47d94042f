import Kama.Foundations.Machine
import Kama.Runtime.State

/-!
# The goroutines of the runtime supervisor

One step of the machine below is one critical section, one channel operation or one request of
`internal/runtime/supervisor.go`; everything a goroutine does not decide itself (the outcome of a
check, an answer of `llama-server`, a line of its log, the clock) is part of the event. The
goroutines are

* `Startup`: `Run`, which listens, checks the configuration, hashes the artifact, calls
  `startChild` and then waits for the end;
* `Drain`: `drain`, started once by the drain endpoint or at the end of `Run`;
* `Monitor`: `monitorChild`, a loop of `updateReadiness`;
* `Waiter`: `waitForChild`;
* the two log readers, which have no state of their own.

The drain endpoint is served from the moment `Run` listens, so `Drain` can start while `Startup`
is still checking files.
-/

namespace Kama.Runtime

/-! ## Program counters -/

/-- Where `Run` is. -/
inductive Startup
  /-- `net.Listen` has not returned -/
  | listening
  /-- the configuration is being checked -/
  | validating
  /-- `validateArtifactFiles` -/
  | hashing
  /-- `startChild` before its phase write -/
  | starting
  /-- `startChild` before `command.StdoutPipe` and `command.StderrPipe` -/
  | opening
  /-- `startChild` before `command.Start` -/
  | spawning
  /-- a failure was found and is about to be written by `fail` -/
  | failing (reason : Reason)
  /-- a failure was written and `closeChildDone` comes next -/
  | failed
  /-- the child runs and is about to be stored -/
  | started
  /-- the final `select` -/
  | selecting
  /-- `<-supervisor.drainDone` -/
  | awaitingDrain
  | finished
  deriving DecidableEq, Repr

/-- Where `drain` is. The deadline is the local variable of that name. -/
inductive Drain
  | idle
  /-- the goroutine exists and has not written the phase -/
  | requested
  | propagating (timer : Nat)
  /-- the condition of the `for` loop -/
  | testing (deadline : Int)
  /-- the `select` on `childDone` -/
  | polling (deadline : Int)
  | readingSlots (deadline : Int)
  /-- `/slots` has answered with `active` busy slots -/
  | readingMetrics (deadline active : Int)
  /-- `activeRequests` has returned -/
  | recording (deadline active : Int)
  | sleeping (deadline : Int) (timer : Nat)
  /-- the loop is over; `supervisor.child` is read next -/
  | leaving (deadline : Int)
  /-- the child is known and is signalled next -/
  | signalling (deadline : Int)
  | awaitingExit (timer : Nat)
  /-- `Kill` was called -/
  | awaitingKilled
  | done
  deriving DecidableEq, Repr

/-- Where `monitorChild` is. -/
inductive Monitor
  | idle
  /-- the first critical section of `updateReadiness` -/
  | checking
  | probing
  /-- the probes passed; the accelerator snapshot is read next -/
  | inspecting (effectiveContext active : Int)
  | refusing (reason : Reason)
  | committing (effectiveContext active : Int)
  /-- the `select` on `childDone` and the ticker -/
  | ticking
  | stopped
  deriving DecidableEq, Repr

/-- Where `waitForChild` is. -/
inductive Waiter
  | idle
  | waiting
  | recording (code : Int)
  | closing
  | stopped
  deriving DecidableEq, Repr

/-- The `llama-server` process. -/
inductive Process
  | absent
  | running
  | exited (code : Int)
  deriving DecidableEq, Repr

/-- The supervisor process with its child; the clock counts nanoseconds. -/
structure World where
  state : State
  now : Nat
  process : Process
  startup : Startup
  drain : Drain
  monitor : Monitor
  waiter : Waiter
  deriving DecidableEq, Repr

/-- A fresh supervisor before `Run`. -/
def World.init : World := ⟨newSupervisor, 0, .absent, .listening, .idle, .idle, .idle⟩

/-! ## Steps of `Run` and `startChild` -/

inductive StartupEvent
  | listen (ok : Bool)
  /-- `ok` is the verdict on the initial error and on the fields that `Config` leaves out -/
  | checkConfig (ok : Bool)
  | hashArtifact (ok : Bool)
  | setLoading
  | openPipes (ok : Bool)
  | startProcess (ok : Bool)
  | fail
  | closeChildDone
  | storeChild
  /-- the context is done, or the diagnostics server failed -/
  | initiateDrain
  /-- the diagnostics server was closed, or `drainDone` was received -/
  | finish
  deriving DecidableEq, Repr

/-- `initiateDrain`: the once-guarded start of the `drain` goroutine. -/
def World.initiateDrain (w : World) : World :=
  if w.drain = .idle then { w with drain := .requested } else w

@[simp] theorem World.initiateDrain_state (w : World) : w.initiateDrain.state = w.state := by
  unfold initiateDrain; split <;> rfl

@[simp] theorem World.initiateDrain_startup (w : World) :
    w.initiateDrain.startup = w.startup := by
  unfold initiateDrain; split <;> rfl

@[simp] theorem World.initiateDrain_process (w : World) :
    w.initiateDrain.process = w.process := by
  unfold initiateDrain; split <;> rfl

@[simp] theorem World.initiateDrain_now (w : World) : w.initiateDrain.now = w.now := by
  unfold initiateDrain; split <;> rfl

def stepStartup (config : Config) (w : World) : StartupEvent → Option World
  | .listen ok =>
    if w.startup = .listening then
      if ok then some { w with
        startup := .validating, state := { w.state with initialized := true } }
      else some { w with startup := .finished }
    else none
  | .checkConfig ok =>
    if w.startup = .validating then
      some { w with
        startup := if ok && config.boundsValid then .hashing else .failing .invalidConfig }
    else none
  | .hashArtifact ok =>
    if w.startup = .hashing then
      some { w with startup := if ok then .starting else .failing .artifactInvalid }
    else none
  | .setLoading =>
    if w.startup = .starting then
      some { w with
        startup := .opening, state := w.state.setPhase .loading .modelLoading false }
    else none
  | .openPipes ok =>
    if w.startup = .opening then
      some { w with startup := if ok then .spawning else .failing .childStartFailed }
    else none
  | .startProcess ok =>
    if w.startup = .spawning then
      if ok then some { w with startup := .started, process := .running }
      else some { w with startup := .failing .childStartFailed }
    else none
  | .fail =>
    match w.startup with
    | .failing reason => some { w with startup := .failed, state := w.state.fail reason }
    | _ => none
  | .closeChildDone =>
    if w.startup = .failed then
      some { w with startup := .selecting, state := w.state.closeChildDone }
    else none
  | .storeChild =>
    if w.startup = .started then
      some { w with
        startup := .selecting
        state := { w.state with child := true }
        waiter := .waiting
        monitor := .checking }
    else none
  | .initiateDrain =>
    if w.startup = .selecting then some { w.initiateDrain with startup := .awaitingDrain }
    else none
  | .finish =>
    if w.startup = .selecting ∨ (w.startup = .awaitingDrain ∧ w.state.drainDone = true) then
      some { w with startup := .finished }
    else none

/-- `Run` touches the drain goroutine only by starting it. -/
theorem stepStartup_drain {config : Config} {w w' : World} {e : StartupEvent}
    (h : stepStartup config w e = some w') :
    (w'.drain = w.drain ∨ w'.drain = w.initiateDrain.drain) ∧ w'.now = w.now := by
  cases e <;> simp only [stepStartup] at h <;> (repeat' split at h) <;>
    simp only [Option.some.injEq, reduceCtorEq] at h <;> subst h <;> simp

/-! ## Steps of `drain` -/

/-- The limit on the `/slots` and `/metrics` bodies, hence on the number of slots in an answer. -/
def maximumResponseBytes : Nat := 2 ^ 20

/-- `int32` addition. -/
def addInt32 (a b : Int) : Int := (a + b).bmod (2 ^ 32)

/-- `time.Duration(config.DrainTimeoutSeconds) * time.Second`. -/
def Config.drainTimeout (config : Config) : Int :=
  (config.drainTimeoutSeconds * 10 ^ 9).bmod (2 ^ 64)

inductive DrainEvent
  /-- a request to the drain endpoint, from the loopback address or not -/
  | request (loopback : Bool)
  /-- the phase write, and the start of the propagation timer -/
  | begin
  | propagated
  | test
  | poll
  /-- the answer of `/slots`; `none` for any error -/
  | slots (answer : Option (List SlotState))
  /-- the deferred-requests metric; `none` for any error and for an absent metric -/
  | metrics (answer : Option Int)
  | record
  | wake
  | readChild
  | signal
  | kill
  | exited
  deriving DecidableEq, Repr

/-- `drain` returns, which closes `drainDone`. -/
def World.drainReturns (w : World) : World :=
  { w with drain := .done, state := { w.state with drainDone := true } }

def stepDrain (config : Config) (options : Options) (w : World) : DrainEvent → Option World
  | .request loopback =>
    if w.state.initialized = true ∧ w.startup ≠ .finished then
      some (if loopback then w.initiateDrain else w)
    else none
  | .begin =>
    if w.drain = .requested then
      some { w with
        drain := .propagating (w.now + options.endpointPropagationDelay)
        state := w.state.setPhase .draining .terminating false }
    else none
  | .propagated =>
    match w.drain with
    | .propagating timer =>
      if timer ≤ w.now then some { w with drain := .testing (w.now + config.drainTimeout) }
      else none
    | _ => none
  | .test =>
    match w.drain with
    | .testing deadline =>
      some { w with drain := if w.now < deadline then .polling deadline else .leaving deadline }
    | _ => none
  | .poll =>
    match w.drain with
    | .polling deadline =>
      some (if w.state.childDone then w.drainReturns
        else { w with drain := .readingSlots deadline })
    | _ => none
  | .slots answer =>
    match w.drain, answer with
    | .readingSlots deadline, none =>
      some { w with drain := .sleeping deadline (w.now + options.probeInterval) }
    | .readingSlots deadline, some slots =>
      if slots.length ≤ maximumResponseBytes then
        some { w with drain := .readingMetrics deadline (countProcessing slots) }
      else none
    | _, _ => none
  | .metrics answer =>
    match w.drain with
    | .readingMetrics deadline active =>
      match answer with
      | none => some { w with drain := .sleeping deadline (w.now + options.probeInterval) }
      | some value =>
        if value < 0 ∨ 2 ^ 31 - 1 < value then
          some { w with drain := .sleeping deadline (w.now + options.probeInterval) }
        else some { w with drain := .recording deadline (addInt32 active value) }
    | _ => none
  | .record =>
    match w.drain with
    | .recording deadline active =>
      some { w with
        state := w.state.recordActive active
        drain := if active = 0 then .leaving deadline
          else .sleeping deadline (w.now + options.probeInterval) }
    | _ => none
  | .wake =>
    match w.drain with
    | .sleeping deadline timer =>
      if timer ≤ w.now then some { w with drain := .testing deadline } else none
    | _ => none
  | .readChild =>
    match w.drain with
    | .leaving deadline =>
      some (if w.state.child then { w with drain := .signalling deadline } else w.drainReturns)
    | _ => none
  | .signal =>
    match w.drain with
    | .signalling _ =>
      some { w with drain := .awaitingExit (w.now + options.childShutdownTimeout) }
    | _ => none
  | .kill =>
    match w.drain with
    | .awaitingExit timer =>
      if timer ≤ w.now then some { w with drain := .awaitingKilled } else none
    | _ => none
  | .exited =>
    match w.drain with
    | .awaitingExit _ | .awaitingKilled =>
      if w.state.childDone then some w.drainReturns else none
    | _ => none

/-- What no step of `drain` writes. -/
structure DrainFrame (w w' : World) : Prop where
  now : w'.now = w.now
  process : w'.process = w.process
  startup : w'.startup = w.startup
  child : w'.state.child = w.state.child
  childDone : w'.state.childDone = w.state.childDone

section DrainSteps

variable {config : Config} {options : Options} {w w' : World} {e : DrainEvent}

theorem stepDrain_frame (h : stepDrain config options w e = some w') : DrainFrame w w' := by
  cases e <;> simp only [stepDrain] at h <;> (repeat' split at h) <;>
    simp only [Option.some.injEq, reduceCtorEq] at h <;> subst h <;>
    constructor <;> simp [World.drainReturns, State.setPhase, State.recordActive]

/-- `drain` writes the phase once, and then it writes `Draining`. -/
theorem stepDrain_phase (h : stepDrain config options w e = some w') :
    (w'.state.phase = w.state.phase ∧ w'.state.ready = w.state.ready) ∨
      (e = .begin ∧ w'.state.phase = .draining ∧ w'.state.ready = false) := by
  cases e <;> simp only [stepDrain] at h <;> (repeat' split at h) <;>
    simp only [Option.some.injEq, reduceCtorEq] at h <;> subst h <;>
    simp [World.drainReturns, State.setPhase, State.recordActive]

end DrainSteps

/-! ## Steps of `monitorChild` and `waitForChild` -/

inductive MonitorEvent
  | check
  | probe (answers : ProbeAnswers)
  | inspect
  | refuse
  | commit
  | tick
  | stop
  deriving DecidableEq, Repr

def stepMonitor (config : Config) (options : Options) (w : World) : MonitorEvent → Option World
  | .check =>
    if w.monitor = .checking then
      some { w with monitor := if w.state.terminal then .ticking else .probing }
    else none
  | .probe answers =>
    if w.monitor = .probing then
      some { w with monitor :=
        match probeOutcome config options answers with
        | .loading reason => .refusing reason
        | .pass effectiveContext active =>
          if config.mode = .accelerator then .inspecting effectiveContext active
          else .committing effectiveContext active }
    else none
  | .inspect =>
    match w.monitor with
    | .inspecting effectiveContext active =>
      some { w with monitor :=
        if w.state.runtime.acceleratorReady then .committing effectiveContext active
        else .refusing .acceleratorNotReady }
    | _ => none
  | .refuse =>
    match w.monitor with
    | .refusing reason =>
      some { w with monitor := .ticking, state := w.state.setLoading reason }
    | _ => none
  | .commit =>
    match w.monitor with
    | .committing effectiveContext active =>
      some { w with monitor := .ticking, state := w.state.commitReady effectiveContext active }
    | _ => none
  | .tick => if w.monitor = .ticking then some { w with monitor := .checking } else none
  | .stop =>
    if w.monitor = .ticking ∧ w.state.childDone = true then some { w with monitor := .stopped }
    else none

inductive WaiterEvent
  | wait
  | record
  | close
  deriving DecidableEq, Repr

def stepWaiter (w : World) : WaiterEvent → Option World
  | .wait =>
    match w.waiter, w.process with
    | .waiting, .exited code => some { w with waiter := .recording code }
    | _, _ => none
  | .record =>
    match w.waiter with
    | .recording code => some { w with waiter := .closing, state := w.state.recordExit code }
    | _ => none
  | .close =>
    if w.waiter = .closing then
      some { w with waiter := .stopped, state := w.state.closeChildDone }
    else none

theorem stepMonitor_drain {config : Config} {options : Options} {w w' : World} {e : MonitorEvent}
    (h : stepMonitor config options w e = some w') : w'.drain = w.drain ∧ w'.now = w.now := by
  cases e <;> simp only [stepMonitor] at h <;> (repeat' split at h) <;>
    simp only [Option.some.injEq, reduceCtorEq] at h <;> subst h <;> simp

theorem stepWaiter_drain {w w' : World} {e : WaiterEvent} (h : stepWaiter w e = some w') :
    w'.drain = w.drain ∧ w'.now = w.now := by
  cases e <;> simp only [stepWaiter] at h <;> (repeat' split at h) <;>
    simp only [Option.some.injEq, reduceCtorEq] at h <;> subst h <;> simp

/-! ## The machine -/

inductive Event
  | startup (event : StartupEvent)
  | drain (event : DrainEvent)
  | monitor (event : MonitorEvent)
  | waiter (event : WaiterEvent)
  /-- the child process ends -/
  | exit (code : Int)
  /-- a log reader passes a line to `observeStartupLog` -/
  | log (facts : LogFacts)
  | clock (elapsed : Nat)
  deriving DecidableEq, Repr

def step (config : Config) (options : Options) (w : World) : Event → Option World
  | .startup event => stepStartup config w event
  | .drain event => stepDrain config options w event
  | .monitor event => stepMonitor config options w event
  | .waiter event => stepWaiter w event
  | .exit code => if w.process = .running then some { w with process := .exited code } else none
  | .log facts =>
    if w.state.child = true then some { w with state := w.state.observeStartupLog config facts }
    else none
  | .clock elapsed => some { w with now := w.now + elapsed }

/-- A run of the supervisor from a given point. -/
def run (config : Config) (options : Options) (w : World) (events : List Event) : Option World :=
  Machine.run (step config options) w events

end Kama.Runtime
