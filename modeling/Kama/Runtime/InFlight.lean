import Kama.Runtime.Draining

/-!
# Requests in flight when the child is signalled

`drain` decides that `llama-server` is idle from two requests: it counts the busy slots that
`/slots` reports and then adds the deferred requests that `/metrics` reports. Here the supervisor
runs beside a server whose requests move on their own, and the two reads see the server at two
different moments.

* `idle_of_signal_before_deadline`: if no deferred request moves into a slot between an all-idle
  `/slots` answer and the `/metrics` read after it, then a signal sent before the deadline finds
  the server idle.
* `signal_cuts_off_moved_request`: a deferred request that does move in that window is counted by
  neither read, and the child is signalled while it runs.

The invariant behind the first result is `Observed`: what the program counter of `drain` says
about the server.
-/

namespace Kama.Runtime

open Machine

/-! ## The server -/

/-- The requests inside `llama-server`: which slots are processing one, and how many wait. -/
structure Server where
  slots : List Bool
  deferred : Nat
  deriving DecidableEq, Repr

inductive ServerEvent
  /-- a request arrives and takes the given slot, or waits -/
  | arrive (slot : Option Nat)
  | finish (slot : Nat)
  /-- a waiting request moves into a slot -/
  | move (slot : Nat)
  deriving DecidableEq, Repr

namespace Server

/-- No slot is processing a request. -/
def Quiet (s : Server) : Prop := ∀ busy ∈ s.slots, busy = false

/-- No request is running or waiting. -/
def Idle (s : Server) : Prop := s.Quiet ∧ s.deferred = 0

/-- What is left of the requests when the process ends. -/
def dropAll (s : Server) : Server := ⟨s.slots.map fun _ => false, 0⟩

def step (s : Server) : ServerEvent → Option Server
  | .arrive none => some { s with deferred := s.deferred + 1 }
  | .arrive (some i) =>
    if s.slots[i]? = some false then some { s with slots := s.slots.set i true } else none
  | .finish i =>
    if s.slots[i]? = some true then some { s with slots := s.slots.set i false } else none
  | .move i =>
    if s.slots[i]? = some false ∧ 0 < s.deferred then
      some ⟨s.slots.set i true, s.deferred - 1⟩
    else none

theorem dropAll_idle (s : Server) : s.dropAll.Idle := by
  simp [Idle, Quiet, dropAll]

theorem Quiet.not_busy {s : Server} (h : s.Quiet) (i : Nat) : s.slots[i]? ≠ some true := by
  intro hi
  simpa using h true (List.mem_of_getElem? hi)

/-- Nothing can happen in an idle server but an arrival. -/
theorem Idle.step_eq_none {s : Server} (h : s.Idle) {e : ServerEvent}
    (he : ∀ slot, e ≠ .arrive slot) : s.step e = none := by
  cases e with
  | arrive slot => exact absurd rfl (he slot)
  | finish i => simp [step, h.1.not_busy i]
  | move i => simp [step, h.2]

/-- In a quiet server a request gets into a slot by an arrival or a move only. -/
theorem Quiet.step {s s' : Server} (h : s.Quiet) {e : ServerEvent} (harrive : ∀ i, e ≠ .arrive i)
    (hmove : ∀ i, e ≠ .move i) (hstep : s.step e = some s') : s'.Quiet := by
  cases e with
  | arrive slot => exact absurd rfl (harrive slot)
  | finish i => simp [Server.step, h.not_busy i] at hstep
  | move i => exact absurd rfl (hmove i)

end Server

/-! ## The supervisor and the server together -/

structure System where
  world : World
  server : Server
  deriving DecidableEq, Repr

inductive SystemEvent
  | supervisor (event : Event)
  | server (event : ServerEvent)
  deriving DecidableEq, Repr

/-- A fresh supervisor, and a server of `n` slots with nothing to do. -/
def System.init (n : Nat) : System := ⟨World.init, ⟨List.replicate n false, 0⟩⟩

/-- `drain` has written the phase. -/
def Drain.begun : Drain → Bool
  | .idle | .requested => false
  | _ => true

/-- The local variable `deadline` of `drain`, where it is in scope. -/
def Drain.deadline : Drain → Option Int
  | .testing deadline | .polling deadline | .readingSlots deadline | .readingMetrics deadline _
  | .recording deadline _ | .sleeping deadline _ | .leaving deadline | .signalling deadline =>
    some deadline
  | .idle | .requested | .propagating _ | .awaitingExit _ | .awaitingKilled | .done => none

/-- An answer that `drain` receives is the server's answer at that moment. The `/slots` objects
carry a context size beside the flag; it is not constrained. -/
def answeredBy (s : System) : Event → Bool
  | .drain (.slots (some slots)) =>
    s.world.process == .running && slots.map SlotState.isProcessing == s.server.slots
  | .drain (.metrics (some value)) =>
    s.world.process == .running && value == (s.server.deferred : Int)
  | _ => true

/-- The server after a step of the supervisor: the end of the process ends every request. -/
def serverAfter (s : System) : Event → Server
  | .exit _ => s.server.dropAll
  | _ => s.server

/-- One step of the supervisor or of the server. No request arrives once draining has begun. -/
def stepSystem (config : Config) (options : Options) (s : System) : SystemEvent → Option System
  | .supervisor e =>
    if answeredBy s e then
      (step config options s.world e).map fun w => ⟨w, serverAfter s e⟩
    else none
  | .server (.arrive slot) =>
    if s.world.process = .running ∧ s.world.drain.begun = false then
      (s.server.step (.arrive slot)).map fun server => { s with server := server }
    else none
  | .server e =>
    if s.world.process = .running then
      (s.server.step e).map fun server => { s with server := server }
    else none

/-- A run of the supervisor beside its server. -/
def runSystem (config : Config) (options : Options) (s : System) (events : List SystemEvent) :
    Option System :=
  Machine.run (stepSystem config options) s events

/-! ## What `drain` knows about the server -/

/-- What the program counter of `drain` says about the server. An answer of `/slots` has at most
as many slots as its body has bytes, which keeps the `int32` sum of the two counts from
wrapping around to zero. -/
def Observed (s : System) : Prop :=
  match s.world.drain with
  | .readingMetrics _ active =>
    0 ≤ active ∧ active ≤ maximumResponseBytes ∧ (active = 0 → s.server.Quiet)
  | .recording _ active => active = 0 → s.server.Idle
  | .leaving deadline | .signalling deadline => s.server.Idle ∨ deadline ≤ s.world.now
  | _ => True

/-- No waiting request moves into a slot while `drain` is between an all-idle `/slots` answer and
its `/metrics` read. -/
def AvoidsWindow (s : System) (e : SystemEvent) : Prop :=
  ∀ slot deadline, e = .server (.move slot) → s.world.drain ≠ .readingMetrics deadline 0

theorem observed_init (n : Nat) : Observed (System.init n) := trivial

theorem Observed.of_frame {s s' : System} (h : Observed s)
    (hdrain : s'.world.drain = s.world.drain) (hnow : s.world.now ≤ s'.world.now)
    (hquiet : s.server.Quiet → s'.server.Quiet) (hidle : s.server.Idle → s'.server.Idle) :
    Observed s' := by
  unfold Observed at h ⊢
  rw [hdrain]
  split at h
  · exact ⟨h.1, h.2.1, fun h0 => hquiet (h.2.2 h0)⟩
  · exact fun h0 => hidle (h h0)
  · exact h.imp hidle fun hle => Int.le_trans hle (Int.ofNat_le.2 hnow)
  · exact h.imp hidle fun hle => Int.le_trans hle (Int.ofNat_le.2 hnow)
  · trivial

theorem Observed.initiateDrain {s : System} (h : Observed s) :
    Observed { s with world := s.world.initiateDrain } := by
  unfold World.initiateDrain
  split
  · trivial
  · exact h

theorem countProcessing_nonneg (slots : List SlotState) : 0 ≤ countProcessing slots := by
  simp [countProcessing]

theorem countProcessing_le (slots : List SlotState) : countProcessing slots ≤ slots.length := by
  simpa [countProcessing] using List.countP_le_length (p := SlotState.isProcessing) (l := slots)

theorem quiet_of_countProcessing {slots : List SlotState} {server : Server}
    (hslots : slots.map SlotState.isProcessing = server.slots) (h : countProcessing slots = 0) :
    server.Quiet := by
  intro busy hbusy
  rw [← hslots, List.mem_map] at hbusy
  obtain ⟨slot, hslot, rfl⟩ := hbusy
  have hcount : slots.countP SlotState.isProcessing = 0 := by simpa [countProcessing] using h
  simpa using List.countP_eq_zero.1 hcount slot hslot

/-- The `int32` sum of the two counts is zero only if both are. -/
theorem eq_zero_of_addInt32 {active value : Int} (hactive : 0 ≤ active)
    (hle : active ≤ maximumResponseBytes) (hvalue : ¬ (value < 0 ∨ 2 ^ 31 - 1 < value))
    (h : addInt32 active value = 0) : active = 0 ∧ value = 0 := by
  unfold addInt32 at h
  unfold maximumResponseBytes at hle
  have hdvd := Int.dvd_of_bmod_eq_zero h
  omega

variable {config : Config} {options : Options} {s s' : System}

theorem Observed.stepDrain (h : Observed s) {e : DrainEvent} {w : World}
    (hanswer : answeredBy s (.drain e) = true)
    (hstep : stepDrain config options s.world e = some w) : Observed ⟨w, s.server⟩ := by
  cases e with
  | request loopback =>
    simp only [Runtime.stepDrain, Option.ite_none_right_eq_some, Option.some.injEq] at hstep
    obtain ⟨-, rfl⟩ := hstep
    split
    · exact h.initiateDrain
    · exact h
  | slots answer =>
    simp only [Runtime.stepDrain] at hstep
    split at hstep
    · obtain rfl := Option.some.inj hstep
      trivial
    · rename_i deadline slots hpc
      simp only [Option.ite_none_right_eq_some, Option.some.injEq] at hstep
      obtain ⟨hlen, rfl⟩ := hstep
      simp only [answeredBy, Bool.and_eq_true, beq_iff_eq] at hanswer
      refine ⟨countProcessing_nonneg slots, ?_, quiet_of_countProcessing hanswer.2⟩
      exact Int.le_trans (countProcessing_le slots) (Int.ofNat_le.2 hlen)
    · simp at hstep
  | metrics answer =>
    simp only [Runtime.stepDrain] at hstep
    split at hstep
    · rename_i deadline active hpc
      simp only [Observed, hpc] at h
      obtain ⟨hnonneg, hle, hquiet⟩ := h
      split at hstep
      · obtain rfl := Option.some.inj hstep
        trivial
      · rename_i value
        split at hstep
        · obtain rfl := Option.some.inj hstep
          trivial
        · rename_i hvalue
          obtain rfl := Option.some.inj hstep
          simp only [answeredBy, Bool.and_eq_true, beq_iff_eq] at hanswer
          intro hsum
          obtain ⟨hactive, hzero⟩ := eq_zero_of_addInt32 hnonneg hle hvalue hsum
          exact ⟨hquiet hactive, by simpa [hzero] using hanswer.2.symm⟩
    · simp at hstep
  | record =>
    simp only [Runtime.stepDrain] at hstep
    split at hstep
    · rename_i deadline active hpc
      simp only [Observed, hpc] at h
      obtain rfl := Option.some.inj hstep
      by_cases hactive : active = 0
      · simpa [Observed, hactive] using Or.inl (h hactive)
      · simp [Observed, hactive]
    · simp at hstep
  | test =>
    simp only [Runtime.stepDrain] at hstep
    split at hstep
    · rename_i deadline hpc
      obtain rfl := Option.some.inj hstep
      by_cases hnow : (s.world.now : Int) < deadline
      · simp [Observed, hnow]
      · simpa [Observed, hnow] using Or.inr (Int.not_lt.1 hnow)
    · simp at hstep
  | readChild =>
    simp only [Runtime.stepDrain] at hstep
    split at hstep
    · rename_i deadline hpc
      simp only [Observed, hpc] at h
      obtain rfl := Option.some.inj hstep
      split
      · exact h
      · trivial
    · simp at hstep
  | begin | propagated | poll | wake | signal | kill | exited =>
    -- these lead to points at which nothing is known about the server
    simp only [Runtime.stepDrain] at hstep
    (repeat' split at hstep) <;> simp only [Option.some.injEq, reduceCtorEq] at hstep <;>
      subst hstep <;> trivial

theorem Observed.stepSupervisor (h : Observed s) {e : Event} {w : World}
    (hanswer : answeredBy s e = true) (hstep : step config options s.world e = some w) :
    Observed ⟨w, serverAfter s e⟩ := by
  cases e with
  | startup e =>
    obtain ⟨hdrain | hdrain, hnow⟩ := stepStartup_drain hstep
    · exact h.of_frame hdrain (Nat.le_of_eq hnow.symm) id id
    · exact h.initiateDrain.of_frame hdrain (by simp [hnow]) id id
  | drain e => exact h.stepDrain hanswer hstep
  | monitor e =>
    obtain ⟨hdrain, hnow⟩ := stepMonitor_drain hstep
    exact h.of_frame hdrain (Nat.le_of_eq hnow.symm) id id
  | waiter e =>
    obtain ⟨hdrain, hnow⟩ := stepWaiter_drain hstep
    exact h.of_frame hdrain (Nat.le_of_eq hnow.symm) id id
  | exit code =>
    simp only [step, Option.ite_none_right_eq_some, Option.some.injEq] at hstep
    obtain ⟨-, rfl⟩ := hstep
    exact h.of_frame rfl (Nat.le_refl _) (fun _ => s.server.dropAll_idle.1)
      fun _ => s.server.dropAll_idle
  | log facts =>
    simp only [step, Option.ite_none_right_eq_some, Option.some.injEq] at hstep
    obtain ⟨-, rfl⟩ := hstep
    exact h.of_frame rfl (Nat.le_refl _) id id
  | clock elapsed =>
    obtain rfl := Option.some.inj hstep
    exact h.of_frame rfl (Nat.le_add_right _ _) id id

/-- A server step other than an arrival keeps what `drain` knows, unless it moves a request
inside the window. -/
theorem Observed.stepServer (h : Observed s) {e : ServerEvent} {server : Server}
    (harrive : ∀ slot, e ≠ .arrive slot) (hwindow : AvoidsWindow s (.server e))
    (hstep : s.server.step e = some server) : Observed { s with server := server } := by
  have hidle : ¬ s.server.Idle := fun hidle => by simp [hidle.step_eq_none harrive] at hstep
  simp only [Observed] at h ⊢
  split at h
  · rename_i deadline active hpc
    refine ⟨h.1, h.2.1, fun hactive => (h.2.2 hactive).step harrive (fun slot he => ?_) hstep⟩
    exact hwindow slot deadline (by rw [he]) (by rw [hpc, hactive])
  · exact fun hactive => absurd (h hactive) hidle
  · exact .inr (h.resolve_left hidle)
  · exact .inr (h.resolve_left hidle)
  · trivial

/-- One step of the system keeps `Observed`. -/
theorem Observed.step (h : Observed s) {e : SystemEvent} (hwindow : AvoidsWindow s e)
    (hstep : stepSystem config options s e = some s') : Observed s' := by
  cases e with
  | supervisor e =>
    simp only [stepSystem, Option.ite_none_right_eq_some, Option.map_eq_some_iff] at hstep
    obtain ⟨hanswer, w, hw, rfl⟩ := hstep
    exact h.stepSupervisor hanswer hw
  | server e =>
    cases e with
    | arrive slot =>
      simp only [stepSystem, Option.ite_none_right_eq_some, Option.map_eq_some_iff] at hstep
      obtain ⟨⟨-, hbegun⟩, server, -, rfl⟩ := hstep
      -- before draining there is nothing to know
      simp only [Drain.begun] at hbegun
      split at hbegun <;> simp_all [Observed]
    | finish slot =>
      simp only [stepSystem, Option.ite_none_right_eq_some, Option.map_eq_some_iff] at hstep
      obtain ⟨-, server, hserver, rfl⟩ := hstep
      exact h.stepServer (by simp) hwindow hserver
    | move slot =>
      simp only [stepSystem, Option.ite_none_right_eq_some, Option.map_eq_some_iff] at hstep
      obtain ⟨-, server, hserver, rfl⟩ := hstep
      exact h.stepServer (by simp) hwindow hserver

/-! ## The result -/

/-- **A signal before the deadline finds the server idle**, in every run in which no waiting
request moves into a slot inside the window between the two reads. -/
theorem idle_of_signal_before_deadline (config : Config) (options : Options) (n : Nat)
    {events : List SystemEvent} {s s' : System} {deadline : Int}
    (hwindow : Allowed (stepSystem config options) AvoidsWindow (System.init n) events)
    (hrun : runSystem config options (System.init n) events = some s)
    (hsignal : stepSystem config options s (.supervisor (.drain .signal)) = some s')
    (hdeadline : s.world.drain.deadline = some deadline) (hnow : (s.world.now : Int) < deadline) :
    s.server.Idle := by
  have hobserved : Observed s :=
    run_invariant (fun _ _ _ h hok hs => h.step hok hs) (observed_init n) hwindow hrun
  have hpc : s.world.drain = .signalling deadline := by
    cases hdrain : s.world.drain <;> simp_all [stepSystem, answeredBy, step, stepDrain,
      Drain.deadline]
  simp only [Observed, hpc] at hobserved
  exact hobserved.resolve_right (Int.not_le.2 hnow)

/-- A drain that polls an idle server of one slot and signals it. -/
def quietDrain : List SystemEvent :=
  startupEvents.map .supervisor ++
  [.supervisor (.drain (.request true)), .supervisor (.drain .begin),
    .supervisor (.clock 5000000000), .supervisor (.drain .propagated),
    .supervisor (.drain .test), .supervisor (.drain .poll),
    .supervisor (.drain (.slots (some [⟨4096, false⟩]))),
    .supervisor (.drain (.metrics (some 0))), .supervisor (.drain .record),
    .supervisor (.drain .readChild)]

/-- The system at the end of a list of events that can happen. -/
def System.after (n : Nat) (events : List SystemEvent) : System :=
  (runSystem sampleConfig defaultOptions (System.init n) events).getD (System.init n)

theorem idle_of_signal_in_quietDrain : (System.after 1 quietDrain).server.Idle :=
  @idle_of_signal_before_deadline sampleConfig defaultOptions 1 quietDrain
    (System.after 1 quietDrain) (System.after 1 (quietDrain ++ [.supervisor (.drain .signal)]))
    605000000000 (by simp [quietDrain, startupEvents, Allowed, AvoidsWindow]) (by decide)
    (by decide) (by decide) (by decide)

/-- **A moved request is cut off.** One request runs in the only slot and one waits. The first
finishes, `/slots` answers that the slot is idle, the waiting request moves into it, `/metrics`
answers that none waits, and the child is signalled 600 seconds before the deadline. -/
theorem signal_cuts_off_moved_request :
    let events : List SystemEvent :=
      startupEvents.map .supervisor ++
      [.server (.arrive (some 0)), .server (.arrive none),
        .supervisor (.drain (.request true)), .supervisor (.drain .begin),
        .supervisor (.clock 5000000000), .supervisor (.drain .propagated),
        .supervisor (.drain .test), .supervisor (.drain .poll), .server (.finish 0),
        .supervisor (.drain (.slots (some [⟨4096, false⟩]))), .server (.move 0),
        .supervisor (.drain (.metrics (some 0))), .supervisor (.drain .record),
        .supervisor (.drain .readChild)]
    let s := System.after 1 events
    runSystem sampleConfig defaultOptions (System.init 1) events = some s ∧
      (stepSystem sampleConfig defaultOptions s (.supervisor (.drain .signal))).isSome = true ∧
      s.world.drain.deadline = some 605000000000 ∧ s.world.now = 5000000000 ∧
      s.server.slots = [true] := by
  decide

end Kama.Runtime
