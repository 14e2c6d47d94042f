import Kama.Artifact.Descriptors

/-!
# The operation lock

`AcquireOperationLock` opens `.kama/locks/<op>.lock`, creating it, and takes the advisory lock of
the inode behind the descriptor; `Close` releases it. `RemoveOperationState` unlinks lock files
like every other transient file, without looking whether somebody has them open. The machine of
this module runs any number of these calls on one host, interleaved call by call.

The lock excludes per inode and is looked up by name. As long as nobody unlinks a lock file that
is open, the process that has the lock has the inode that the name refers to, so there is only one
(`lock_exclusive`). One unlink of an open lock file is enough to break that
(`lock_held_twice_after_cleanup`).
-/

namespace Kama.Artifact.Descriptors

open Bytes FileTree Inode Program

/-! ## The machine -/

/-- What a call of a process has returned. -/
inductive Outcome
  | acquired (operationID : Bytes) (r : Except Err Fd)
  | closed (r : Except Err Unit)
  | cleaned (r : Except Err Unit)

abbrev LockSys := Sys (FdOp Bytes) FdOp.Res Outcome (Host Bytes Bytes)

abbrev LockProg := Prog (FdOp Bytes) FdOp.Res Outcome

def acquiring (operationID : Bytes) (retries : Nat) : LockProg := do
  let r ← (acquireOperationLock retries operationID).run
  pure (.acquired operationID r)

def closingLock (fd : Fd) : LockProg := do
  let r ← (closeLock fd).run
  pure (.closed r)

def cleaning (fuel : Nat) (prefix_ : Bytes) : LockProg := do
  let r ← (removeOperationState fuel prefix_).run
  pure (.cleaned r)

inductive LockEvent
  /-- a new process calls `AcquireOperationLock` -/
  | acquire (operationID : Bytes) (retries : Nat)
  /-- a process that has failed to get a lock, or has released it, tries again -/
  | again (pid : Pid) (operationID : Bytes) (retries : Nat)
  /-- a process that has the lock calls `Close` -/
  | close (pid : Pid)
  /-- a new process calls `RemoveOperationState` -/
  | clean (fuel : Nat) (prefix_ : Bytes)
  | step (pid : Pid) (choice : DirAnswer Bytes)
  | crash (pid : Pid)

namespace LockSys

/-- The event as one of the system of processes, if it is possible. -/
def event (s : LockSys) :
    LockEvent → Option (SysEvent (FdOp Bytes) FdOp.Res Outcome (DirAnswer Bytes))
  | .acquire operationID retries => some (.spawn (acquiring operationID retries))
  | .again pid operationID retries =>
    match s.procs[pid]? with
    | some (some (.ret (.acquired _ (.error _)))) | some (some (.ret (.closed _))) =>
      some (.resume pid (acquiring operationID retries))
    | _ => none
  | .close pid =>
    match s.procs[pid]? with
    | some (some (.ret (.acquired _ (.ok fd)))) => some (.resume pid (closingLock fd))
    | _ => none
  | .clean fuel prefix_ => some (.spawn (cleaning fuel prefix_))
  | .step pid choice => some (.step pid choice)
  | .crash pid => some (.crash pid)

def step (s : LockSys) (e : LockEvent) : Option LockSys :=
  (s.event e).bind (Sys.step (Host.kernel []) s)

/-- A cache with nobody at work. -/
def start (fs : Fs Bytes Bytes) : LockSys := ⟨⟨fs, []⟩, []⟩

/-- The process is between a successful `AcquireOperationLock` and its `Close`. -/
def holding (s : LockSys) (operationID : Bytes) (pid : Pid) : Bool :=
  match s.procs[pid]? with
  | some (some (.ret (.acquired op (.ok _)))) => op = operationID
  | _ => false

/-- The event is not an `unlink` of a file that a process has open. -/
def sparesOpenFiles (s : LockSys) (e : LockEvent) : Bool :=
  (s.event e).all (s.Admits Host.sparesOpen)

end LockSys

/-! ## What the programs ensure

Every call of these programs keeps the contract of `Kama.Foundations.Host`, so the only thing to
follow through the code is where its descriptors are. -/

/-- Whatever the other processes do within the contract, the program, if it succeeds, ends with
`Q`. -/
abbrev Ensures {α : Type} (pid : Pid) (p : FdProg α) (Q : α → Host Bytes Bytes → Prop)
    (h : Host Bytes Bytes) : Prop :=
  SafeOk (Host.sparing []) pid (Host.contract pid) p Q h

section Ensures

variable {pid : Pid} {h : Host Bytes Bytes}

theorem ensures_call {op : FdOp Bytes} {Q : op.Res → Host Bytes Bytes → Prop}
    (hexec : ∀ {t choice r t'}, Host.Rely pid h t → t.Inv →
      t.exec [] pid choice op = some (r, t') → Q r t') : Ensures pid (call op) Q h := by
  refine SafeEx.lift fun t ht hinv choice r t' hcall => ?_
  obtain ⟨hinv', hguar⟩ := Host.sparing_call hinv hcall
  exact ⟨hinv', hguar, hexec ht hinv (Host.exec_of_sparing hcall).1⟩

theorem ensures_trivial {α : Type} (p : FdProg α) : Ensures pid p (fun _ _ => True) h := by
  refine SafeEx.ofSafe (Safe.mono (fun a _ _ => ?_)
    (Safe.trivial fun hinv hexec => Host.sparing_call hinv hexec))
  cases a <;> trivial

/-- Code that is followed by a failure whatever it does. -/
theorem ensures_fail {α β : Type} {p : FdProg α} {e : Err} {Q : β → Host Bytes Bytes → Prop} :
    Ensures pid (do let _ ← p; throw e) Q h :=
  SafeEx.bind (SafeOk.mono (fun _ _ _ => SafeEx.throw trivial) (ensures_trivial p))

/-- What closing the descriptor `fd` leaves alone. -/
structure Untouched (pid : Pid) (fd : Fd) (R : Host Bytes Bytes → Prop) : Prop where
  rely : ∀ {t u}, Host.Rely pid t u → R t → R u
  close : ∀ {t u choice r}, t.exec [] pid choice (.close fd) = some (r, u) → R t → R u

theorem untouched_length (fd : Fd) (n : Nat) :
    Untouched pid fd fun t => n < t.files.length where
  rely hrely hlt := Nat.lt_of_lt_of_le hlt hrely.length
  close hexec hlt := Nat.lt_of_lt_of_le hlt (Host.exec_effect hexec).files.length_le

theorem untouched_dirAt {fd fd' : Fd} (hne : fd' ≠ fd) (p : Path) :
    Untouched pid fd (Host.DirAt pid fd' p) where
  rely hrely hdir := hdir.rely hrely
  close hexec := by
    rintro ⟨f, hf, hloc⟩
    obtain ⟨hf', hfs⟩ := Host.exec_close hexec hne hf
    exact ⟨f, hf', hfs ▸ hloc⟩

theorem untouched_fileAt {fd fd' : Fd} (hne : fd' ≠ fd) (p : Path) :
    Untouched pid fd fun t => ∃ f, Host.FileAt pid fd' f p t where
  rely := by
    rintro t u hrely ⟨f, hf⟩
    exact ⟨f, hf.rely hrely⟩
  close := by
    rintro t u choice r hexec ⟨f, hf⟩
    obtain ⟨hf', hfs⟩ := Host.exec_close hexec hne hf.file
    exact ⟨f, hf', hfs ▸ hf.kind, hfs ▸ hf.walk⟩

theorem Untouched.and {fd : Fd} {R S : Host Bytes Bytes → Prop} (hR : Untouched pid fd R)
    (hS : Untouched pid fd S) : Untouched pid fd fun t => R t ∧ S t where
  rely hrely h := ⟨hR.rely hrely h.1, hS.rely hrely h.2⟩
  close hexec h := ⟨hR.close hexec h.1, hS.close hexec h.2⟩

theorem ensures_closeQuietly {fd : Fd} {R : Host Bytes Bytes → Prop}
    (hR : Untouched pid fd R) (h0 : R h) : Ensures pid (closeQuietly fd) (fun _ => R) h := by
  refine SafeEx.bind (SafeOk.mono (fun _ t ht => SafeEx.pure ht) ?_)
  exact ensures_call fun ht _ hexec => hR.close hexec (hR.rely ht h0)

theorem ensures_closeUnlessRoot {root current : Fd} {R : Host Bytes Bytes → Prop}
    (hR : Untouched pid current R) (h0 : R h) :
    Ensures pid (closeUnlessRoot root current) (fun _ => R) h := by
  unfold closeUnlessRoot
  split
  · exact SafeEx.pure h0
  · exact ensures_closeQuietly hR h0

theorem ensures_openRoot (op : String) :
    Ensures pid (openRoot op) (fun fd t => Host.DirAt pid fd [] t ∧ fd < t.files.length) h := by
  have hcall : Ensures pid (call FdOp.openRoot) (fun (r : Except Errno Fd) t =>
      ∀ fd, r = .ok fd → Host.DirAt pid fd [] t ∧ fd < t.files.length) h :=
    ensures_call fun _ hinv hexec fd hfd => Host.exec_openRoot hinv hexec hfd
  refine SafeEx.bind (SafeOk.mono (fun r t hr => SafeEx.ofExcept ?_) hcall)
  cases (r : Except Errno Fd) with
  | error e => trivial
  | ok fd => exact hr fd rfl

theorem ensures_walkFrom (op : String) {root current : Fd} {p : Path} (rest : Path)
    (hdir : Host.DirAt pid current p h) (hroot : root < h.files.length) :
    Ensures pid (walkFrom op root current rest)
      (fun fd t => Host.DirAt pid fd (p ++ rest) t ∧ root < t.files.length) h := by
  induction rest generalizing h current p with
  | nil =>
    rw [List.append_nil]
    exact SafeEx.pure ⟨hdir, hroot⟩
  | cons name rest ih =>
    have hopen : Ensures pid (call (FdOp.openDir current name)) (fun (r : Except Errno Fd) t =>
        root < t.files.length ∧ ∀ fd, r = .ok fd →
          fd ≠ current ∧ Host.DirAt pid fd (p ++ [name]) t) h := by
      refine ensures_call fun ht _ hexec => ?_
      have hdir' := hdir.rely ht
      refine ⟨?_, fun fd hfd => ?_⟩
      · exact Nat.lt_of_lt_of_le (Nat.lt_of_lt_of_le hroot ht.length)
          (Host.exec_effect hexec).files.length_le
      · obtain ⟨hfd', rfl⟩ := Host.exec_openDir hdir' hexec hfd
        obtain ⟨f, hf, -⟩ := hdir'
        exact ⟨(Nat.ne_of_lt (Host.lt_length_of_file hf)).symm, hfd'⟩
    refine SafeEx.bind (SafeOk.mono (fun r t hr => ?_) hopen)
    cases (r : Except Errno Fd) with
    | error e => exact SafeEx.bind (SafeOk.mono (fun _ _ _ => ensures_fail) (ensures_trivial _))
    | ok next =>
      obtain ⟨hroot, hnext⟩ := hr
      obtain ⟨hne, hnext⟩ := hnext next rfl
      have hkeep : Untouched pid current fun t =>
          Host.DirAt pid next (p ++ [name]) t ∧ root < t.files.length :=
        (untouched_dirAt hne _).and (untouched_length current root)
      refine SafeEx.bind (SafeOk.mono (fun _ u hu => ?_)
        (ensures_closeUnlessRoot hkeep ⟨hnext, hroot⟩))
      have := ih hu.1 hu.2
      rwa [List.append_assoc] at this

theorem ensures_inspectWritable {fd : Fd} {p : Path} (hf : ∃ f, Host.FileAt pid fd f p h) :
    Ensures pid (inspectWritable fd) (fun fd t => ∃ f, Host.FileAt pid fd f p t) h := by
  obtain ⟨f, hf⟩ := hf
  have hstat : Ensures pid (call (FdOp.stat fd)) (fun _ t => Host.FileAt pid fd f p t) h := by
    refine ensures_call fun ht _ hexec => ?_
    obtain ⟨-, rfl⟩ := Prod.mk.inj (Option.some.inj hexec)
    exact hf.rely ht
  refine SafeEx.bind (SafeOk.mono (fun r t hf => ?_) hstat)
  rcases (r : Except Errno (Kind × Nat)) with e | ⟨kind, nlink⟩
  · exact ensures_fail
  · dsimp only
    split
    · exact ensures_fail
    split
    · exact ensures_fail
    · exact SafeEx.pure ⟨f, hf⟩

theorem ensures_openWritableRegular {p : Path} (exclusive : Bool) (hp : p ≠ []) :
    Ensures pid (openWritableRegular p exclusive)
      (fun fd t => ∃ f, Host.FileAt pid fd f p t) h := by
  refine SafeEx.bind (SafeOk.mono (fun _ t _ => ?_) (ensures_trivial _))
  refine SafeEx.bind (SafeOk.mono (fun root t hroot => ?_) (ensures_openRoot _))
  refine SafeEx.bind (SafeOk.mono (fun current t hcurrent => ?_)
    (ensures_walkFrom _ p.dropLast hroot.1 hroot.2))
  rw [List.nil_append] at hcurrent
  have hcreate : Ensures pid (call (FdOp.create current (p.getLastD []) exclusive))
      (fun (r : Except Errno Fd) t => ∀ fd, r = .ok fd → fd ≠ current ∧ fd ≠ root ∧
        ∃ f, Host.FileAt pid fd f p t) t := by
    refine ensures_call fun {t' _ _ _} ht hinv hexec fd hfd => ?_
    have hcur := hcurrent.1.rely ht
    have hroot := Nat.lt_of_lt_of_le hcurrent.2 ht.length
    obtain ⟨hf, rfl⟩ := Host.exec_create hinv hcur hexec hfd
    obtain ⟨g, hg, -⟩ := hcur
    refine ⟨(Nat.ne_of_lt (Host.lt_length_of_file hg)).symm, (Nat.ne_of_lt hroot).symm, ?_⟩
    rwa [List.getLastD_eq_getLast?, List.getLast?_eq_some_getLast hp, Option.getD_some,
      List.dropLast_append_getLast hp] at hf
  refine SafeEx.bind (SafeOk.mono (fun r t hr => ?_) hcreate)
  cases (r : Except Errno Fd) with
  | error e =>
    refine SafeEx.bind (SafeOk.mono (fun _ u _ => ?_) (ensures_trivial _))
    refine SafeEx.bind (SafeOk.mono (fun _ u _ => ?_) (ensures_trivial _))
    exact SafeEx.bind (SafeEx.ofExcept trivial)
  | ok fd =>
    obtain ⟨hne, hne', hf⟩ := hr fd rfl
    refine SafeEx.bind (SafeOk.mono (fun _ u hu => ?_)
      (ensures_closeUnlessRoot (untouched_fileAt hne p) hf))
    refine SafeEx.bind (SafeOk.mono (fun _ u hu => ?_)
      (ensures_closeQuietly (untouched_fileAt hne' p) hu))
    exact SafeEx.bind (SafeEx.ofExcept (ensures_inspectWritable hu))

theorem ensures_flockOnce {fd : Fd} {p : Path} {retry : FdProg Fd}
    (hf : ∃ f, Host.FileAt pid fd f p h)
    (hretry : ∀ {t : Host Bytes Bytes}, (∃ f, Host.FileAt pid fd f p t) →
      Ensures pid retry (fun fd t => ∃ f, Host.FileAt pid fd f p t ∧ f.locked = true) t) :
    Ensures pid (flockOnce fd retry)
      (fun fd t => ∃ f, Host.FileAt pid fd f p t ∧ f.locked = true) h := by
  have hlock : Ensures pid (call (FdOp.lock fd)) (fun (r : Except Errno Unit) t =>
      ∃ f, Host.FileAt pid fd f p t ∧ (r = .ok () → f.locked = true)) h := by
    obtain ⟨f, hf⟩ := hf
    exact ensures_call fun ht _ hexec => Host.exec_lock (hf.rely ht) hexec
  refine SafeEx.bind (SafeOk.mono (fun r t hr => ?_) hlock)
  obtain ⟨f, hf, hlocked⟩ := hr
  split
  · exact SafeEx.pure ⟨f, hf, hlocked rfl⟩
  · exact hretry ⟨f, hf⟩
  · exact ensures_fail

theorem ensures_flockLoop {fd : Fd} {p : Path} (retries : Nat)
    (hf : ∃ f, Host.FileAt pid fd f p h) :
    Ensures pid (flockLoop fd retries)
      (fun fd t => ∃ f, Host.FileAt pid fd f p t ∧ f.locked = true) h := by
  induction retries generalizing h with
  | zero => exact ensures_flockOnce hf fun _ => ensures_fail
  | succ retries ih => exact ensures_flockOnce hf ih

/-- **A process that `AcquireOperationLock` lets go on has the lock of the file that the name of
its operation refers to.** -/
theorem ensures_acquireOperationLock (retries : Nat) (operationID : Bytes) :
    Ensures pid (acquireOperationLock retries operationID)
      (fun fd t => ∃ f, Host.FileAt pid fd f (lockPath operationID) t ∧ f.locked = true) h := by
  refine SafeEx.bind (SafeOk.mono (fun _ t _ => ?_) (ensures_trivial _))
  refine SafeEx.bind (SafeOk.mono (fun _ t _ => ?_) (ensures_trivial _))
  refine SafeEx.bind (SafeOk.mono (fun fd t hf => ?_)
    (ensures_openWritableRegular false (by simp [lockPath])))
  exact ensures_flockLoop retries hf

end Ensures

/-! ## Mutual exclusion -/

namespace LockSys

/-- What is known of a process that has returned. -/
def Returned (pid : Pid) : Outcome → Host Bytes Bytes → Prop
  | .acquired operationID (.ok fd), h =>
    ∃ f, Host.FileAt pid fd f (lockPath operationID) h ∧ f.locked = true
  | _, _ => True

abbrev Sound (s : LockSys) : Prop :=
  Sys.Sound (Host.sparing []) Host.Inv Host.contract Returned s

theorem acquiring_safe {pid : Pid} {h : Host Bytes Bytes} (operationID : Bytes) (retries : Nat) :
    Safe (Host.sparing []) pid (Host.contract pid) (acquiring operationID retries)
      (Returned pid) h := by
  refine Safe.bind (Safe.mono (fun r t hr => ?_)
    (ensures_acquireOperationLock retries operationID).run)
  cases r with
  | error e => exact Safe.ret.2 trivial
  | ok fd => exact Safe.ret.2 hr

theorem other_safe {α : Type} {pid : Pid} {h : Host Bytes Bytes}
    (p : Prog (FdOp Bytes) FdOp.Res α) {outcome : α → Outcome}
    (hout : ∀ a t, Returned pid (outcome a) t) :
    Safe (Host.sparing []) pid (Host.contract pid) (p >>= fun a => pure (outcome a))
      (Returned pid) h :=
  Safe.bind (Safe.mono (fun a _ _ => Safe.ret.2 (hout a _))
    (Safe.trivial fun hinv hexec => Host.sparing_call hinv hexec))

theorem returned_stable {pid : Pid} {outcome : Outcome} {h h' : Host Bytes Bytes}
    (hrely : Host.Rely pid h h') (hret : Returned pid outcome h) : Returned pid outcome h' := by
  unfold Returned at hret ⊢
  split
  · obtain ⟨f, hf, hlocked⟩ := hret
    exact ⟨f, hf.rely hrely, hlocked⟩
  · trivial

theorem step_sound {s s' : LockSys} {e : LockEvent} (hs : Sound s)
    (hok : s.sparesOpenFiles e = true) (hstep : s.step e = some s') : Sound s' := by
  obtain ⟨ev, hev, hstep⟩ := Option.bind_eq_some_iff.1 hstep
  rw [sparesOpenFiles, hev, Option.all_some] at hok
  refine Sys.Sound.step (Host.compatible []) (Q := Returned) ?_ hs ?_ ?_ ?_
    (Sys.step_guarded hstep hok)
  · exact fun _ _ _ _ hrely hret => returned_stable hrely hret
  · cases ev <;> simp [Sys.Meets]
  · rintro p rfl
    cases e with
    | acquire operationID retries =>
      cases hev
      exact acquiring_safe operationID retries
    | clean fuel prefix_ =>
      cases hev
      exact other_safe _ fun _ _ => trivial
    | again pid operationID retries =>
      simp only [event] at hev
      split at hev <;> simp at hev
    | close pid =>
      simp only [event] at hev
      split at hev <;> simp at hev
    | step pid choice => simp [event] at hev
    | crash pid => simp [event] at hev
  · rintro pid p a rfl -
    cases e with
    | again pid' operationID retries =>
      simp only [event] at hev
      split at hev
      · cases hev
        exact acquiring_safe operationID retries
      · cases hev
        exact acquiring_safe operationID retries
      · simp at hev
    | close pid' =>
      simp only [event] at hev
      split at hev
      · cases hev
        exact other_safe _ fun _ _ => trivial
      · simp at hev
    | acquire operationID retries => simp [event] at hev
    | clean fuel prefix_ => simp [event] at hev
    | step pid choice => simp [event] at hev
    | crash pid => simp [event] at hev

theorem holding_locked {s : LockSys} {operationID : Bytes} {pid : Pid} (hs : Sound s)
    (hold : s.holding operationID pid = true) :
    ∃ fd f, Host.FileAt pid fd f (lockPath operationID) s.shared ∧ f.locked = true := by
  unfold holding at hold
  split at hold
  · rename_i op fd hpid
    obtain rfl : op = operationID := by simpa using hold
    exact ⟨fd, Safe.ret.1 (hs.safe hpid)⟩
  · simp at hold

/-- **Mutual exclusion of the operation lock.** In every state that importers, cleanups and
crashes can reach from a cache that nobody uses, provided that no cleanup unlinks a file that a
process has open, at most one process is between a successful `AcquireOperationLock` of an
operation and its `Close`. -/
theorem lock_exclusive {fs : Fs Bytes Bytes} (hfs : fs.Wf) {events : List LockEvent} {s : LockSys}
    (hrun : Machine.run step (start fs) events = some s)
    (hspares : Machine.Allowed step (fun s e => s.sparesOpenFiles e = true) (start fs) events)
    {operationID : Bytes} {pid pid' : Pid} (hold : s.holding operationID pid = true)
    (hold' : s.holding operationID pid' = true) : pid = pid' := by
  have hstart : Sound (start fs) := by
    refine ⟨⟨hfs, fun ha => ?_⟩, fun hp => ?_⟩
    · simp [start] at ha
    · simp [start] at hp
  have hsound : Sound s :=
    Machine.run_invariant (fun _ _ _ hs hok hstep => step_sound hs hok hstep) hstart hspares hrun
  obtain ⟨fd, f, hf, hlocked⟩ := holding_locked hsound hold
  obtain ⟨fd', f', hf', hlocked'⟩ := holding_locked hsound hold'
  obtain ⟨hget, howner⟩ := Host.file_eq_some.1 hf.file
  obtain ⟨hget', howner'⟩ := Host.file_eq_some.1 hf'.file
  have hino : f.ino = f'.ino := Option.some.inj (hf.walk.symm.trans hf'.walk)
  obtain rfl : fd = fd' := hsound.inv.locks hget hget' hlocked hlocked' hino
  obtain rfl : f = f' := by simpa [hget] using hget'
  exact howner.symm.trans howner'

/-- An empty cache. -/
def emptyCache : Fs Bytes Bytes := ⟨[.dir []]⟩

/-- The state after the events, in an empty cache. -/
def after (events : List LockEvent) : LockSys :=
  (Machine.run step (start emptyCache) events).getD (start emptyCache)

theorem run_eq_after {events : List LockEvent}
    (h : (Machine.run step (start emptyCache) events).isSome = true) :
    Machine.run step (start emptyCache) events = some (after events) := by
  obtain ⟨s, hs⟩ := Option.isSome_iff_exists.1 h
  rw [after, hs, Option.getD_some]

/-- The calls of a process, directory reads answering with the lock file of `a-1`. -/
def steps (pid : Pid) (n : Nat) : List LockEvent :=
  List.replicate n (.step pid ⟨[ascii "a-1.lock"], true⟩)

/-- An importer acquires and releases the lock, the state of its operation is cleaned up, and the
next importer acquires the lock. -/
def cleanupBetween : List LockEvent :=
  [.acquire (ascii "a-1") 0] ++ steps 0 19 ++ [.close 0] ++ steps 0 2 ++
    [.clean 5 (ascii "a-")] ++ steps 1 35 ++ [.acquire (ascii "a-1") 0] ++ steps 2 17

theorem emptyCache_wf : emptyCache.Wf :=
  Fs.wf_of_no_entries (fun d => by rcases d with _ | d <;> rfl) rfl

theorem lock_exclusive_cleanupBetween :
    (after cleanupBetween).holding (ascii "a-1") 2 = true ∧
      ∀ pid, (after cleanupBetween).holding (ascii "a-1") pid = true → pid = 2 := by
  have hold : (after cleanupBetween).holding (ascii "a-1") 2 = true := by decide +kernel
  exact ⟨hold, fun pid hpid => lock_exclusive emptyCache_wf (run_eq_after (by decide +kernel))
    (by decide +kernel) hpid hold⟩

/-- **A cleanup lets a second process in.** The first importer holds the lock while
`RemoveOperationState` unlinks its lock file; the second importer creates the file anew and locks
the new inode. -/
theorem lock_held_twice_after_cleanup :
    let events := [.acquire (ascii "a-1") 0] ++ steps 0 19 ++ [.clean 5 (ascii "a-")] ++
      steps 1 35 ++ [.acquire (ascii "a-1") 0] ++ steps 2 17
    (Machine.run step (start emptyCache) events).isSome = true ∧
      (after events).holding (ascii "a-1") 0 = true ∧
      (after events).holding (ascii "a-1") 2 = true := by
  decide +kernel

end LockSys

end Kama.Artifact.Descriptors
