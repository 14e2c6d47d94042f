import Kama.Controller.Basic

/-!
# Import leases

The lease protocol of `modelartifact_controller.go`: artifacts that would import the same source
into the same cache share a fingerprint, and only the holder of the lease with that fingerprint
may import. A lease is renewed by its holder and may be taken over once it has expired; it is
deleted when its holder releases it.

Artifacts with one fingerprint share a claim, so they are in one namespace, and the server holds
the leases of that namespace.
-/

namespace Kama.Controller

open Bytes Api Program

/-- A `Lease`; a missing label reads as the empty string. -/
structure Lease where
  managedBy : Bytes
  component : Bytes
  fingerprint : Bytes
  holderIdentity : Option Bytes
  leaseDurationSeconds : Option Int
  acquireTime : Option Nat
  renewTime : Option Nat
  deriving DecidableEq, Repr

abbrev LeaseTask := Task Bytes Lease

def leaseDurationSeconds : Nat := 90

def nanosecondsPerSecond : Nat := 10 ^ 9

/-- A time as a `MicroTime` is stored. -/
def microTime (time : Nat) : Nat := time / 1000 * 1000

def leaseName (identity : Bytes) : Bytes :=
  deterministicName (ascii "kama-artifact-lease") [identity]

def leaseExpired (lease : Lease) (now : Nat) : Bool :=
  match lease.renewTime, lease.leaseDurationSeconds with
  | some renewTime, some seconds =>
    decide ((renewTime : Int) + seconds * nanosecondsPerSecond < now)
  | _, _ => true

def acquireLease (holder identity : Bytes) : LeaseTask (Bytes × Bool) := do
  let name := leaseName identity
  let now := microTime (← timeNow)
  match ← createObject name [] ⟨kamaName, artifactImportComponent, identity, some holder,
      some leaseDurationSeconds, some now, some now⟩ with
  | .ok _ => pure (name, true)
  | .error .alreadyExists =>
    match ← getObject name with
    | .error err => throw (.api err)
    | .ok lease =>
      if lease.body.managedBy ≠ kamaName ∨ lease.body.component ≠ artifactImportComponent ∨
          lease.body.fingerprint ≠ identity then
        throw (.text "refusing Lease with mismatched source/cache fingerprint" [])
      else
        let expired := leaseExpired lease.body (← timeNow)
        if (lease.body.holderIdentity.any fun h => decide (h ≠ holder)) && !expired then
          pure (name, false)
        else
          match ← updateObject { lease with body := { lease.body with
              holderIdentity := some holder
              leaseDurationSeconds := some leaseDurationSeconds
              renewTime := some now
              acquireTime :=
                if lease.body.acquireTime = none ∨ expired = true then some now
                else lease.body.acquireTime } } with
          | .ok _ => pure (name, true)
          | .error .conflict => pure (name, false)
          | .error err => throw (.api err)
  | .error err => throw (.api err)

def deleteArtifactLease (lease : Object Bytes Lease) : LeaseTask Unit := do
  match ← deleteObject lease.key (some (lease.uid, lease.version)) with
  | .ok _ => pure ()
  | .error .notFound => pure ()
  | .error err => throw (.api err)

def releaseLease (name holder : Bytes) : LeaseTask Unit := do
  match ← getObject name with
  | .error .notFound => pure ()
  | .error err => throw (.api err)
  | .ok lease =>
    if lease.body.holderIdentity ≠ some holder then pure ()
    else if lease.body.managedBy ≠ kamaName ∨ lease.body.component ≠ artifactImportComponent ∨
        lease.body.fingerprint = [] then
      throw (.text "refusing to delete Lease with mismatched Kama identity" [])
    else deleteArtifactLease lease

/-- The leases of an artifact that is ready or being deleted; `remain` says whether there were
any. -/
def cleanupLeases (holder : Bytes) : Bool → List (Object Bytes Lease) → LeaseTask Bool
  | remain, [] => pure remain
  | remain, lease :: leases =>
    if lease.body.managedBy ≠ kamaName ∨ lease.body.component ≠ artifactImportComponent ∨
        lease.body.holderIdentity ≠ some holder then
      cleanupLeases holder remain leases
    else if lease.body.fingerprint = [] then
      throw (.text "refusing artifact Lease with incomplete Kama identity" [])
    else if lease.deleting then cleanupLeases holder true leases
    else do
      deleteArtifactLease lease
      cleanupLeases holder true leases

def cleanupArtifactLeases (holder : Bytes) : LeaseTask Bool := do
  match ← listObjects fun _ => true with
  | .error err => throw (.api err)
  | .ok leases => cleanupLeases holder false leases

/-- The leases under other fingerprints in `cleanupObsoleteArtifactOperations`. -/
def cleanupOtherLeases (holder current : Bytes) : Bool → List (Object Bytes Lease) →
    LeaseTask Bool
  | cleaning, [] => pure cleaning
  | cleaning, lease :: leases =>
    if lease.body.managedBy ≠ kamaName ∨ lease.body.component ≠ artifactImportComponent ∨
        lease.body.holderIdentity ≠ some holder ∨ lease.body.fingerprint = current then
      cleanupOtherLeases holder current cleaning leases
    else do
      deleteArtifactLease lease
      cleanupOtherLeases holder current true leases

def cleanupObsoleteLeases (holder current : Bytes) : LeaseTask Bool := do
  match ← listObjects fun _ => true with
  | .error err => throw (.api err)
  | .ok leases => cleanupOtherLeases holder current false leases

/-! ## Executions -/

inductive Purpose
  | acquire (identity : Bytes)
  | release (name : Bytes)
  | cleanup
  | cleanupObsolete (current : Bytes)
  deriving DecidableEq, Repr

def Purpose.isAcquire : Purpose → Bool
  | .acquire _ => true
  | _ => false

theorem Purpose.isAcquire_iff {p : Purpose} :
    p.isAcquire = true ↔ ∃ identity, p = .acquire identity := by
  cases p <;> simp [isAcquire]

/-- A call that the controller makes for an artifact, with the time at which it starts. -/
structure Execution where
  holder : Bytes
  purpose : Purpose
  startedAt : Nat
  deriving DecidableEq, Repr

inductive Outcome
  | acquired (acquired : Bool)
  | done
  deriving DecidableEq, Repr

abbrev LeaseProg := Prog (Op Bytes Lease) (Res Bytes Lease) (Except Err Outcome)

def Execution.task (e : Execution) : LeaseTask Outcome :=
  match e.purpose with
  | .acquire identity => do
    let (_, acquired) ← acquireLease e.holder identity
    pure (.acquired acquired)
  | .release name => do
    releaseLease name e.holder
    pure .done
  | .cleanup => do
    let _ ← cleanupArtifactLeases e.holder
    pure .done
  | .cleanupObsolete current => do
    let _ ← cleanupObsoleteLeases e.holder current
    pure .done

abbrev LeaseServer := Server Bytes Lease

abbrev LeaseSys := Sys (Op Bytes Lease) (Res Bytes Lease) (Except Err Outcome) LeaseServer

/-- What happens next: another execution starts, an execution makes a call, or the controller that
runs it stops. -/
inductive LeaseEvent
  | start
  | call (pid : Pid) (choice : Choice)
  | stop (pid : Pid)
  deriving DecidableEq, Repr

/-- Process `i` is the execution `who i`, started at the time the execution says. -/
def step (who : Pid → Execution) (s : LeaseSys) : LeaseEvent → Option LeaseSys
  | .start =>
    if (who s.procs.length).startedAt = s.shared.clock then
      s.step kernel (.spawn (who s.procs.length).task.run)
    else none
  | .call pid choice => s.step kernel (.step pid choice)
  | .stop pid => s.step kernel (.crash pid)

/-! ## What each execution may write -/

theorem leaseExpired_mono {lease : Lease} {time time' : Nat} (h : time ≤ time')
    (hexpired : leaseExpired lease time = true) : leaseExpired lease time' = true := by
  unfold leaseExpired at *
  split at hexpired
  · simp only [decide_eq_true_eq] at *
    omega
  · rfl

/-- The lease is there for the taking: nobody else holds it, or it has expired. -/
def Free (holder : Bytes) (time : Nat) (lease : Lease) : Prop :=
  lease.holderIdentity = none ∨ lease.holderIdentity = some holder ∨
    leaseExpired lease time = true

theorem Free.mono {holder : Bytes} {time time' : Nat} {lease : Lease}
    (h : Free holder time lease) (htime : time ≤ time') : Free holder time' lease :=
  h.imp id (Or.imp id (leaseExpired_mono htime))

/-- The lease is held, for the full duration from `renewTime` on. -/
structure HeldBy (holder : Bytes) (renewTime : Nat) (lease : Lease) : Prop where
  holder : lease.holderIdentity = some holder
  duration : lease.leaseDurationSeconds = some (leaseDurationSeconds : Int)
  renewTime : lease.renewTime = some renewTime

/-- The writes of an execution: `acquire` writes once, a lease that it holds from a time within
the execution on, in place of a free one; the others delete what their artifact holds. -/
def Justified (e : Execution) (earlier : List (Write Bytes Lease)) (w : Write Bytes Lease) :
    Prop :=
  match e.purpose with
  | .acquire identity => w.key = leaseName identity ∧ (∀ w' ∈ earlier, w'.caller ≠ w.caller) ∧
      (∀ o, w.before = some o → Free e.holder w.time o.body) ∧
      ∃ now o, e.startedAt ≤ now ∧ now ≤ w.time ∧ w.after = some o ∧
        HeldBy e.holder (microTime now) o.body
  | _ => ∃ o, w.before = some o ∧ o.body.holderIdentity = some e.holder

theorem Justified.caller_ne {e : Execution} {earlier : List (Write Bytes Lease)}
    {w : Write Bytes Lease} (h : Justified e earlier w) (he : e.purpose.isAcquire = true) :
    ∀ w' ∈ earlier, w'.caller ≠ w.caller := by
  unfold Justified at h
  split at h
  case h_1 => exact h.2.1
  case h_2 hpurpose =>
    obtain ⟨identity, hidentity⟩ := Purpose.isAcquire_iff.1 he
    exact (hpurpose identity hidentity).elim

section Executions

variable {who : Pid → Execution} {initial : Bytes → Option (Object Bytes Lease)} {i : Pid}
  {s : LeaseServer}

/-- The contract of process `i`. -/
abbrev leaseContract (who : Pid → Execution) (initial : Bytes → Option (Object Bytes Lease))
    (i : Pid) : Contract (Op Bytes Lease) LeaseServer :=
  contract initial (fun earlier w => Justified (who w.caller) earlier w) i

/-- Nothing of the process has been written yet, and time has come to its start. -/
structure Idle (who : Pid → Execution) (i : Pid) (s : LeaseServer) : Prop where
  unwritten : ∀ w ∈ s.log, w.caller ≠ i
  started : (who i).startedAt ≤ s.clock

theorem Idle.of_interferes {t : LeaseServer} (h : Idle who i s)
    (hst : Interferes (fun w => w.caller = i) s t) : Idle who i t :=
  ⟨fun w hw hcaller => h.unwritten w (hst.mine w hw hcaller) hcaller,
    Nat.le_trans h.started hst.clock⟩

theorem safe_acquireLease {identity : Bytes} (hpurpose : (who i).purpose = .acquire identity)
    (h : Idle who i s) :
    SafeOk kernel i (leaseContract who initial i) (acquireLease (who i).holder identity)
      (fun r t => r.2 = true → ∃ w ∈ t.log, w.caller = i) s := by
  unfold acquireLease
  refine SafeEx.seq (Q := fun now t => Idle who i t ∧ (who i).startedAt ≤ now ∧ now ≤ t.clock)
    (safe_now fun t ht => ?_) fun now t ⟨hidle, hstart, hnow⟩ => ?_
  · have hidle := h.of_interferes ht
    exact ⟨hidle, hidle.started, Nat.le_refl _⟩
  -- a write of this process that leaves the lease to it from `now` on
  have hgrant : ∀ {u v w r}, Interferes (fun w => w.caller = i) t u → Writes i u v w →
      w.key = leaseName identity → (∀ o, w.before = some o → Free (who i).holder w.time o.body) →
      (∃ o, w.after = some o ∧ HeldBy (who i).holder (microTime now) o.body) →
      Justified (who w.caller) u.log w ∧ (r = true → ∃ w ∈ v.log, w.caller = i) := by
    intro u v w r hu hw hkey hfree ⟨o, hafter, hheld⟩
    refine ⟨?_, fun _ => ⟨w, by rw [hw.log]; simp, hw.caller_eq⟩⟩
    rw [Justified, hw.caller_eq, hpurpose]
    refine ⟨hkey, (hidle.of_interferes hu).unwritten, hfree, now, o, hstart, ?_, hafter, hheld⟩
    rw [hw.time]
    exact Nat.le_trans hnow hu.clock
  refine SafeEx.seq (Q := fun r v => (∀ o, r = .ok o → ∃ w ∈ v.log, w.caller = i) ∧
    (r = .error .alreadyExists → Interferes (fun w => w.caller = i) t v))
    (safe_create (fun err v hv => ⟨fun o ho => (nomatch ho), fun _ => hv⟩)
      fun u v w r hu _ hr hw hkey hbefore hafter => ?_) fun r v hrv => ?_
  · obtain ⟨hJ, hmine⟩ := hgrant hu hw hkey (by simp [hbefore]) ⟨_, hafter, rfl, rfl, rfl⟩
    refine ⟨hJ, fun _ => ⟨fun _ _ => hmine rfl, fun hr' => ?_⟩⟩
    obtain rfl | rfl := hr <;> cases hr'
  obtain ⟨hok, hexists⟩ := hrv
  split
  case h_1 o => exact SafeEx.pure fun _ => hok o rfl
  case h_3 => exact SafeEx.throw trivial
  have hv := hexists rfl
  refine SafeEx.seq (Q := fun r u => Interferes (fun w => w.caller = i) t u ∧
    ∀ o, r = .ok o → u.get (leaseName identity) = some o ∧ Known u o)
    (safe_get fun r u hu hget => ⟨hv.trans hu, hget⟩) fun r u hru => ?_
  obtain ⟨hu, hget⟩ := hru
  split
  case h_1 => exact SafeEx.throw trivial
  case h_2 lease =>
    obtain ⟨hkey, hknown⟩ := hget lease rfl
    have hname := Server.key_of_get hkey
    refine SafeEx.ite (fun _ => SafeEx.throw trivial) fun _ => ?_
    refine SafeEx.seq (Q := fun time x => Interferes (fun w => w.caller = i) t x ∧
      Known x lease ∧ time ≤ x.clock)
      (safe_now fun x hx => ⟨hu.trans hx, hx.known _ hknown, Nat.le_refl _⟩) fun time x hx => ?_
    obtain ⟨hx, hknown, htime⟩ := hx
    refine SafeEx.ite (fun _ => SafeEx.pure fun h => nomatch h) fun hfree => ?_
    have hfree : Free (who i).holder time lease.body := by
      cases hholder : lease.body.holderIdentity with
      | none => exact .inl hholder
      | some holder =>
        by_cases hsame : holder = (who i).holder
        · exact .inr (.inl (by rw [hholder, hsame]))
        · exact .inr (.inr (by simpa [hholder, hsame] using hfree))
    refine SafeEx.seq (Q := fun r y => ∀ o, r = .ok o → ∃ w ∈ y.log, w.caller = i)
      (safe_update (fun err y _ o ho => nomatch ho)
        fun y z w o r hy hholds hr hw hkey' hbefore hversion hafter => ?_) fun r y hok => ?_
    · -- the version of the lease that was read is still the current one
      have hcurrent : y.get w.key = some o := hw.before.symm.trans hbefore
      obtain rfl : o = lease := (hy.known lease hknown).eq hcurrent hversion
      replace hafter := hafter.resolve_left fun ⟨_, hdeleting, hfinalizers⟩ =>
        hholds.wf.live _ _ hcurrent hdeleting hfinalizers
      have hfree : ∀ o', w.before = some o' → Free (who i).holder w.time o'.body := by
        intro o' ho'
        obtain rfl : o = o' := Option.some.inj (hbefore.symm.trans ho')
        rw [hw.time]
        exact hfree.mono (Nat.le_trans htime hy.clock)
      have hkey'' : w.key = leaseName identity := hkey'.trans hname
      obtain ⟨hJ, hmine⟩ := hgrant (hx.trans hy) hw hkey'' hfree ⟨_, hafter, rfl, rfl, rfl⟩
      exact ⟨hJ, fun _ _ _ => hmine rfl⟩
    · split
      case h_1 o => exact SafeEx.pure fun _ => hok o rfl
      case h_2 => exact SafeEx.pure fun h => nomatch h
      case h_3 => exact SafeEx.throw trivial

/-- What is known stays known along one's own calls, too. -/
abbrev KeepsKnown (s t : LeaseServer) : Prop := ∀ o, Known s o → Known t o

theorem safe_deleteArtifactLease {lease : Object Bytes Lease}
    (hpurpose : (who i).purpose.isAcquire = false) (hknown : Known s lease)
    (hholder : lease.body.holderIdentity = some (who i).holder) :
    SafeOk kernel i (leaseContract who initial i) (deleteArtifactLease lease)
      (fun _ t => KeepsKnown s t) s := by
  unfold deleteArtifactLease
  refine SafeEx.seq (Q := fun _ t => KeepsKnown s t)
    (safe_delete (fun r t ht => ht.known)
      fun u t w o r hu _ _ hw _ hbefore hpre _ => ⟨?_, fun _ => ?_⟩)
    fun r t ht => ?_
  · have hget : u.get w.key = some o := hw.before.symm.trans hbefore
    obtain ⟨-, hversion⟩ := Prod.mk.inj (hpre _ rfl)
    obtain rfl : o = lease := (hu.known lease hknown).eq hget hversion.symm
    rw [Justified, hw.caller_eq]
    split
    case h_1 identity heq => simp [heq, Purpose.isAcquire] at hpurpose
    case h_2 => exact ⟨o, hbefore, hholder⟩
  · exact fun o ho => (hu.known o ho).of_writes hw
  · split
    case h_1 | h_2 => exact SafeEx.pure ht
    case h_3 => exact SafeEx.throw trivial

theorem safe_releaseLease {name : Bytes}
    (hpurpose : (who i).purpose.isAcquire = false) :
    SafeOk kernel i (leaseContract who initial i) (releaseLease name (who i).holder)
      (fun _ _ => True) s := by
  unfold releaseLease
  refine SafeEx.seq (Q := fun r t => ∀ o, r = .ok o → Known t o)
    (safe_get fun r t _ hget o ho => (hget o ho).2) fun r t hknown => ?_
  split
  case h_1 => exact SafeEx.pure trivial
  case h_2 => exact SafeEx.throw trivial
  case h_3 lease =>
    refine SafeEx.ite (fun _ => SafeEx.pure trivial) fun hholder => ?_
    refine SafeEx.ite (fun _ => SafeEx.throw trivial) fun _ => ?_
    have hdelete : SafeOk kernel i (leaseContract who initial i) (deleteArtifactLease lease)
        (fun _ u => KeepsKnown t u) t :=
      safe_deleteArtifactLease hpurpose (hknown lease rfl) (not_not.1 hholder)
    exact hdelete.mono fun _ _ _ => trivial

theorem safe_cleanupLeases (hpurpose : (who i).purpose.isAcquire = false)
    {remain : Bool} {leases : List (Object Bytes Lease)} (hknown : ∀ o ∈ leases, Known s o) :
    SafeOk kernel i (leaseContract who initial i) (cleanupLeases (who i).holder remain leases)
      (fun _ _ => True) s := by
  induction leases generalizing remain s with
  | nil => exact SafeEx.pure trivial
  | cons lease leases ih =>
    obtain ⟨hlease, hleases⟩ := List.forall_mem_cons.1 hknown
    refine SafeEx.ite (fun _ => ih hleases) fun hmine => ?_
    refine SafeEx.ite (fun _ => SafeEx.throw trivial) fun _ => ?_
    refine SafeEx.ite (fun _ => ih hleases) fun _ => ?_
    have hholder : lease.body.holderIdentity = some (who i).holder := by
      simp only [not_or, not_not] at hmine
      exact hmine.2.2
    exact SafeEx.seq (safe_deleteArtifactLease hpurpose hlease hholder) fun _ t ht =>
      ih fun o ho => ht o (hleases o ho)

theorem safe_cleanupOtherLeases {current : Bytes}
    (hpurpose : (who i).purpose.isAcquire = false)
    {cleaning : Bool} {leases : List (Object Bytes Lease)} (hknown : ∀ o ∈ leases, Known s o) :
    SafeOk kernel i (leaseContract who initial i)
      (cleanupOtherLeases (who i).holder current cleaning leases) (fun _ _ => True) s := by
  induction leases generalizing cleaning s with
  | nil => exact SafeEx.pure trivial
  | cons lease leases ih =>
    obtain ⟨hlease, hleases⟩ := List.forall_mem_cons.1 hknown
    refine SafeEx.ite (fun _ => ih hleases) fun hmine => ?_
    have hholder : lease.body.holderIdentity = some (who i).holder := by
      simp only [not_or, not_not] at hmine
      exact hmine.2.2.1
    exact SafeEx.seq (safe_deleteArtifactLease hpurpose hlease hholder) fun _ t ht =>
      ih fun o ho => ht o (hleases o ho)

theorem safe_listLeases {α : Type} {f : List (Object Bytes Lease) → LeaseTask α}
    (hf : ∀ leases t, (∀ o ∈ leases, Known t o) →
      SafeOk kernel i (leaseContract who initial i) (f leases) (fun _ _ => True) t) :
    SafeOk kernel i (leaseContract who initial i) (do
      match ← listObjects fun _ => true with
      | .error err => throw (.api err)
      | .ok leases => f leases) (fun _ _ => True) s := by
  refine SafeEx.seq (Q := fun r t => ∀ l, r = .ok l → ∀ o ∈ l, Known t o)
    (safe_list fun r t _ hlist hwf l hl o ho => ?_) fun r t hknown => ?_
  · exact hwf.known _ _ ((hlist l hl o).1 ho).2
  · split
    case h_1 => exact SafeEx.throw trivial
    case h_2 leases => exact hf leases t (hknown leases rfl)

/-- Every execution keeps its contract; an execution that returns `true` has written. -/
theorem safe_execution (h : Idle who i s) :
    Safe kernel i (leaseContract who initial i) (who i).task.run
      (fun r t => r = .ok (.acquired true) → ∃ w ∈ t.log, w.caller = i) s := by
  have hall : SafeOk kernel i (leaseContract who initial i) (who i).task
      (fun r t => r = .acquired true → ∃ w ∈ t.log, w.caller = i) s := by
    unfold Execution.task
    split
    case h_1 identity hpurpose =>
      refine SafeEx.seq (safe_acquireLease hpurpose h) fun r t hr => SafeEx.pure fun hacquired => ?_
      exact hr (by simpa using hacquired)
    all_goals rename_i hpurpose
    all_goals have hpurpose : (who i).purpose.isAcquire = false := by rw [hpurpose]; rfl
    · refine SafeEx.seq (safe_releaseLease hpurpose) fun _ _ _ => SafeEx.pure fun h => nomatch h
    · refine SafeEx.seq (safe_listLeases fun leases t ht => safe_cleanupLeases hpurpose ht)
        fun _ _ _ => SafeEx.pure fun h => nomatch h
    · refine SafeEx.seq (safe_listLeases fun leases t ht => safe_cleanupOtherLeases hpurpose ht)
        fun _ _ _ => SafeEx.pure fun h => nomatch h
  refine Safe.mono (fun r t hr hok => ?_) hall.run
  subst hok
  exact hr rfl

end Executions

end Kama.Controller
