import Kama.Controller.Lease

/-!
# At most one artifact imports

The executions of the lease protocol in any interleaving of their calls, with failing calls and
restarts. What happened is in the log of the server: every write is justified by its execution
(`Justified`), and the writes under one name follow on one another (`Logged`).

Two executions of `acquireLease` for one artifact must not overlap: the time that is stored is
read at the beginning, so an old execution that writes late moves the renewal time back. The
work queue of the controller never runs two reconciles of one object at a time.
-/

namespace Kama.Controller

open Bytes Api Program Machine

/-- The process has not returned. -/
def isCalling : Option (Option LeaseProg) → Bool
  | some (some (.call _ _)) => true
  | _ => false

/-- Process `i` tries to acquire the lease for `holder` and has not returned yet. -/
def Acquiring (who : Pid → Execution) (s : LeaseSys) (holder : Bytes) (i : Pid) : Prop :=
  (who i).holder = holder ∧ (who i).purpose.isAcquire = true ∧ isCalling s.procs[i]? = true

instance (who : Pid → Execution) (s : LeaseSys) (holder : Bytes) (i : Pid) :
    Decidable (Acquiring who s holder i) := inferInstanceAs (Decidable (_ ∧ _))

/-- The executions of `acquireLease` for one artifact do not overlap. -/
def NoOverlap (who : Pid → Execution) (s : LeaseSys) : LeaseEvent → Prop
  | .start => (who s.procs.length).purpose.isAcquire = true →
      ∀ i < s.procs.length, ¬Acquiring who s (who s.procs.length).holder i
  | _ => True

instance (who : Pid → Execution) (s : LeaseSys) : (e : LeaseEvent) → Decidable (NoOverlap who s e)
  | .start => inferInstanceAs (Decidable (_ → ∀ i < s.procs.length, ¬Acquiring who s _ i))
  | .call _ _ => .isTrue trivial
  | .stop _ => .isTrue trivial

/-! ## Justified writes -/

section Log

variable {who : Pid → Execution} {initial : Bytes → Option (Object Bytes Lease)}

/-- Every process is within its contract, and the writes are those of the processes. -/
structure Sound (who : Pid → Execution) (initial : Bytes → Option (Object Bytes Lease))
    (s : LeaseSys) : Prop where
  sound : Sys.Sound kernel
    (Holds (Logged initial) fun l w => Justified (who w.caller) l w)
    (leaseContract who initial)
    (fun i r t => r = .ok (.acquired true) → ∃ w ∈ t.log, w.caller = i) s
  caller_lt : ∀ w ∈ s.shared.log, w.caller < s.procs.length

theorem Sound.step {s t : LeaseSys} {e : LeaseEvent} (h : Sound who initial s)
    (hstep : step who s e = some t) : Sound who initial t := by
  have hstable : ∀ i (r : Except Err Outcome) (s t : LeaseServer),
      (leaseContract who initial i).rely none s t →
      (r = .ok (.acquired true) → ∃ w ∈ s.log, w.caller = i) →
      r = .ok (.acquired true) → ∃ w ∈ t.log, w.caller = i := by
    intro i r s t hrely hr hok
    obtain ⟨w, hw, hcaller⟩ := hr hok
    exact ⟨w, hrely.log.subset hw, hcaller⟩
  cases e with
  | start =>
    rw [Controller.step] at hstep
    split at hstep
    case isFalse => cases hstep
    case isTrue hclock =>
      have hidle : Idle who s.procs.length s.shared :=
        ⟨fun w hw => Nat.ne_of_lt (h.caller_lt w hw), Nat.le_of_eq hclock⟩
      refine ⟨h.sound.step compatible hstable ?_ ?_ ?_ hstep, ?_⟩
      · simp [Sys.Meets]
      · rintro p ⟨⟩
        exact safe_execution hidle
      · rintro i p a ⟨⟩
      · cases hstep
        intro w hw
        rw [List.length_append]
        exact Nat.lt_add_right _ (h.caller_lt w hw)
  | call pid choice =>
    rw [Controller.step] at hstep
    refine ⟨h.sound.step compatible hstable ?_ ?_ ?_ hstep, ?_⟩
    · simp [Sys.Meets]
    · rintro p ⟨⟩
    · rintro i p a ⟨⟩
    · obtain ⟨op, next, r, u, hpid, hexec, rfl⟩ := Sys.step_call hstep
      have hlt : pid < s.procs.length := (List.getElem?_eq_some_iff.1 hpid).1
      intro w hw
      rw [List.length_set]
      by_cases hmine : w.caller = pid
      · rw [hmine]
        exact hlt
      · exact h.caller_lt w ((interferes_of_exec (Option.some.inj hexec)).mine w hw hmine)
  | stop pid =>
    rw [Controller.step] at hstep
    refine ⟨h.sound.step compatible hstable ?_ ?_ ?_ hstep, ?_⟩
    · simp [Sys.Meets]
    · rintro p ⟨⟩
    · rintro i p a ⟨⟩
    · obtain ⟨p, -, rfl⟩ := Sys.step_crash hstep
      intro w hw
      rw [List.length_set]
      exact h.caller_lt w hw

/-- The write of an execution that acquires a lease for `holder`. -/
def Acquires (who : Pid → Execution) (holder : Bytes) (w : Write Bytes Lease) : Prop :=
  (who w.caller).holder = holder ∧ (who w.caller).purpose.isAcquire = true

/-- At most one execution acquires for an artifact at a time, and it started after the writes of
those before it. -/
structure Alone (who : Pid → Execution) (s : LeaseSys) : Prop where
  unique : ∀ {holder i j}, Acquiring who s holder i → Acquiring who s holder j → i = j
  later : ∀ {holder i}, Acquiring who s holder i → ∀ w ∈ s.shared.log, Acquires who holder w →
    w.caller ≠ i → w.time ≤ (who i).startedAt
  ordered : ∀ {l w l' holder}, s.shared.log = l ++ w :: l' → Acquires who holder w →
    ∀ w' ∈ l, Acquires who holder w' → w'.time ≤ (who w.caller).startedAt

/-- A process that is acquiring after a step was so before it. -/
theorem Acquiring.of_set {s : LeaseSys} {holder : Bytes} {i pid : Pid} {p : Option LeaseProg}
    {u : LeaseServer} (h : Acquiring who ⟨u, s.procs.set pid p⟩ holder i)
    (hpid : p = none ∨ isCalling s.procs[pid]? = true) : Acquiring who s holder i := by
  obtain ⟨hholder, hpurpose, hi⟩ := h
  refine ⟨hholder, hpurpose, ?_⟩
  by_cases hne : pid = i
  · subst hne
    rcases hpid with rfl | hcall
    · rw [List.getElem?_set, if_pos rfl] at hi
      split at hi <;> cases hi
    · exact hcall
  · rwa [List.getElem?_set_ne hne] at hi

theorem Alone.step {s t : LeaseSys} {e : LeaseEvent} (h : Alone who s)
    (hsound : Sound who initial t) (hover : NoOverlap who s e)
    (hpast : ∀ w ∈ s.shared.log, w.time ≤ s.shared.clock)
    (hstep : Controller.step who s e = some t) : Alone who t := by
  cases e with
  | call pid choice =>
    obtain ⟨op, next, r, u, hpid, hexec, rfl⟩ := Sys.step_call hstep
    have hcall : isCalling s.procs[pid]? = true := by rw [hpid]; rfl
    have hback := fun {holder i}
      (hi : Acquiring who ⟨u, s.procs.set pid (some (next r))⟩ holder i) => hi.of_set (.inr hcall)
    obtain rfl | ⟨w₀, hw₀⟩ := Server.exec_writes (Option.some.inj hexec)
    · exact ⟨fun hi hj => h.unique (hback hi) (hback hj), fun hi => h.later (hback hi), h.ordered⟩
    have hlog : u.log = s.shared.log ++ [w₀] := hw₀.log
    have hself : ∀ {holder}, Acquires who holder w₀ → Acquiring who s holder pid := by
      rintro holder ⟨hholder, hpurpose⟩
      rw [hw₀.caller_eq] at hholder hpurpose
      exact ⟨hholder, hpurpose, hcall⟩
    refine ⟨fun hi hj => h.unique (hback hi) (hback hj), fun {holder i} hi w hw hacq hne => ?_,
      fun {l w l' holder} hsplit hacq w' hw' hacq' => ?_⟩
    · rw [hlog] at hw
      rcases List.mem_append.1 hw with hw | hw
      · exact h.later (hback hi) w hw hacq hne
      · obtain rfl := List.mem_singleton.1 hw
        exact absurd (hw₀.caller_eq.trans (h.unique (hself hacq) (hback hi))) hne
    · have hjust : Justified (who w.caller) l w := hsound.sound.inv.accounted hsplit
      rw [hlog] at hsplit
      obtain ⟨rfl, rfl⟩ | ⟨l'', hlog'⟩ := concat_split hsplit
      · have hne := hjust.caller_ne hacq.2 w' hw'
        rw [hw₀.caller_eq] at hne ⊢
        exact h.later (hself hacq) w' hw' hacq' hne
      · exact h.ordered hlog' hacq w' hw' hacq'
  | stop pid =>
    obtain ⟨p, -, rfl⟩ := Sys.step_crash hstep
    exact ⟨fun hi hj => h.unique (hi.of_set (.inl rfl)) (hj.of_set (.inl rfl)),
      fun hi => h.later (hi.of_set (.inl rfl)), h.ordered⟩
  | start =>
    rw [Controller.step] at hstep
    split at hstep
    case isFalse => cases hstep
    case isTrue hclock =>
    cases hstep
    have hback : ∀ {holder i},
        Acquiring who ⟨s.shared, s.procs ++ [some (who s.procs.length).task.run]⟩ holder i →
        Acquiring who s holder i ∧ i < s.procs.length ∨ i = s.procs.length := by
      rintro holder i ⟨hholder, hpurpose, hi⟩
      rcases Nat.lt_trichotomy i s.procs.length with hlt | heq | hgt
      · rw [List.getElem?_append_left hlt] at hi
        exact .inl ⟨⟨hholder, hpurpose, hi⟩, hlt⟩
      · exact .inr heq
      · rw [List.getElem?_eq_none (by rw [List.length_append]; exact hgt)] at hi
        cases hi
    refine ⟨fun {holder i j} hi hj => ?_, fun {holder i} hi w hw hacq hne => ?_, h.ordered⟩
    · rcases hback hi with ⟨hi', hlt⟩ | rfl <;> rcases hback hj with ⟨hj', hlt'⟩ | rfl
      · exact h.unique hi' hj'
      · exact absurd (hj.1 ▸ hi') (hover hj.2.1 i hlt)
      · exact absurd (hi.1 ▸ hj') (hover hi.2.1 j hlt')
      · rfl
    · rcases hback hi with ⟨hi', -⟩ | rfl
      · exact h.later hi' w hw hacq hne
      · rw [hclock]
        exact hpast w hw

/-! ## Exclusion -/

/-- `acquireLease` for `holder` has stored the renewal time `r` in the lease of `identity`. -/
structure Grants (who : Pid → Execution) (holder identity : Bytes) (r : Nat)
    (w : Write Bytes Lease) : Prop where
  holder : (who w.caller).holder = holder
  purpose : (who w.caller).purpose = .acquire identity
  stored : ∃ o, w.after = some o ∧ o.body.renewTime = some r

/-- The end of a lease that is renewed at `r`. -/
def leaseEnd (r : Nat) : Nat := r + leaseDurationSeconds * nanosecondsPerSecond

theorem microTime_mono {a b : Nat} (h : a ≤ b) : microTime a ≤ microTime b :=
  Nat.mul_le_mul_right _ (Nat.div_le_div_right h)

theorem HeldBy.leaseEnd_lt {holder : Bytes} {r time : Nat} {lease : Lease}
    (h : HeldBy holder r lease) (hexpired : leaseExpired lease time = true) :
    leaseEnd r < time := by
  rw [leaseExpired, h.renewTime, h.duration] at hexpired
  simp only [decide_eq_true_eq] at hexpired
  unfold leaseEnd
  omega

/-- What becomes of a lease that `A` holds from `r` on: it stays with `A`, or it has run out. -/
def StillHeld (holder : Bytes) (r : Nat) (current : Option (Object Bytes Lease)) : Prop :=
  ∃ o r', current = some o ∧ HeldBy holder r' o.body ∧ r ≤ r'

theorem StillHeld.step {A : Bytes} {r : Nat} {earlier : List (Write Bytes Lease)}
    {x : Write Bytes Lease} (h : StillHeld A r x.before)
    (hjust : Justified (who x.caller) earlier x)
    (hrenew : Acquires who A x → r ≤ microTime (who x.caller).startedAt)
    (hkeep : (who x.caller).holder = A → (who x.caller).purpose.isAcquire = true) :
    StillHeld A r x.after ∨ leaseEnd r < x.time := by
  obtain ⟨o, r', hbefore, hheld, hr⟩ := h
  unfold Justified at hjust
  split at hjust
  case h_1 identity hidentity =>
    obtain ⟨-, -, hfree, now, o', hstart, -, hafter, hheld'⟩ := hjust
    by_cases hA : (who x.caller).holder = A
    · refine .inl ⟨o', microTime now, hafter, hA ▸ hheld', ?_⟩
      exact Nat.le_trans (hrenew ⟨hA, by rw [hidentity]; rfl⟩) (microTime_mono hstart)
    · refine .inr ?_
      have hexpired : leaseExpired o.body x.time = true := by
        rcases hfree o hbefore with hnone | hsome | hexpired
        · rw [hheld.holder] at hnone
          cases hnone
        · rw [hheld.holder] at hsome
          exact absurd (Option.some.inj hsome).symm hA
        · exact hexpired
      have hend := hheld.leaseEnd_lt hexpired
      unfold leaseEnd at *
      omega
  case h_2 hpurpose =>
    obtain ⟨o', hbefore', hholder⟩ := hjust
    obtain rfl : o = o' := Option.some.inj (hbefore.symm.trans hbefore')
    have hA : (who x.caller).holder = A := Option.some.inj (hholder.symm.trans hheld.holder)
    obtain ⟨identity, hidentity⟩ := Purpose.isAcquire_iff.1 (hkeep hA)
    exact (hpurpose identity hidentity).elim

/-- Up to the next grant to another artifact, the lease stays with `A` or has run out. -/
theorem stillHeld_of_log {s : LeaseSys} (hlogged : Logged initial s.shared)
    (hacc : Accounted (fun l w => Justified (who w.caller) l w) s.shared) (halone : Alone who s)
    {A identity : Bytes} {r : Nat} {l₁ l rest : List (Write Bytes Lease)} {w : Write Bytes Lease}
    (hlog : s.shared.log = l₁ ++ w :: (l ++ rest)) (hgrant : Grants who A identity r w)
    (hkeep : ∀ x ∈ l, (who x.caller).holder = A → (who x.caller).purpose.isAcquire = true) :
    StillHeld A r (replay initial (l₁ ++ w :: l) (leaseName identity)) ∨
      ∃ x ∈ l, leaseEnd r < x.time := by
  obtain ⟨o, hafter, hrenewed⟩ := hgrant.stored
  have hjust : Justified (who w.caller) l₁ w := hacc hlog
  rw [Justified, hgrant.purpose] at hjust
  obtain ⟨hkey, -, -, now, o', -, hnow, hafter', hheld⟩ := hjust
  obtain rfl : o = o' := Option.some.inj (hafter.symm.trans hafter')
  obtain rfl : microTime now = r := Option.some.inj (hheld.renewTime.symm.trans hrenewed)
  induction l using List.reverseRecOn generalizing rest with
  | nil =>
    refine .inl ⟨o, microTime now, ?_, hgrant.holder ▸ hheld, Nat.le_refl _⟩
    rw [replay_concat, if_pos hkey, hafter]
  | append_singleton l x ih =>
    rw [List.append_assoc] at hlog
    rcases ih hlog fun y hy => hkeep y (List.mem_append_left _ hy) with hstill | ⟨y, hy, hlate⟩
    · have hsplit : s.shared.log = (l₁ ++ w :: l) ++ x :: rest := by rw [hlog]; simp
      have hreplay := replay_concat initial (l₁ ++ w :: l) x (leaseName identity)
      rw [List.append_assoc, List.cons_append] at hreplay
      rw [hreplay]
      split
      case isFalse => exact .inl hstill
      case isTrue hkey' =>
        rw [← hkey', ← hlogged.before hsplit] at hstill
        have hrenew : Acquires who A x → microTime now ≤ microTime (who x.caller).startedAt := by
          intro hx
          have hw : Acquires who A w := ⟨hgrant.holder, by rw [hgrant.purpose]; rfl⟩
          exact microTime_mono (Nat.le_trans hnow (halone.ordered hsplit hx w (by simp) hw))
        refine (hstill.step (hacc hsplit) hrenew (hkeep x (by simp))).imp id fun hlate => ?_
        exact ⟨x, by simp, hlate⟩
    · exact .inr ⟨y, List.mem_append_left _ hy, hlate⟩

/-- A grant to another artifact comes after the end of the lease. -/
theorem leaseEnd_lt_of_grants {s : LeaseSys} (hsound : Sound who initial s) (halone : Alone who s)
    {A B identity : Bytes} {r r' : Nat} {l l' l'' : List (Write Bytes Lease)}
    {w w' : Write Bytes Lease} (hlog : s.shared.log = l ++ w :: (l' ++ w' :: l''))
    (hgrant : Grants who A identity r w) (hgrant' : Grants who B identity r' w') (hne : A ≠ B)
    (hkeep : ∀ x ∈ l', (who x.caller).holder = A → (who x.caller).purpose.isAcquire = true) :
    leaseEnd r < w'.time := by
  obtain ⟨-, hlogged, hacc⟩ := hsound.sound.inv
  have hsplit : s.shared.log = (l ++ w :: l') ++ w' :: l'' := by rw [hlog]; simp
  have hB : (who w'.caller).holder ≠ A := hgrant'.holder ▸ hne.symm
  have hjust : Justified (who w'.caller) (l ++ w :: l') w' := hacc hsplit
  rcases stillHeld_of_log hlogged hacc halone hlog hgrant hkeep with hstill | ⟨x, hx, hlate⟩
  · have hjust' := hjust
    rw [Justified, hgrant'.purpose] at hjust'
    obtain ⟨hkey, -, -, now, o, -, -, hafter, hheld⟩ := hjust'
    rw [← hkey, ← hlogged.before hsplit] at hstill
    rcases hstill.step hjust (fun h => absurd h.1 hB) (fun h => absurd h hB) with
      ⟨o', _, hafter', hheld', -⟩ | hlate
    · obtain rfl : o = o' := Option.some.inj (hafter.symm.trans hafter')
      exact absurd (Option.some.inj (hheld.holder.symm.trans hheld'.holder)) hB
    · exact hlate
  · -- the times of the writes only grow
    have hsorted := hlogged.sorted
    rw [hsplit, List.pairwise_append] at hsorted
    exact Nat.lt_of_lt_of_le hlate (hsorted.2.2 x (by simp [hx]) w' (by simp))

end Log

/-- What process `i` has returned. -/
def outcome (s : LeaseSys) (i : Pid) : Option (Except Err Outcome) :=
  match s.procs[i]? with
  | some (some (.ret r)) => some r
  | _ => none

theorem procs_of_outcome {s : LeaseSys} {i : Pid} {r : Except Err Outcome}
    (h : outcome s i = some r) : s.procs[i]? = some (some (.ret r)) := by
  unfold outcome at h
  split at h
  case h_1 hret =>
    cases h
    exact hret
  case h_2 => cases h

/-- The system before the first execution. -/
def start (server : LeaseServer) : LeaseSys := ⟨server, []⟩

theorem sound_start {who : Pid → Execution} {server : LeaseServer} (hwf : server.Wf)
    (hlog : server.log = []) : Sound who server.get (start server) := by
  refine ⟨⟨⟨hwf, ⟨fun key => ?_, fun {l w l'} h => ?_, ?_, ?_⟩, ?_⟩, fun {i p} hp => ?_⟩, ?_⟩
  · rw [start, hlog]
    rfl
  · rw [start, hlog] at h
    simp at h
  · rw [start, hlog]
    exact .nil
  · simp [start, hlog]
  · intro l w l' h
    rw [start, hlog] at h
    simp at h
  · simp [start] at hp
  · simp [start, hlog]

theorem alone_start {who : Pid → Execution} {server : LeaseServer} (hlog : server.log = []) :
    Alone who (start server) := by
  refine ⟨fun {holder i j} hi => ?_, fun {holder i} hi => ?_, fun {l w l' holder} h => ?_⟩
  · simp [start, Acquiring, isCalling] at hi
  · simp [start, Acquiring, isCalling] at hi
  · rw [start, hlog] at h
    simp at h

/-- **Import lease exclusion.** -/
theorem lease_exclusive (who : Pid → Execution) {server : LeaseServer} (hwf : server.Wf)
    (hlog : server.log = []) {events : List LeaseEvent} {s : LeaseSys}
    (hrun : run (step who) (start server) events = some s) :
    -- a call that returned `true` has stored a renewal time
    (∀ i identity, (who i).purpose = .acquire identity →
      outcome s i = some (.ok (.acquired true)) →
      ∃ w ∈ s.shared.log, w.caller = i ∧ ∃ r, Grants who (who i).holder identity r w) ∧
    -- what is deleted is held by the artifact that the call is made for
    (∀ w ∈ s.shared.log, (w.after = none ∨ (who w.caller).purpose.isAcquire = false) →
      ∃ o, w.before = some o ∧ o.body.holderIdentity = some (who w.caller).holder) ∧
    -- between a grant and one to another artifact the lease is released or runs out
    (Allowed (step who) (NoOverlap who) (start server) events →
      ∀ l w l' w' l'' A B identity r r', s.shared.log = l ++ w :: (l' ++ w' :: l'') →
      Grants who A identity r w → Grants who B identity r' w' → A ≠ B →
      (∀ x ∈ l', (who x.caller).holder = A → (who x.caller).purpose.isAcquire = true) →
      r + 90 * 10 ^ 9 < w'.time) := by
  have hsound : Sound who server.get s :=
    run_invariant_all (fun s e t h hstep => h.step hstep) (sound_start hwf hlog) hrun
  obtain ⟨-, -, hacc⟩ := hsound.sound.inv
  refine ⟨fun i identity hpurpose hreturned => ?_, fun w hw hdelete => ?_, fun hover => ?_⟩
  · obtain ⟨w, hw, rfl⟩ := Safe.ret.1 (hsound.sound.safe (procs_of_outcome hreturned)) rfl
    obtain ⟨l, l', hsplit⟩ := List.append_of_mem hw
    have hjust : Justified (who w.caller) l w := hacc hsplit
    rw [Justified, hpurpose] at hjust
    obtain ⟨-, -, -, now, o, -, -, hafter, hheld⟩ := hjust
    exact ⟨w, hw, rfl, microTime now, rfl, hpurpose, o, hafter, hheld.renewTime⟩
  · obtain ⟨l, l', hsplit⟩ := List.append_of_mem hw
    have hjust : Justified (who w.caller) l w := hacc hsplit
    unfold Justified at hjust
    split at hjust
    case h_1 identity hidentity =>
      obtain ⟨-, -, -, now, o, -, -, hafter, -⟩ := hjust
      simp [hafter, hidentity, Purpose.isAcquire] at hdelete
    case h_2 => exact hjust
  · have hkeep : ∀ s e t, (Sound who server.get s ∧ Alone who s) → NoOverlap who s e →
        step who s e = some t → Sound who server.get t ∧ Alone who t := by
      rintro s e t ⟨hsound, halone⟩ hover hstep
      have hsound' := hsound.step hstep
      exact ⟨hsound', halone.step hsound' hover hsound.sound.inv.inv.past hstep⟩
    obtain ⟨-, halone⟩ := run_invariant hkeep ⟨sound_start hwf hlog, alone_start hlog⟩ hover hrun
    intro l w l' w' l'' A B identity r r' hlog hgrant hgrant' hne hkeep
    exact leaseEnd_lt_of_grants hsound halone hlog hgrant hgrant' hne hkeep

/-! ## Two runs -/

def emptyServer : LeaseServer := ⟨[], 0, 0, []⟩

theorem emptyServer_wf : emptyServer.Wf :=
  ⟨.nil, fun _ _ h => (nomatch h), fun _ _ h => (nomatch h)⟩

def seconds (n : Nat) : Nat := n * nanosecondsPerSecond

/-- Two executions for one artifact and one for another. -/
def sampleWho : Pid → Execution
  | 0 => ⟨[65], .acquire [102], 0⟩
  | 1 => ⟨[65], .acquire [102], 0⟩
  | _ => ⟨[66], .acquire [102], seconds 50⟩

/-- A call that takes this long and succeeds. -/
def takes (pid : Pid) (n : Nat) : LeaseEvent := .call pid ⟨seconds n, .none⟩

/-- The first execution reads the clock and is overtaken by the second; then it moves the renewal
time back, and the other artifact takes the lease over. -/
def overtaken : List LeaseEvent :=
  [.start, takes 0 0, .start, takes 1 50, takes 1 0, takes 0 0, takes 0 0, takes 0 0, takes 0 0,
    .start, takes 2 41, takes 2 0, takes 2 0, takes 2 0, takes 2 0]

def overtakenState : LeaseSys :=
  (run (step sampleWho) (start emptyServer) overtaken).get (by decide +kernel)

/-- The lease of the sample in a version, with the times it was acquired and renewed at. -/
def sampleLease (version : Nat) (holder : Bytes) (acquired renewed : Nat) : Object Bytes Lease :=
  ⟨leaseName [102], 0, version, false, [], ⟨kamaName, artifactImportComponent, [102], some holder,
    some leaseDurationSeconds, some (seconds acquired), some (seconds renewed)⟩⟩

/-- An execution that started before the one that was granted the lease, and writes after it,
shortens the lease. -/
theorem lease_overtaken : ∃ (who : Pid → Execution) (server : LeaseServer)
    (events : List LeaseEvent) (s : LeaseSys), server.Wf ∧ server.log = [] ∧
      run (step who) (start server) events = some s ∧
      ∃ l w l' w' l'' A B identity r r', s.shared.log = l ++ w :: (l' ++ w' :: l'') ∧
        Grants who A identity r w ∧ Grants who B identity r' w' ∧ A ≠ B ∧
        outcome s w.caller = some (.ok (.acquired true)) ∧
        outcome s w'.caller = some (.ok (.acquired true)) ∧
        (∀ x ∈ l', (who x.caller).holder = A → (who x.caller).purpose.isAcquire = true) ∧
        w'.time < r + 90 * 10 ^ 9 := by
  have hlog : overtakenState.shared.log = [] ++
      ⟨1, seconds 50, leaseName [102], none, some (sampleLease 0 [65] 50 50)⟩ ::
      ([⟨0, seconds 50, leaseName [102], some (sampleLease 0 [65] 50 50),
        some (sampleLease 1 [65] 50 0)⟩] ++
      ⟨2, seconds 91, leaseName [102], some (sampleLease 1 [65] 50 0),
        some (sampleLease 2 [66] 91 91)⟩ :: []) := by
    decide +kernel
  refine ⟨sampleWho, emptyServer, overtaken, overtakenState, emptyServer_wf, rfl,
    (Option.some_get _).symm, _, _, _, _, _, [65], [66], [102], seconds 50, seconds 91, hlog,
    ⟨rfl, rfl, _, rfl, rfl⟩, ⟨rfl, rfl, _, rfl, rfl⟩, by decide, ?_, ?_, by decide, by decide⟩
  · decide +kernel
  · decide +kernel

/-- One execution for each of two artifacts; the second waits until the lease has run out. -/
def patientWho : Pid → Execution
  | 0 => ⟨[65], .acquire [102], 0⟩
  | _ => ⟨[66], .acquire [102], seconds 50⟩

def patient : List LeaseEvent :=
  [.start, takes 0 50, takes 0 0, .start, takes 1 91, takes 1 0, takes 1 0, takes 1 0, takes 1 0]

def patientState : LeaseSys :=
  (run (step patientWho) (start emptyServer) patient).get (by decide +kernel)

theorem lease_exclusive_patient :
    Allowed (step patientWho) (NoOverlap patientWho) (start emptyServer) patient ∧
    outcome patientState 1 = some (.ok (.acquired true)) ∧
    (∃ w ∈ patientState.shared.log, w.caller = 1) ∧ seconds 50 + 90 * 10 ^ 9 < seconds 141 := by
  have hover : Allowed (step patientWho) (NoOverlap patientWho) (start emptyServer) patient := by
    decide +kernel
  have hreturned : outcome patientState 1 = some (.ok (.acquired true)) := by decide +kernel
  have hlog : patientState.shared.log = [] ++
      ⟨0, seconds 50, leaseName [102], none, some (sampleLease 0 [65] 50 50)⟩ ::
      ([] ++ ⟨1, seconds 141, leaseName [102], some (sampleLease 0 [65] 50 50),
        some (sampleLease 1 [66] 141 141)⟩ :: []) := by
    decide +kernel
  have hrun : run (step patientWho) (start emptyServer) patient = some patientState :=
    (Option.some_get _).symm
  obtain ⟨hreturns, -, hexclusive⟩ := lease_exclusive patientWho emptyServer_wf rfl hrun
  obtain ⟨w, hw, hcaller, -⟩ := hreturns 1 [102] rfl hreturned
  refine ⟨hover, hreturned, ⟨w, hw, hcaller⟩, ?_⟩
  exact hexclusive hover _ _ _ _ _ [65] [66] [102] (seconds 50) (seconds 141) hlog
    ⟨rfl, rfl, _, rfl, rfl⟩ ⟨rfl, rfl, _, rfl, rfl⟩ (by decide) (by simp)

end Kama.Controller
