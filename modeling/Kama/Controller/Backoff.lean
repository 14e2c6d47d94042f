import Kama.Controller.ArtifactCalls

/-!
# Waiting before another try

A controller that finds a Job failed reports it in a condition of its object, and removes the Job
for another try when the condition has reported the failure for some time. The time is that of the
last change of the condition's status, whatever it changed for.

* `Judging` is how a controller finds out about its Jobs and what it does about one that has failed.
  What its visits record and which Jobs they remove are read off their calls.
* `BackedOff` says of a run that each removal comes its delay after the visit that first recorded
  the failure, and `BackedOffSince` the same where all failures have one delay.
* `Judging.Sound` is what is to be shown of one reconcile, and `Judging.Sound.backedOff`: then the
  backoff is honoured in every run that is `Fresh` and `Steady`, that is, in which no condition has
  its status already at the visit that first records a failure.
-/

namespace Kama.Controller

open Bytes Api Program

/-- How a controller of objects `γ` judges its Jobs: `φ` is what it knows of a Job that has failed,
and `κ` what it can report. -/
structure Judging (γ τ κ φ : Type) where
  resource : Resource γ
  conditions : γ → List (Condition τ)
  /-- a reconcile up to its verdict -/
  verdict : Object Bytes γ → Act (Verdict φ)
  /-- what it does about a Job that has failed -/
  failure : Object Bytes γ → φ → Act Requeue
  job : φ → Object Bytes Job
  /-- what is reported; nothing when it cannot be known what became of the Job -/
  kind : φ → Option κ
  /-- the object that is stored as the report at this time -/
  report : Object Bytes γ → φ → Nat → Object Bytes γ
  /-- the condition that reports it -/
  type : κ → τ
  /-- the status of the condition that reports it -/
  status : κ → ConditionStatus
  /-- how long to wait before another try -/
  delay : κ → Nat

namespace Judging

variable {γ τ κ φ : Type} (J : Judging γ τ κ φ)

def reconcile (seen : Object Bytes γ) : Act Requeue :=
  J.verdict seen >>= Verdict.act (J.failure seen)

/-- The visit finds that a Job has failed, and `rest` are its calls after that. -/
def Finds (v : Visit γ) (found : φ) (rest : List ClusterCall) : Prop :=
  v.Finds (J.verdict v.seen) (.failed found) rest

/-- The visit has this to report about the Job with this identity, or nothing. -/
def Judges (v : Visit γ) (uid : Nat) (k : Option κ) : Prop :=
  ∃ found rest, J.Finds v found rest ∧ (J.job found).uid = uid ∧ J.kind found = k

/-- At the time `now` the visit records the failure of the Job with this identity: it reads the
clock and stores the report. -/
def Records (v : Visit γ) (uid : Nat) (k : κ) (now : Nat) : Prop :=
  ∃ found rest, J.Finds v found rest ∧ (J.job found).uid = uid ∧ J.kind found = some k ∧
    Stores J.resource (J.report v.seen found) rest now

/-- At the time `time` the visit removes the Job with this identity, which has failed. -/
def Retries (v : Visit γ) (uid time : Nat) : Prop :=
  ∃ found rest, J.Finds v found rest ∧ (J.job found).uid = uid ∧
    ∃ c ∈ rest, c.op = .delete (.job, (J.job found).key) (deletionOf (J.job found)) ∧
      c.after.clock = time

end Judging

section Backoff

variable {γ τ κ φ : Type}

/-- **The backoff is honoured**: a Job that is tried again was removed no earlier than the delay
after the visit that first recorded its failure; and a failure for which a Job is removed has been
recorded. The API keeps the time of a record to the second. -/
def BackedOff (J : Judging γ τ κ φ) (visits : List (Visit γ)) : Prop :=
  ∀ earlier v later uid time, visits = earlier ++ v :: later → J.Retries v uid time →
    (∀ before w after k now, earlier = before ++ w :: after → J.Records w uid k now →
      (∀ x ∈ before, ∀ now, ¬J.Records x uid k now) → storedTime now + J.delay k ≤ time) ∧
    ∀ k, J.Judges v uid (some k) → ∃ w ∈ earlier, ∃ now, J.Records w uid k now

/-- The same for one delay, counted from the first failure of the Job that was recorded, whatever
it was. -/
def BackedOffSince (J : Judging γ τ κ φ) (delay : Nat) (visits : List (Visit γ)) : Prop :=
  ∀ earlier v later uid time, visits = earlier ++ v :: later → J.Retries v uid time →
    (∃ w ∈ earlier, ∃ k now, J.Records w uid k now) ∧
    ∀ before w after k now, earlier = before ++ w :: after → J.Records w uid k now →
      (∀ x ∈ before, ∀ k now, ¬J.Records x uid k now) → storedTime now + delay ≤ time

variable [DecidableEq τ]

/-- The condition of this type has this status. -/
def HasStatus (conditions : List (Condition τ)) (type : τ) (status : ConditionStatus) : Prop :=
  ∃ c, findStatusCondition conditions type = some c ∧ c.status = status

instance (conditions : List (Condition τ)) (type : τ) (status : ConditionStatus) :
    Decidable (HasStatus conditions type status) :=
  decidable_of_iff ((findStatusCondition conditions type).any (·.status = status) = true)
    (by simp [HasStatus, Option.any_eq_true])

/-- The runs in which the times of the conditions can be relied on: a condition does not have its
status yet when a failure is still to be recorded. -/
def Fresh (J : Judging γ τ κ φ) (visits : List (Visit γ)) : Prop :=
  ∀ earlier v later uid k, visits = earlier ++ v :: later → J.Judges v uid (some k) →
    0 < J.delay k → (∀ w ∈ earlier, ∀ now, ¬J.Records w uid k now) →
    ¬HasStatus (J.conditions v.seen.body) (J.type k) (J.status k)

omit [DecidableEq τ] in
/-- The runs in which a failure that has been recorded is found again as long as the Job is
there. -/
def Steady (J : Judging γ τ κ φ) (visits : List (Visit γ)) : Prop :=
  ∀ earlier v later uid k, visits = earlier ++ v :: later →
    (∃ w ∈ earlier, ∃ now, J.Records w uid k now) → ∀ k', J.Judges v uid k' → k' = some k

/-- What is to be known of one reconcile. -/
structure Judging.Sound (J : Judging γ τ κ φ) (name : Bytes) : Prop where
  /-- a Job is removed only when the report has been there long enough -/
  removes : ∀ seen found time, Obeys (NotAfter time) (fun op => RemovesJob op →
    ∀ k, J.kind found = some k → 0 < J.delay k ∧
      ∃ c, findStatusCondition (J.conditions seen.body) (J.type k) = some c ∧
        c.status = J.status k ∧ c.lastTransitionTime + J.delay k ≤ time) (J.failure seen found)
  /-- a report is stored with conditions that were set at its time -/
  report : ∀ {seen found now k}, J.kind found = some k → (J.report seen found now).key = seen.key ∧
    ∃ updates, J.conditions (J.report seen found now).body =
      storedConditions (setConditions now updates (J.conditions seen.body))
  /-- what is written dates no condition back -/
  writes : ∀ {u : ClusterServer} {v : Visit γ} {q type status time},
    Reach (J.reconcile v.seen).run v.calls q →
    Answered (Served J.resource name J.conditions) u v.calls →
    time ≤ u.clock → storedTime time = time →
    HeldSince type status time (J.conditions v.seen.body) →
    ∀ c ∈ v.calls, WritesOnly J.resource name J.conditions (HeldSince type status time) c.op

variable {J : Judging γ τ κ φ} {name : Bytes} {s u : ClusterServer} {visits : List (Visit γ)}
  {v w : Visit γ} {uid time now : Nat} {k : κ}

omit [DecidableEq τ] in
theorem Judging.Judges.unique {k k' : Option κ} (h : J.Judges v uid k) (h' : J.Judges v uid k') :
    k = k' := by
  obtain ⟨found, rest, hfinds, -, rfl⟩ := h
  obtain ⟨found', rest', hfinds', -, rfl⟩ := h'
  cases (Visit.Finds.unique hfinds hfinds').1
  rfl

omit [DecidableEq τ] in
theorem Judging.Records.judges (h : J.Records v uid k now) : J.Judges v uid (some k) := by
  obtain ⟨found, rest, hfinds, huid, hkind, -⟩ := h
  exact ⟨found, rest, hfinds, huid, hkind⟩

/-- The visits of a controller that judges like this. -/
abbrev Judging.Visits (J : Judging γ τ κ φ) (name : Bytes) (s : ClusterServer)
    (visits : List (Visit γ)) : Prop :=
  Controller.Visits J.resource name J.conditions J.reconcile s visits

/-- A Job that a visit removes was reported long enough before. -/
theorem Judging.Sound.retries (hJ : J.Sound name) {q : Prog _ _ _}
    (hreach : Reach (J.reconcile v.seen).run v.calls q)
    (hanswered : Answered (Served J.resource name J.conditions) u v.calls)
    (h : J.Retries v uid time) : ∃ found, J.Judges v uid found ∧ ∀ k, found = some k →
      0 < J.delay k ∧ ∃ c, findStatusCondition (J.conditions v.seen.body) (J.type k) = some c ∧
        c.status = J.status k ∧ c.lastTransitionTime + J.delay k ≤ time := by
  obtain ⟨found, rest, hfinds, huid, c, hc, hop, rfl⟩ := h
  refine ⟨J.kind found, ⟨found, rest, hfinds, huid, rfl⟩, fun k hk => ?_⟩
  have hrest := hfinds.reach hreach
  obtain ⟨before, hcalls, -⟩ := hfinds
  rw [hcalls, answered_append] at hanswered
  obtain ⟨pre, post, rfl⟩ := List.append_of_mem hc
  exact Prog.Obeys.call_of_reach (hJ.removes v.seen found c.after.clock) hrest
    (fun d hd => notAfter_of_before hanswered.2 hd) (hop ▸ trivial) k hk

/-- A record is stored between the beginning and the end of the visit. -/
theorem Judging.Sound.records (hJ : J.Sound name)
    (hseen : u.get (J.resource.kind, name) = some (J.resource.object v.seen))
    (hanswered : Answered (Served J.resource name J.conditions) u v.calls)
    (h : J.Records v uid k now) :
    u.clock ≤ now ∧ now ≤ (final u v.calls).clock ∧
      Stored J.resource name J.conditions (fun stored => ∃ updates, stored =
        storedConditions (setConditions now updates (J.conditions v.seen.body)))
        (final u v.calls) := by
  obtain ⟨found, rest, hfinds, -, hkind, hstores⟩ := h
  have hname : v.seen.key = name := congrArg Prod.snd (Server.key_of_get hseen)
  obtain ⟨hkey, updates, hupdates⟩ := hJ.report hkind
  obtain ⟨hbegin, hend, hstored⟩ := hstores.stored hfinds hanswered (hkey.trans hname)
  exact ⟨hbegin, hend, fun o b ho hb => ⟨updates, (hstored o b ho hb).trans hupdates⟩⟩

/-- Since a failure was recorded for the first time, the condition has not had its status for
longer. -/
theorem Judging.Sound.held (hJ : J.Sound name) {before after later : List (Visit γ)}
    (h : J.Visits name s (before ++ w :: (after ++ v :: later)))
    (hrecords : J.Records w uid k now)
    (hfresh : ¬HasStatus (J.conditions w.seen.body) (J.type k) (J.status k)) :
    HeldSince (J.type k) (J.status k) (storedTime now) (J.conditions v.seen.body) := by
  obtain ⟨t, u, -, -, hseen, -, hanswered, hvisits⟩ := h.cases
  obtain ⟨-, hclock, hstored⟩ := hJ.records hseen hanswered hrecords
  have hnow : storedTime now ≤ now := Nat.div_mul_le_self _ _
  have htime : storedTime (storedTime now) = storedTime now := by
    rw [storedTime, storedTime, Nat.mul_div_cancel _ (by decide)]
  have hheld : Stored J.resource name J.conditions
      (HeldSince (J.type k) (J.status k) (storedTime now)) (final u w.calls) := by
    intro o b ho hb
    obtain ⟨updates, heq⟩ := hstored o b ho hb
    rw [heq]
    exact .storedConditions (.setConditions
      (heldSince_of_ne fun c hc hstatus => hfresh ⟨c, hc, hstatus⟩) hnow) htime
  exact hvisits.stored heldSince_nil hheld fun hle hread hanswered hreach =>
    hJ.writes hreach hanswered ((hnow.trans hclock).trans hle) htime hread

/-- A Job is removed for a failure that has been recorded, its delay after it was recorded for the
first time. -/
theorem Judging.Sound.removed (hJ : J.Sound name) {earlier later : List (Visit γ)}
    (h : J.Visits name s (earlier ++ v :: later)) (hfresh : Fresh J (earlier ++ v :: later))
    (hretries : J.Retries v uid time) : ∃ found, J.Judges v uid found ∧ ∀ k, found = some k →
      (∃ w ∈ earlier, ∃ now, J.Records w uid k now) ∧
      ∀ before w after now, earlier = before ++ w :: after → J.Records w uid k now →
        (∀ x ∈ before, ∀ now, ¬J.Records x uid k now) → storedTime now + J.delay k ≤ time := by
  obtain ⟨t, u, -, -, -, ⟨q, hreach⟩, hanswered, -⟩ := h.cases
  obtain ⟨found, hjudges, hfound⟩ := hJ.retries hreach hanswered hretries
  refine ⟨found, hjudges, ?_⟩
  rintro k rfl
  obtain ⟨hdelay, c, hc, hstatus, hle⟩ := hfound k rfl
  constructor
  · by_contra hnone
    exact hfresh _ v later uid k rfl hjudges hdelay
      (fun w hw now hrecords => hnone ⟨w, hw, now, hrecords⟩) ⟨c, hc, hstatus⟩
  · rintro before w after now rfl hrecords hfirst
    have hnot := hfresh before w _ uid k (List.append_assoc _ _ _) hrecords.judges hdelay hfirst
    rw [List.append_assoc] at h
    exact (Nat.add_le_add_right (hJ.held h hrecords hnot c hc hstatus) _).trans hle

/-- **The backoff is honoured** in every run in which failures are found again and conditions are
fresh. -/
theorem Judging.Sound.backedOff (hJ : J.Sound name) (h : J.Visits name s visits)
    (hfresh : Fresh J visits) (hsteady : Steady J visits) : BackedOff J visits := by
  rintro earlier v later uid time rfl hretries
  obtain ⟨found, hjudges, hfound⟩ := hJ.removed h hfresh hretries
  constructor
  · rintro before w after k now rfl hrecords hfirst
    have hw : w ∈ before ++ w :: after := List.mem_append_right _ List.mem_cons_self
    exact (hfound k (hsteady _ v later uid k rfl ⟨w, hw, now, hrecords⟩ found hjudges)).2
      before w after now rfl hrecords hfirst
  · intro k hjudges'
    exact (hfound k (hjudges.unique hjudges')).1

/-- The time of a record is not later than that of a record of a later visit. -/
theorem Judging.Sound.records_le (hJ : J.Sound name) {before between after : List (Visit γ)}
    {w' : Visit γ} {uid now now' : Nat} {k k' : κ}
    (h : J.Visits name s (before ++ w :: (between ++ w' :: after)))
    (hw : J.Records w uid k now) (hw' : J.Records w' uid k' now') : now ≤ now' := by
  obtain ⟨t, u, -, -, hseen, -, hanswered, hvisits⟩ := h.cases
  obtain ⟨t', u', hclock, hothers, hseen', -, hanswered', -⟩ := hvisits.cases
  calc now ≤ (final u w.calls).clock := (hJ.records hseen hanswered hw).2.1
    _ ≤ t'.clock := hclock
    _ ≤ u'.clock := hothers.clock
    _ ≤ now' := (hJ.records hseen' hanswered' hw').1

omit [DecidableEq τ] in
/-- The first visit that records the failure. -/
theorem exists_first_record (h : ∃ w ∈ visits, ∃ now, J.Records w uid k now) :
    ∃ before w after now, visits = before ++ w :: after ∧ J.Records w uid k now ∧
      ∀ x ∈ before, ∀ now, ¬J.Records x uid k now := by
  classical
  obtain ⟨w, hw, hrecords⟩ := h
  cases hfind : visits.find? fun w => decide (∃ now, J.Records w uid k now) with
  | none => exact absurd hrecords (by simpa using List.find?_eq_none.1 hfind w hw)
  | some first =>
    obtain ⟨hfirst, before, after, heq, hbefore⟩ := List.find?_eq_some_iff_append.1 hfind
    obtain ⟨now, hnow⟩ := of_decide_eq_true hfirst
    exact ⟨before, first, after, now, heq, hnow, by simpa using hbefore⟩

/-- **One delay for all failures is honoured** from the first record of a Job on, also when it is
found to have failed in another way later. -/
theorem Judging.Sound.backedOffSince (hJ : J.Sound name) {delay : Nat}
    (h : J.Visits name s visits) (hfresh : Fresh J visits)
    (hknown : ∀ found, J.kind found ≠ none) (hdelay : ∀ k, delay ≤ J.delay k) :
    BackedOffSince J delay visits := by
  rintro earlier v later uid time rfl hretries
  obtain ⟨found, ⟨known, -, -, -, rfl⟩, hfound⟩ := hJ.removed h hfresh hretries
  obtain ⟨k, hk⟩ := Option.ne_none_iff_exists'.1 (hknown known)
  obtain ⟨hrecorded, hle⟩ := hfound k hk
  refine ⟨hrecorded.imp fun w hw => ⟨hw.1, k, hw.2⟩, ?_⟩
  rintro before w after k' now rfl hrecords hfirst
  by_cases hsame : ∃ now, J.Records w uid k now
  · obtain ⟨now', hsame⟩ := hsame
    obtain rfl := Option.some.inj (hrecords.judges.unique hsame.judges)
    exact (Nat.add_le_add_left (hdelay _) _).trans
      (hle before w after now rfl hrecords fun x hx => hfirst x hx _)
  · -- what the Job is removed for was first recorded after `w`
    obtain ⟨between, w', after', now', rfl, hrecords', hbetween⟩ :
        ∃ between w' after' now', after = between ++ w' :: after' ∧ J.Records w' uid k now' ∧
          ∀ x ∈ between, ∀ now, ¬J.Records x uid k now := by
      apply exists_first_record
      obtain ⟨x, hx, hrecords'⟩ := hrecorded
      rcases List.mem_append.1 hx with hx | hx
      · obtain ⟨now', hrecords'⟩ := hrecords'
        exact absurd hrecords' (hfirst x hx _ _)
      · rcases List.mem_cons.1 hx with rfl | hx
        · exact absurd hrecords' hsame
        · exact ⟨x, hx, hrecords'⟩
    have hnow : storedTime now ≤ storedTime now' := by
      simp only [List.append_assoc, List.cons_append] at h
      exact Nat.mul_le_mul_right _ (Nat.div_le_div_right (hJ.records_le h hrecords hrecords'))
    have hbefore : ∀ x ∈ before ++ w :: between, ∀ now, ¬J.Records x uid k now := by
      intro x hx now hx'
      rcases List.mem_append.1 hx with hx | hx
      · exact hfirst x hx _ _ hx'
      · rcases List.mem_cons.1 hx with rfl | hx
        · exact hsame ⟨now, hx'⟩
        · exact hbetween x hx now hx'
    have hle' := hle (before ++ w :: between) w' after' now' (by simp) hrecords' hbefore
    have := hdelay k
    omega

end Backoff

/-! ## Visits that nothing interferes with -/

section Quiet

variable {γ τ κ φ : Type} (J : Judging γ τ κ φ) (initial : Object Bytes γ) (s : ClusterServer)

namespace Judging

/-- The object in the cluster that has the name of `initial`. -/
def seenIn : Object Bytes γ := (objectIn J.resource initial.key s).getD initial

def visitIn : Visit γ :=
  quietVisit (J.seenIn initial s) (J.verdict (J.seenIn initial s))
    (Verdict.act (J.failure (J.seenIn initial s))) s

/-- The calls of the visit after its verdict. -/
def restIn : List ClusterCall :=
  quietRest (J.verdict (J.seenIn initial s))
    (Verdict.act (J.failure (J.seenIn initial s))) s

def afterVisit : ClusterServer := final s (J.visitIn initial s).calls

/-- The cluster some seconds after the visit, with a Pod for each Job. -/
def laterOn (uidText : Nat → Bytes) (seconds : Nat) (failed : Bool) (status : ContainerStatus) :
    ClusterServer :=
  Controller.laterOn uidText seconds failed status (J.afterVisit initial s)

/-- What the visit knows of a Job that has failed. -/
def foundIn : Option φ :=
  match ((J.verdict (J.seenIn initial s)).run.trace calmly s).2 with
  | .ok (.failed found) => some found
  | _ => none

/-- The identity of the Job that the visit judges, and the failure. -/
def judgedIn : Option (Nat × Option κ) :=
  (J.foundIn initial s).map fun found => ((J.job found).uid, J.kind found)

/-- The identity of the Job and the failure that the visit records, and when. -/
def recordedIn [DecidableEq γ] : Option (Nat × κ × Nat) := do
  let found ← J.foundIn initial s
  let k ← J.kind found
  let now ← storedAt J.resource (J.report (J.seenIn initial s) found)
    (J.restIn initial s).reverse
  pure ((J.job found).uid, k, now)

/-- The identity of the Job that the visit removes, and when. -/
def removedIn : Option (Nat × Nat) := do
  let found ← J.foundIn initial s
  let time ← removalTime (J.job found) (J.restIn initial s)
  pure ((J.job found).uid, time)

end Judging

variable {J initial s} {u : ClusterServer} {found : φ} {rest : List ClusterCall}
  {uid now time : Nat} {k : κ}

theorem finds_visitIn : J.Finds (J.visitIn initial s) found rest ↔
    J.foundIn initial s = some found ∧ rest = J.restIn initial s := by
  have hfinds : J.Finds (J.visitIn initial s) found rest ↔
      ((J.verdict (J.seenIn initial s)).run.trace calmly s).2 = .ok (.failed found) ∧
        rest = J.restIn initial s := finds_quietVisit
  rw [hfinds, Judging.foundIn]
  refine and_congr_left fun _ => ⟨fun h => by rw [h], fun h => ?_⟩
  split at h
  · rename_i found' hfound
    rw [hfound, Option.some.inj h]
  · cases h

theorem judgedIn_of_judges {k : Option κ} (h : J.Judges (J.visitIn initial s) uid k) :
    J.judgedIn initial s = some (uid, k) := by
  obtain ⟨found, rest, hfinds, rfl, rfl⟩ := h
  rw [Judging.judgedIn, (finds_visitIn.1 hfinds).1]
  rfl

theorem recordedIn_eq_some_iff [DecidableEq γ] :
    J.recordedIn initial s = some (uid, k, now) ↔
      J.Records (J.visitIn initial s) uid k now := by
  constructor
  · intro h
    obtain ⟨found, hfound, h⟩ := Option.bind_eq_some_iff.1 h
    obtain ⟨k', hkind, h⟩ := Option.bind_eq_some_iff.1 h
    obtain ⟨now', hnow, h⟩ := Option.bind_eq_some_iff.1 h
    cases h
    exact ⟨found, _, finds_visitIn.2 ⟨hfound, rfl⟩, rfl, hkind, storedAt_eq_some_iff.1 hnow⟩
  · rintro ⟨found, rest, hfinds, rfl, hkind, hstores⟩
    obtain ⟨hfound, rfl⟩ := finds_visitIn.1 hfinds
    refine Option.bind_eq_some_iff.2 ⟨found, hfound, Option.bind_eq_some_iff.2 ⟨k, hkind, ?_⟩⟩
    exact Option.bind_eq_some_iff.2 ⟨now, storedAt_eq_some_iff.2 hstores, rfl⟩

theorem not_records_of_recordedIn [DecidableEq γ] (h : J.recordedIn initial s = none)
    (uid : Nat) (k : κ) (now : Nat) : ¬J.Records (J.visitIn initial s) uid k now := by
  intro hrecords
  rw [recordedIn_eq_some_iff.2 hrecords] at h
  cases h

theorem retries_of_removedIn (h : J.removedIn initial s = some (uid, time)) :
    J.Retries (J.visitIn initial s) uid time := by
  obtain ⟨found, hfound, h⟩ := Option.bind_eq_some_iff.1 h
  obtain ⟨time', htime, h⟩ := Option.bind_eq_some_iff.1 h
  cases h
  exact ⟨found, _, finds_visitIn.2 ⟨hfound, rfl⟩, rfl, removal_of_removalTime htime⟩

theorem visits_visitIn {visits : List (Visit γ)}
    (hothers : Others J.resource initial.key J.conditions s u)
    (hseen : (objectIn J.resource initial.key u).isSome = true)
    (h : J.Visits initial.key (J.afterVisit initial u) visits) :
    J.Visits initial.key s (J.visitIn initial u :: visits) := by
  refine ⟨u, hothers, ?_, reach_quietVisit _ _ _ u, answered_quietVisit _ _ _ u, h⟩
  obtain ⟨seen, hseen⟩ := Option.isSome_iff_exists.1 hseen
  rw [get_of_objectIn hseen, Judging.visitIn, quietVisit, Judging.seenIn, hseen]
  rfl

theorem visits_laterOn {uidText : Nat → Bytes} {seconds : Nat} {failed : Bool}
    {status : ContainerStatus} {visits : List (Visit γ)}
    (hkind : J.resource.kind ≠ .job ∧ J.resource.kind ≠ .pod)
    (hu : u = J.laterOn initial s uidText seconds failed status)
    (htime : (J.afterVisit initial s).clock ≤ seconds * 10 ^ 9)
    (hseen : (objectIn J.resource initial.key u).isSome = true)
    (h : J.Visits initial.key (J.afterVisit initial u) visits) :
    J.Visits initial.key (J.afterVisit initial s) (J.visitIn initial u :: visits) := by
  subst hu
  exact visits_visitIn (others_laterOn hkind.1 hkind.2 htime) hseen h

/-- The places of a list, one after the other. -/
theorem forall_split_cons {α : Type} {a : α} {l : List α} {P : List α → α → Prop} :
    (∀ before e after, a :: l = before ++ e :: after → P before e) ↔
      P [] a ∧ ∀ before e after, l = before ++ e :: after → P (a :: before) e := by
  constructor
  · intro h
    exact ⟨h [] a l rfl, fun before e after hl => h (a :: before) e after (by rw [hl]; rfl)⟩
  · rintro ⟨hnil, hcons⟩ (_ | ⟨b, before⟩) e after hl
    · cases hl
      exact hnil
    · obtain ⟨rfl, htail⟩ := List.cons.inj hl
      exact hcons before e after htail

section Episode

variable [DecidableEq γ] [DecidableEq τ] {s₀ s₁ s₂ : ClusterServer}
  (j₀ : J.judgedIn initial s₀ = none)
  (j₁ : J.judgedIn initial s₁ = some (uid, some k))
  (r₁ : J.recordedIn initial s₁ = some (uid, k, now))
  (j₂ : J.judgedIn initial s₂ = some (uid, some k))
include j₀ j₁ r₁ j₂

/-- Three visits: the first has nothing to report, the second records a failure that no condition
has announced, and the third finds it again. -/
theorem fresh_of_judgedIn
    (hstatus : ¬HasStatus (J.conditions (J.seenIn initial s₁).body) (J.type k) (J.status k)) :
    Fresh J [J.visitIn initial s₀, J.visitIn initial s₁, J.visitIn initial s₂] := by
  have hsplit : ∀ earlier v later, [J.visitIn initial s₀, J.visitIn initial s₁,
      J.visitIn initial s₂] = earlier ++ v :: later → ∀ uid k, J.Judges v uid (some k) →
      (∀ w ∈ earlier, ∀ now, ¬J.Records w uid k now) →
      ¬HasStatus (J.conditions v.seen.body) (J.type k) (J.status k) := by
    rw [forall_split_cons, forall_split_cons, forall_split_cons]
    refine ⟨fun uid k h => ?_, fun uid k h _ => ?_, fun uid k h hfirst => ?_, by simp⟩
    · cases j₀.symm.trans (judgedIn_of_judges h)
    · cases j₁.symm.trans (judgedIn_of_judges h)
      exact hstatus
    · cases j₂.symm.trans (judgedIn_of_judges h)
      exact absurd (recordedIn_eq_some_iff.1 r₁) (hfirst _ (by simp) now)
  exact fun earlier v later uid k heq h _ => hsplit earlier v later heq uid k h

omit [DecidableEq γ] [DecidableEq τ] r₁ in
theorem steady_of_judgedIn :
    Steady J [J.visitIn initial s₀, J.visitIn initial s₁, J.visitIn initial s₂] := by
  have hsplit : ∀ earlier v later, [J.visitIn initial s₀, J.visitIn initial s₁,
      J.visitIn initial s₂] = earlier ++ v :: later → ∀ uid k,
      (∃ w ∈ earlier, ∃ now, J.Records w uid k now) → ∀ k', J.Judges v uid k' → k' = some k := by
    rw [forall_split_cons, forall_split_cons, forall_split_cons]
    have hnone : ∀ uid k now, ¬J.Records (J.visitIn initial s₀) uid k now := by
      intro uid k now h
      cases j₀.symm.trans (judgedIn_of_judges h.judges)
    refine ⟨by simp, ?_, ?_, by simp⟩
    · rintro uid k ⟨w, hw, now, hrecords⟩
      rw [List.mem_singleton.1 hw] at hrecords
      exact absurd hrecords (hnone _ _ _)
    · rintro uid k ⟨w, hw, now, hrecords⟩ k' h
      cases j₂.symm.trans (judgedIn_of_judges h)
      simp only [List.mem_cons, List.not_mem_nil, or_false] at hw
      obtain rfl | rfl := hw
      · exact absurd hrecords (hnone _ _ _)
      · cases j₁.symm.trans (judgedIn_of_judges hrecords.judges)
        rfl
  exact fun earlier v later uid k heq => hsplit earlier v later heq uid k

end Episode

end Quiet

end Kama.Controller
