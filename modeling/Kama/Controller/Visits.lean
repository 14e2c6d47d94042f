import Kama.Controller.ImportJob
import Kama.Foundations.Trace

/-!
# The visits of a controller

A controller visits its object again and again: it reads the object and makes the calls of its
`Reconcile`, until it returns or is stopped. Between any two calls time passes and the others
change what they like, except the conditions of the object, which are the controller's own.

* `HeldSince type status time`: the condition has not had the status for longer than since `time`.
  `meta.SetStatusCondition` keeps this as long as the clock does not go back (`HeldSince.set`), and
  it holds from the moment that a condition changes to the status (`heldSince_of_ne`).
* `Visits` is a run of the controller from a state of the cluster, `Visits.cases` what is known of
  one visit in it.
* `Visits.stored`: what all writes of the controller keep true of the stored conditions is true in
  every later visit of the conditions that it reads.
* `Visit.Finds`: the first part of a reconcile has come to a result. `Stores`: its last calls store
  an object.
* `quietVisit` is a visit that nothing interferes with; what it does can be computed.
-/

namespace Kama.Controller

open Bytes Api Program

/-! ## Conditions over time -/

section Conditions

variable {τ : Type} [DecidableEq τ] {type : τ} {status : ConditionStatus} {time now : Nat}
  {conditions : List (Condition τ)}

/-- If the condition has this status, then since `time` at the earliest. -/
def HeldSince (type : τ) (status : ConditionStatus) (time : Nat)
    (conditions : List (Condition τ)) : Prop :=
  ∀ c, findStatusCondition conditions type = some c → c.status = status →
    time ≤ c.lastTransitionTime

theorem heldSince_nil : HeldSince type status time [] := fun _ h => nomatch h

theorem heldSince_of_ne
    (h : ∀ c, findStatusCondition conditions type = some c → c.status ≠ status) :
    HeldSince type status time conditions := fun c hc hstatus => absurd hstatus (h c hc)

theorem isStatusConditionTrue_iff : isStatusConditionTrue conditions type = true ↔
    ∃ c, findStatusCondition conditions type = some c ∧ c.status = .conditionTrue := by
  unfold isStatusConditionTrue
  cases findStatusCondition conditions type with
  | none => simp
  | some c => simp

theorem reportedSince_eq_some {generation since : Nat} {reason : Bytes}
    (h : reportedSince conditions type status generation reason = some since) :
    ∃ c, findStatusCondition conditions type = some c ∧ c.status = status ∧
      c.lastTransitionTime = since := by
  unfold reportedSince at h
  split at h
  · cases h
  · rename_i c hc
    split at h
    · rename_i hreported
      exact ⟨c, hc, hreported.1, Option.some.inj h⟩
    · cases h

theorem findStatusCondition_set_self (now : Nat) (c : Condition τ)
    (conditions : List (Condition τ)) :
    findStatusCondition (setStatusCondition now c conditions) c.type =
      some { c with lastTransitionTime :=
        match findStatusCondition conditions c.type with
        | none => now
        | some existing =>
          if existing.status = c.status then existing.lastTransitionTime else now } := by
  unfold setStatusCondition
  cases hfound : findStatusCondition conditions c.type with
  | none =>
    unfold findStatusCondition at hfound ⊢
    simp [List.find?_append, hfound]
  | some existing =>
    simp only
    generalize (if existing.status = c.status then existing.lastTransitionTime else now) = time
    unfold findStatusCondition at hfound ⊢
    rw [List.find?_map]
    have hsame : ((fun old : Condition τ => decide (old.type = c.type)) ∘ fun old =>
        if old.type = c.type then { c with lastTransitionTime := time } else old) =
        fun old => decide (old.type = c.type) := by
      funext old
      by_cases hold : old.type = c.type <;> simp [hold]
    rw [hsame, hfound, Option.map_some]
    rw [if_pos (by simpa using List.find?_some hfound)]

theorem HeldSince.set {c : Condition τ} (h : HeldSince type status time conditions)
    (hnow : time ≤ now) : HeldSince type status time (setStatusCondition now c conditions) := by
  intro found hfound hstatus
  by_cases htype : type = c.type
  · subst htype
    rw [findStatusCondition_set_self] at hfound
    obtain rfl := Option.some.inj hfound
    dsimp only at hstatus ⊢
    split
    · exact hnow
    · rename_i existing hexisting
      split
      · rename_i hsame
        exact h existing hexisting (hsame.trans hstatus)
      · exact hnow
  · rw [findStatusCondition_set htype] at hfound
    exact h found hfound hstatus

theorem HeldSince.setConditions {updates : List (Condition τ)}
    (h : HeldSince type status time conditions) (hnow : time ≤ now) :
    HeldSince type status time (setConditions now updates conditions) := by
  induction updates generalizing conditions with
  | nil => exact h
  | cons c updates ih => exact ih (h.set hnow)

/-- The conditions as the API keeps them. -/
def storedConditions (conditions : List (Condition τ)) : List (Condition τ) :=
  conditions.map fun c => { c with lastTransitionTime := storedTime c.lastTransitionTime }

theorem storedTime_le {time now : Nat} (htime : storedTime time = time) (h : time ≤ now) :
    time ≤ storedTime now := by
  rw [← htime]
  exact Nat.mul_le_mul_right _ (Nat.div_le_div_right h)

/-- Times of whole seconds are kept. -/
theorem HeldSince.storedConditions (h : HeldSince type status time conditions)
    (htime : storedTime time = time) :
    HeldSince type status time (storedConditions conditions) := by
  intro found hfound hstatus
  unfold findStatusCondition Controller.storedConditions at hfound
  rw [List.find?_map] at hfound
  obtain ⟨c, hc, rfl⟩ := Option.map_eq_some_iff.1 hfound
  exact storedTime_le htime (h c hc hstatus)

end Conditions

/-! ## Visits -/

abbrev ClusterCall := Called (Op Key Body) (Res Key Body) ClusterServer

/-- One `Reconcile`: the object that it read, and its calls up to its end. -/
structure Visit (γ : Type) where
  seen : Object Bytes γ
  calls : List ClusterCall

section Visits

variable {γ τ ρ : Type} (r : Resource γ) (name : Bytes) (conditions : γ → List (Condition τ))

/-- The conditions of the object, as they are stored, satisfy `P`. -/
def Stored (P : List (Condition τ) → Prop) (s : ClusterServer) : Prop :=
  ∀ o b, s.get (r.kind, name) = some o → r.ofBody o.body = some b → P (conditions b)

/-- What time and the others do to the cluster. The object may be changed, removed and created
anew; its conditions are written by its controller only. -/
structure Others (s t : ClusterServer) : Prop where
  clock : s.clock ≤ t.clock
  conditions : ∀ o b, t.get (r.kind, name) = some o → r.ofBody o.body = some b →
    conditions b = [] ∨ ∃ o' b', s.get (r.kind, name) = some o' ∧ r.ofBody o'.body = some b' ∧
      conditions b' = conditions b

/-- A call is answered by the server, at some later time. -/
def Served (s : ClusterServer) (op : Op Key Body) (answer : Res Key Body op) (t : ClusterServer) :
    Prop :=
  ∃ u choice, Others r name conditions s u ∧ Server.exec 0 op choice u = (answer, t)

/-- The visits of a controller, one after the other, from the state `s` on. -/
def Visits (reconcile : Object Bytes γ → Act ρ) : ClusterServer → List (Visit γ) → Prop
  | _, [] => True
  | s, v :: visits =>
    ∃ u, Others r name conditions s u ∧ u.get (r.kind, name) = some (r.object v.seen) ∧
      (∃ rest, Reach (reconcile v.seen).run v.calls rest) ∧
      Answered (Served r name conditions) u v.calls ∧
      Visits reconcile (final u v.calls) visits

variable {r name conditions} {P : List (Condition τ) → Prop} {s t u : ClusterServer}

theorem Others.refl (s : ClusterServer) : Others r name conditions s s :=
  ⟨Nat.le_refl _, fun o b ho hb => .inr ⟨o, b, ho, hb, rfl⟩⟩

theorem Others.stored (h : Others r name conditions s t) (hnil : P [])
    (hs : Stored r name conditions P s) : Stored r name conditions P t := by
  intro o b ho hb
  obtain hempty | ⟨o', b', ho', hb', heq⟩ := h.conditions o b ho hb
  · rw [hempty]
    exact hnil
  · rw [← heq]
    exact hs o' b' ho' hb'

/-- What the call writes under the name satisfies `P`. -/
def WritesOnly (r : Resource γ) (name : Bytes) (conditions : γ → List (Condition τ))
    (P : List (Condition τ) → Prop) : Op Key Body → Prop
  | .create key _ body =>
    key = (r.kind, name) → ∀ b, r.ofBody body = some b → P (conditions b)
  | .update o =>
    o.key = (r.kind, name) → ∀ b, r.ofBody o.body = some b → P (conditions b)
  | _ => True

theorem Served.clock_le {op : Op Key Body} {answer : Res Key Body op}
    (h : Served r name conditions s op answer t) : s.clock ≤ t.clock := by
  obtain ⟨u, choice, hu, hexec⟩ := h
  exact hu.clock.trans (Server.clock_le_exec hexec)

theorem Served.stored {op : Op Key Body} {answer : Res Key Body op}
    (h : Served r name conditions s op answer t) (hnil : P [])
    (hop : WritesOnly r name conditions P op) (hs : Stored r name conditions P s) :
    Stored r name conditions P t := by
  obtain ⟨u, choice, hu, hexec⟩ := h
  have hstored := hu.stored hnil hs
  intro o b ho hb
  obtain ⟨o', ho', heq⟩ | ⟨finalizers, rfl⟩ | ⟨object, rfl, hkey, hbody⟩ :=
    Server.exec_body hexec ho
  · exact hstored o' b ho' (by rw [heq]; exact hb)
  · exact hop rfl b hb
  · exact hop hkey b (by rw [hbody]; exact hb)

theorem Served.now {now : Nat} (h : Served r name conditions s .now now t) :
    s.clock ≤ now ∧ now = t.clock := by
  obtain ⟨u, choice, hu, hexec⟩ := h
  obtain ⟨rfl, rfl⟩ := Server.exec_now hexec
  exact ⟨hu.clock.trans (Nat.le_add_right _ _), rfl⟩

variable {calls : List ClusterCall}

theorem clock_le_final (h : Answered (Served r name conditions) s calls) :
    s.clock ≤ (final s calls).clock :=
  h.final_of (R := fun s t => s.clock ≤ t.clock) (fun _ => Nat.le_refl _) Nat.le_trans
    Served.clock_le

/-- The answers of the clock during a trace lie between its beginning and its end. -/
theorem clock_of_mem (h : Answered (Served r name conditions) s calls) {c : ClusterCall}
    (hc : c ∈ calls) : s.clock ≤ c.after.clock ∧ c.after.clock ≤ (final s calls).clock ∧
      ∀ now : Nat, c = ⟨.now, now, c.after⟩ → s.clock ≤ now ∧ now = c.after.clock := by
  induction calls generalizing s with
  | nil => cases hc
  | cons d calls ih =>
    have hd := h.1.clock_le
    rcases List.mem_cons.1 hc with rfl | hc
    · refine ⟨hd, clock_le_final h.2, fun now hnow => ?_⟩
      have hserved := h.1
      rw [hnow] at hserved
      exact hserved.now
    · obtain ⟨hbegin, hend, hnow⟩ := ih h.2 hc
      exact ⟨hd.trans hbegin, hend, fun now heq => (hnow now heq).imp_left hd.trans⟩

/-- The clock has not shown a time before `start`. -/
def NotBefore (start : Nat) : (op : Op Key Body) → Res Key Body op → Prop
  | .now, now => start ≤ (now : Nat)
  | _, _ => True

/-- The clock has not shown a time after `time`. -/
def NotAfter (time : Nat) : (op : Op Key Body) → Res Key Body op → Prop
  | .now, now => time ≥ (now : Nat)
  | _, _ => True

theorem notBefore_of_mem (h : Answered (Served r name conditions) s calls) {c : ClusterCall}
    (hc : c ∈ calls) : NotBefore s.clock c.op c.answer := by
  obtain ⟨op, answer, after⟩ := c
  cases op with
  | now => exact ((clock_of_mem h hc).2.2 answer rfl).1
  | _ => trivial

theorem notAfter_of_mem (h : Answered (Served r name conditions) s calls) {c : ClusterCall}
    (hc : c ∈ calls) : NotAfter (final s calls).clock c.op c.answer := by
  obtain ⟨op, answer, after⟩ := c
  obtain ⟨-, hend, hnow⟩ := clock_of_mem h hc
  cases op with
  | now => exact (hnow answer rfl).2.le.trans hend
  | _ => trivial

/-- What the clock has shown before a call is not later than the call. -/
theorem notAfter_of_before {before after : List ClusterCall} {c d : ClusterCall}
    (h : Answered (Served r name conditions) s (before ++ c :: after)) (hd : d ∈ before) :
    NotAfter c.after.clock d.op d.answer := by
  rw [List.append_cons, answered_append] at h
  have := notAfter_of_mem h.1 (List.mem_append_left [c] hd)
  rwa [final_append] at this

/-- What every write keeps true of the stored conditions is true at the end of a trace. -/
theorem stored_final (h : Answered (Served r name conditions) s calls) (hnil : P [])
    (hcalls : ∀ c ∈ calls, WritesOnly r name conditions P c.op)
    (hs : Stored r name conditions P s) : Stored r name conditions P (final s calls) := by
  induction calls generalizing s with
  | nil => exact hs
  | cons c calls ih =>
    exact ih h.2 (fun d hd => hcalls d (List.mem_cons_of_mem _ hd))
      (h.1.stored hnil (hcalls c List.mem_cons_self) hs)

variable {reconcile : Object Bytes γ → Act ρ} {before after : List (Visit γ)} {v : Visit γ}

/-- One visit of a run. -/
theorem Visits.cases (h : Visits r name conditions reconcile s (before ++ v :: after)) :
    ∃ t u, s.clock ≤ t.clock ∧ Others r name conditions t u ∧
      u.get (r.kind, name) = some (r.object v.seen) ∧
      (∃ rest, Reach (reconcile v.seen).run v.calls rest) ∧
      Answered (Served r name conditions) u v.calls ∧
      Visits r name conditions reconcile (final u v.calls) after := by
  induction before generalizing s with
  | nil =>
    obtain ⟨u, h⟩ := h
    exact ⟨s, u, Nat.le_refl _, h⟩
  | cons w before ih =>
    obtain ⟨u, hothers, -, -, hanswered, h⟩ := h
    obtain ⟨t, u', hclock, h⟩ := ih h
    exact ⟨t, u', hothers.clock.trans ((clock_le_final hanswered).trans hclock), h⟩

/-- The conditions that a visit reads are those that are stored. -/
theorem Stored.seen (h : Stored r name conditions P u)
    (hseen : u.get (r.kind, name) = some (r.object v.seen)) : P (conditions v.seen.body) :=
  h _ _ hseen (r.ofBody_body _)

/-- What the writes of every visit keep true of the conditions that it has read, is true of the
conditions that any later visit reads. -/
theorem Visits.stored (h : Visits r name conditions reconcile s (before ++ v :: after))
    (hnil : P []) (hs : Stored r name conditions P s)
    (hwrites : ∀ {u : ClusterServer} {w : Visit γ} {rest : Prog _ _ _}, s.clock ≤ u.clock →
      P (conditions w.seen.body) → Answered (Served r name conditions) u w.calls →
      Reach (reconcile w.seen).run w.calls rest →
      ∀ c ∈ w.calls, WritesOnly r name conditions P c.op) :
    P (conditions v.seen.body) := by
  induction before generalizing s with
  | nil =>
    obtain ⟨u, hothers, hseen, -⟩ := h
    exact (hothers.stored hnil hs).seen hseen
  | cons w before ih =>
    obtain ⟨u, hothers, hseen, ⟨rest, hreach⟩, hanswered, h⟩ := h
    have hu := hothers.stored hnil hs
    have hclock := hothers.clock.trans (clock_le_final hanswered)
    exact ih h (stored_final hanswered hnil
        (hwrites hothers.clock (hu.seen hseen) hanswered hreach) hu)
      fun hle => hwrites (hclock.trans hle)

/-! ## Parts of a visit -/

section Parts

variable {V : Type} {judge : Act V} {act : V → Act ρ} {found : V} {rest : List ClusterCall}

/-- The visit begins with code that returns `found`, and `rest` are its calls after that. -/
def Visit.Finds (v : Visit γ) (judge : Act V) (found : V) (rest : List ClusterCall) : Prop :=
  ∃ before, v.calls = before ++ rest ∧ Reach judge.run before (.ret (.ok found))

theorem Visit.Finds.reach {q : Prog (Op Key Body) (Res Key Body) (Except Err ρ)}
    (h : v.Finds judge found rest) (hv : Reach (judge >>= act).run v.calls q) :
    Reach (act found).run rest q := by
  obtain ⟨before, hcalls, hbefore⟩ := h
  rw [hcalls] at hv
  obtain ⟨p, hp, hrest⟩ := hv.split
  obtain rfl := hp.unique (hbefore.ok_bind (f := act))
  exact hrest

/-- A visit comes to one result. -/
theorem Visit.Finds.unique {found' : V} {rest' : List ClusterCall} (h : v.Finds judge found rest)
    (h' : v.Finds judge found' rest') : found = found' ∧ rest = rest' := by
  obtain ⟨before, hcalls, hreach⟩ := h
  obtain ⟨before', hcalls', hreach'⟩ := h'
  obtain ⟨rfl, hfound⟩ := hreach.ret_unique hreach' ⟨rest, hcalls.symm⟩ ⟨rest', hcalls'.symm⟩
  exact ⟨Except.ok.inj hfound, List.append_cancel_left (hcalls.symm.trans hcalls')⟩

/-- The last calls read the clock and store the object that is made for this time. -/
def Stores (r : Resource γ) (written : Nat → Object Bytes γ) (calls : List ClusterCall)
    (now : Nat) : Prop :=
  ∃ before s answer t o,
    calls = before ++ [⟨.now, now, s⟩, ⟨.update (r.object (written now)), answer, t⟩] ∧
    t.get (r.kind, (written now).key) = some o ∧ o.body = r.body (written now).body

theorem Stores.stored {written : Nat → Object Bytes γ} {now : Nat} (h : Stores r written rest now)
    (hfinds : v.Finds judge found rest) (hanswered : Answered (Served r name conditions) u v.calls)
    (hname : (written now).key = name) :
    u.clock ≤ now ∧ now ≤ (final u v.calls).clock ∧
      Stored r name conditions (· = conditions (written now).body) (final u v.calls) := by
  obtain ⟨start, hcalls, -⟩ := hfinds
  obtain ⟨before, s, answer, t, o, rfl, ho, hbody⟩ := h
  have hfinal : final u v.calls = t := by
    rw [hcalls, final_append, final_append]
    rfl
  have hmem : (⟨.now, now, s⟩ : ClusterCall) ∈ v.calls := by
    rw [hcalls]
    simp
  obtain ⟨-, hend, hclock⟩ := clock_of_mem hanswered hmem
  refine ⟨(hclock now rfl).1, (hclock now rfl).2.le.trans hend, fun o' b ho' hb => ?_⟩
  rw [hfinal, ← hname, ho] at ho'
  cases ho'
  rw [hbody, r.ofBody_body] at hb
  cases hb
  rfl

end Parts

end Visits

/-! ## Visits that nothing interferes with -/

section Quiet

variable {γ τ ρ V : Type}

/-- The answers of a server that does not fail. -/
def calmly (op : Op Key Body) (s : ClusterServer) : Res Key Body op × ClusterServer :=
  Server.exec 0 op ⟨0, .none⟩ s

/-- The calls of a program after its first part. -/
def quietRest (judge : Act V) (act : V → Act ρ) (s : ClusterServer) : List ClusterCall :=
  match (judge.run.trace calmly s).2 with
  | .error _ => []
  | .ok found => ((act found).run.trace calmly (final s (judge.run.trace calmly s).1)).1

def quietVisit (seen : Object Bytes γ) (judge : Act V) (act : V → Act ρ) (s : ClusterServer) :
    Visit γ :=
  ⟨seen, (judge.run.trace calmly s).1 ++ quietRest judge act s⟩

variable {seen : Object Bytes γ} {judge : Act V} {act : V → Act ρ} {s : ClusterServer} {found : V}
  {rest : List ClusterCall}

theorem finds_quietVisit : (quietVisit seen judge act s).Finds judge found rest ↔
    (judge.run.trace calmly s).2 = .ok found ∧ rest = quietRest judge act s := by
  have hreach := reach_trace calmly judge.run s
  constructor
  · rintro ⟨before, hcalls, hbefore⟩
    obtain ⟨rfl, hfound⟩ := hreach.ret_unique hbefore ⟨quietRest judge act s, rfl⟩
      ⟨rest, hcalls.symm⟩
    exact ⟨hfound, (List.append_cancel_left hcalls).symm⟩
  · rintro ⟨hfound, rfl⟩
    rw [hfound] at hreach
    exact ⟨_, rfl, hreach⟩

/-- The calls of the visit are those of the program. -/
theorem reach_quietVisit (seen : Object Bytes γ) (judge : Act V) (act : V → Act ρ)
    (s : ClusterServer) :
    ∃ rest, Reach (judge >>= act).run (quietVisit seen judge act s).calls rest := by
  have hreach := reach_trace calmly judge.run s
  cases hfound : (judge.run.trace calmly s).2 with
  | error err =>
    rw [hfound] at hreach
    refine ⟨.ret (.error err), hreach.bind.trans ?_⟩
    rw [quietRest, hfound]
    exact .done _
  | ok found =>
    rw [hfound] at hreach
    have hrest : ((act found).run.trace calmly (final s (judge.run.trace calmly s).1)).1 =
        quietRest judge act s := by rw [quietRest, hfound]
    exact ⟨_, hreach.ok_bind.trans (hrest ▸ reach_trace calmly _ _)⟩

variable {r : Resource γ} {name : Bytes} {conditions : γ → List (Condition τ)}

theorem answered_quietVisit (seen : Object Bytes γ) (judge : Act V) (act : V → Act ρ)
    (s : ClusterServer) :
    Answered (Served r name conditions) s (quietVisit seen judge act s).calls := by
  have hserved (s : ClusterServer) (op : Op Key Body) :
      Served r name conditions s op (calmly op s).1 (calmly op s).2 :=
    ⟨s, ⟨0, .none⟩, .refl s, rfl⟩
  refine answered_append.2 ⟨answered_trace hserved _ s, ?_⟩
  unfold quietRest
  split
  · trivial
  · exact answered_trace hserved _ _

/-- The object of this name in the cluster. -/
def objectIn (r : Resource γ) (name : Bytes) (s : ClusterServer) : Option (Object Bytes γ) :=
  (s.get (r.kind, name)).bind r.ofObject

theorem get_of_objectIn (h : objectIn r name s = some seen) :
    s.get (r.kind, name) = some (r.object seen) := by
  obtain ⟨o, ho, hofObject⟩ := Option.bind_eq_some_iff.1 h
  obtain ⟨b, hb, rfl⟩ := Option.map_eq_some_iff.1 hofObject
  have hkey := Server.key_of_get ho
  have hbody := r.body_ofBody hb
  rw [ho]
  obtain ⟨key, uid, version, deleting, finalizers, body⟩ := o
  obtain rfl := hkey
  obtain rfl := hbody
  rfl

/-- The time at which the last calls, from the last on, store the object. -/
def storedAt [DecidableEq γ] (r : Resource γ) (written : Nat → Object Bytes γ) :
    List ClusterCall → Option Nat
  | ⟨.update o, _, t⟩ :: ⟨.now, (now : Nat), _⟩ :: _ =>
    if o = r.object (written now) ∧
        (t.get (r.kind, (written now).key)).map Object.body = some (r.body (written now).body) then
      some now
    else none
  | _ => none

theorem storedAt_eq_some_iff [DecidableEq γ] {written : Nat → Object Bytes γ}
    {calls : List ClusterCall} {now : Nat} :
    storedAt r written calls.reverse = some now ↔ Stores r written calls now := by
  constructor
  · intro h
    unfold storedAt at h
    split at h
    · rename_i o answer t now' s' more hcalls
      split at h
      · rename_i hwritten
        cases h
        obtain ⟨rfl, hstored⟩ := hwritten
        obtain ⟨o, ho, hbody⟩ := Option.map_eq_some_iff.1 hstored
        refine ⟨more.reverse, s', answer, t, o, ?_, ho, hbody⟩
        rw [List.reverse_eq_iff.1 hcalls]
        simp
      · cases h
    · cases h
  · rintro ⟨before, s', answer, t, o, rfl, ho, hbody⟩
    simp [storedAt, ho, hbody]

/-- The time at which one of the calls removes the Job. -/
def removalTime (job : Object Bytes Job) (calls : List ClusterCall) : Option Nat :=
  calls.findSome? fun c =>
    match c.op with
    | .delete key precondition =>
      if key = (.job, job.key) ∧ precondition = deletionOf job then some c.after.clock else none
    | _ => none

theorem removal_of_removalTime {job : Object Bytes Job} {calls : List ClusterCall} {time : Nat}
    (h : removalTime job calls = some time) :
    ∃ c ∈ calls, c.op = .delete (.job, job.key) (deletionOf job) ∧ c.after.clock = time := by
  obtain ⟨c, hc, htime⟩ := List.exists_of_findSome?_eq_some h
  refine ⟨c, hc, ?_⟩
  split at htime
  · rename_i key precondition hop
    split at htime
    · rename_i hjob
      cases htime
      exact ⟨by rw [hop, hjob.1, hjob.2], rfl⟩
    · cases htime
  · cases htime

/-! ### What happens in between -/

/-- The text of an identity in the runs below. -/
def unaryText (n : Nat) : Bytes := List.replicate n 97

theorem unaryText_injective : Function.Injective unaryText := fun m n h => by
  simpa [unaryText] using congrArg List.length h

def jobsIn (s : ClusterServer) : List (Object Bytes Job) := s.objects.filterMap jobs.ofObject

def podOf (uidText : Nat → Bytes) (job : Object Bytes Job) (status : ContainerStatus) :
    Object Bytes Pod :=
  ⟨job.key, 20, 20, false, [],
    { labels := [(.jobName, job.key), (.operationID, job.body.labels.get .operationID)]
      owners := [⟨jobKind, uidText job.uid, true⟩]
      spec := job.body.template
      created := 0
      unschedulable := false
      containerStatuses := [status]
      log := none }⟩

/-- The cluster after this many seconds, with a Pod for each Job. -/
def laterOn (uidText : Nat → Bytes) (seconds : Nat) (failed : Bool) (status : ContainerStatus)
    (s : ClusterServer) : ClusterServer :=
  { s with
    clock := seconds * 10 ^ 9
    objects := (s.objects.filter fun o => o.key.1 ≠ .job ∧ o.key.1 ≠ .pod) ++
      ((jobsIn s).map fun job =>
        jobs.object { job with body := { job.body with failed := failed } }) ++
      (jobsIn s).map fun job => pods.object (podOf uidText job status) }

/-- Jobs and Pods come and go without the object. -/
theorem others_laterOn {uidText : Nat → Bytes} {seconds : Nat} {failed : Bool}
    {status : ContainerStatus} (hjob : r.kind ≠ .job) (hpod : r.kind ≠ .pod)
    (h : s.clock ≤ seconds * 10 ^ 9) :
    Others r name conditions s (laterOn uidText seconds failed status s) := by
  have hnone {δ : Type} {r' : Resource δ} (hr : r.kind ≠ r'.kind)
      (f : Object Bytes Job → Object Bytes δ) :
      ((jobsIn s).map fun job => r'.object (f job)).find?
        (fun o => decide (o.key = (r.kind, name))) = none := by
    rw [List.find?_eq_none]
    intro o ho
    obtain ⟨job, -, rfl⟩ := List.mem_map.1 ho
    exact fun heq => hr (congrArg Prod.fst (of_decide_eq_true heq)).symm
  have hget : (laterOn uidText seconds failed status s).get (r.kind, name) =
      s.get (r.kind, name) := by
    unfold laterOn Server.get
    simp only
    rw [List.find?_append, List.find?_append, hnone hjob, hnone hpod, Option.or_none,
      Option.or_none, List.find?_filter]
    congr 1
    funext o
    by_cases ho : o.key = (r.kind, name)
    · simp [ho, hjob, hpod]
    · simp [ho]
  exact ⟨h, fun o b ho hb => .inr ⟨o, b, hget ▸ ho, hb, rfl⟩⟩

end Quiet

end Kama.Controller
