import Mathlib.Data.List.Nodup
import Kama.Foundations.Program

/-!
# A linearizable object API

The server of a declarative API: objects by key, each with an identity (`uid`) and a version that
no two writes share. An update names the version it is based on and a deletion may name the
identity and version it is meant for; both are refused when the object has changed since.

* `Server.exec` is one call; every call takes time, and it may fail before or after it had its
  effect.
* `Server.log` records the writes with the object before and after.
* `Writes` is what a call can do to the server, `Server.exec_cases` says that it does nothing else.
* `Known` is what is left of a read: whoever has seen a version of an object knows the object, as
  long as the server still has that version (`Known.eq`, `Known.of_exec`).
* `contract` is for controllers each of whose writes is justified by what was written before;
  `safe_read` and the rules for the writing calls are its triples.
-/

namespace Kama.Api

open Program

structure Object (κ β : Type) where
  key : κ
  uid : Nat
  version : Nat
  /-- a deletion is waiting for the finalizers -/
  deleting : Bool
  finalizers : List String
  body : β
  deriving DecidableEq, Repr

/-- One write: the object under the key before and after it. -/
structure Write (κ β : Type) where
  caller : Pid
  time : Nat
  key : κ
  before : Option (Object κ β)
  after : Option (Object κ β)
  deriving DecidableEq, Repr

structure Server (κ β : Type) where
  objects : List (Object κ β)
  /-- identities and versions below this one have been given -/
  next : Nat
  clock : Nat
  log : List (Write κ β)
  deriving DecidableEq, Repr

inductive ApiErr
  | notFound
  | alreadyExists
  | conflict
  /-- any other failure, such as a timeout -/
  | unavailable
  deriving DecidableEq, Repr

inductive Op (κ β : Type)
  /-- read the clock -/
  | now
  | get (key : κ)
  | list (selected : κ → Bool)
  | create (key : κ) (finalizers : List String) (body : β)
  | update (object : Object κ β)
  /-- delete, with the identity and version as a precondition where they are given -/
  | delete (key : κ) (precondition : Option (Nat × Nat))
  /-- delete, and keep the object until its dependents are gone -/
  | deleteForeground (key : κ) (precondition : Option (Nat × Nat))

/-- The type of the answer to a call. -/
def Res (κ β : Type) : Op κ β → Type
  | .now => Nat
  | .get _ => Except ApiErr (Object κ β)
  | .list _ => Except ApiErr (List (Object κ β))
  | .create _ _ _ => Except ApiErr (Object κ β)
  | .update _ => Except ApiErr (Object κ β)
  | .delete _ _ => Except ApiErr Unit
  | .deleteForeground _ _ => Except ApiErr Unit

inductive Fault
  | none
  /-- the request is refused -/
  | refused
  /-- the request is carried out and its answer is lost -/
  | lost
  deriving DecidableEq, Repr

/-- How long a call takes and how it fails. -/
structure Choice where
  elapsed : Nat
  fault : Fault
  deriving DecidableEq, Repr

variable {κ β : Type} [DecidableEq κ]

namespace Server

def get (s : Server κ β) (key : κ) : Option (Object κ β) := s.objects.find? fun o => o.key = key

/-- The objects with what is under `key` replaced. -/
def replace (s : Server κ β) (key : κ) (after : Option (Object κ β)) : List (Object κ β) :=
  after.toList ++ s.objects.filter fun o => o.key ≠ key

/-- A write takes a new version and is recorded. -/
def write (s : Server κ β) (caller : Pid) (key : κ) (after : Option (Object κ β)) : Server κ β :=
  ⟨s.replace key after, s.next + 1, s.clock, s.log ++ [⟨caller, s.clock, key, s.get key, after⟩]⟩

def create (s : Server κ β) (caller : Pid) (key : κ) (finalizers : List String) (body : β) :
    Except ApiErr (Object κ β) × Server κ β :=
  match s.get key with
  | some _ => (.error .alreadyExists, s)
  | none =>
    let o : Object κ β := ⟨key, s.next, s.next, false, finalizers, body⟩
    (.ok o, s.write caller key (some o))

/-- An update of the version that `object` was read at. What is being deleted disappears with its
last finalizer. -/
def update (s : Server κ β) (caller : Pid) (object : Object κ β) :
    Except ApiErr (Object κ β) × Server κ β :=
  match s.get object.key with
  | none => (.error .notFound, s)
  | some o =>
    if o.version ≠ object.version then (.error .conflict, s)
    else
      let o : Object κ β :=
        { o with version := s.next, finalizers := object.finalizers, body := object.body }
      if o.deleting && o.finalizers.isEmpty then (.ok o, s.write caller object.key none)
      else (.ok o, s.write caller object.key (some o))

def delete (s : Server κ β) (caller : Pid) (key : κ) (precondition : Option (Nat × Nat)) :
    Except ApiErr Unit × Server κ β :=
  match s.get key with
  | none => (.error .notFound, s)
  | some o =>
    if precondition.any fun p => decide (p ≠ (o.uid, o.version)) then (.error .conflict, s)
    else if o.finalizers.isEmpty then (.ok (), s.write caller key none)
    else if o.deleting then (.ok (), s)
    else (.ok (), s.write caller key (some { o with version := s.next, deleting := true }))

/-- The finalizer of an object that waits for its dependents. -/
def foregroundFinalizer : String := "foregroundDeletion"

def deleteForeground (s : Server κ β) (caller : Pid) (key : κ)
    (precondition : Option (Nat × Nat)) : Except ApiErr Unit × Server κ β :=
  match s.get key with
  | none => (.error .notFound, s)
  | some o =>
    if precondition.any fun p => decide (p ≠ (o.uid, o.version)) then (.error .conflict, s)
    else if o.deleting then (.ok (), s)
    else (.ok (), s.write caller key (some { o with
      version := s.next, deleting := true, finalizers := o.finalizers ++ [foregroundFinalizer] }))

/-- The effect of a call and its answer. -/
def apply (s : Server κ β) (caller : Pid) : (op : Op κ β) → Res κ β op × Server κ β
  | .now => (s.clock, s)
  | .get key => ((s.get key).elim (.error .notFound) .ok, s)
  | .list selected => (.ok (s.objects.filter fun o => selected o.key), s)
  | .create key finalizers body => s.create caller key finalizers body
  | .update object => s.update caller object
  | .delete key precondition => s.delete caller key precondition
  | .deleteForeground key precondition => s.deleteForeground caller key precondition

/-- The answer to a call that fails; reading the clock does not. -/
def failed (s : Server κ β) : (op : Op κ β) → Res κ β op
  | .now => s.clock
  | .get _ => .error .unavailable
  | .list _ => .error .unavailable
  | .create _ _ _ => .error .unavailable
  | .update _ => .error .unavailable
  | .delete _ _ => .error .unavailable
  | .deleteForeground _ _ => .error .unavailable

def exec (caller : Pid) (op : Op κ β) (choice : Choice) (s : Server κ β) :
    Res κ β op × Server κ β :=
  let s := { s with clock := s.clock + choice.elapsed }
  match choice.fault with
  | .none => s.apply caller op
  | .refused => (s.failed op, s)
  | .lost => (s.failed op, (s.apply caller op).2)

end Server

/-- The calls of controllers. A controller that stops leaves the server as it is. -/
def kernel : Kernel (Op κ β) (Res κ β) Choice (Server κ β) where
  exec caller op choice s := some (Server.exec caller op choice s)
  reap _ s := s

/-! ## What a call does -/

namespace Server

/-- The server some time later. -/
def later (s : Server κ β) (elapsed : Nat) : Server κ β := { s with clock := s.clock + elapsed }

theorem key_of_get {s : Server κ β} {key : κ} {o : Object κ β} (h : s.get key = some o) :
    o.key = key := by
  simpa using List.find?_some h

theorem get_write {s : Server κ β} {caller : Pid} {key : κ} {after : Option (Object κ β)}
    (h : ∀ o, after = some o → o.key = key) (key' : κ) :
    (s.write caller key after).get key' = if key' = key then after else s.get key' := by
  by_cases hk : key' = key
  · subst hk
    rw [if_pos rfl, write, get, replace]
    cases after with
    | none =>
      rw [Option.toList_none, List.nil_append, List.find?_eq_none]
      intro o ho
      simpa using (List.mem_filter.1 ho).2
    | some o => simp [h o rfl]
  · rw [if_neg hk, write, get, replace, List.find?_append, List.find?_filter, get]
    have hafter : after.toList.find? (fun o => decide (o.key = key')) = none := by
      refine List.find?_eq_none.2 fun o ho => ?_
      have := h o (by simpa using ho)
      simpa [this] using Ne.symm hk
    rw [hafter, Option.none_or]
    congr 1
    funext o
    by_cases ho : o.key = key' <;> simp [ho, hk]

end Server

/-- What an object has of the one before it; a new object has a new identity. -/
def Lineage : Option (Object κ β) → Object κ β → Prop
  | none, o => o.uid = o.version ∧ o.deleting = false
  | some before, o => o.uid = before.uid ∧ (before.deleting = true → o.deleting = true)

/-- The call wrote `w` and did nothing else. -/
structure Writes (caller : Pid) (s t : Server κ β) (w : Write κ β) : Prop where
  eq : t = s.write caller w.key w.after
  record : w = ⟨caller, s.clock, w.key, s.get w.key, w.after⟩
  fresh : ∀ o, w.after = some o → o.key = w.key ∧ o.version = s.next
  lineage : ∀ o, w.after = some o → Lineage w.before o
  /-- what is being deleted is there for its finalizers only -/
  live : ∀ o, w.after = some o → o.deleting = true → o.finalizers ≠ []

namespace Server

variable {s t : Server κ β} {caller : Pid} {choice : Choice}

/-- A call fails without an effect, or it has its effect and its answer may be lost. -/
theorem exec_cases {op : Op κ β} {r : Res κ β op} (h : exec caller op choice s = (r, t)) :
    (t = s.later choice.elapsed ∧ r = (s.later choice.elapsed).failed op) ∨
    (t = ((s.later choice.elapsed).apply caller op).2 ∧
      (r = ((s.later choice.elapsed).apply caller op).1 ∨
        r = (s.later choice.elapsed).failed op)) := by
  unfold exec at h
  cases hf : choice.fault with
  | none =>
    simp only [hf] at h
    exact .inr ⟨(congrArg Prod.snd h).symm, .inl (congrArg Prod.fst h).symm⟩
  | refused =>
    simp only [hf] at h
    exact .inl ⟨(congrArg Prod.snd h).symm, (congrArg Prod.fst h).symm⟩
  | lost =>
    simp only [hf] at h
    exact .inr ⟨(congrArg Prod.snd h).symm, .inr (congrArg Prod.fst h).symm⟩

theorem exec_now {r : Nat} (h : exec caller .now choice s = (r, t)) :
    t = s.later choice.elapsed ∧ r = t.clock := by
  obtain ⟨rfl, rfl⟩ | ⟨rfl, rfl | rfl⟩ := exec_cases h <;> exact ⟨rfl, rfl⟩

theorem exec_get {key : κ} {r : Except ApiErr (Object κ β)}
    (h : exec caller (.get key) choice s = (r, t)) :
    t = s.later choice.elapsed ∧ (∀ o, r = .ok o → s.get key = some o) ∧
      (r = .error .notFound → s.get key = none) := by
  obtain ⟨rfl, rfl⟩ | ⟨rfl, rfl | rfl⟩ := exec_cases h
  · exact ⟨rfl, fun o ho => (nomatch ho), fun ho => nomatch ho⟩
  · refine ⟨rfl, ?_⟩
    change (∀ o, (s.get key).elim _ _ = _ → _) ∧ ((s.get key).elim _ _ = _ → _)
    cases s.get key with
    | none => exact ⟨fun o ho => (nomatch ho), fun _ => rfl⟩
    | some o' => exact ⟨fun o ho => congrArg some (Except.ok.inj ho), fun ho => nomatch ho⟩
  · exact ⟨rfl, fun o ho => (nomatch ho), fun ho => nomatch ho⟩

theorem exec_list {selected : κ → Bool} {r : Except ApiErr (List (Object κ β))}
    (h : exec caller (.list selected) choice s = (r, t)) :
    t = s.later choice.elapsed ∧ ∀ l, r = .ok l →
      l = s.objects.filter fun o => selected o.key := by
  obtain ⟨rfl, rfl⟩ | ⟨rfl, rfl | rfl⟩ := exec_cases h
  · exact ⟨rfl, fun l hl => nomatch hl⟩
  · exact ⟨rfl, fun l hl => by cases hl; rfl⟩
  · exact ⟨rfl, fun l hl => nomatch hl⟩

/-- What is under `key` is replaced by an object of a new version. -/
theorem writes_write (s : Server κ β) (caller : Pid) {key : κ} {after : Option (Object κ β)}
    (h : ∀ o, after = some o → o.key = key ∧ o.version = s.next)
    (hlineage : ∀ o, after = some o → Lineage (s.get key) o)
    (hlive : ∀ o, after = some o → o.deleting = true → o.finalizers ≠ []) :
    Writes caller s (s.write caller key after) ⟨caller, s.clock, key, s.get key, after⟩ :=
  ⟨rfl, rfl, h, hlineage, hlive⟩

theorem create_cases (s : Server κ β) (caller : Pid) (key : κ) (finalizers : List String)
    (body : β) :
    ((∃ err, (s.create caller key finalizers body).1 = .error err) ∧
      (s.create caller key finalizers body).2 = s) ∨
    ∃ w, (s.create caller key finalizers body).1 =
        .ok ⟨key, s.next, s.next, false, finalizers, body⟩ ∧
      Writes caller s (s.create caller key finalizers body).2 w ∧ w.key = key ∧
      w.before = none ∧ w.after = some ⟨key, s.next, s.next, false, finalizers, body⟩ := by
  unfold create
  cases hget : s.get key with
  | some o => exact .inl ⟨⟨_, rfl⟩, rfl⟩
  | none =>
    refine .inr ⟨_, rfl, s.writes_write caller ?_ ?_ ?_, rfl, hget, rfl⟩
    · rintro o ⟨⟩
      exact ⟨rfl, rfl⟩
    · rintro o ⟨⟩
      rw [hget]
      exact ⟨rfl, rfl⟩
    · rintro o ⟨⟩ hdeleting
      cases hdeleting

theorem update_cases (s : Server κ β) (caller : Pid) (object : Object κ β) :
    ((∃ err, (s.update caller object).1 = .error err) ∧ (s.update caller object).2 = s) ∨
    ∃ w o, (s.update caller object).1 = .ok { o with
          version := s.next, finalizers := object.finalizers, body := object.body } ∧
      Writes caller s (s.update caller object).2 w ∧ w.key = object.key ∧ w.before = some o ∧
      o.version = object.version ∧
      (w.after = none ∧ o.deleting = true ∧ object.finalizers = [] ∨
        w.after = some { o with
          version := s.next, finalizers := object.finalizers, body := object.body }) := by
  unfold update
  cases hget : s.get object.key with
  | none => exact .inl ⟨⟨_, rfl⟩, rfl⟩
  | some o =>
    simp only
    split
    case isTrue => exact .inl ⟨⟨_, rfl⟩, rfl⟩
    case isFalse hversion =>
      refine .inr ?_
      split
      case isTrue hgone =>
        simp only [Bool.and_eq_true, List.isEmpty_iff] at hgone
        refine ⟨_, o, rfl, s.writes_write caller ?_ ?_ ?_, rfl, hget, not_not.1 hversion,
          .inl ⟨rfl, hgone⟩⟩ <;> rintro o ⟨⟩
      case isFalse hlive =>
        have hkey := key_of_get hget
        refine ⟨_, o, rfl, s.writes_write caller ?_ ?_ ?_, rfl, hget, not_not.1 hversion,
          .inr rfl⟩
        · rintro _ ⟨⟩
          exact ⟨hkey, rfl⟩
        · rintro _ ⟨⟩
          rw [hget]
          exact ⟨rfl, id⟩
        · rintro _ ⟨⟩ hdeleting hfinalizers
          exact hlive (by simp_all)

theorem delete_cases (s : Server κ β) (caller : Pid) (key : κ)
    (precondition : Option (Nat × Nat)) :
    (s.delete caller key precondition).2 = s ∨
    ∃ w o, (s.delete caller key precondition).1 = .ok () ∧
      Writes caller s (s.delete caller key precondition).2 w ∧ w.key = key ∧
      w.before = some o ∧ (∀ p, precondition = some p → p = (o.uid, o.version)) ∧
      (w.after = none ∧ o.finalizers = [] ∨
        w.after = some { o with version := s.next, deleting := true } ∧ o.finalizers ≠ []) := by
  unfold delete
  cases hget : s.get key with
  | none => exact .inl rfl
  | some o =>
    simp only
    split
    case isTrue => exact .inl rfl
    case isFalse hpre =>
      have hpre : ∀ p, precondition = some p → p = (o.uid, o.version) := by
        rintro p rfl
        simpa using hpre
      split
      case isTrue hfin =>
        refine .inr ⟨_, o, rfl, s.writes_write caller ?_ ?_ ?_, rfl, hget, hpre,
          .inl ⟨rfl, List.isEmpty_iff.1 hfin⟩⟩ <;> rintro o ⟨⟩
      case isFalse hfin =>
        split
        case isTrue => exact .inl rfl
        case isFalse =>
          have hkey := key_of_get hget
          have hfin : o.finalizers ≠ [] := by simpa using hfin
          refine .inr ⟨_, o, rfl, s.writes_write caller ?_ ?_ ?_, rfl, hget, hpre,
            .inr ⟨rfl, hfin⟩⟩
          · rintro _ ⟨⟩
            exact ⟨hkey, rfl⟩
          · rintro _ ⟨⟩
            rw [hget]
            exact ⟨rfl, fun _ => rfl⟩
          · rintro _ ⟨⟩ -
            exact hfin

theorem deleteForeground_cases (s : Server κ β) (caller : Pid) (key : κ)
    (precondition : Option (Nat × Nat)) :
    (s.deleteForeground caller key precondition).2 = s ∨
    ∃ w o, (s.deleteForeground caller key precondition).1 = .ok () ∧
      Writes caller s (s.deleteForeground caller key precondition).2 w ∧ w.key = key ∧
      w.before = some o ∧ (∀ p, precondition = some p → p = (o.uid, o.version)) ∧
      w.after = some { o with version := s.next, deleting := true,
                              finalizers := o.finalizers ++ [foregroundFinalizer] } := by
  unfold deleteForeground
  cases hget : s.get key with
  | none => exact .inl rfl
  | some o =>
    simp only
    split
    case isTrue => exact .inl rfl
    case isFalse hpre =>
      have hpre : ∀ p, precondition = some p → p = (o.uid, o.version) := by
        rintro p rfl
        simpa using hpre
      split
      case isTrue => exact .inl rfl
      case isFalse =>
        have hkey := key_of_get hget
        refine .inr ⟨_, o, rfl, s.writes_write caller ?_ ?_ ?_, rfl, hget, hpre, rfl⟩
        · rintro _ ⟨⟩
          exact ⟨hkey, rfl⟩
        · rintro _ ⟨⟩
          rw [hget]
          exact ⟨rfl, fun _ => rfl⟩
        · rintro _ ⟨⟩ -
          simp

theorem exec_create {key : κ} {finalizers : List String} {body : β}
    {r : Except ApiErr (Object κ β)}
    (h : exec caller (.create key finalizers body) choice s = (r, t)) :
    (t = s.later choice.elapsed ∧ ∃ err, r = .error err) ∨
    ∃ w, (r = .ok ⟨key, s.next, s.next, false, finalizers, body⟩ ∨ r = .error .unavailable) ∧
      Writes caller (s.later choice.elapsed) t w ∧ w.key = key ∧ w.before = none ∧
      w.after = some ⟨key, s.next, s.next, false, finalizers, body⟩ := by
  obtain ⟨rfl, rfl⟩ | ⟨rfl, hr⟩ := exec_cases h
  · exact .inl ⟨rfl, _, rfl⟩
  · refine (create_cases (s.later choice.elapsed) caller key finalizers body).imp ?_ ?_
    · rintro ⟨⟨err, herr⟩, heq⟩
      refine ⟨heq, ?_⟩
      rcases hr with rfl | rfl
      · exact ⟨err, herr⟩
      · exact ⟨_, rfl⟩
    · rintro ⟨w, ho, hw⟩
      refine ⟨w, ?_, hw⟩
      rcases hr with rfl | rfl
      · exact .inl ho
      · exact .inr rfl

theorem exec_update {object : Object κ β} {r : Except ApiErr (Object κ β)}
    (h : exec caller (.update object) choice s = (r, t)) :
    (t = s.later choice.elapsed ∧ ∃ err, r = .error err) ∨
    ∃ w o, (r = .ok { o with
          version := s.next, finalizers := object.finalizers, body := object.body } ∨
        r = .error .unavailable) ∧
      Writes caller (s.later choice.elapsed) t w ∧ w.key = object.key ∧
      w.before = some o ∧ o.version = object.version ∧
      (w.after = none ∧ o.deleting = true ∧ object.finalizers = [] ∨
        w.after = some { o with
          version := s.next, finalizers := object.finalizers, body := object.body }) := by
  obtain ⟨rfl, rfl⟩ | ⟨rfl, hr⟩ := exec_cases h
  · exact .inl ⟨rfl, _, rfl⟩
  · refine (update_cases (s.later choice.elapsed) caller object).imp ?_ ?_
    · rintro ⟨⟨err, herr⟩, heq⟩
      refine ⟨heq, ?_⟩
      rcases hr with rfl | rfl
      · exact ⟨err, herr⟩
      · exact ⟨_, rfl⟩
    · rintro ⟨w, o, ho, hw⟩
      refine ⟨w, o, ?_, hw⟩
      rcases hr with rfl | rfl
      · exact .inl ho
      · exact .inr rfl

theorem exec_delete {key : κ} {precondition : Option (Nat × Nat)} {r : Except ApiErr Unit}
    (h : exec caller (.delete key precondition) choice s = (r, t)) :
    t = s.later choice.elapsed ∨
    ∃ w o, (r = .ok () ∨ r = .error .unavailable) ∧
      Writes caller (s.later choice.elapsed) t w ∧ w.key = key ∧ w.before = some o ∧
      (∀ p, precondition = some p → p = (o.uid, o.version)) ∧
      (w.after = none ∧ o.finalizers = [] ∨
        w.after = some { o with version := s.next, deleting := true } ∧ o.finalizers ≠ []) := by
  obtain ⟨rfl, -⟩ | ⟨rfl, hr⟩ := exec_cases h
  · exact .inl rfl
  · refine (delete_cases (s.later choice.elapsed) caller key precondition).imp id ?_
    rintro ⟨w, o, ho, hw⟩
    refine ⟨w, o, ?_, hw⟩
    rcases hr with rfl | rfl
    · exact .inl ho
    · exact .inr rfl

theorem exec_deleteForeground {key : κ} {precondition : Option (Nat × Nat)}
    {r : Except ApiErr Unit}
    (h : exec caller (.deleteForeground key precondition) choice s = (r, t)) :
    t = s.later choice.elapsed ∨
    ∃ w o, (r = .ok () ∨ r = .error .unavailable) ∧
      Writes caller (s.later choice.elapsed) t w ∧ w.key = key ∧ w.before = some o ∧
      (∀ p, precondition = some p → p = (o.uid, o.version)) ∧
      w.after = some { o with version := s.next, deleting := true,
                              finalizers := o.finalizers ++ [foregroundFinalizer] } := by
  obtain ⟨rfl, -⟩ | ⟨rfl, hr⟩ := exec_cases h
  · exact .inl rfl
  · refine (deleteForeground_cases (s.later choice.elapsed) caller key precondition).imp id ?_
    rintro ⟨w, o, ho, hw⟩
    refine ⟨w, o, ?_, hw⟩
    rcases hr with rfl | rfl
    · exact .inl ho
    · exact .inr rfl

/-- A call lets time pass, and writes at most once. -/
theorem exec_writes {op : Op κ β} {r : Res κ β op} (h : exec caller op choice s = (r, t)) :
    t = s.later choice.elapsed ∨ ∃ w, Writes caller (s.later choice.elapsed) t w := by
  cases op with
  | now => exact .inl (exec_now h).1
  | get key => exact .inl (exec_get h).1
  | list selected => exact .inl (exec_list h).1
  | create key finalizers body =>
    exact (exec_create h).imp And.left fun ⟨w, _, hw, _⟩ => ⟨w, hw⟩
  | update object => exact (exec_update h).imp And.left fun ⟨w, _, _, hw, _⟩ => ⟨w, hw⟩
  | delete key precondition => exact (exec_delete h).imp id fun ⟨w, _, _, hw, _⟩ => ⟨w, hw⟩
  | deleteForeground key precondition =>
    exact (exec_deleteForeground h).imp id fun ⟨w, _, _, hw, _⟩ => ⟨w, hw⟩

end Server

/-! ## What is known of an object that has been read -/

/-- `o` is or was an object of the server: its version has been given, and to no other object. -/
def Known (s : Server κ β) (o : Object κ β) : Prop :=
  o.version < s.next ∧ ∀ key o', s.get key = some o' → o'.version = o.version → o' = o

/-- The objects have different keys and versions that were given to them. -/
structure Server.Wf (s : Server κ β) : Prop where
  nodup : (s.objects.map Object.key).Nodup
  known : ∀ key o, s.get key = some o → Known s o
  live : ∀ key o, s.get key = some o → o.deleting = true → o.finalizers ≠ []

variable {s t : Server κ β} {caller : Pid} {w : Write κ β} {o : Object κ β}

theorem Writes.get (h : Writes caller s t w) (key : κ) :
    t.get key = if key = w.key then w.after else s.get key := by
  rw [h.eq]
  exact Server.get_write (fun o ho => (h.fresh o ho).1) key

theorem Writes.next (h : Writes caller s t w) : t.next = s.next + 1 := by
  rw [h.eq]
  rfl

theorem Writes.log (h : Writes caller s t w) : t.log = s.log ++ [w] := by
  rw [h.eq, h.record]
  rfl

theorem Writes.clock (h : Writes caller s t w) : t.clock = s.clock := by
  rw [h.eq]
  rfl

theorem Writes.before (h : Writes caller s t w) : w.before = s.get w.key := by
  rw [h.record]

theorem Writes.time (h : Writes caller s t w) : w.time = s.clock := by
  rw [h.record]

theorem Writes.caller_eq (h : Writes caller s t w) : w.caller = caller := by
  rw [h.record]

theorem Known.of_writes (hk : Known s o) (h : Writes caller s t w) : Known t o := by
  refine ⟨by rw [h.next]; exact Nat.lt_succ_of_lt hk.1, fun key o' ho' hversion => ?_⟩
  rw [h.get] at ho'
  split at ho'
  · -- the object that is written has a version of its own
    have := (h.fresh o' ho').2
    have := hk.1
    omega
  · exact hk.2 key o' ho' hversion

theorem Server.Wf.of_writes (hwf : s.Wf) (h : Writes caller s t w) : t.Wf := by
  refine ⟨?_, fun key o ho => ?_, fun key o ho => ?_⟩
  · rw [h.eq, Server.write, Server.replace, List.map_append, List.nodup_append]
    refine ⟨?_, hwf.nodup.sublist (List.filter_sublist.map _), ?_⟩
    · cases w.after <;> simp
    · rintro key hkey key' hkey' rfl
      obtain ⟨o, ho, rfl⟩ := List.mem_map.1 hkey
      obtain ⟨o', ho', heq⟩ := List.mem_map.1 hkey'
      have hne : o'.key ≠ w.key := by simpa using (List.mem_filter.1 ho').2
      exact hne (heq.trans (h.fresh o (by simpa using ho)).1)
  · rw [h.get] at ho
    split at ho
    · refine ⟨?_, fun key' o' ho' hversion => ?_⟩
      · rw [(h.fresh o ho).2, h.next]
        exact Nat.lt_succ_self _
      · rw [h.get] at ho'
        split at ho'
        · exact Option.some.inj (ho'.symm.trans ho)
        · have := (hwf.known key' o' ho').1
          have := (h.fresh o ho).2
          omega
    · exact (hwf.known key o ho).of_writes h
  · rw [h.get] at ho
    split at ho
    · exact h.live o ho
    · exact hwf.live key o ho

theorem Server.Wf.get_of_mem (hwf : s.Wf) (h : o ∈ s.objects) : s.get o.key = some o := by
  cases hget : s.get o.key with
  | none =>
    have := List.find?_eq_none.1 hget o h
    simp at this
  | some o' =>
    have hmem := List.mem_of_find?_eq_some hget
    rw [List.inj_on_of_nodup_map hwf.nodup hmem h (Server.key_of_get hget)]

/-- Whoever has read a version of an object knows the object that has it. -/
theorem Known.eq {key : κ} {o' : Object κ β} (hk : Known s o) (h : s.get key = some o')
    (hversion : o'.version = o.version) : o' = o := hk.2 key o' h hversion

theorem Known.of_exec {op : Op κ β} {choice : Choice} {r : Res κ β op} (hk : Known s o)
    (h : Server.exec caller op choice s = (r, t)) : Known t o := by
  obtain rfl | ⟨w, hw⟩ := Server.exec_writes h
  · exact hk
  · exact Known.of_writes (s := s.later choice.elapsed) hk hw

theorem Server.Wf.of_exec {op : Op κ β} {choice : Choice} {r : Res κ β op} (hwf : s.Wf)
    (h : Server.exec caller op choice s = (r, t)) : t.Wf := by
  have hlater : (s.later choice.elapsed).Wf := ⟨hwf.nodup, hwf.known, hwf.live⟩
  obtain rfl | ⟨w, hw⟩ := Server.exec_writes h
  · exact hlater
  · exact hlater.of_writes hw

/-- Where the body of an object comes from: it was there, or the call brought it. -/
theorem Server.exec_body {op : Op κ β} {choice : Choice} {r : Res κ β op} {key : κ}
    (h : Server.exec caller op choice s = (r, t)) (ho : t.get key = some o) :
    (∃ o', s.get key = some o' ∧ o'.body = o.body) ∨
      (∃ finalizers, op = .create key finalizers o.body) ∨
      ∃ object, op = .update object ∧ object.key = key ∧ object.body = o.body := by
  -- a write under another key leaves the object as it was
  have helse : ∀ {w : Write κ β}, Writes caller (s.later choice.elapsed) t w → w.key ≠ key →
      ∃ o', s.get key = some o' ∧ o'.body = o.body := by
    intro w hw hne
    rw [hw.get, if_neg fun heq => hne heq.symm] at ho
    exact ⟨o, ho, rfl⟩
  cases op with
  | now => exact .inl ⟨o, by rw [(Server.exec_now h).1] at ho; exact ho, rfl⟩
  | get _ => exact .inl ⟨o, by rw [(Server.exec_get h).1] at ho; exact ho, rfl⟩
  | list _ => exact .inl ⟨o, by rw [(Server.exec_list h).1] at ho; exact ho, rfl⟩
  | create key' finalizers body =>
    obtain ⟨rfl, -⟩ | ⟨w, -, hw, rfl, -, hafter⟩ := Server.exec_create h
    · exact .inl ⟨o, ho, rfl⟩
    · by_cases hkey : w.key = key
      · rw [hw.get, if_pos hkey.symm, hafter] at ho
        cases ho
        exact .inr (.inl ⟨finalizers, by rw [hkey]⟩)
      · exact .inl (helse hw hkey)
  | update object =>
    obtain ⟨rfl, -⟩ | ⟨w, o', -, hw, hwkey, -, -, hafter⟩ := Server.exec_update h
    · exact .inl ⟨o, ho, rfl⟩
    · by_cases hkey : w.key = key
      · rw [hw.get, if_pos hkey.symm] at ho
        obtain ⟨hnone, -, -⟩ | hsome := hafter
        · rw [hnone] at ho
          cases ho
        · rw [hsome] at ho
          cases ho
          exact .inr (.inr ⟨object, rfl, hwkey.symm.trans hkey, rfl⟩)
      · exact .inl (helse hw hkey)
  | delete _ _ =>
    obtain rfl | ⟨w, o', -, hw, -, hbefore, -, hafter⟩ := Server.exec_delete h
    · exact .inl ⟨o, ho, rfl⟩
    · by_cases hkey : w.key = key
      · rw [hw.get, if_pos hkey.symm] at ho
        rw [hw.before, hkey] at hbefore
        obtain ⟨hnone, -⟩ | ⟨hsome, -⟩ := hafter
        · rw [hnone] at ho
          cases ho
        · rw [hsome] at ho
          cases ho
          exact .inl ⟨o', hbefore, rfl⟩
      · exact .inl (helse hw hkey)
  | deleteForeground _ _ =>
    obtain rfl | ⟨w, o', -, hw, -, hbefore, -, hafter⟩ := Server.exec_deleteForeground h
    · exact .inl ⟨o, ho, rfl⟩
    · by_cases hkey : w.key = key
      · rw [hw.get, if_pos hkey.symm, hafter] at ho
        rw [hw.before, hkey] at hbefore
        cases ho
        exact .inl ⟨o', hbefore, rfl⟩
      · exact .inl (helse hw hkey)

theorem Server.clock_le_exec {op : Op κ β} {choice : Choice} {r : Res κ β op}
    (h : Server.exec caller op choice s = (r, t)) : s.clock ≤ t.clock := by
  obtain rfl | ⟨w, hw⟩ := Server.exec_writes h
  · exact Nat.le_add_right _ _
  · rw [hw.clock]
    exact Nat.le_add_right _ _

/-! ## The record of the writes -/

/-- What is under a key after some writes. -/
def replay (initial : κ → Option (Object κ β)) (log : List (Write κ β)) (key : κ) :
    Option (Object κ β) :=
  log.foldl (fun current w => if w.key = key then w.after else current) (initial key)

theorem replay_concat (initial : κ → Option (Object κ β)) (log : List (Write κ β)) (w : Write κ β)
    (key : κ) : replay initial (log ++ [w]) key =
      if w.key = key then w.after else replay initial log key := by
  simp [replay]

/-- The log of a server is its history since `initial`. -/
structure Logged (initial : κ → Option (Object κ β)) (s : Server κ β) : Prop where
  current : ∀ key, s.get key = replay initial s.log key
  before : ∀ {l w l'}, s.log = l ++ w :: l' → w.before = replay initial l w.key
  sorted : s.log.Pairwise fun w w' => w.time ≤ w'.time
  past : ∀ w ∈ s.log, w.time ≤ s.clock

variable {initial : κ → Option (Object κ β)}

theorem Logged.later (h : Logged initial s) (elapsed : Nat) : Logged initial (s.later elapsed) :=
  ⟨h.current, h.before, h.sorted, fun w hw => Nat.le_add_right_of_le (h.past w hw)⟩

/-- An element of a list that has grown by one is the last one or was there before. -/
theorem concat_split {α : Type} {log l l' : List α} {a b : α} (h : log ++ [a] = l ++ b :: l') :
    (l = log ∧ b = a) ∨ ∃ l'', log = l ++ b :: l'' := by
  rcases List.eq_nil_or_concat l' with rfl | ⟨l'', c, rfl⟩
  · obtain ⟨rfl, hb⟩ := List.append_inj' h rfl
    exact .inl ⟨rfl, (List.head_eq_of_cons_eq hb).symm⟩
  · rw [List.concat_eq_append, ← List.cons_append, ← List.append_assoc] at h
    exact .inr ⟨l'', (List.append_inj' h rfl).1⟩

theorem Logged.of_writes (hl : Logged initial s) (h : Writes caller s t w) : Logged initial t := by
  refine ⟨fun key => ?_, fun {l w' l'} hsplit => ?_, ?_, ?_⟩
  · rw [h.get, h.log, replay_concat, hl.current]
    simp only [eq_comm]
  · rw [h.log] at hsplit
    obtain ⟨rfl, rfl⟩ | ⟨l'', hlog⟩ := concat_split hsplit
    · rw [h.before, hl.current]
    · exact hl.before hlog
  · rw [h.log, List.pairwise_append]
    refine ⟨hl.sorted, List.pairwise_singleton _ _, fun w' hw' w'' hw'' => ?_⟩
    obtain rfl := List.mem_singleton.1 hw''
    rw [h.time]
    exact hl.past w' hw'
  · rw [h.log, h.clock]
    intro w' hw'
    rcases List.mem_append.1 hw' with hw' | hw'
    · exact hl.past w' hw'
    · obtain rfl := List.mem_singleton.1 hw'
      exact Nat.le_of_eq h.time

theorem Logged.of_exec {op : Op κ β} {choice : Choice} {r : Res κ β op} (hl : Logged initial s)
    (h : Server.exec caller op choice s = (r, t)) : Logged initial t := by
  obtain rfl | ⟨w, hw⟩ := Server.exec_writes h
  · exact hl.later choice.elapsed
  · exact (hl.later choice.elapsed).of_writes hw

/-! ## Controllers that account for their writes -/

/-- Every write is justified by the writes before it. -/
def Accounted (J : List (Write κ β) → Write κ β → Prop) (s : Server κ β) : Prop :=
  ∀ ⦃l w l'⦄, s.log = l ++ w :: l' → J l w

variable {J : List (Write κ β) → Write κ β → Prop}

theorem Accounted.of_writes (ha : Accounted J s) (h : Writes caller s t w) (hJ : J s.log w) :
    Accounted J t := by
  intro l w' l' hsplit
  rw [h.log] at hsplit
  obtain ⟨rfl, rfl⟩ | ⟨l'', hlog⟩ := concat_split hsplit
  · exact hJ
  · exact ha hlog

/-- What the other controllers leave alone: what is known stays known, time passes, and the log
grows by writes of the others. -/
structure Interferes (mine : Write κ β → Prop) (s t : Server κ β) : Prop where
  known : ∀ o, Known s o → Known t o
  clock : s.clock ≤ t.clock
  log : s.log <+: t.log
  mine : ∀ w ∈ t.log, mine w → w ∈ s.log

/-- What every call keeps, whoever makes it. -/
class Steady (Inv : Server κ β → Prop) : Prop where
  of_exec : ∀ {caller op choice} {s t : Server κ β} {r : Res κ β op}, Inv s →
    Server.exec caller op choice s = (r, t) → Inv t

instance : Steady (Logged initial) := ⟨Logged.of_exec⟩

/-- What holds between the calls of controllers that account for their writes. -/
structure Holds (Inv : Server κ β → Prop) (J : List (Write κ β) → Write κ β → Prop)
    (s : Server κ β) : Prop where
  wf : s.Wf
  inv : Inv s
  accounted : Accounted J s

/-- The contract of a controller process, over an invariant that every call keeps. -/
def tracked (Inv : Server κ β → Prop) (J : List (Write κ β) → Write κ β → Prop) (i : Pid) :
    Contract (Op κ β) (Server κ β) where
  inv := Holds Inv J
  rely _ := Interferes fun w => w.caller = i
  guar s _ t := Interferes (fun w => w.caller ≠ i) s t
  rely_refl _ _ := ⟨fun _ h => h, Nat.le_refl _, List.prefix_refl _, fun _ h _ => h⟩
  rely_trans h h' := ⟨fun o ho => h'.known o (h.known o ho), Nat.le_trans h.clock h'.clock,
    h.log.trans h'.log, fun w hw hm => h.mine w (h'.mine w hw hm) hm⟩

variable (initial) (J) in
/-- The contract of a controller process on a server with a past. -/
def contract (i : Pid) : Contract (Op κ β) (Server κ β) := tracked (Logged initial) J i

theorem compatible {Inv : Server κ β → Prop} : Compatible kernel (Holds Inv J) (tracked Inv J)
    fun _ _ _ => True where
  inv_eq _ := rfl
  guar_rely hij _ h _ := ⟨h.known, h.clock, h.log, fun w hw hw' =>
    h.mine w hw fun hw'' => hij (hw''.symm.trans hw')⟩
  reap_inv h := h
  reap_rely {_ j _ _} _ _ := (tracked Inv J j).rely_refl _ _

theorem interferes_of_exec {op : Op κ β} {choice : Choice} {r : Res κ β op}
    (h : Server.exec caller op choice s = (r, t)) :
    Interferes (fun w => w.caller ≠ caller) s t := by
  refine ⟨fun o ho => ho.of_exec h, ?_, ?_, ?_⟩
  all_goals obtain rfl | ⟨w, hw⟩ := Server.exec_writes h
  · exact Nat.le_add_right _ _
  · rw [hw.clock]
    exact Nat.le_add_right _ _
  · exact List.prefix_refl _
  · rw [hw.log]
    exact List.prefix_append _ _
  · exact fun w hw _ => hw
  · intro w' hw' hcaller
    rw [hw.log] at hw'
    rcases List.mem_append.1 hw' with hw' | hw'
    · exact hw'
    · obtain rfl := List.mem_singleton.1 hw'
      exact absurd hw.caller_eq hcaller

theorem Holds.later {Inv : Server κ β → Prop} [hInv : Steady Inv] (h : Holds Inv J s)
    (elapsed : Nat) : Holds Inv J (s.later elapsed) :=
  ⟨⟨h.wf.nodup, h.wf.known, h.wf.live⟩,
    @Steady.of_exec _ _ _ _ hInv 0 .now ⟨elapsed, .none⟩ _ _ _ h.inv rfl, h.accounted⟩

theorem Writes.eq_of_writes {w' : Write κ β} (h : Writes caller s t w) (h' : Writes caller s t w') :
    w = w' := by
  simpa using h.log.symm.trans h'.log

theorem Interferes.trans {mine : Write κ β → Prop} {u : Server κ β} (h : Interferes mine s t)
    (h' : Interferes mine t u) : Interferes mine s u :=
  ⟨fun o ho => h'.known o (h.known o ho), Nat.le_trans h.clock h'.clock, h.log.trans h'.log,
    fun w hw hm => h.mine w (h'.mine w hw hm) hm⟩

theorem Interferes.later {mine : Write κ β → Prop} (h : Interferes mine s t) (elapsed : Nat) :
    Interferes mine s (t.later elapsed) :=
  ⟨h.known, Nat.le_add_right_of_le h.clock, h.log, h.mine⟩

theorem Writes.ne (h : Writes caller s t w) : t ≠ s := by
  rintro rfl
  have := congrArg List.length h.log
  rw [List.length_append] at this
  exact absurd this (Nat.ne_of_lt (Nat.lt_succ_self _))

section Triples

variable {δ : Type} {i : Pid} {E : δ → Server κ β → Prop} {Inv : Server κ β → Prop} [Steady Inv]

/-- The triple of one call: its write, if there is one, has to be justified. -/
theorem safe_call {op : Op κ β} {Q : Res κ β op → Server κ β → Prop}
    (h : ∀ u, Interferes (fun w => w.caller = i) s u → Holds Inv J u → ∀ choice r t,
      Server.exec i op choice u = (r, t) →
      (∀ w, Writes i (u.later choice.elapsed) t w → J u.log w) ∧ (Holds Inv J t → Q r t)) :
    SafeEx kernel i (tracked Inv J i) (ExceptT.lift (Prog.perform op)) Q E s := by
  refine SafeEx.lift fun u hu hholds choice r t hexec => ?_
  have hexec := Option.some.inj hexec
  obtain ⟨hJ, hQ⟩ := h u hu hholds choice r t hexec
  have ht : Holds Inv J t := by
    refine ⟨hholds.wf.of_exec hexec, Steady.of_exec hholds.inv hexec, ?_⟩
    obtain rfl | ⟨w, hw⟩ := Server.exec_writes hexec
    · exact hholds.accounted
    · exact Accounted.of_writes (s := u.later choice.elapsed) hholds.accounted hw (hJ w hw)
  exact ⟨ht, interferes_of_exec hexec, hQ ht⟩

theorem safe_now {Q : Nat → Server κ β → Prop}
    (h : ∀ t, Interferes (fun w => w.caller = i) s t → Q t.clock t) :
    SafeEx kernel i (tracked Inv J i) (ExceptT.lift (Prog.perform (Op.now (β := β)))) Q E s := by
  refine safe_call fun u hu _ choice r t hexec => ?_
  obtain ⟨rfl, rfl⟩ := Server.exec_now hexec
  exact ⟨fun w hw => absurd rfl hw.ne, fun _ => h _ (hu.later _)⟩

/-- A read of one object: what it is, or that there is none. -/
theorem safe_read {key : κ} {Q : Except ApiErr (Object κ β) → Server κ β → Prop}
    (h : ∀ r t, Interferes (fun w => w.caller = i) s t → Holds Inv J t →
      (∀ o, r = .ok o → t.get key = some o) → (r = .error .notFound → t.get key = none) → Q r t) :
    SafeEx kernel i (tracked Inv J i) (ExceptT.lift (Prog.perform (Op.get key))) Q E s := by
  refine safe_call fun u hu _ choice r t hexec => ?_
  obtain ⟨rfl, hget, hnone⟩ := Server.exec_get hexec
  exact ⟨fun w hw => absurd rfl hw.ne, fun ht => h r _ (hu.later _) ht hget hnone⟩

theorem safe_get {key : κ} {Q : Except ApiErr (Object κ β) → Server κ β → Prop}
    (h : ∀ r t, Interferes (fun w => w.caller = i) s t →
      (∀ o, r = .ok o → t.get key = some o ∧ Known t o) → Q r t) :
    SafeEx kernel i (tracked Inv J i) (ExceptT.lift (Prog.perform (Op.get key))) Q E s :=
  safe_read fun r t ht hholds hget _ =>
    h r t ht fun o ho => ⟨hget o ho, hholds.wf.known key o (hget o ho)⟩

/-- A read of all objects with some keys. -/
theorem safe_readAll {selected : κ → Bool}
    {Q : Except ApiErr (List (Object κ β)) → Server κ β → Prop}
    (h : ∀ r t, Interferes (fun w => w.caller = i) s t → Holds Inv J t →
      (∀ l, r = .ok l → ∀ o, o ∈ l ↔ selected o.key = true ∧ t.get o.key = some o) → Q r t) :
    SafeEx kernel i (tracked Inv J i) (ExceptT.lift (Prog.perform (Op.list selected))) Q E s := by
  refine safe_call fun u hu hholds choice r t hexec => ?_
  obtain ⟨rfl, hlist⟩ := Server.exec_list hexec
  refine ⟨fun w hw => absurd rfl hw.ne, fun ht => h r _ (hu.later _) ht fun l hl o => ?_⟩
  rw [hlist l hl, List.mem_filter]
  constructor
  · rintro ⟨hmem, hselected⟩
    exact ⟨hselected, hholds.wf.get_of_mem hmem⟩
  · rintro ⟨hselected, hget⟩
    exact ⟨List.mem_of_find?_eq_some hget, hselected⟩

theorem safe_list {selected : κ → Bool} {Q : Except ApiErr (List (Object κ β)) → Server κ β → Prop}
    (h : ∀ r t, Interferes (fun w => w.caller = i) s t →
      (∀ l, r = .ok l → ∀ o, o ∈ l ↔ selected o.key = true ∧ t.get o.key = some o) → t.Wf →
      Q r t) :
    SafeEx kernel i (tracked Inv J i) (ExceptT.lift (Prog.perform (Op.list selected))) Q E s :=
  safe_readAll fun r t ht hholds hlist => h r t ht hlist hholds.wf

theorem safe_create {key : κ} {finalizers : List String} {body : β}
    {Q : Except ApiErr (Object κ β) → Server κ β → Prop}
    (hfail : ∀ err t, Interferes (fun w => w.caller = i) s t → Q (.error err) t)
    (hwrite : ∀ u t w r, Interferes (fun w => w.caller = i) s u → Holds Inv J u →
      (r = .ok ⟨key, u.next, u.next, false, finalizers, body⟩ ∨ r = .error .unavailable) →
      Writes i u t w → w.key = key → w.before = none →
      w.after = some ⟨key, u.next, u.next, false, finalizers, body⟩ →
      J u.log w ∧ (Holds Inv J t → Q r t)) :
    SafeEx kernel i (tracked Inv J i)
      (ExceptT.lift (Prog.perform (Op.create key finalizers body))) Q E s := by
  refine safe_call fun u hu hholds choice r t hexec => ?_
  obtain ⟨rfl, err, rfl⟩ | ⟨w, hr, hw, hkey, hbefore, hafter⟩ := Server.exec_create hexec
  · exact ⟨fun w hw => absurd rfl hw.ne, fun _ => hfail err _ (hu.later _)⟩
  · obtain ⟨hJ, hQ⟩ := hwrite _ t w r (hu.later _) (hholds.later _) hr hw hkey hbefore hafter
    exact ⟨fun w' hw' => hw'.eq_of_writes hw ▸ hJ, hQ⟩

theorem safe_update {object : Object κ β} {Q : Except ApiErr (Object κ β) → Server κ β → Prop}
    (hfail : ∀ err t, Interferes (fun w => w.caller = i) s t → Q (.error err) t)
    (hwrite : ∀ u t w o r, Interferes (fun w => w.caller = i) s u → Holds Inv J u →
      (r = .ok { o with version := u.next, finalizers := object.finalizers, body := object.body } ∨
        r = .error .unavailable) → Writes i u t w → w.key = object.key →
      w.before = some o → o.version = object.version →
      (w.after = none ∧ o.deleting = true ∧ object.finalizers = [] ∨
        w.after = some { o with
          version := u.next, finalizers := object.finalizers, body := object.body }) →
      J u.log w ∧ (Holds Inv J t → Q r t)) :
    SafeEx kernel i (tracked Inv J i) (ExceptT.lift (Prog.perform (Op.update object))) Q E
      s := by
  refine safe_call fun u hu hholds choice r t hexec => ?_
  obtain ⟨rfl, err, rfl⟩ | ⟨w, o, hr, hw, hkey, hbefore, hversion, hafter⟩ :=
    Server.exec_update hexec
  · exact ⟨fun w hw => absurd rfl hw.ne, fun _ => hfail err _ (hu.later _)⟩
  · obtain ⟨hJ, hQ⟩ := hwrite _ t w o r (hu.later _) (hholds.later _) hr hw hkey hbefore
      hversion hafter
    exact ⟨fun w' hw' => hw'.eq_of_writes hw ▸ hJ, hQ⟩

theorem safe_delete {key : κ} {precondition : Option (Nat × Nat)}
    {Q : Except ApiErr Unit → Server κ β → Prop}
    (hkeep : ∀ r t, Interferes (fun w => w.caller = i) s t → Q r t)
    (hwrite : ∀ u t w o r, Interferes (fun w => w.caller = i) s u → Holds Inv J u →
      (r = .ok () ∨ r = .error .unavailable) → Writes i u t w → w.key = key →
      w.before = some o → (∀ p, precondition = some p → p = (o.uid, o.version)) →
      (w.after = none ∧ o.finalizers = [] ∨
        w.after = some { o with version := u.next, deleting := true } ∧ o.finalizers ≠ []) →
      J u.log w ∧ (Holds Inv J t → Q r t)) :
    SafeEx kernel i (tracked Inv J i)
      (ExceptT.lift (Prog.perform (Op.delete key precondition))) Q E s := by
  refine safe_call fun u hu hholds choice r t hexec => ?_
  obtain rfl | ⟨w, o, hr, hw, hkey, hbefore, hpre, hafter⟩ := Server.exec_delete hexec
  · exact ⟨fun w hw => absurd rfl hw.ne, fun _ => hkeep r _ (hu.later _)⟩
  · obtain ⟨hJ, hQ⟩ := hwrite _ t w o r (hu.later _) (hholds.later _) hr hw hkey hbefore hpre hafter
    exact ⟨fun w' hw' => hw'.eq_of_writes hw ▸ hJ, hQ⟩

end Triples

end Kama.Api
