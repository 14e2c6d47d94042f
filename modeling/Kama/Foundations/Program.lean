import Kama.Foundations.Machine
import Mathlib.Logic.Basic

/-!
# Programs that call an operating system

A program is a tree of calls: `ret a` has returned `a`, `call op next` asks the system for `op`
and continues with the answer. Programs are data, so a process that has been stopped halfway is
just the rest of its program, and an interleaving of processes is an interleaving of their calls.

* `Prog` is a monad; code that can fail is written in `ExceptT` over it, with `attempt` where the
  code looks at the error itself.
* `Kernel` answers the calls; `Sys.step` is one call of one process, a crash or a start.
* `Safe` is the rely-guarantee triple of a program: whatever the other processes do within the
  rely, each call keeps the invariant and stays within the guarantee. It composes along `bind`
  (`Safe.bind`), and `Sys.Sound.step` puts the processes together.
* `Sys.SoundAt` is one process in its triple among processes of which only the calls are known.
* `eval` is one process on its own.
-/

namespace Kama.Program

/-! ## Programs -/

/-- A tree of calls with a result at each leaf. -/
inductive Prog (Op : Type) (Res : Op → Type) (α : Type) : Type
  | ret (a : α)
  | call (op : Op) (next : Res op → Prog Op Res α)

namespace Prog

variable {Op : Type} {Res : Op → Type} {α β γ : Type}

def bind : Prog Op Res α → (α → Prog Op Res β) → Prog Op Res β
  | ret a, f => f a
  | call op next, f => call op fun r => (next r).bind f

instance : Monad (Prog Op Res) where
  pure := ret
  bind := bind

/-- The program that makes one call. -/
def perform (op : Op) : Prog Op Res (Res op) := call op ret

@[simp] theorem pure_eq (a : α) : (pure a : Prog Op Res α) = ret a := rfl

@[simp] theorem ret_bind (a : α) (f : α → Prog Op Res β) : (ret a >>= f) = f a := rfl

@[simp] theorem call_bind (op : Op) (next : Res op → Prog Op Res α) (f : α → Prog Op Res β) :
    (call op next >>= f) = call op fun r => next r >>= f := rfl

@[simp] theorem perform_bind (op : Op) (f : Res op → Prog Op Res β) :
    (perform op >>= f) = call op f := rfl

@[simp] theorem bind_ret (p : Prog Op Res α) : (p >>= ret) = p := by
  induction p with
  | ret a => rfl
  | call op next ih => simp only [call_bind, ih]

theorem bind_assoc (p : Prog Op Res α) (f : α → Prog Op Res β) (g : β → Prog Op Res γ) :
    ((p >>= f) >>= g) = p >>= fun a => f a >>= g := by
  induction p with
  | ret a => rfl
  | call op next ih => simp only [call_bind, ih]

instance : LawfulMonad (Prog Op Res) :=
  LawfulMonad.mk' (Prog Op Res) bind_ret (fun _ _ => rfl) bind_assoc

/-- Every call that the program can make is one of `P`. -/
def All (P : Op → Prop) : Prog Op Res α → Prop
  | ret _ => True
  | call op next => P op ∧ ∀ r, (next r).All P

theorem All.bind {P : Op → Prop} {p : Prog Op Res α} {f : α → Prog Op Res β} (hp : p.All P)
    (hf : ∀ a, (f a).All P) : (p >>= f).All P := by
  induction p with
  | ret a => exact hf a
  | call op next ih => exact ⟨hp.1, fun r => ih r (hp.2 r)⟩

/-- A program with its calls made to another system: `f` is the call that is made for a call, `g`
how its answer is read. -/
def translate {Op' : Type} {Res' : Op' → Type} (f : Op → Op') (g : ∀ op, Res' (f op) → Res op) :
    Prog Op Res α → Prog Op' Res' α
  | ret a => ret a
  | call op next => call (f op) fun r => (next (g op r)).translate f g

theorem All.translate {Op' : Type} {Res' : Op' → Type} {f : Op → Op'}
    {g : ∀ op, Res' (f op) → Res op} {P : Op' → Prop} (hP : ∀ op, P (f op)) (p : Prog Op Res α) :
    (p.translate f g).All P := by
  induction p with
  | ret a => trivial
  | call op next ih => exact ⟨hP op, fun r => ih (g op r)⟩

end Prog

/-! ## Code that can fail -/

section Failing

variable {Op : Type} {Res : Op → Type} {ε δ α : Type}

/-- One call. -/
def call (op : Op) : ExceptT δ (Prog Op Res) (Res op) := ExceptT.lift (Prog.perform op)

/-- A computation that makes no call. -/
def ofResult (r : Except δ α) : ExceptT δ (Prog Op Res) α := ExceptT.mk (pure r)

/-- Go on with a value, or fail with the wrapped error. -/
def check (wrap : ε → δ) (r : Except ε α) : ExceptT δ (Prog Op Res) α := ofResult (r.mapError wrap)

/-- Run a program that can fail and hand its outcome to the caller. -/
def attempt (p : ExceptT ε (Prog Op Res) α) : ExceptT ε (Prog Op Res) (Except ε α) :=
  ExceptT.lift p.run

/-- Run `body`, and then `cleanup`, however `body` has ended. -/
def deferring (cleanup : ExceptT δ (Prog Op Res) Unit) (body : ExceptT δ (Prog Op Res) α) :
    ExceptT δ (Prog Op Res) α := do
  let r ← attempt body
  cleanup
  ofResult r

end Failing

/-- Every call of code that can fail is one of `P`. -/
abbrev Calls {Op : Type} {Res : Op → Type} {δ α : Type} (P : Op → Prop)
    (p : ExceptT δ (Prog Op Res) α) : Prop :=
  Prog.All P p.run

section Calls

variable {Op : Type} {Res : Op → Type} {δ α β : Type} {P : Op → Prop}

theorem Calls.bind {p : ExceptT δ (Prog Op Res) α} {f : α → ExceptT δ (Prog Op Res) β}
    (hp : Calls P p) (hf : ∀ a, Calls P (f a)) : Calls P (p >>= f) := by
  refine Prog.All.bind hp fun a => ?_
  cases a with
  | error e => trivial
  | ok a => exact hf a

theorem Calls.call {op : Op} (h : P op) :
    Calls P (call op : ExceptT δ (Prog Op Res) (Res op)) :=
  ⟨h, fun _ => trivial⟩

theorem Calls.ofResult (r : Except δ α) :
    Calls P (ofResult r : ExceptT δ (Prog Op Res) α) := trivial

theorem Calls.check {ε : Type} (wrap : ε → δ) (r : Except ε α) :
    Calls P (check wrap r : ExceptT δ (Prog Op Res) α) := trivial

theorem Calls.pure (a : α) : Calls P (Pure.pure a : ExceptT δ (Prog Op Res) α) := trivial

theorem Calls.throw (e : δ) : Calls P (MonadExcept.throw e : ExceptT δ (Prog Op Res) α) := trivial

theorem Calls.attempt {p : ExceptT δ (Prog Op Res) α} (hp : Calls P p) : Calls P (attempt p) :=
  Prog.All.bind hp fun _ => trivial

theorem Calls.ite {c : Prop} [Decidable c] {p q : ExceptT δ (Prog Op Res) α} (hp : Calls P p)
    (hq : Calls P q) : Calls P (if c then p else q) := by
  split
  · exact hp
  · exact hq

end Calls

/-! ## Systems of processes -/

abbrev Pid := Nat

/-- What answers the calls of a process. The choice `ε` resolves what the caller cannot know;
`reap` is what the end of a process does to the state. -/
structure Kernel (Op : Type) (Res : Op → Type) (ε σ : Type) where
  exec : Pid → (op : Op) → ε → σ → Option (Res op × σ)
  reap : Pid → σ → σ

/-- A shared state and the processes, by number; `none` is a process that has crashed. -/
structure Sys (Op : Type) (Res : Op → Type) (α σ : Type) where
  shared : σ
  procs : List (Option (Prog Op Res α))

/-- What can happen next; `resume` lets a process that has returned go on with another program. -/
inductive SysEvent (Op : Type) (Res : Op → Type) (α ε : Type)
  | step (pid : Pid) (choice : ε)
  | crash (pid : Pid)
  | spawn (p : Prog Op Res α)
  | resume (pid : Pid) (p : Prog Op Res α)

/-- The kernel that refuses the calls for which `ok` fails. -/
def Kernel.guarded {Op : Type} {Res : Op → Type} {ε σ : Type} (K : Kernel Op Res ε σ)
    (ok : Pid → Op → σ → Bool) : Kernel Op Res ε σ where
  exec pid op choice s := if ok pid op s then K.exec pid op choice s else none
  reap := K.reap

section Systems

variable {Op : Type} {Res : Op → Type} {α ε σ : Type} (K : Kernel Op Res ε σ)

def Sys.step (s : Sys Op Res α σ) : SysEvent Op Res α ε → Option (Sys Op Res α σ)
  | .step pid choice =>
    match s.procs[pid]? with
    | some (some (.call op next)) =>
      (K.exec pid op choice s.shared).map fun (r, shared) =>
        ⟨shared, s.procs.set pid (some (next r))⟩
    | _ => none
  | .crash pid =>
    match s.procs[pid]? with
    | some (some _) => some ⟨K.reap pid s.shared, s.procs.set pid none⟩
    | _ => none
  | .spawn p => some { s with procs := s.procs ++ [some p] }
  | .resume pid p =>
    match s.procs[pid]? with
    | some (some (.ret _)) => some { s with procs := s.procs.set pid (some p) }
    | _ => none

/-- The call that the event makes, if any, passes `ok`. -/
def Sys.Admits (ok : Pid → Op → σ → Bool) (s : Sys Op Res α σ) : SysEvent Op Res α ε → Bool
  | .step pid _ =>
    match s.procs[pid]? with
    | some (some (.call op _)) => ok pid op s.shared
    | _ => true
  | _ => true

variable {K}

theorem Sys.step_call {s t : Sys Op Res α σ} {pid : Pid} {choice : ε}
    (h : s.step K (.step pid choice) = some t) :
    ∃ op next r u, s.procs[pid]? = some (some (.call op next)) ∧
      K.exec pid op choice s.shared = some (r, u) ∧
      t = ⟨u, s.procs.set pid (some (next r))⟩ := by
  simp only [Sys.step] at h
  split at h
  case h_1 op next hpid =>
    obtain ⟨⟨r, u⟩, hexec, rfl⟩ := Option.map_eq_some_iff.1 h
    exact ⟨op, next, r, u, hpid, hexec, rfl⟩
  case h_2 => cases h

theorem Sys.step_crash {s t : Sys Op Res α σ} {pid : Pid}
    (h : s.step K (.crash pid : SysEvent Op Res α ε) = some t) :
    ∃ p, s.procs[pid]? = some (some p) ∧ t = ⟨K.reap pid s.shared, s.procs.set pid none⟩ := by
  simp only [Sys.step] at h
  split at h
  case h_1 p hpid => exact ⟨p, hpid, (Option.some.inj h).symm⟩
  case h_2 => cases h

theorem Sys.step_guarded {ok : Pid → Op → σ → Bool} {s s' : Sys Op Res α σ}
    {e : SysEvent Op Res α ε} (hstep : s.step K e = some s') (hok : s.Admits ok e = true) :
    s.step (K.guarded ok) e = some s' := by
  cases e with
  | step pid choice =>
    simp only [Sys.step] at hstep ⊢
    split at hstep
    · rename_i op next hpid
      rw [Sys.Admits, hpid] at hok
      simpa only [hpid, Kernel.guarded, hok, if_true] using hstep
    · simp at hstep
  | crash pid => exact hstep
  | spawn p => exact hstep
  | resume pid p => exact hstep

end Systems

/-! ## Rely and guarantee -/

/-- The contract of one process: an invariant of the shared state that every step may assume and
must keep, what the other processes may do while the process is about to make a call (`none` once
it has returned), and what its own steps do. -/
structure Contract (Op σ : Type) where
  inv : σ → Prop
  rely : Option Op → σ → σ → Prop
  guar : σ → Op → σ → Prop
  rely_refl : ∀ pending s, rely pending s s
  rely_trans : ∀ {pending s t u}, rely pending s t → rely pending t u → rely pending s u

section Triples

variable {Op : Type} {Res : Op → Type} {α β ε σ : Type}
variable (K : Kernel Op Res ε σ) (i : Pid) (C : Contract Op σ)

/-- From `s` on, under interference within the rely, every call of the program keeps the
invariant and stays within the guarantee, and `Q` holds when it returns. -/
def Safe : Prog Op Res α → (α → σ → Prop) → σ → Prop
  | .ret a, Q, s => Q a s
  | .call op next, Q, s => ∀ s', C.rely (some op) s s' → C.inv s' → ∀ choice r t,
      K.exec i op choice s' = some (r, t) → C.inv t ∧ C.guar s' op t ∧ Safe (next r) Q t

variable {K i C}

theorem Safe.mono {p : Prog Op Res α} {Q Q' : α → σ → Prop} {s : σ}
    (hQ : ∀ a t, Q a t → Q' a t) (h : Safe K i C p Q s) : Safe K i C p Q' s := by
  induction p generalizing s with
  | ret a => exact hQ a s h
  | call op next ih =>
    intro s' hs' hinv choice r t hexec
    obtain ⟨hinv', hguar, hnext⟩ := h s' hs' hinv choice r t hexec
    exact ⟨hinv', hguar, ih r hnext⟩

/-- Steps of the other processes keep the triple of a process that is about to make a call. -/
theorem Safe.stable {op : Op} {next : Res op → Prog Op Res α} {Q : α → σ → Prop} {s s' : σ}
    (h : Safe K i C (.call op next) Q s) (hrely : C.rely (some op) s s') :
    Safe K i C (.call op next) Q s' :=
  fun t ht hinv => h t (C.rely_trans hrely ht) hinv

/-- The sequencing rule. -/
theorem Safe.bind {p : Prog Op Res α} {f : α → Prog Op Res β} {Q : β → σ → Prop} {s : σ}
    (h : Safe K i C p (fun a t => Safe K i C (f a) Q t) s) : Safe K i C (p >>= f) Q s := by
  induction p generalizing s with
  | ret a => exact h
  | call op next ih =>
    intro s' hs' hinv choice r t hexec
    obtain ⟨hinv', hguar, hnext⟩ := h s' hs' hinv choice r t hexec
    exact ⟨hinv', hguar, ih r hnext⟩

theorem Safe.ret {a : α} {Q : α → σ → Prop} {s : σ} : Safe K i C (.ret a) Q s ↔ Q a s := Iff.rfl

/-- A program all of whose calls are among those that keep the contract and the fact `L`. -/
theorem Safe.ofAll {P : Op → Prop} {L : σ → Prop} {p : Prog Op Res α} {s : σ} (hp : p.All P)
    (hcall : ∀ {s s' op choice r t}, P op → L s → C.rely (some op) s s' → C.inv s' →
      K.exec i op choice s' = some (r, t) → C.inv t ∧ C.guar s' op t ∧ L t) (hs : L s) :
    Safe K i C p (fun _ => L) s := by
  induction p generalizing s with
  | ret a => exact hs
  | call op next ih =>
    intro s' hs' hinv choice r t hexec
    obtain ⟨hinv', hguar, ht⟩ := hcall hp.1 hs hs' hinv hexec
    exact ⟨hinv', hguar, ih r (hp.2 r) ht⟩

theorem Prog.all_true (p : Prog Op Res α) : p.All fun _ => True := by
  induction p with
  | ret a => trivial
  | call op next ih => exact ⟨trivial, ih⟩

/-- When every call keeps the invariant and the guarantee, a program needs no proof of its own. -/
theorem Safe.trivial {p : Prog Op Res α} {s : σ}
    (hcall : ∀ {s op choice r t}, C.inv s → K.exec i op choice s = some (r, t) →
      C.inv t ∧ C.guar s op t) : Safe K i C p (fun _ _ => True) s := by
  refine Safe.ofAll p.all_true (fun _ _ _ hinv hexec => ?_) True.intro
  obtain ⟨hinv', hguar⟩ := hcall hinv hexec
  exact ⟨hinv', hguar, True.intro⟩

/-- What the steps of the others and the guarantee keep holds at the end as well. -/
theorem Safe.frame {p : Prog Op Res α} {Q : α → σ → Prop} {L : σ → Prop} {s : σ}
    (hrely : ∀ {pending s t}, C.rely pending s t → L s → L t)
    (hguar : ∀ {s op t}, C.inv s → C.guar s op t → L s → L t) (hs : L s)
    (h : Safe K i C p Q s) : Safe K i C p (fun a t => Q a t ∧ L t) s := by
  induction p generalizing s with
  | ret a => exact ⟨h, hs⟩
  | call op next ih =>
    intro s' hs' hinv choice r t hexec
    obtain ⟨hinv', hstep, hnext⟩ := h s' hs' hinv choice r t hexec
    exact ⟨hinv', hstep, ih r (hguar hinv hstep (hrely hs' hs)) hnext⟩

/-- A program may count on more, and promise less. -/
theorem Safe.weaken {C' : Contract Op σ} {p : Prog Op Res α} {Q : α → σ → Prop} {s : σ}
    (hinv : C'.inv = C.inv) (hrely : ∀ {pending s t}, C'.rely pending s t → C.rely pending s t)
    (hguar : ∀ {s op t}, C.guar s op t → C'.guar s op t)
    (h : Safe K i C p Q s) : Safe K i C' p Q s := by
  induction p generalizing s with
  | ret a => exact h
  | call op next ih =>
    intro s' hs' hinv' choice r t hexec
    obtain ⟨ht, hstep, hnext⟩ := h s' (hrely hs') (hinv ▸ hinv') choice r t hexec
    exact ⟨hinv ▸ ht, hguar hstep, ih r hnext⟩

/-! ### Code that can fail -/

section Failing

variable {δ : Type} {s : σ}

/-- One postcondition for each way to end. -/
def Ends (Q : α → σ → Prop) (E : δ → σ → Prop) : Except δ α → σ → Prop
  | .ok a => Q a
  | .error e => E e

variable (K i C) in
/-- The triple of code that can fail: `Q` when it succeeds, `E` when it does not. -/
def SafeEx (p : ExceptT δ (Prog Op Res) α) (Q : α → σ → Prop) (E : δ → σ → Prop) (s : σ) : Prop :=
  Safe K i C p.run (Ends Q E) s

variable (K i C) in
/-- The triple of code that can fail, with nothing said about the state after a failure. -/
abbrev SafeOk (p : ExceptT δ (Prog Op Res) α) (Q : α → σ → Prop) (s : σ) : Prop :=
  SafeEx K i C p Q (fun _ _ => True) s

variable {Q Q' : α → σ → Prop} {E E' : δ → σ → Prop}

theorem SafeEx.mono {p : ExceptT δ (Prog Op Res) α} (hQ : ∀ a t, Q a t → Q' a t)
    (hE : ∀ e t, E e t → E' e t) (h : SafeEx K i C p Q E s) : SafeEx K i C p Q' E' s := by
  refine Safe.mono (fun a t ha => ?_) h
  cases a with
  | error e => exact hE e t ha
  | ok a => exact hQ a t ha

theorem SafeOk.mono {p : ExceptT δ (Prog Op Res) α} (hQ : ∀ a t, Q a t → Q' a t)
    (h : SafeOk K i C p Q s) : SafeOk K i C p Q' s :=
  SafeEx.mono hQ (fun _ _ h => h) h

theorem SafeEx.bind {p : ExceptT δ (Prog Op Res) α} {f : α → ExceptT δ (Prog Op Res) β}
    {Q : β → σ → Prop} (h : SafeEx K i C p (fun a t => SafeEx K i C (f a) Q E t) E s) :
    SafeEx K i C (p >>= f) Q E s := by
  refine Safe.bind (Safe.mono (fun a t ha => ?_) h)
  cases a with
  | error e => exact ha
  | ok a => exact ha

/-- One piece of code after the other. -/
theorem SafeEx.seq {p : ExceptT δ (Prog Op Res) α} {f : α → ExceptT δ (Prog Op Res) β}
    {Q' : β → σ → Prop} (hp : SafeEx K i C p Q E s)
    (hf : ∀ a t, Q a t → SafeEx K i C (f a) Q' E t) : SafeEx K i C (p >>= f) Q' E s :=
  SafeEx.bind (SafeEx.mono hf (fun _ _ h => h) hp)

theorem SafeOk.seq {p : ExceptT δ (Prog Op Res) α} {f : α → ExceptT δ (Prog Op Res) β}
    {Q' : β → σ → Prop} (hp : SafeEx K i C p Q E s)
    (hf : ∀ a t, Q a t → SafeOk K i C (f a) Q' t) : SafeOk K i C (p >>= f) Q' s :=
  SafeEx.bind (SafeEx.mono hf (fun _ _ _ => True.intro) hp)

theorem SafeEx.ite {c : Prop} [Decidable c] {p q : ExceptT δ (Prog Op Res) α}
    (hp : c → SafeEx K i C p Q E s) (hq : ¬ c → SafeEx K i C q Q E s) :
    SafeEx K i C (if c then p else q) Q E s := by
  split
  · exact hp ‹c›
  · exact hq ‹¬ c›

theorem SafeEx.pure {a : α} (h : Q a s) :
    SafeEx K i C (Pure.pure a : ExceptT δ (Prog Op Res) α) Q E s := h

theorem SafeEx.throw {e : δ} (h : E e s) :
    SafeEx K i C (MonadExcept.throw e : ExceptT δ (Prog Op Res) α) Q E s := h

/-- A computation that makes no call. -/
theorem SafeEx.ofExcept {r : Except δ α} (h : Ends Q E r s) :
    SafeEx K i C (ExceptT.mk (Pure.pure r)) Q E s := h

theorem SafeOk.ofExcept {r : Except δ α} (h : ∀ a, r = .ok a → Q a s) :
    SafeOk K i C (ExceptT.mk (Pure.pure r)) Q s := by
  cases r with
  | error e => exact SafeEx.ofExcept True.intro
  | ok a => exact SafeEx.ofExcept (h a rfl)

theorem SafeEx.attempt {p : ExceptT δ (Prog Op Res) α} {Q : Except δ α → σ → Prop}
    (h : SafeEx K i C p (fun a => Q (.ok a)) (fun e => Q (.error e)) s) :
    SafeEx K i C (attempt p) Q E s := by
  refine Safe.bind (Safe.mono (fun a t ha => ?_) h)
  cases a with
  | error e => exact ha
  | ok a => exact ha

theorem SafeEx.lift {op : Op} {Q : Res op → σ → Prop}
    (h : ∀ s', C.rely (some op) s s' → C.inv s' → ∀ choice r t,
      K.exec i op choice s' = some (r, t) → C.inv t ∧ C.guar s' op t ∧ Q r t) :
    SafeEx K i C (ExceptT.lift (Prog.perform op) : ExceptT δ (Prog Op Res) (Res op)) Q E s := h

theorem SafeEx.frame {p : ExceptT δ (Prog Op Res) α} {L : σ → Prop}
    (hrely : ∀ {pending s t}, C.rely pending s t → L s → L t)
    (hguar : ∀ {s op t}, C.inv s → C.guar s op t → L s → L t) (hs : L s)
    (h : SafeEx K i C p Q E s) :
    SafeEx K i C p (fun a t => Q a t ∧ L t) (fun e t => E e t ∧ L t) s := by
  refine Safe.mono (fun a t ha => ?_) (Safe.frame hrely hguar hs h)
  cases a with
  | error e => exact ha
  | ok a => exact ha

theorem SafeEx.weaken {C' : Contract Op σ} {p : ExceptT δ (Prog Op Res) α}
    (hinv : C'.inv = C.inv) (hrely : ∀ {pending s t}, C'.rely pending s t → C.rely pending s t)
    (hguar : ∀ {s op t}, C.guar s op t → C'.guar s op t)
    (h : SafeEx K i C p Q E s) : SafeEx K i C' p Q E s :=
  Safe.weaken hinv hrely hguar h

theorem SafeEx.run {p : ExceptT δ (Prog Op Res) α} (h : SafeEx K i C p Q E s) :
    Safe K i C p.run (Ends Q E) s := h

theorem SafeEx.ofSafe {p : ExceptT δ (Prog Op Res) α} (h : Safe K i C p.run (Ends Q E) s) :
    SafeEx K i C p Q E s := h

end Failing

end Triples

/-! ## Putting processes together -/

section Composition

variable {Op : Type} {Res : Op → Type} {α ε σ : Type} {K : Kernel Op Res ε σ}

/-- The call that a process is about to make. -/
def Prog.pending : Prog Op Res α → Option Op
  | .ret _ => none
  | .call op _ => some op

/-- Contracts of the processes that fit together: one invariant, and every process's guarantee
is within every other's rely. A step may depend on what the others are about to do: `ok` is what
has to hold of the call that is made and of a call that is pending. -/
structure Compatible (K : Kernel Op Res ε σ) (inv : σ → Prop) (C : Pid → Contract Op σ)
    (ok : σ → Op → Option Op → Prop) : Prop where
  inv_eq : ∀ i, (C i).inv = inv
  guar_rely : ∀ {i j s op t pending}, i ≠ j → inv s → (C i).guar s op t → ok s op pending →
    (C j).rely pending s t
  reap_inv : ∀ {i s}, inv s → inv (K.reap i s)
  reap_rely : ∀ {i j s pending}, i ≠ j → inv s → (C j).rely pending s (K.reap i s)

/-- The call of this event is `ok` with what the other processes are about to do. -/
def Sys.Meets (ok : σ → Op → Option Op → Prop) (s : Sys Op Res α σ) :
    SysEvent Op Res α ε → Prop
  | .step pid _ => ∀ op next, s.procs[pid]? = some (some (.call op next)) →
      ∀ j p, j ≠ pid → s.procs[j]? = some (some p) → ok s.shared op p.pending
  | _ => True

/-- The invariant holds, and every live process is in its triple. -/
structure Sys.Sound (K : Kernel Op Res ε σ) (inv : σ → Prop) (C : Pid → Contract Op σ)
    (Q : Pid → α → σ → Prop) (s : Sys Op Res α σ) : Prop where
  inv : inv s.shared
  safe : ∀ {i p}, s.procs[i]? = some (some p) → Safe K i (C i) p (Q i) s.shared

variable {inv : σ → Prop} {C : Pid → Contract Op σ} {ok : σ → Op → Option Op → Prop}
  {Q : Pid → α → σ → Prop}

/-- A live process stays in its triple when another one moves. -/
theorem Sys.Sound.stable {s : Sys Op Res α σ} {j : Pid} {p : Prog Op Res α} {t : σ}
    (h : Sys.Sound K inv C Q s) (hQ : ∀ i a s t, (C i).rely none s t → Q i a s → Q i a t)
    (hj : s.procs[j]? = some (some p)) (hrely : (C j).rely p.pending s.shared t) :
    Safe K j (C j) p (Q j) t := by
  cases p with
  | ret a => exact hQ j a _ _ hrely (h.safe hj)
  | call op next => exact (h.safe hj).stable hrely

/-- **One step of a system of processes in compatible contracts keeps it sound.** A process may
be started, or go on after it has returned, when its program is in its triple. -/
theorem Sys.Sound.step (hC : Compatible K inv C ok)
    (hQ : ∀ i a s t, (C i).rely none s t → Q i a s → Q i a t) {s s' : Sys Op Res α σ}
    {e : SysEvent Op Res α ε} (h : Sys.Sound K inv C Q s) (hok : s.Meets ok e)
    (hspawn : ∀ p, e = .spawn p → Safe K s.procs.length (C s.procs.length) p
      (Q s.procs.length) s.shared)
    (hresume : ∀ i p a, e = .resume i p → s.procs[i]? = some (some (.ret a)) →
      Safe K i (C i) p (Q i) s.shared)
    (hstep : s.step K e = some s') : Sys.Sound K inv C Q s' := by
  cases e with
  | step pid choice =>
    simp only [Sys.step] at hstep
    split at hstep
    · rename_i op next hpid
      obtain ⟨⟨r, t⟩, hexec, rfl⟩ := Option.map_eq_some_iff.1 hstep
      have hinv : (C pid).inv s.shared := by rw [hC.inv_eq]; exact h.inv
      obtain ⟨hinv', hguar, hnext⟩ :=
        h.safe hpid s.shared ((C pid).rely_refl _ _) hinv choice r t hexec
      refine ⟨by rw [hC.inv_eq] at hinv'; exact hinv', fun {j p} hj => ?_⟩
      by_cases hij : pid = j
      · subst hij
        have hlt : pid < s.procs.length := (List.getElem?_eq_some_iff.1 hpid).1
        obtain rfl : next r = p := by simpa [List.getElem?_set_self hlt] using hj
        exact hnext
      · rw [List.getElem?_set_ne hij] at hj
        have hokj := hok op next hpid j p (Ne.symm hij) hj
        exact h.stable hQ hj (hC.guar_rely hij h.inv hguar hokj)
    · simp at hstep
  | crash pid =>
    simp only [Sys.step] at hstep
    split at hstep
    · rename_i p hpid
      obtain rfl := Option.some.inj hstep
      refine ⟨hC.reap_inv h.inv, fun {j q} hj => ?_⟩
      by_cases hij : pid = j
      · subst hij
        have hlt : pid < s.procs.length := (List.getElem?_eq_some_iff.1 hpid).1
        simp [List.getElem?_set_self hlt] at hj
      · rw [List.getElem?_set_ne hij] at hj
        exact h.stable hQ hj (hC.reap_rely hij h.inv)
    · simp at hstep
  | spawn p =>
    obtain rfl := Option.some.inj hstep
    refine ⟨h.inv, fun {j q} hj => ?_⟩
    rcases Nat.lt_or_ge j s.procs.length with hlt | hge
    · rw [List.getElem?_append_left hlt] at hj
      exact h.safe hj
    · rw [List.getElem?_append_right hge] at hj
      have hj0 : j - s.procs.length = 0 := by
        by_contra hne
        obtain ⟨k, hk⟩ := Nat.exists_eq_succ_of_ne_zero hne
        simp [hk] at hj
      obtain rfl : j = s.procs.length := Nat.le_antisymm (Nat.le_of_sub_eq_zero hj0) hge
      obtain rfl : p = q := by simpa using hj
      exact hspawn p rfl
  | resume pid p =>
    simp only [Sys.step] at hstep
    split at hstep
    · rename_i a hpid
      obtain rfl := Option.some.inj hstep
      refine ⟨h.inv, fun {j q} hj => ?_⟩
      by_cases hij : pid = j
      · subst hij
        have hlt : pid < s.procs.length := (List.getElem?_eq_some_iff.1 hpid).1
        obtain rfl : p = q := by simpa [List.getElem?_set_self hlt] using hj
        exact hresume pid p a rfl hpid
      · rw [List.getElem?_set_ne hij] at hj
        exact h.safe hj
    · simp at hstep

/-! ### One process among others -/

/-- The invariant holds, and the process `i` is in its triple as long as it lives. -/
structure Sys.SoundAt (K : Kernel Op Res ε σ) (i : Pid) (C : Contract Op σ) (Q : α → σ → Prop)
    (s : Sys Op Res α σ) : Prop where
  known : i < s.procs.length
  inv : C.inv s.shared
  safe : ∀ {p}, s.procs[i]? = some (some p) → Safe K i C p Q s.shared

/-- The event does not start the process `i` on another program. -/
def SysEvent.leaves (i : Pid) : SysEvent Op Res α ε → Bool
  | .resume pid _ => pid != i
  | _ => true

/-- **A step of any process keeps one process in its triple**, whatever the programs of the others
are, when every call of the others is within its rely. -/
theorem Sys.SoundAt.step {i : Pid} {C : Contract Op σ} {Q : α → σ → Prop}
    {ok : Pid → Op → σ → Bool} {s s' : Sys Op Res α σ} {e : SysEvent Op Res α ε}
    (hQ : ∀ {a s t}, C.rely none s t → Q a s → Q a t)
    (hcall : ∀ {pid op choice s r t}, pid ≠ i → C.inv s → ok pid op s = true →
      K.exec pid op choice s = some (r, t) → C.inv t ∧ ∀ pending, C.rely pending s t)
    (hreap : ∀ {pid s}, C.inv s → C.inv (K.reap pid s) ∧
      (pid ≠ i → ∀ pending, C.rely pending s (K.reap pid s)))
    (h : Sys.SoundAt K i C Q s) (hok : s.Admits ok e = true) (hleaves : e.leaves i = true)
    (hstep : s.step K e = some s') : Sys.SoundAt K i C Q s' := by
  have hstable : ∀ {p t}, s.procs[i]? = some (some p) → (∀ pending, C.rely pending s.shared t) →
      Safe K i C p Q t := by
    intro p t hp hrely
    cases p with
    | ret a => exact hQ (hrely none) (h.safe hp)
    | call op next => exact (h.safe hp).stable (hrely _)
  cases e with
  | step pid choice =>
    obtain ⟨op, next, r, t, hpid, hexec, rfl⟩ := Sys.step_call hstep
    rw [Sys.Admits, hpid] at hok
    rcases eq_or_ne pid i with rfl | hne
    · obtain ⟨hinv, -, hnext⟩ := h.safe hpid s.shared (C.rely_refl _ _) h.inv choice r t hexec
      refine ⟨by simpa using h.known, hinv, fun {p} hp => ?_⟩
      obtain rfl : next r = p := by simpa [List.getElem?_set_self h.known] using hp
      exact hnext
    · refine ⟨by simpa using h.known, (hcall hne h.inv hok hexec).1, ?_⟩
      intro p hp
      rw [List.getElem?_set_ne hne] at hp
      exact hstable hp (hcall hne h.inv hok hexec).2
  | crash pid =>
    obtain ⟨p, hpid, rfl⟩ := Sys.step_crash hstep
    refine ⟨by simpa using h.known, (hreap h.inv).1, fun {p} hp => ?_⟩
    rcases eq_or_ne pid i with rfl | hne
    · simp [List.getElem?_set_self h.known] at hp
    · rw [List.getElem?_set_ne hne] at hp
      exact hstable hp ((hreap h.inv).2 hne)
  | spawn p =>
    obtain rfl := Option.some.inj hstep
    refine ⟨by simpa using Nat.lt_succ_of_lt h.known, h.inv, fun hq => h.safe ?_⟩
    rwa [List.getElem?_append_left h.known] at hq
  | resume pid p =>
    have hne : pid ≠ i := by simpa [SysEvent.leaves] using hleaves
    simp only [Sys.step] at hstep
    split at hstep
    · obtain rfl := Option.some.inj hstep
      refine ⟨by simpa using h.known, h.inv, fun hq => h.safe ?_⟩
      rwa [List.getElem?_set_ne hne] at hq
    · cases hstep

end Composition

/-! ## One process on its own -/

section Alone

variable {Op : Type} {Res : Op → Type} {α σ : Type} (run : σ → (op : Op) → Res op × σ)

/-- The result of a program and the state it leaves. -/
def Prog.eval : Prog Op Res α → σ → α × σ
  | .ret a, s => (a, s)
  | .call op next, s => let (r, t) := run s op; (next r).eval t

theorem Prog.eval_bind {β : Type} (p : Prog Op Res α) (f : α → Prog Op Res β) (s : σ) :
    (p >>= f).eval run s = (f (p.eval run s).1).eval run (p.eval run s).2 := by
  induction p generalizing s with
  | ret a => rfl
  | call op next ih => exact ih _ _

variable {run} {ε : Type} {K : Kernel Op Res ε σ} {i : Pid} {C : Contract Op σ}

theorem Safe.eval {p : Prog Op Res α} {Q : α → σ → Prop} {s : σ} (choice : ε)
    (hK : ∀ op s, K.exec i op choice s = some (run s op)) (hinv : C.inv s)
    (h : Safe K i C p Q s) : C.inv (p.eval run s).2 ∧ Q (p.eval run s).1 (p.eval run s).2 := by
  induction p generalizing s with
  | ret a => exact ⟨hinv, h⟩
  | call op next ih =>
    obtain ⟨hinv', -, hnext⟩ := h s (C.rely_refl _ s) hinv choice _ _ (hK op s)
    exact ih _ hinv' hnext

end Alone

-- from here on the triples are used through their rules
attribute [irreducible] Safe SafeEx

end Kama.Program
