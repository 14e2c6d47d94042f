import Kama.Foundations.Trace

/-!
# What a program ensures

The triples of a program that runs alone, on a system of which only the possible answers are known.

* `Prog.Ensures A p Q s`: from the state `s` on, whatever answers of `A` the program gets, `Q` holds
  when it returns. `Prog.ensures_iff` is the same in terms of traces.
* `Ensures` is the triple of code that can fail, with a postcondition for each way to end. It
  composes along `bind`, and `Ensures.attempt` is the rule for code that looks at an error.
* `Prog.ensures_translate`: a program with its calls made to another system.
-/

namespace Kama.Program

variable {Op : Type} {Res : Op → Type} {σ α β δ : Type}
  {A : σ → (op : Op) → Res op → σ → Prop} {s : σ}

/-- Whatever the answers are, `Q` holds of the result and of the state at the end. -/
def Prog.Ensures (A : σ → (op : Op) → Res op → σ → Prop) :
    Prog Op Res α → (α → σ → Prop) → σ → Prop
  | .ret a, Q, s => Q a s
  | .call op next, Q, s => ∀ r t, A s op r t → (next r).Ensures A Q t

theorem Prog.Ensures.mono {p : Prog Op Res α} {Q Q' : α → σ → Prop}
    (hQ : ∀ a t, Q a t → Q' a t) (h : p.Ensures A Q s) : p.Ensures A Q' s := by
  induction p generalizing s with
  | ret a => exact hQ a s h
  | call op next ih => exact fun r t hr => ih r (h r t hr)

theorem Prog.Ensures.bind {p : Prog Op Res α} {f : α → Prog Op Res β} {Q : β → σ → Prop}
    (h : p.Ensures A (fun a t => (f a).Ensures A Q t) s) : (p >>= f).Ensures A Q s := by
  induction p generalizing s with
  | ret a => exact h
  | call op next ih => exact fun r t hr => ih r (h r t hr)

/-- The triple is about every trace. -/
theorem Prog.ensures_iff {p : Prog Op Res α} {Q : α → σ → Prop} :
    p.Ensures A Q s ↔ ∀ trace a, Reach p trace (.ret a) → Answered A s trace →
      Q a (final s trace) := by
  induction p generalizing s with
  | ret a =>
    constructor
    · intro h trace b hreach _
      obtain ⟨rfl, hret⟩ := hreach.of_ret
      cases hret
      exact h
    · intro h
      exact h [] a (.done _) trivial
  | call op next ih =>
    constructor
    · intro h trace a hreach hanswered
      cases hreach with
      | call r t hreach => exact (ih r).1 (h r t hanswered.1) _ a hreach hanswered.2
    · intro h r t hr
      refine (ih r).2 fun trace a hreach hanswered => ?_
      exact h (⟨op, r, t⟩ :: trace) a (.call r t hreach) ⟨hr, hanswered⟩

theorem Prog.ensures_translate {Op' : Type} {Res' : Op' → Type} {f : Op → Op'}
    {g : ∀ op, Res' (f op) → Res op} {A' : σ → (op : Op') → Res' op → σ → Prop}
    (hA : ∀ s op r t, A' s (f op) r t → A s op (g op r) t) {p : Prog Op Res α} {Q : α → σ → Prop}
    (h : p.Ensures A Q s) : (p.translate f g).Ensures A' Q s := by
  induction p generalizing s with
  | ret a => exact h
  | call op next ih => exact fun r t hr => ih (g op r) (h _ t (hA s op r t hr))

/-! ## Code that can fail -/

/-- `Q` when the code succeeds, `E` when it does not. -/
def Ensures (A : σ → (op : Op) → Res op → σ → Prop) (p : ExceptT δ (Prog Op Res) α)
    (Q : α → σ → Prop) (E : δ → σ → Prop) (s : σ) : Prop :=
  Prog.Ensures A p.run (Ends Q E) s

section Failing

variable {Q Q' : α → σ → Prop} {E E' : δ → σ → Prop}

theorem Ensures.mono {p : ExceptT δ (Prog Op Res) α} (hQ : ∀ a t, Q a t → Q' a t)
    (hE : ∀ e t, E e t → E' e t) (h : Ensures A p Q E s) : Ensures A p Q' E' s := by
  refine Prog.Ensures.mono (fun a t ha => ?_) h
  cases a with
  | error e => exact hE e t ha
  | ok a => exact hQ a t ha

/-- One piece of code after the other. -/
theorem Ensures.seq {p : ExceptT δ (Prog Op Res) α} {f : α → ExceptT δ (Prog Op Res) β}
    {Q' : β → σ → Prop} (hp : Ensures A p Q E s) (hE : ∀ e t, E e t → E' e t)
    (hf : ∀ a t, Q a t → Ensures A (f a) Q' E' t) : Ensures A (p >>= f) Q' E' s := by
  refine Prog.Ensures.bind (Prog.Ensures.mono (fun a t ha => ?_) hp)
  cases a with
  | error e => exact hE e t ha
  | ok a => exact hf a t ha

theorem Ensures.bind {p : ExceptT δ (Prog Op Res) α} {f : α → ExceptT δ (Prog Op Res) β}
    {Q' : β → σ → Prop} (hp : Ensures A p Q E s) (hf : ∀ a t, Q a t → Ensures A (f a) Q' E t) :
    Ensures A (p >>= f) Q' E s :=
  hp.seq (fun _ _ h => h) hf

/-- A call, and the code that goes on with its answer. -/
theorem Ensures.calling {op : Op} {f : Res op → ExceptT δ (Prog Op Res) α}
    (h : ∀ r t, A s op r t → Ensures A (f r) Q E t) : Ensures A (call op >>= f) Q E s := h

theorem Ensures.pure {a : α} (h : Q a s) :
    Ensures A (Pure.pure a : ExceptT δ (Prog Op Res) α) Q E s := h

theorem Ensures.throw {e : δ} (h : E e s) :
    Ensures A (MonadExcept.throw e : ExceptT δ (Prog Op Res) α) Q E s := h

/-- A computation that makes no call. -/
theorem Ensures.ofExcept {r : Except δ α} (h : Ends Q E r s) :
    Ensures A (ExceptT.mk (Pure.pure r)) Q E s := h

theorem Ensures.attempt {p : ExceptT δ (Prog Op Res) α} {Q : Except δ α → σ → Prop}
    (h : Ensures A p (fun a => Q (.ok a)) (fun e => Q (.error e)) s) :
    Ensures A (attempt p) Q E s := by
  refine Prog.Ensures.bind (Prog.Ensures.mono (fun a t ha => ?_) h)
  cases a with
  | error e => exact ha
  | ok a => exact ha

theorem Ensures.lift {op : Op} {Q : Res op → σ → Prop} (h : ∀ r t, A s op r t → Q r t) :
    Ensures A (call op : ExceptT δ (Prog Op Res) (Res op)) Q E s := h

/-- The rule for code with a cleanup that cannot fail. -/
theorem Ensures.deferring {cleanup : ExceptT δ (Prog Op Res) Unit}
    {body : ExceptT δ (Prog Op Res) α} {f : σ → σ}
    (hcleanup : ∀ t, Ensures A cleanup (fun _ u => u = f t) E t)
    (h : Ensures A body (fun a t => Q a (f t)) (fun e t => E e (f t)) s) :
    Ensures A (deferring cleanup body) Q E s := by
  have hbody : Ensures A (Program.attempt body) (fun r t => Ends Q E r (f t)) E s :=
    Ensures.attempt h
  refine Ensures.bind hbody fun r t hr => ?_
  refine Ensures.bind (hcleanup t) ?_
  rintro - u rfl
  exact Ensures.ofExcept hr

/-- What all calls of some code keep, the code keeps. -/
theorem Ensures.of_calls {P : Op → Prop} {R : σ → Prop}
    (hR : ∀ s op r t, P op → A s op r t → R s → R t) {p : ExceptT δ (Prog Op Res) α}
    (hp : Calls P p) (hs : R s) : Ensures A p (fun _ => R) (fun _ => R) s := by
  have hall : ∀ (q : Prog Op Res (Except δ α)) (s : σ), q.All P → R s →
      q.Ensures A (Ends (fun _ => R) fun _ => R) s := by
    intro q
    induction q with
    | ret a =>
      intro s _ hs
      cases a <;> exact hs
    | call op next ih => exact fun s hq hs r t hr => ih r t (hq.2 r) (hR s op r t hq.1 hr hs)
  exact hall p.run s hp hs

/-- What a trace of code that has succeeded leads to. -/
theorem Ensures.of_reach {p : ExceptT δ (Prog Op Res) α} (h : Ensures A p Q E s)
    {trace : List (Called Op Res σ)} {r : Except δ α} (hreach : Reach p.run trace (.ret r))
    (hanswered : Answered A s trace) : Ends Q E r (final s trace) :=
  Prog.ensures_iff.1 h trace r hreach hanswered

end Failing

end Kama.Program
