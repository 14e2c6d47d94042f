import Kama.Foundations.Program

/-!
# Traces

What a program went through: its calls, each with the answer it got and the state it left.

* `Reach p trace q`: after `trace`, `q` is what is left of `p`. A program that has been stopped is
  one that has reached something other than a result. What a trace returned is determined by the
  trace (`Reach.ret_unique`).
* `ReachAll` is the same for a list of programs, one after the other.
* `Answered A s trace`: from the state `s` on, every answer is one that `A` allows.
* `Obeys G P p`: as long as the answers are in `G`, every call is one of `P`. It composes along
  `bind`, and `Obeys.call_of_reach` is what it says about a trace.
* `Prog.trace` is the trace of a program that nothing interferes with.
-/

namespace Kama.Program

variable {Op : Type} {Res : Op → Type} {σ α β δ : Type}

/-- A call, its answer and the state after it. -/
structure Called (Op : Type) (Res : Op → Type) (σ : Type) where
  op : Op
  answer : Res op
  after : σ

/-! ## What is left of a program -/

inductive Reach : Prog Op Res α → List (Called Op Res σ) → Prog Op Res α → Prop
  | done (p : Prog Op Res α) : Reach p [] p
  | call {op : Op} {next : Res op → Prog Op Res α} (r : Res op) (t : σ)
      {trace : List (Called Op Res σ)} {q : Prog Op Res α} (h : Reach (next r) trace q) :
      Reach (.call op next) (⟨op, r, t⟩ :: trace) q

section Reach

variable {p q r : Prog Op Res α} {trace trace' calls : List (Called Op Res σ)} {a b : α}

theorem Reach.trans (h : Reach p trace q) (h' : Reach q trace' r) :
    Reach p (trace ++ trace') r := by
  induction h with
  | done p => exact h'
  | call r t _ ih => exact .call r t (ih h')

theorem Reach.split (h : Reach p (trace ++ trace') r) :
    ∃ q, Reach p trace q ∧ Reach q trace' r := by
  induction trace generalizing p with
  | nil => exact ⟨p, .done p, h⟩
  | cons c trace ih =>
    cases h with
    | call r t h =>
      obtain ⟨q, hq, h⟩ := ih h
      exact ⟨q, .call r t hq, h⟩

theorem Reach.bind {f : α → Prog Op Res β} (h : Reach p trace q) :
    Reach (p >>= f) trace (q >>= f) := by
  induction h with
  | done p => exact .done _
  | call r t _ ih => exact .call r t ih

/-- A trace determines what is left. -/
theorem Reach.unique (h : Reach p trace q) (h' : Reach p trace r) : q = r := by
  induction h with
  | done p => cases h'; rfl
  | call _ _ _ ih =>
    cases h' with
    | call _ _ h' => exact ih h'

/-- A program that has returned makes no more calls. -/
theorem Reach.of_ret (h : Reach (.ret a) trace q) : trace = [] ∧ q = .ret a := by
  cases h
  exact ⟨rfl, rfl⟩

/-- A trace determines where a program returned, and what. -/
theorem Reach.ret_unique (h : Reach p trace (.ret a)) (h' : Reach p trace' (.ret b))
    (hcalls : trace <+: calls) (hcalls' : trace' <+: calls) : trace = trace' ∧ a = b := by
  rcases List.prefix_or_prefix_of_prefix hcalls hcalls' with ⟨more, rfl⟩ | ⟨more, rfl⟩
  · obtain ⟨q, hq, hrest⟩ := h'.split
    obtain rfl := hq.unique h
    obtain ⟨rfl, hret⟩ := hrest.of_ret
    exact ⟨(List.append_nil _).symm, (Prog.ret.inj hret).symm⟩
  · obtain ⟨q, hq, hrest⟩ := h.split
    obtain rfl := hq.unique h'
    obtain ⟨rfl, hret⟩ := hrest.of_ret
    exact ⟨List.append_nil _, Prog.ret.inj hret⟩

/-- The part of a program up to a result, and what follows it. -/
theorem Reach.of_bind {f : α → Prog Op Res β} {q : Prog Op Res β} (h : Reach (p >>= f) trace q) :
    (∃ p', Reach p trace p' ∧ q = p' >>= f) ∨
      ∃ a before after, trace = before ++ after ∧ Reach p before (.ret a) ∧
        Reach (f a) after q := by
  induction p generalizing trace with
  | ret a => exact .inr ⟨a, [], trace, rfl, .done _, h⟩
  | call op next ih =>
    cases h with
    | done => exact .inl ⟨_, .done _, rfl⟩
    | call r t h =>
      rcases ih r h with ⟨p', hp', rfl⟩ | ⟨a, before, after, rfl, hbefore, hafter⟩
      · exact .inl ⟨p', .call r t hp', rfl⟩
      · exact .inr ⟨a, ⟨op, r, t⟩ :: before, after, rfl, .call r t hbefore, hafter⟩

/-- Code that has succeeded has done so part by part. -/
theorem Reach.of_ok_bind {p : ExceptT δ (Prog Op Res) α} {f : α → ExceptT δ (Prog Op Res) β}
    {b : β} (h : Reach (p >>= f).run trace (.ret (.ok b))) :
    ∃ a before after, trace = before ++ after ∧ Reach p.run before (.ret (.ok a)) ∧
      Reach (f a).run after (.ret (.ok b)) := by
  rcases Reach.of_bind h with ⟨p', hp', hret⟩ | ⟨a, before, after, rfl, hbefore, hafter⟩
  · cases p' with
    | call op next => cases hret
    | ret a =>
      cases a with
      | error e => cases hret
      | ok a => exact ⟨a, trace, [], (List.append_nil _).symm, hp', hret ▸ .done _⟩
  · cases a with
    | error e => cases hafter
    | ok a => exact ⟨a, before, after, rfl, hbefore, hafter⟩

theorem Reach.of_attempt {p : ExceptT δ (Prog Op Res) α} {a : Except δ α}
    (h : Reach (Program.attempt p).run trace (.ret (.ok a))) : Reach p.run trace (.ret a) := by
  rcases Reach.of_bind h with ⟨p', hp', hret⟩ | ⟨a', before, after, rfl, hbefore, hafter⟩
  · cases p' with
    | call op next => cases hret
    | ret a' =>
      cases hret
      exact hp'
  · obtain ⟨rfl, hret⟩ := hafter.of_ret
    cases hret
    rw [List.append_nil]
    exact hbefore

/-- Code that can fail goes on once its first part has succeeded. -/
theorem Reach.ok_bind {p : ExceptT δ (Prog Op Res) α} {f : α → ExceptT δ (Prog Op Res) β} {a : α}
    (h : Reach p.run trace (.ret (.ok a))) : Reach (p >>= f).run trace (f a).run :=
  h.bind

theorem Reach.attempt {p : ExceptT δ (Prog Op Res) α} {a : Except δ α}
    (h : Reach p.run trace (.ret a)) : Reach (attempt p).run trace (.ret (.ok a)) :=
  h.bind

theorem reach_ok_bind {p : ExceptT δ (Prog Op Res) α} {f : α → ExceptT δ (Prog Op Res) β} {b : β} :
    Reach (p >>= f).run trace (.ret (.ok b)) ↔
      ∃ a before after, trace = before ++ after ∧ Reach p.run before (.ret (.ok a)) ∧
        Reach (f a).run after (.ret (.ok b)) := by
  refine ⟨Reach.of_ok_bind, ?_⟩
  rintro ⟨a, before, after, rfl, hp, hf⟩
  exact hp.ok_bind.trans hf

end Reach

/-- Code has succeeded for each element of a list, one after the other. -/
inductive ReachAll (p : α → ExceptT δ (Prog Op Res) β) :
    List α → List β → List (Called Op Res σ) → Prop
  | nil : ReachAll p [] [] []
  | cons {a : α} {b : β} {as : List α} {bs : List β} {before after : List (Called Op Res σ)}
      (h : Reach (p a).run before (.ret (.ok b))) (hs : ReachAll p as bs after) :
      ReachAll p (a :: as) (b :: bs) (before ++ after)

section ReachAll

variable {p : α → ExceptT δ (Prog Op Res) β} {as : List α} {bs bs' : List β}
  {trace trace' calls : List (Called Op Res σ)}

theorem ReachAll.length_eq (h : ReachAll p as bs trace) : as.length = bs.length := by
  induction h with
  | nil => rfl
  | cons _ _ ih => exact congrArg (· + 1) ih

/-- A trace determines the results. -/
theorem ReachAll.unique (h : ReachAll p as bs trace) (h' : ReachAll p as bs' trace')
    (hcalls : trace <+: calls) (hcalls' : trace' <+: calls) : trace = trace' ∧ bs = bs' := by
  induction h generalizing bs' trace' calls with
  | nil =>
    cases h'
    exact ⟨rfl, rfl⟩
  | cons h hs ih =>
    cases h' with
    | cons h' hs' =>
      obtain ⟨rfl, hb⟩ := h.ret_unique h' ((List.prefix_append _ _).trans hcalls)
        ((List.prefix_append _ _).trans hcalls')
      obtain ⟨rest, rfl⟩ := (List.prefix_append _ _).trans hcalls
      obtain ⟨rfl, rfl⟩ := ih hs' ((List.prefix_append_right_inj _).1 hcalls)
        ((List.prefix_append_right_inj _).1 hcalls')
      exact ⟨rfl, by rw [Except.ok.inj hb]⟩

end ReachAll

/-! ## What answers a program -/

/-- The state after a trace. -/
def final (s : σ) : List (Called Op Res σ) → σ
  | [] => s
  | c :: trace => final c.after trace

def Answered (A : σ → (op : Op) → Res op → σ → Prop) : σ → List (Called Op Res σ) → Prop
  | _, [] => True
  | s, c :: trace => A s c.op c.answer c.after ∧ Answered A c.after trace

section Answered

variable {A : σ → (op : Op) → Res op → σ → Prop} {s : σ} {trace trace' : List (Called Op Res σ)}

theorem final_append (s : σ) (trace trace' : List (Called Op Res σ)) :
    final s (trace ++ trace') = final (final s trace) trace' := by
  induction trace generalizing s with
  | nil => rfl
  | cons c trace ih => exact ih c.after

theorem answered_append :
    Answered A s (trace ++ trace') ↔ Answered A s trace ∧ Answered A (final s trace) trace' := by
  induction trace generalizing s with
  | nil => exact ⟨fun h => ⟨trivial, h⟩, And.right⟩
  | cons c trace ih => exact (and_congr_right fun _ => ih).trans and_assoc.symm

/-- What every answer leads on to holds at the end. -/
theorem Answered.final_of {R : σ → σ → Prop} (hrefl : ∀ s, R s s)
    (htrans : ∀ {s t u}, R s t → R t u → R s u) (hA : ∀ {s op a t}, A s op a t → R s t)
    (h : Answered A s trace) : R s (final s trace) := by
  induction trace generalizing s with
  | nil => exact hrefl s
  | cons c trace ih => exact htrans (hA h.1) (ih h.2)

end Answered

/-! ## Calls that depend on the answers -/

/-- As long as the answers are in `G`, every call of the program is one of `P`. -/
def Prog.Obeys (G : (op : Op) → Res op → Prop) (P : Op → Prop) : Prog Op Res α → Prop
  | .ret _ => True
  | .call op next => P op ∧ ∀ r, G op r → (next r).Obeys G P

/-- `Obeys` for code that can fail. -/
abbrev Obeys (G : (op : Op) → Res op → Prop) (P : Op → Prop) (p : ExceptT δ (Prog Op Res) α) :
    Prop :=
  Prog.Obeys G P p.run

section Obeys

variable {G : (op : Op) → Res op → Prop} {P : Op → Prop}

theorem Prog.Obeys.bind {p : Prog Op Res α} {f : α → Prog Op Res β} (hp : p.Obeys G P)
    (hf : ∀ a, (f a).Obeys G P) : (p >>= f).Obeys G P := by
  induction p with
  | ret a => exact hf a
  | call op next ih => exact ⟨hp.1, fun r hr => ih r (hp.2 r hr)⟩

theorem Obeys.bind {p : ExceptT δ (Prog Op Res) α} {f : α → ExceptT δ (Prog Op Res) β}
    (hp : Obeys G P p) (hf : ∀ a, Obeys G P (f a)) : Obeys G P (p >>= f) := by
  refine Prog.Obeys.bind hp fun a => ?_
  cases a with
  | error e => trivial
  | ok a => exact hf a

theorem Prog.Obeys.mono {P' : Op → Prop} {p : Prog Op Res α} (hp : p.Obeys G P)
    (hP : ∀ op, P op → P' op) : p.Obeys G P' := by
  induction p with
  | ret a => trivial
  | call op next ih => exact ⟨hP op hp.1, fun r hr => ih r (hp.2 r hr)⟩

theorem Obeys.pure (a : α) : Obeys G P (Pure.pure a : ExceptT δ (Prog Op Res) α) := trivial

theorem Obeys.throw (e : δ) : Obeys G P (MonadExcept.throw e : ExceptT δ (Prog Op Res) α) :=
  trivial

theorem Obeys.attempt {p : ExceptT δ (Prog Op Res) α} (hp : Obeys G P p) :
    Obeys G P (attempt p) :=
  Prog.Obeys.bind hp fun _ => trivial

theorem Obeys.ite {c : Prop} [Decidable c] {p q : ExceptT δ (Prog Op Res) α} (hp : Obeys G P p)
    (hq : Obeys G P q) : Obeys G P (if c then p else q) := by
  split
  · exact hp
  · exact hq

theorem Prog.Obeys.of_all {p : Prog Op Res α} (hp : p.All P) : p.Obeys G P := by
  induction p with
  | ret a => trivial
  | call op next ih => exact ⟨hp.1, fun r _ => ih r (hp.2 r)⟩

/-- Calls that are made whatever the answers are. -/
theorem Obeys.of_calls {p : ExceptT δ (Prog Op Res) α} (hp : Calls P p) : Obeys G P p :=
  Prog.Obeys.of_all hp

theorem Prog.Obeys.all {p : Prog Op Res α} (hG : ∀ op r, G op r) (hp : p.Obeys G P) : p.All P := by
  induction p with
  | ret a => trivial
  | call op next ih => exact ⟨hp.1, fun r => ih r (hp.2 r (hG op r))⟩

/-- What a program obeys, the rest of it does. -/
theorem Prog.Obeys.of_reach {p q : Prog Op Res α} {trace : List (Called Op Res σ)}
    (hp : p.Obeys G P) (h : Reach p trace q) (hG : ∀ c ∈ trace, G c.op c.answer) :
    q.Obeys G P := by
  induction h with
  | done p => exact hp
  | call r t _ ih =>
    exact ih (hp.2 r (hG _ List.mem_cons_self)) fun c hc => hG c (List.mem_cons_of_mem _ hc)

/-- A call in a trace, after answers in `G`. -/
theorem Prog.Obeys.call_of_reach {p q : Prog Op Res α} {before after : List (Called Op Res σ)}
    {c : Called Op Res σ} (hp : p.Obeys G P) (h : Reach p (before ++ c :: after) q)
    (hG : ∀ d ∈ before, G d.op d.answer) : P c.op := by
  obtain ⟨p', hp', h⟩ := h.split
  have hobeys := hp.of_reach hp' hG
  cases h with
  | call r t h => exact hobeys.1

end Obeys

/-! ## A program on its own -/

/-- The trace of a program that `exec` answers, and its result. -/
def Prog.trace (exec : (op : Op) → σ → Res op × σ) :
    Prog Op Res α → σ → List (Called Op Res σ) × α
  | .ret a, _ => ([], a)
  | .call op next, s =>
    let answer := exec op s
    let rest := (next answer.1).trace exec answer.2
    (⟨op, answer.1, answer.2⟩ :: rest.1, rest.2)

theorem reach_trace (exec : (op : Op) → σ → Res op × σ) (p : Prog Op Res α) (s : σ) :
    Reach p (p.trace exec s).1 (.ret (p.trace exec s).2) := by
  induction p generalizing s with
  | ret a => exact .done _
  | call op next ih => exact .call _ _ (ih _ _)

theorem answered_trace {A : σ → (op : Op) → Res op → σ → Prop}
    {exec : (op : Op) → σ → Res op × σ} (hA : ∀ s op, A s op (exec op s).1 (exec op s).2)
    (p : Prog Op Res α) (s : σ) : Answered A s (p.trace exec s).1 := by
  induction p generalizing s with
  | ret a => trivial
  | call op next ih => exact ⟨hA s op, ih _ _⟩

end Kama.Program
