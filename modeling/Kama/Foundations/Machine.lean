import Mathlib.Algebra.Order.Ring.Int
import Mathlib.Data.List.Basic
import Mathlib.Data.Option.Basic

/-!
# Runs of a machine with labelled steps

A machine is a partial step function `step : σ → ε → Option σ`: the event `e` can happen in the
state `s` when `step s e` is defined. All nondeterminism (which thread moves, what a server
answers) is in the choice of events, so a run is a list of events and a machine can be executed.

* `run step s es` is the state after the events `es`.
* `Allowed step ok s es` says that every event of the run meets `ok` in the state it is taken in.
* `run_invariant` is the induction every safety result of the machine goes through: what is true
  at the start and kept by each allowed step is true after every allowed run.
-/

namespace Kama.Machine

variable {σ ε : Type*} (step : σ → ε → Option σ)

/-- The state after a list of events; `none` when one of them cannot happen. -/
def run : σ → List ε → Option σ
  | s, [] => some s
  | s, e :: es => (step s e).bind fun t => run t es

/-- Every event of the run meets `ok` in the state in which it is taken. -/
def Allowed (ok : σ → ε → Prop) : σ → List ε → Prop
  | _, [] => True
  | s, e :: es => ok s e ∧ ∀ t, step s e = some t → Allowed ok t es

variable {step}

@[simp] theorem run_nil (s : σ) : run step s [] = some s := rfl

theorem run_cons_eq_some {s u : σ} {e : ε} {es : List ε} :
    run step s (e :: es) = some u ↔ ∃ t, step s e = some t ∧ run step t es = some u := by
  simp [run, Option.bind_eq_some_iff]

instance decidableAllowed {ok : σ → ε → Prop} [∀ s e, Decidable (ok s e)] :
    (s : σ) → (es : List ε) → Decidable (Allowed step ok s es)
  | _, [] => .isTrue trivial
  | s, e :: es =>
    match h : step s e with
    | none => decidable_of_iff (ok s e) ⟨fun hok => ⟨hok, by simp [h]⟩, fun hok => hok.1⟩
    | some t =>
      have : Decidable (Allowed step ok t es) := decidableAllowed t es
      decidable_of_iff (ok s e ∧ Allowed step ok t es) (by simp [Allowed, h])

theorem allowed_true (s : σ) (es : List ε) : Allowed step (fun _ _ => True) s es := by
  induction es generalizing s with
  | nil => trivial
  | cons e es ih => exact ⟨trivial, fun t _ => ih t⟩

theorem Allowed.and {ok ok' : σ → ε → Prop} {s : σ} {es : List ε} (h : Allowed step ok s es)
    (h' : Allowed step ok' s es) : Allowed step (fun s e => ok s e ∧ ok' s e) s es := by
  induction es generalizing s with
  | nil => trivial
  | cons e es ih => exact ⟨⟨h.1, h'.1⟩, fun t ht => ih (h.2 t ht) (h'.2 t ht)⟩

/-- **Invariance along allowed runs.** -/
theorem run_invariant {ok : σ → ε → Prop} {Inv : σ → Prop}
    (hstep : ∀ s e t, Inv s → ok s e → step s e = some t → Inv t)
    {s t : σ} {es : List ε} (hs : Inv s) (hok : Allowed step ok s es)
    (hrun : run step s es = some t) : Inv t := by
  induction es generalizing s with
  | nil =>
    obtain rfl : s = t := by simpa using hrun
    exact hs
  | cons e es ih =>
    obtain ⟨u, hu, hrest⟩ := run_cons_eq_some.1 hrun
    exact ih (hstep s e u hs hok.1 hu) (hok.2 u hu) hrest

/-- **Invariance along all runs.** -/
theorem run_invariant_all {Inv : σ → Prop}
    (hstep : ∀ s e t, Inv s → step s e = some t → Inv t)
    {s t : σ} {es : List ε} (hs : Inv s) (hrun : run step s es = some t) : Inv t :=
  run_invariant (fun s e t h _ => hstep s e t h) hs (allowed_true s es) hrun

/-- What an invariant forces on every event that can happen is true of every event of a run. -/
theorem forall_mem_of_run {Inv : σ → Prop} {P : ε → Prop}
    (hstep : ∀ s e t, Inv s → step s e = some t → Inv t ∧ P e)
    {s t : σ} {es : List ε} (hs : Inv s) (hrun : run step s es = some t) : ∀ e ∈ es, P e := by
  induction es generalizing s with
  | nil => simp
  | cons e es ih =>
    obtain ⟨u, hu, hrest⟩ := run_cons_eq_some.1 hrun
    obtain ⟨hinv, he⟩ := hstep s e u hs hu
    rintro e' (_ | ⟨_, he'⟩)
    · exact he
    · exact ih hinv hrest e' he'

end Kama.Machine
