import Mathlib.Algebra.Order.Ring.Int
import Mathlib.Data.List.Basic

/-!
# Readers of a sequence

A reader takes items from the front of a list and may fail. What is known of a reader is a
relation between the items it took and its result:

* `Takes r c a`: given `c` and anything behind it, `r` takes exactly `c` and returns `a`; given
  less than `c` it fails;
* `Parses r P`: whenever `r` succeeds it took some `c` in this sense, and `P c a` holds of `c` and
  the result;
* `Reads r c a`: the half of `Takes` that a writer of `c` needs.

Such a reader never looks past what it takes, so a file can be cut and extended behind it. The
rules follow the ways a reader is put together.
-/

namespace Kama.Reader

variable {τ ε α β : Type}

/-! ## Computations that may fail -/

theorem except_bind_eq_ok {x : Except ε α} {f : α → Except ε β} {b : β} :
    (x >>= f) = .ok b ↔ ∃ a, x = .ok a ∧ f a = .ok b := by
  cases x with
  | error e =>
    refine ⟨fun h => ?_, ?_⟩
    · cases h
    · rintro ⟨a, ha, -⟩
      cases ha
  | ok a =>
    refine ⟨fun h => ⟨a, rfl, h⟩, ?_⟩
    rintro ⟨a', ha, h⟩
    cases ha
    exact h

theorem mapError_eq_ok {ε' : Type} {f : ε → ε'} {x : Except ε α} {a : α} :
    x.mapError f = .ok a ↔ x = .ok a := by
  cases x <;> simp [Except.mapError]

/-- A computation that first refuses what satisfies `p`. -/
theorem except_refuse_eq_ok {p : Prop} [Decidable p] {err : ε} {x : Except ε α} {a : α} :
    (do
      if p then throw err
      x) = .ok a ↔ ¬p ∧ x = .ok a := by
  by_cases hp : p
  · simp only [hp, if_true, not_true, false_and, iff_false]
    intro h
    cases h
  · simp only [hp, if_false, not_false_eq_true, true_and]

/-! ## Readers -/

/-- `r` takes exactly `c` and returns `a`, and fails on everything shorter. -/
structure Takes (r : StateT (List τ) (Except ε) α) (c : List τ) (a : α) : Prop where
  exact : ∀ rest, r (c ++ rest) = .ok (a, rest)
  short : ∀ d e, c = d ++ e → e ≠ [] → ∃ err, r d = .error err

/-- Whatever `r` accepts, it accepts for what it took, which satisfies `P`. -/
def Parses (r : StateT (List τ) (Except ε) α) (P : List τ → α → Prop) : Prop :=
  ∀ ⦃s a rest⦄, r s = .ok (a, rest) → ∃ c, s = c ++ rest ∧ Takes r c a ∧ P c a

variable {r : StateT (List τ) (Except ε) α} {P Q : List τ → α → Prop}

theorem bind_eq (r : StateT (List τ) (Except ε) α) (f : α → StateT (List τ) (Except ε) β)
    (s : List τ) : (r >>= f) s = (r s >>= fun x => f x.1 x.2) := rfl

theorem bind_ok {f : α → StateT (List τ) (Except ε) β} {s rest : List τ} {b : β}
    (h : (r >>= f) s = .ok (b, rest)) :
    ∃ a s', r s = .ok (a, s') ∧ f a s' = .ok (b, rest) := by
  rw [bind_eq] at h
  cases hr : r s with
  | error e => rw [hr] at h; cases h
  | ok x => rw [hr] at h; exact ⟨x.1, x.2, rfl, h⟩

theorem bind_of_ok {f : α → StateT (List τ) (Except ε) β} {s s' : List τ} {a : α}
    (h : r s = .ok (a, s')) : (r >>= f) s = f a s' := by
  rw [bind_eq, h]
  rfl

theorem bind_of_error {f : α → StateT (List τ) (Except ε) β} {s : List τ} {err : ε}
    (h : r s = .error err) : (r >>= f) s = .error err := by
  rw [bind_eq, h]
  rfl

namespace Takes

theorem pure (a : α) : Takes (pure a : StateT (List τ) (Except ε) α) [] a where
  exact _ := rfl
  short _ _ h he := absurd (List.append_eq_nil_iff.1 h.symm).2 he

theorem bind {f : α → StateT (List τ) (Except ε) β} {c c' : List τ} {a : α} {b : β}
    (hr : Takes r c a) (hf : Takes (f a) c' b) : Takes (r >>= f) (c ++ c') b where
  exact rest := by
    rw [List.append_assoc, bind_of_ok (hr.exact _), hf.exact]
  short d e h he := by
    -- the cut lies in what `r` takes, or behind it in what `f a` takes
    rcases List.append_eq_append_iff.1 h with ⟨m, rfl, hm⟩ | ⟨m, rfl, rfl⟩
    · obtain ⟨err, herr⟩ := hf.short m e hm he
      exact ⟨err, (bind_of_ok (hr.exact m)).trans herr⟩
    · rcases eq_or_ne m [] with rfl | hm
      · obtain ⟨err, herr⟩ := hf.short [] c' rfl (by simpa using he)
        refine ⟨err, (bind_of_ok ?_).trans herr⟩
        simpa using hr.exact []
      · obtain ⟨err, herr⟩ := hr.short d m rfl hm
        exact ⟨err, bind_of_error herr⟩

end Takes

namespace Parses

theorem mono (h : Parses r P) (hPQ : ∀ c a, P c a → Q c a) : Parses r Q := by
  intro s a rest hs
  obtain ⟨c, hc, ht, hp⟩ := h hs
  exact ⟨c, hc, ht, hPQ c a hp⟩

theorem pure {a : α} (h : P [] a) : Parses (pure a : StateT (List τ) (Except ε) α) P := by
  intro s b rest hs
  cases hs
  exact ⟨[], rfl, .pure a, h⟩

theorem fail (err : ε) : Parses (throw err : StateT (List τ) (Except ε) α) P := by
  intro s a rest hs
  cases hs

theorem bind {f : α → StateT (List τ) (Except ε) β} {R : List τ → β → Prop} (hr : Parses r P)
    (hf : ∀ c a, P c a → Parses (f a) fun c' b => R (c ++ c') b) : Parses (r >>= f) R := by
  intro s b rest hs
  obtain ⟨a, s', hs', hb⟩ := bind_ok hs
  obtain ⟨c, rfl, htc, hp⟩ := hr hs'
  obtain ⟨c', rfl, htc', hq⟩ := hf c a hp hb
  exact ⟨c ++ c', (List.append_assoc ..).symm, htc.bind htc', hq⟩

theorem ite {p : Prop} [Decidable p] {r' : StateT (List τ) (Except ε) α}
    (h : p → Parses r P) (h' : ¬p → Parses r' P) : Parses (if p then r else r') P := by
  split
  · exact h ‹_›
  · exact h' ‹_›

/-- A reader that first refuses what satisfies `p`. -/
theorem refuse {p : Prop} [Decidable p] {err : ε} (h : ¬p → Parses r P) :
    Parses (do
      if p then throw err
      r) P := by
  refine ite (fun _ => ?_) h
  exact bind (P := fun _ _ => False) (fail err) fun _ _ hf => hf.elim

/-- A computation that reads nothing. -/
theorem lift (x : Except ε α) : Parses (StateT.lift x : StateT (List τ) (Except ε) α)
    fun c a => c = [] ∧ x = .ok a := by
  cases x with
  | error e =>
    intro s a rest hs
    cases hs
  | ok a => exact pure ⟨rfl, rfl⟩

end Parses

/-! ## Reading what was written -/

/-- Given `c` and anything behind it, `r` takes exactly `c` and returns `a`. -/
def Reads (r : StateT (List τ) (Except ε) α) (c : List τ) (a : α) : Prop :=
  ∀ rest, r (c ++ rest) = .ok (a, rest)

namespace Reads

theorem pure (a : α) : Reads (pure a : StateT (List τ) (Except ε) α) [] a := fun _ => rfl

theorem bind {f : α → StateT (List τ) (Except ε) β} {c c' : List τ} {a : α} {b : β}
    (hr : Reads r c a) (hf : Reads (f a) c' b) : Reads (r >>= f) (c ++ c') b := by
  intro rest
  rw [List.append_assoc, bind_of_ok (hr _), hf]

theorem then_pure {c : List τ} {a : α} (hr : Reads r c a) (f : α → β) :
    Reads (r >>= fun a => Pure.pure (f a)) c (f a) := fun rest => bind_of_ok (hr rest)

/-- A refusal that does not apply. -/
theorem pass {p : Prop} [Decidable p] {err : ε} {c : List τ} {a : α} (hp : ¬p) (h : Reads r c a) :
    Reads (do
      if p then throw err
      r) c a := by
  intro rest
  rw [if_neg hp]
  exact h rest

theorem lift {x : Except ε α} {a : α} (h : x = .ok a) :
    Reads (StateT.lift x : StateT (List τ) (Except ε) α) [] a := by
  subst h
  exact fun _ => rfl

theorem takes {c : List τ} {a : α} (h : Reads r c a) (hr : Parses r P) :
    Takes r c a ∧ P c a := by
  obtain ⟨c', hc, ht⟩ := hr (h [])
  obtain rfl : c = c' := by simpa using hc
  exact ht

end Reads

end Kama.Reader
