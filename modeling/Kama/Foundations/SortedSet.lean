import Mathlib.Algebra.Order.Ring.Int
import Mathlib.Data.List.Destutter
import Mathlib.Data.List.Sort

/-!
# Sets as sorted lists

A list is brought into normal form by sorting it and dropping what repeats its neighbour. The
order need not tell all values apart, only those of the list.

* `Separates le R l`: on the items of `l`, `le` is antisymmetric and `R` is inequality;
* `mem_destutter_mergeSort`: the normal form has the items of the list;
* `destutter_mergeSort_eq`: it depends on nothing else.

`Alike S l l'` says of two lists that they have the same items up to a relation `S`.
-/

namespace Kama.SortedSet

variable {α β : Type} {le : α → α → Bool} {R : α → α → Prop} {l l' : List α}

/-- The order and the test of repetitions tell the items of the list apart. -/
structure Separates (le : α → α → Bool) (R : α → α → Prop) (l : List α) : Prop where
  antisymm : ∀ a ∈ l, ∀ b ∈ l, le a b → le b a → a = b
  ne_iff : ∀ a ∈ l, ∀ b ∈ l, R a b ↔ a ≠ b

theorem Separates.mono (h : Separates le R l) (hsub : ∀ a ∈ l', a ∈ l) : Separates le R l' :=
  ⟨fun a ha b hb => h.antisymm a (hsub a ha) b (hsub b hb),
    fun a ha b hb => h.ne_iff a (hsub a ha) b (hsub b hb)⟩

variable [DecidableRel R]

theorem mem_destutter (h : Separates le R l) {x : α} : x ∈ l.destutter R ↔ x ∈ l := by
  cases l with
  | nil => simp
  | cons b l =>
    rw [List.destutter_cons']
    induction l generalizing b with
    | nil => simp
    | cons a l ih =>
      by_cases hR : R b a
      · have htail := ih a (h.mono fun x => List.mem_cons_of_mem b)
        rw [List.destutter'_cons_pos _ hR, List.mem_cons, htail, List.mem_cons (a := x) (b := b)]
      · obtain rfl : b = a := by
          have := h.ne_iff b (by simp) a (by simp)
          tauto
        have htail := ih b (h.mono fun x => by simp)
        rw [List.destutter'_cons_neg _ hR, htail]
        simp

/-- Without repetitions, a sorted list is sorted strictly. -/
theorem pairwise_destutter (htrans : ∀ a b c, le a b → le b c → le a c)
    (hsorted : l.Pairwise fun a b => le a b) (h : Separates le R l) :
    (l.destutter R).Pairwise fun a b => le a b = true ∧ ¬le b a = true := by
  cases l with
  | nil => simp
  | cons b l =>
    rw [List.destutter_cons']
    induction l generalizing b with
    | nil => simp
    | cons a l ih =>
      obtain ⟨hb, hal⟩ := List.pairwise_cons.1 hsorted
      obtain ⟨ha, hl⟩ := List.pairwise_cons.1 hal
      by_cases hR : R b a
      · rw [List.destutter'_cons_pos _ hR, List.pairwise_cons]
        refine ⟨fun x hx => ?_, ih a hal (h.mono fun x => List.mem_cons_of_mem b)⟩
        have hx : x ∈ a :: l := (List.destutter'_sublist ..).subset hx
        refine ⟨hb x hx, fun hxb => ?_⟩
        -- `a` lies between `b` and `x`
        have hab : le a b = true := by
          rcases List.mem_cons.1 hx with rfl | hx
          · exact hxb
          · exact htrans a x b (ha x hx) hxb
        have hne := (h.ne_iff b (by simp) a (by simp)).1 hR
        exact hne (h.antisymm b (by simp) a (by simp) (hb a (by simp)) hab)
      · obtain rfl : b = a := by
          have := h.ne_iff b (by simp) a (by simp)
          tauto
        rw [List.destutter'_cons_neg _ hR]
        exact ih b hal (h.mono fun x => by simp)

/-! ## The normal form -/

theorem mem_destutter_mergeSort (h : Separates le R l) {x : α} :
    x ∈ (l.mergeSort le).destutter R ↔ x ∈ l := by
  have hperm := List.mergeSort_perm l le
  rw [mem_destutter (h.mono fun a => hperm.mem_iff.1), hperm.mem_iff]

/-- **The normal form depends only on the items.** -/
theorem destutter_mergeSort_eq (htrans : ∀ a b c, le a b → le b c → le a c)
    (htotal : ∀ a b, (le a b || le b a) = true) (h : Separates le R l)
    (hmem : ∀ x, x ∈ l' ↔ x ∈ l) :
    (l'.mergeSort le).destutter R = (l.mergeSort le).destutter R := by
  have h' : Separates le R l' := h.mono fun x => (hmem x).1
  have hstrict {m : List α} (hm : Separates le R m) :=
    pairwise_destutter htrans (List.pairwise_mergeSort htrans htotal m)
      (hm.mono fun a => (List.mergeSort_perm m le).mem_iff.1)
  have hirrefl : Std.Irrefl fun a b => le a b = true ∧ ¬le b a = true :=
    ⟨fun _ hab => hab.2 hab.1⟩
  have hantisymm : Std.Antisymm fun a b => le a b = true ∧ ¬le b a = true :=
    ⟨fun _ _ hab hba => absurd hba.1 hab.2⟩
  refine (hstrict h').eq_of_mem_iff (hstrict h) fun x => ?_
  rw [mem_destutter_mergeSort h', mem_destutter_mergeSort h, hmem]

/-! ## The same items up to a relation -/

variable {S T : α → α → Prop}

/-- Every item of one list has its like in the other. -/
def Alike (S : α → α → Prop) (l l' : List α) : Prop :=
  (∀ a ∈ l, ∃ a' ∈ l', S a a') ∧ ∀ a' ∈ l', ∃ a ∈ l, S a a'

namespace Alike

theorem mono (h : Alike S l l') (hST : ∀ a ∈ l, ∀ a' ∈ l', S a a' → T a a') : Alike T l l' := by
  refine ⟨fun a ha => ?_, fun a' ha' => ?_⟩
  · obtain ⟨a', ha', hs⟩ := h.1 a ha
    exact ⟨a', ha', hST a ha a' ha' hs⟩
  · obtain ⟨a, ha, hs⟩ := h.2 a' ha'
    exact ⟨a, ha, hST a ha a' ha' hs⟩

theorem of_mem (hS : ∀ a, S a a) (h : ∀ x, x ∈ l ↔ x ∈ l') : Alike S l l' :=
  ⟨fun a ha => ⟨a, (h a).1 ha, hS a⟩, fun a ha => ⟨a, (h a).2 ha, hS a⟩⟩

theorem symm (hS : ∀ a a', S a a' → S a' a) (h : Alike S l l') : Alike S l' l := by
  refine ⟨fun a ha => ?_, fun a ha => ?_⟩
  · obtain ⟨a', ha', hs⟩ := h.2 a ha
    exact ⟨a', ha', hS a' a hs⟩
  · obtain ⟨a', ha', hs⟩ := h.1 a ha
    exact ⟨a', ha', hS a a' hs⟩

theorem nil_iff (h : Alike S l l') : l = [] ↔ l' = [] := by
  simp only [List.eq_nil_iff_forall_not_mem]
  refine ⟨fun hnil a ha => ?_, fun hnil a ha => ?_⟩
  · obtain ⟨b, hb, -⟩ := h.2 a ha
    exact hnil b hb
  · obtain ⟨b, hb, -⟩ := h.1 a ha
    exact hnil b hb

/-- Whether an item satisfies a predicate that likes agree on. -/
theorem exists_mem_iff {P Q : α → Prop} (h : Alike S l l')
    (hPQ : ∀ a ∈ l, ∀ a' ∈ l', S a a' → (P a ↔ Q a')) : (∃ a ∈ l, P a) ↔ ∃ a ∈ l', Q a := by
  constructor
  · rintro ⟨a, ha, hp⟩
    obtain ⟨a', ha', hs⟩ := h.1 a ha
    exact ⟨a', ha', (hPQ a ha a' ha' hs).1 hp⟩
  · rintro ⟨a', ha', hq⟩
    obtain ⟨a, ha, hs⟩ := h.2 a' ha'
    exact ⟨a, ha, (hPQ a ha a' ha' hs).2 hq⟩

theorem forall_mem_iff {P Q : α → Prop} (h : Alike S l l')
    (hPQ : ∀ a ∈ l, ∀ a' ∈ l', S a a' → (P a ↔ Q a')) : (∀ a ∈ l, P a) ↔ ∀ a ∈ l', Q a := by
  constructor
  · intro hall a' ha'
    obtain ⟨a, ha, hs⟩ := h.2 a' ha'
    exact (hPQ a ha a' ha' hs).1 (hall a ha)
  · intro hall a ha
    obtain ⟨a', ha', hs⟩ := h.1 a ha
    exact (hPQ a ha a' ha' hs).2 (hall a' ha')

theorem append {m m' : List α} (h : Alike S l l') (hm : Alike S m m') :
    Alike S (l ++ m) (l' ++ m') := by
  constructor
  · intro a ha
    rcases List.mem_append.1 ha with ha | ha
    · obtain ⟨a', ha', hs⟩ := h.1 a ha
      exact ⟨a', List.mem_append_left _ ha', hs⟩
    · obtain ⟨a', ha', hs⟩ := hm.1 a ha
      exact ⟨a', List.mem_append_right _ ha', hs⟩
  · intro a' ha'
    rcases List.mem_append.1 ha' with ha' | ha'
    · obtain ⟨a, ha, hs⟩ := h.2 a' ha'
      exact ⟨a, List.mem_append_left _ ha, hs⟩
    · obtain ⟨a, ha, hs⟩ := hm.2 a' ha'
      exact ⟨a, List.mem_append_right _ ha, hs⟩

theorem map {f : α → β} {T : β → β → Prop} (h : Alike S l l')
    (hf : ∀ a a', S a a' → T (f a) (f a')) : Alike T (l.map f) (l'.map f) := by
  refine ⟨fun b hb => ?_, fun b hb => ?_⟩
  · obtain ⟨a, ha, rfl⟩ := List.mem_map.1 hb
    obtain ⟨a', ha', hs⟩ := h.1 a ha
    exact ⟨f a', List.mem_map_of_mem ha', hf a a' hs⟩
  · obtain ⟨a', ha', rfl⟩ := List.mem_map.1 hb
    obtain ⟨a, ha, hs⟩ := h.2 a' ha'
    exact ⟨f a, List.mem_map_of_mem ha, hf a a' hs⟩

theorem filter {p : α → Bool} (h : Alike S l l') (hp : ∀ a a', S a a' → p a = p a') :
    Alike S (l.filter p) (l'.filter p) := by
  refine ⟨fun a ha => ?_, fun a' ha' => ?_⟩
  · obtain ⟨ha, hpa⟩ := List.mem_filter.1 ha
    obtain ⟨a', ha', hs⟩ := h.1 a ha
    exact ⟨a', List.mem_filter.2 ⟨ha', hp a a' hs ▸ hpa⟩, hs⟩
  · obtain ⟨ha', hpa⟩ := List.mem_filter.1 ha'
    obtain ⟨a, ha, hs⟩ := h.2 a' ha'
    exact ⟨a, List.mem_filter.2 ⟨ha, (hp a a' hs).symm ▸ hpa⟩, hs⟩

/-- Two lists that a function makes of likes have the same items. -/
theorem mem_map {f : α → β} (h : Alike S l l') (hf : ∀ a ∈ l, ∀ a' ∈ l', S a a' → f a = f a')
    (x : β) : x ∈ l'.map f ↔ x ∈ l.map f := by
  simp only [List.mem_map]
  constructor
  · rintro ⟨a', ha', rfl⟩
    obtain ⟨a, ha, hs⟩ := h.2 a' ha'
    exact ⟨a, ha, hf a ha a' ha' hs⟩
  · rintro ⟨a, ha, rfl⟩
    obtain ⟨a', ha', hs⟩ := h.1 a ha
    exact ⟨a', ha', (hf a ha a' ha' hs).symm⟩

end Alike

end Kama.SortedSet
