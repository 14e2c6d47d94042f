import Mathlib.Order.Bounds.Basic
import Kama.Controller.NodeAffinity

/-!
# Constraints

`nodeSelectorTermsCompatible` collects constraints in the order in which the requirements are
listed. What it decides does not depend on that order:

* `SelectorConstraint.Describes`: a constraint is what a set of requirements says about one label
  or field; a set has at most one such constraint, up to the order of its lists
  (`satisfiable_eq`);
* `describes_with`: one more requirement gives the constraint of the larger set, unless the set
  has none;
* `compatible_iff`: two terms are compatible exactly when the set of all their requirements is
  `Consistent`.
-/

namespace Kama.Controller

open Bytes Json

/-! ## Constraints of a set of requirements -/

/-- Whether the label or field has to be there. -/
def NodeSelectorRequirement.presence (r : NodeSelectorRequirement) : Bool :=
  decide (r.operator ≠ .opDoesNotExist)

/-- A requirement that can be read. -/
structure NodeSelectorRequirement.Usable (r : NodeSelectorRequirement) : Prop where
  values : r.operator = .opIn → r.values ≠ []
  bound : r.operator.Compares → r.bound.isSome = true

/-- The bounds that requirements with the operator set. -/
def boundsOf (o : NodeSelectorOperator) (rs : Set NodeSelectorRequirement) : Set Int :=
  {b | ∃ r ∈ rs, r.operator = o ∧ r.bound = some b}

/-- The constraint says what the requirements say. -/
structure SelectorConstraint.Describes (c : SelectorConstraint)
    (rs : Set NodeSelectorRequirement) : Prop where
  existence : c.existence.elim (rs = ∅) fun b => rs.Nonempty ∧ ∀ r ∈ rs, r.presence = b
  allowed : c.allowed.elim (∀ r ∈ rs, r.operator ≠ .opIn) fun l =>
    (∃ r ∈ rs, r.operator = .opIn) ∧ ∀ v, v ∈ l ↔ ∀ r ∈ rs, r.operator = .opIn → v ∈ r.values
  excluded : ∀ v, v ∈ c.excluded ↔ ∃ r ∈ rs, r.operator = .opNotIn ∧ v ∈ r.values
  lower : c.lower.elim (boundsOf .opGt rs = ∅) (IsGreatest (boundsOf .opGt rs))
  upper : c.upper.elim (boundsOf .opLt rs = ∅) (IsLeast (boundsOf .opLt rs))

variable {c c' : SelectorConstraint} {r : NodeSelectorRequirement}
  {rs rs' : Set NodeSelectorRequirement}

theorem describes_empty : SelectorConstraint.empty.Describes ∅ := by
  constructor <;> simp [SelectorConstraint.empty, boundsOf]

/-- The constraint with what the requirement adds. -/
def SelectorConstraint.with (c : SelectorConstraint) (r : NodeSelectorRequirement) :
    SelectorConstraint where
  existence := some r.presence
  allowed :=
    if r.operator = .opIn then some (c.allowed.elim r.values fun l => l.filter (· ∈ r.values))
    else c.allowed
  excluded := if r.operator = .opNotIn then c.excluded ++ r.values else c.excluded
  lower :=
    if r.operator = .opGt then r.bound.map fun b => c.lower.elim b fun l => max l b else c.lower
  upper :=
    if r.operator = .opLt then r.bound.map fun b => c.upper.elim b fun u => min u b else c.upper

theorem requireExists_eq_some {present : Bool} : c.requireExists present = some c' ↔
    c.existence ≠ some (!present) ∧ { c with existence := some present } = c' := by
  unfold SelectorConstraint.requireExists
  split
  case isTrue h => simp [h]
  case isFalse h => simp [h]

/-- What a requirement does to a constraint, and when it is refused. -/
theorem apply_eq_some : applySelectorRequirement c r = some c' ↔
    r.Usable ∧ c.existence ≠ some (!r.presence) ∧ c.with r = c' := by
  have husable : r.Usable ↔ (r.operator = .opIn → r.values ≠ []) ∧
      (r.operator.Compares → r.bound.isSome = true) := ⟨fun h => ⟨h.1, h.2⟩, fun h => ⟨h.1, h.2⟩⟩
  rw [husable]
  unfold applySelectorRequirement
  cases hop : r.operator <;>
    simp only [Option.bind_eq_bind, Option.bind_eq_some_iff, requireExists_eq_some,
      NodeSelectorRequirement.presence, SelectorConstraint.with, hop,
      NodeSelectorOperator.Compares]
  case opExists | opDoesNotExist | opNotIn => simp
  case opIn => cases hl : c.allowed <;> simp [and_left_comm]
  case opGt | opLt =>
    unfold NodeSelectorRequirement.bound
    rcases r.values with _ | ⟨v, _ | ⟨v', l⟩⟩
    case cons.nil => cases hb : parseInt v <;> simp [hb]
    all_goals simp

theorem boundsOf_insert_of_ne {o : NodeSelectorOperator} (h : r.operator ≠ o) :
    boundsOf o (insert r rs) = boundsOf o rs := by
  ext b
  simp [boundsOf, h]

theorem boundsOf_insert {o : NodeSelectorOperator} {b : Int} (h : r.operator = o)
    (hb : r.bound = some b) : boundsOf o (insert r rs) = insert b (boundsOf o rs) := by
  ext b'
  simp [boundsOf, h, hb, eq_comm]

theorem existence_with (h : c.Describes rs) (hexists : c.existence ≠ some (!r.presence)) :
    ∀ r' ∈ insert r rs, r'.presence = r.presence := by
  rintro r' (rfl | hr')
  · rfl
  have hold := h.existence
  cases he : c.existence with
  | none =>
    rw [he] at hold
    exact absurd hr' (hold ▸ Set.notMem_empty r')
  | some b =>
    rw [he] at hold hexists
    rw [hold.2 r' hr']
    cases b <;> cases hp : r.presence <;> simp [hp] at hexists ⊢

theorem mem_allowed_with (h : c.Describes rs) (hop : r.operator = .opIn) (v : Bytes) :
    v ∈ (c.allowed.elim r.values fun l => l.filter (· ∈ r.values)) ↔
      ∀ r' ∈ insert r rs, r'.operator = .opIn → v ∈ r'.values := by
  have hold := h.allowed
  rw [Set.forall_mem_insert]
  cases hl : c.allowed with
  | none =>
    rw [hl] at hold
    simpa [hop] using fun _ r' hr' hop' => absurd hop' (hold r' hr')
  | some l =>
    rw [hl] at hold
    simp [hold.2, hop, and_comm]

theorem lower_with (h : c.Describes rs) {b : Int} (hop : r.operator = .opGt)
    (hb : r.bound = some b) :
    IsGreatest (boundsOf .opGt (insert r rs)) (c.lower.elim b fun l => max l b) := by
  have hold := h.lower
  rw [boundsOf_insert hop hb]
  cases hl : c.lower with
  | none =>
    rw [hl] at hold
    simp [show boundsOf .opGt rs = ∅ from hold]
  | some l =>
    rw [hl] at hold
    rw [Option.elim_some, max_comm]
    exact hold.insert b

theorem upper_with (h : c.Describes rs) {b : Int} (hop : r.operator = .opLt)
    (hb : r.bound = some b) :
    IsLeast (boundsOf .opLt (insert r rs)) (c.upper.elim b fun u => min u b) := by
  have hold := h.upper
  rw [boundsOf_insert hop hb]
  cases hu : c.upper with
  | none =>
    rw [hu] at hold
    simp [show boundsOf .opLt rs = ∅ from hold]
  | some u =>
    rw [hu] at hold
    rw [Option.elim_some, min_comm]
    exact hold.insert b

/-- One more requirement. -/
theorem describes_with (h : c.Describes rs) (husable : r.Usable)
    (hexists : c.existence ≠ some (!r.presence)) : (c.with r).Describes (insert r rs) where
  existence := ⟨⟨r, .inl rfl⟩, existence_with h hexists⟩
  allowed := by
    by_cases hop : r.operator = .opIn
    · simp only [SelectorConstraint.with, hop, if_true, Option.elim_some]
      exact ⟨⟨r, .inl rfl, hop⟩, mem_allowed_with h hop⟩
    · have hold := h.allowed
      simp only [SelectorConstraint.with, hop, if_false]
      cases hl : c.allowed <;> rw [hl] at hold <;> simpa [hop] using hold
  excluded v := by
    by_cases hop : r.operator = .opNotIn
    · simp [SelectorConstraint.with, hop, h.excluded, or_comm]
    · simp [SelectorConstraint.with, hop, h.excluded]
  lower := by
    by_cases hop : r.operator = .opGt
    · obtain ⟨b, hb⟩ := Option.isSome_iff_exists.1 (husable.bound (.inl hop))
      simpa [SelectorConstraint.with, hop, hb] using lower_with h hop hb
    · rw [boundsOf_insert_of_ne hop]
      simpa [SelectorConstraint.with, hop] using h.lower
  upper := by
    by_cases hop : r.operator = .opLt
    · obtain ⟨b, hb⟩ := Option.isSome_iff_exists.1 (husable.bound (.inr hop))
      simpa [SelectorConstraint.with, hop, hb] using upper_with h hop hb
    · rw [boundsOf_insert_of_ne hop]
      simpa [SelectorConstraint.with, hop] using h.upper

/-! ## The constraint of a set is unique -/

theorem elim_unique {α : Type} {N : Prop} {P : α → Prop} {o o' : Option α}
    (hN : N → ∀ a, ¬P a) (hP : ∀ a a', P a → P a' → a = a') (h : o.elim N P) (h' : o'.elim N P) :
    o = o' := by
  cases o with
  | none =>
    cases o' with
    | none => rfl
    | some a => exact absurd h' (hN h a)
  | some a =>
    cases o' with
    | none => exact absurd h (hN h' a)
    | some a' => rw [hP a a' h h']

theorem withinBounds_eq (hlower : c.lower = c'.lower) (hupper : c.upper = c'.upper)
    (hexcluded : ∀ v, v ∈ c.excluded ↔ v ∈ c'.excluded) (v : Bytes) :
    c.withinBounds v = c'.withinBounds v := by
  simp only [SelectorConstraint.withinBounds, hlower, hupper, hexcluded]

theorem satisfiable_eq (h : c.Describes rs) (h' : c'.Describes rs) :
    selectorConstraintSatisfiable c = selectorConstraintSatisfiable c' := by
  have hexistence : c.existence = c'.existence := by
    refine elim_unique ?_ ?_ h.existence h'.existence
    · rintro rfl b ⟨hne, -⟩
      exact Set.not_nonempty_empty hne
    · rintro b b' ⟨⟨r, hr⟩, hb⟩ ⟨-, hb'⟩
      rw [← hb r hr, hb' r hr]
  have hlower : c.lower = c'.lower :=
    elim_unique (fun hnil a ha => by simpa [hnil] using ha.1) (fun _ _ => IsGreatest.unique)
      h.lower h'.lower
  have hupper : c.upper = c'.upper :=
    elim_unique (fun hnil a ha => by simpa [hnil] using ha.1) (fun _ _ => IsLeast.unique)
      h.upper h'.upper
  have hexcluded : ∀ v, v ∈ c.excluded ↔ v ∈ c'.excluded := fun v => by
    rw [h.excluded, h'.excluded]
  have hallowed := h.allowed
  have hallowed' := h'.allowed
  unfold selectorConstraintSatisfiable
  rw [hexistence, hlower, hupper]
  cases hl : c.allowed <;> cases hl' : c'.allowed <;> rw [hl] at hallowed <;> rw [hl'] at hallowed'
  case none.none => simp only [hexcluded]
  case none.some l' =>
    obtain ⟨r, hr, hop⟩ := hallowed'.1
    exact absurd hop (hallowed r hr)
  case some.none l =>
    obtain ⟨r, hr, hop⟩ := hallowed.1
    exact absurd hop (hallowed' r hr)
  case some.some l l' =>
    have hany : l.any c.withinBounds = l'.any c'.withinBounds := by
      rw [Bool.eq_iff_iff]
      simp only [List.any_eq_true, hallowed.2, hallowed'.2,
        withinBounds_eq hlower hupper hexcluded]
    simp [hany]

/-! ## The requirements of two terms -/

/-- The requirements on one label or field, as a set. -/
def onName (reqs : List (Bytes × NodeSelectorRequirement)) (name : Bytes) :
    Set NodeSelectorRequirement :=
  {r | ∃ q ∈ reqs, nameOf q = name ∧ q.2 = r}

/-- There are constraints that say what the requirements say, and values for them. -/
structure Consistent (reqs : List (Bytes × NodeSelectorRequirement)) : Prop where
  usable : ∀ q ∈ reqs, q.2.Usable
  satisfiable : ∀ q ∈ reqs, ∃ c : SelectorConstraint,
    c.Describes (onName reqs (nameOf q)) ∧ selectorConstraintSatisfiable c = true

/-- What is collected is one constraint for each label or field with requirements. -/
structure CollectedAs (constraints : List (Bytes × SelectorConstraint))
    (reqs : List (Bytes × NodeSelectorRequirement)) : Prop where
  describes : ∀ entry ∈ constraints, entry.2.Describes (onName reqs entry.1)
  mem : ∀ name, (∃ q ∈ reqs, nameOf q = name) ↔ ∃ entry ∈ constraints, entry.1 = name

variable {constraints constraints' : List (Bytes × SelectorConstraint)}
  {reqs reqs' : List (Bytes × NodeSelectorRequirement)} {q : Bytes × NodeSelectorRequirement}

theorem onName_append_self :
    onName (reqs ++ [q]) (nameOf q) = insert q.2 (onName reqs (nameOf q)) := by
  ext r
  simp [onName, or_comm, eq_comm]

theorem onName_append_of_ne {name : Bytes} (h : nameOf q ≠ name) :
    onName (reqs ++ [q]) name = onName reqs name := by
  ext r
  simp [onName, h]

/-- The constraint on a label or field is one of the list, or empty. -/
theorem lookup_cases (constraints : List (Bytes × SelectorConstraint)) (key : Bytes) :
    (key, (constraints.lookup key).getD .empty) ∈ constraints ∨
      (constraints.lookup key).getD .empty = .empty ∧ ∀ entry ∈ constraints, entry.1 ≠ key := by
  cases hl : constraints.lookup key with
  | none =>
    refine .inr ⟨rfl, fun entry hentry heq => ?_⟩
    have := List.lookup_eq_none_iff.1 hl entry hentry
    simp [heq] at this
  | some c =>
    obtain ⟨l₁, l₂, rfl, -⟩ := List.lookup_eq_some_iff.1 hl
    exact .inl (List.mem_append_right _ List.mem_cons_self)

theorem CollectedAs.describes_lookup (h : CollectedAs constraints reqs) (name : Bytes) :
    ((constraints.lookup name).getD .empty).Describes (onName reqs name) := by
  rcases lookup_cases constraints name with hmem | ⟨hempty, hnone⟩
  · exact h.describes _ hmem
  · have hnil : onName reqs name = ∅ := by
      refine Set.eq_empty_of_forall_notMem fun r hr => ?_
      obtain ⟨q, hq, hname, -⟩ := hr
      obtain ⟨entry, hentry, heq⟩ := (h.mem name).1 ⟨q, hq, hname⟩
      exact hnone entry hentry heq
    rw [hempty, hnil]
    exact describes_empty

theorem CollectedAs.step (h : CollectedAs constraints reqs)
    (happly : applyRequirement constraints (nameOf q) q.2 = some constraints') :
    CollectedAs constraints' (reqs ++ [q]) := by
  obtain ⟨c, hc, happly⟩ := Option.bind_eq_some_iff.1 happly
  obtain rfl := Option.some.inj happly
  obtain ⟨husable, hexists, rfl⟩ := apply_eq_some.1 hc
  refine ⟨fun entry hentry => ?_, fun name => ?_⟩
  · rcases List.mem_cons.1 hentry with rfl | hentry
    · rw [onName_append_self]
      exact describes_with (h.describes_lookup _) husable hexists
    · obtain ⟨hentry, hne⟩ := List.mem_filter.1 hentry
      rw [onName_append_of_ne fun heq => by simp [heq] at hne]
      exact h.describes entry hentry
  · by_cases hname : nameOf q = name
    · simp [hname]
    · simpa [hname, and_assoc, and_comm, Ne.symm hname] using h.mem name

theorem Consistent.presence_eq (h : Consistent reqs) (hq : q ∈ reqs) :
    ∀ r ∈ onName reqs (nameOf q), r.presence = q.2.presence := by
  intro r hr
  obtain ⟨c, hc, -⟩ := h.satisfiable q hq
  have hpresence := hc.existence
  cases he : c.existence with
  | none =>
    rw [he] at hpresence
    exact absurd hr (hpresence ▸ Set.notMem_empty r)
  | some b =>
    rw [he] at hpresence
    rw [hpresence.2 r hr, hpresence.2 q.2 ⟨q, hq, rfl, rfl⟩]

/-- The run of the whole list, by induction on what is left of it. -/
theorem applyRequirements_run (h : CollectedAs constraints reqs)
    (more : List (Bytes × NodeSelectorRequirement)) :
    (∀ constraints', applyRequirements constraints more = some constraints' →
      CollectedAs constraints' (reqs ++ more) ∧ ∀ q ∈ more, q.2.Usable) ∧
    (Consistent (reqs ++ more) →
      ∃ constraints', applyRequirements constraints more = some constraints') := by
  induction more generalizing constraints reqs with
  | nil =>
    refine ⟨fun constraints' happly => ?_, fun _ => ⟨_, rfl⟩⟩
    obtain rfl := Option.some.inj happly
    rw [List.append_nil]
    exact ⟨h, by simp⟩
  | cons q more ih =>
    rw [List.append_cons]
    refine ⟨fun constraints' happly => ?_, fun hconsistent => ?_⟩
    · obtain ⟨constraints₁, hstep, happly⟩ := Option.bind_eq_some_iff.1 happly
      obtain ⟨hcollected, husable⟩ := (ih (h.step hstep)).1 constraints' happly
      obtain ⟨c, hc, -⟩ := Option.bind_eq_some_iff.1 hstep
      exact ⟨hcollected, List.forall_mem_cons.2 ⟨(apply_eq_some.1 hc).1, husable⟩⟩
    · have hq : q ∈ reqs ++ [q] ++ more := by simp
      have hexists : ((constraints.lookup (nameOf q)).getD .empty).existence ≠
          some (!q.2.presence) := by
        intro he
        have hold := (h.describes_lookup (nameOf q)).existence
        rw [he] at hold
        obtain ⟨⟨r, hr⟩, hall⟩ := hold
        obtain ⟨q', hq', hname, rfl⟩ := hr
        have hsame := hconsistent.presence_eq hq q'.2 ⟨q', by simp [hq'], hname, rfl⟩
        rw [hall q'.2 ⟨q', hq', hname, rfl⟩] at hsame
        cases hp : q.2.presence <;> simp [hp] at hsame
      have hc := apply_eq_some.2 ⟨hconsistent.usable q hq, hexists, rfl⟩
      obtain ⟨constraints₁, hstep⟩ : ∃ constraints₁,
          applyRequirement constraints (nameOf q) q.2 = some constraints₁ :=
        ⟨_, Option.bind_eq_some_iff.2 ⟨_, hc, rfl⟩⟩
      obtain ⟨constraints', hrest⟩ := (ih (h.step hstep)).2 hconsistent
      exact ⟨constraints', Option.bind_eq_some_iff.2 ⟨_, hstep, hrest⟩⟩

/-- The requirements of both terms can be collected, and what they leave be satisfied. -/
theorem nodeSelectorTermsCompatible_iff {left right : NodeSelectorTerm} :
    nodeSelectorTermsCompatible left right = true ↔ ∃ constraints,
      applyRequirements [] (pairRequirements left right) = some constraints ∧
      ∀ entry ∈ constraints, selectorConstraintSatisfiable entry.2 = true := by
  unfold nodeSelectorTermsCompatible pairRequirements labelDomain fieldDomain
  dsimp only
  generalize applyRequirements [] _ = found
  cases found with
  | none => simp
  | some constraints => simp [List.all_eq_true]

/-- **When two terms are compatible.** -/
theorem compatible_iff {left right : NodeSelectorTerm} :
    nodeSelectorTermsCompatible left right = true ↔ Consistent (pairRequirements left right) := by
  have hnil : CollectedAs [] [] := ⟨by simp, by simp⟩
  obtain ⟨hrun, hexists⟩ := applyRequirements_run hnil (pairRequirements left right)
  rw [List.nil_append] at hrun hexists
  rw [nodeSelectorTermsCompatible_iff]
  constructor
  · rintro ⟨constraints, happly, hall⟩
    obtain ⟨hcollected, husable⟩ := hrun constraints happly
    refine ⟨husable, fun q hq => ?_⟩
    obtain ⟨entry, hentry, hname⟩ := (hcollected.mem (nameOf q)).1 ⟨q, hq, rfl⟩
    exact ⟨entry.2, hname ▸ hcollected.describes entry hentry, hall entry hentry⟩
  · intro hconsistent
    obtain ⟨constraints, happly⟩ := hexists hconsistent
    obtain ⟨hcollected, -⟩ := hrun constraints happly
    refine ⟨constraints, happly, fun entry hentry => ?_⟩
    obtain ⟨q, hq, hname⟩ := (hcollected.mem entry.1).2 ⟨entry, hentry, rfl⟩
    obtain ⟨c, hc, hsat⟩ := hconsistent.satisfiable q hq
    rw [satisfiable_eq (hcollected.describes entry hentry) (hname ▸ hc), hsat]

theorem volumesCompatible_iff {a b : Option VolumeNodeAffinity} :
    volumeNodeAffinitiesCompatible a b = true ↔
      ∃ left ∈ candidates a, ∃ right ∈ candidates b,
        nodeSelectorTermsCompatible left right = true := by
  have hnone : nodeSelectorTermsCompatible ⟨[], []⟩ ⟨[], []⟩ = true := by decide
  unfold volumeNodeAffinitiesCompatible candidates
  cases requiredVolumeTerms a <;> cases requiredVolumeTerms b <;>
    simp [hnone, and_assoc]

end Kama.Controller
