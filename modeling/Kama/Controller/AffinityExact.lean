import Kama.Controller.SelectorConstraints

/-!
# What the compatibility check decides

`volumeNodeAffinitiesCompatible` looks for a pair of terms that one node can meet. On each label and
field it errs in two ways:

* it reads `NotIn` as a demand that the label is there, and takes the usual spelling of an integer
  for the only one (`Unambiguous` excludes both), so that it misses nodes;
* with one bound only, it does not look whether the bound is the end of the range (`Beyond`), so
  that it finds nodes that cannot be.

`accepts_iff`: there are no others. `no_node_of_incompatible_iff` and
`exists_node_of_compatible_iff` say for two affinities when the answers are right.
-/

namespace Kama.Controller

open Bytes Json

/-- The requirements on one label or field that the controller reads as Kubernetes does: `NotIn` is
not combined with `DoesNotExist`, and bounds that leave one integer do not exclude its usual
spelling. With `In`, the values that are listed are tried one by one. -/
@[mk_iff] structure Unambiguous (rs : List NodeSelectorRequirement) : Prop where
  existence : ∀ r ∈ rs, r.operator = .opNotIn → ∀ r' ∈ rs, r'.operator ≠ .opDoesNotExist
  spelling : (∀ r ∈ rs, r.operator ≠ .opIn) → ∀ l ∈ bounds .opGt rs, l + 2 ∈ bounds .opLt rs →
    ∀ r ∈ rs, r.operator = .opNotIn → decimal (l + 1) ∉ r.values

/-- Comparisons on one side only, with the end of the range. -/
@[mk_iff] structure Beyond (rs : List NodeSelectorRequirement) : Prop where
  operators : ∀ r ∈ rs, r.operator ≠ .opIn ∧ r.operator ≠ .opDoesNotExist
  readable : ∀ r ∈ rs, r.operator.Compares → r.bound.isSome = true
  beyond : 2 ^ 63 - 1 ∈ bounds .opGt rs ∧ bounds .opLt rs = [] ∨
    -(2 ^ 63) ∈ bounds .opLt rs ∧ bounds .opGt rs = []

instance (rs : List NodeSelectorRequirement) : Decidable (Unambiguous rs) :=
  decidable_of_iff _ (unambiguous_iff rs).symm

instance (rs : List NodeSelectorRequirement) : Decidable (Beyond rs) :=
  decidable_of_iff _ (beyond_iff rs).symm

/-! ## One label or field -/

section OneKey

variable {c : SelectorConstraint} {rs : List NodeSelectorRequirement} {r : NodeSelectorRequirement}
  {v : Bytes}

theorem presence_eq_true : r.presence = true ↔ r.operator ≠ .opDoesNotExist := by
  simp [NodeSelectorRequirement.presence]

/-- Readable requirements of which none contradicts the presence of another have a constraint. -/
theorem exists_describes {present : Bool} (h : ∀ r ∈ rs, r.Usable ∧ r.presence = present) :
    ∃ c : SelectorConstraint, c.Describes {r | r ∈ rs} := by
  induction rs with
  | nil => exact ⟨.empty, by simpa using describes_empty⟩
  | cons r rs ih =>
    obtain ⟨hr, hrs⟩ := List.forall_mem_cons.1 h
    obtain ⟨c, hc⟩ := ih hrs
    have hset : {r' | r' ∈ r :: rs} = insert r {r' | r' ∈ rs} := by
      ext r'
      simp
    refine ⟨c.with r, hset ▸ describes_with hc hr.1 fun he => ?_⟩
    have hold := hc.existence
    rw [he] at hold
    obtain ⟨⟨r', hr'⟩, hall⟩ := hold
    have hsame := (hrs r' hr').2.trans hr.2.symm
    rw [hall r' hr'] at hsame
    cases hp : r.presence <;> simp [hp] at hsame

theorem mem_boundsOf {o : NodeSelectorOperator} {b : Int} :
    b ∈ boundsOf o {r | r ∈ rs} ↔ b ∈ bounds o rs := mem_bounds.symm

theorem lower_spec (h : c.Describes {r | r ∈ rs}) :
    (c.lower = none ∧ bounds .opGt rs = []) ∨
      ∃ l ∈ bounds .opGt rs, c.lower = some l ∧ ∀ l' ∈ bounds .opGt rs, l' ≤ l := by
  have hlower := h.lower
  cases hl : c.lower with
  | none =>
    rw [hl, Option.elim_none, Set.eq_empty_iff_forall_notMem] at hlower
    exact .inl ⟨rfl, List.eq_nil_iff_forall_not_mem.2 fun b hb => hlower b (mem_boundsOf.2 hb)⟩
  | some l =>
    rw [hl] at hlower
    exact .inr ⟨l, mem_boundsOf.1 hlower.1, rfl, fun l' hl' => hlower.2 (mem_boundsOf.2 hl')⟩

theorem upper_spec (h : c.Describes {r | r ∈ rs}) :
    (c.upper = none ∧ bounds .opLt rs = []) ∨
      ∃ u ∈ bounds .opLt rs, c.upper = some u ∧ ∀ u' ∈ bounds .opLt rs, u ≤ u' := by
  have hupper := h.upper
  cases hu : c.upper with
  | none =>
    rw [hu, Option.elim_none, Set.eq_empty_iff_forall_notMem] at hupper
    exact .inl ⟨rfl, List.eq_nil_iff_forall_not_mem.2 fun b hb => hupper b (mem_boundsOf.2 hb)⟩
  | some u =>
    rw [hu] at hupper
    exact .inr ⟨u, mem_boundsOf.1 hupper.1, rfl, fun u' hu' => hupper.2 (mem_boundsOf.2 hu')⟩

theorem existence_spec (h : c.Describes {r | r ∈ rs}) (hpresent : ∀ r ∈ rs, r.presence = true) :
    c.existence ≠ some false := by
  intro he
  have hold := h.existence
  rw [he] at hold
  obtain ⟨⟨r, hr⟩, hall⟩ := hold
  exact absurd ((hpresent r hr).symm.trans (hall r hr)) (by decide)

theorem withinBounds_iff : c.withinBounds v = true ↔ v ∉ c.excluded ∧
    (∀ l, c.lower = some l → ∃ n, parseInt v = some n ∧ l < n) ∧
      ∀ u, c.upper = some u → ∃ n, parseInt v = some n ∧ n < u := by
  unfold SelectorConstraint.withinBounds
  by_cases hexcluded : v ∈ c.excluded
  · simp [hexcluded]
  · cases c.lower <;> cases c.upper <;> cases parseInt v <;> simp [hexcluded]

/-- An allowed value is within the bounds when it meets the requirements. -/
theorem withinBounds_iff_matches (h : c.Describes {r | r ∈ rs}) (husable : ∀ r ∈ rs, r.Usable)
    (hpresent : ∀ r ∈ rs, r.presence = true)
    (hallowed : ∀ r ∈ rs, r.operator = .opIn → v ∈ r.values) :
    c.withinBounds v = true ↔ ∀ r ∈ rs, r.Matches (some v) := by
  rw [withinBounds_iff]
  constructor
  · rintro ⟨hexcluded, hlower, hupper⟩ r hr
    cases hop : r.operator
    case opIn => exact (matches_in hop).2 ⟨v, hallowed r hr hop, rfl⟩
    case opNotIn =>
      refine (matches_notIn hop).2 fun v' hv' heq => hexcluded ((h.excluded v).2 ⟨r, hr, hop, ?_⟩)
      rw [Option.some.inj heq]
      exact hv'
    case opExists => exact (matches_exists hop).2 rfl
    case opDoesNotExist => exact absurd hop (presence_eq_true.1 (hpresent r hr))
    case opGt =>
      obtain ⟨b, hb⟩ := Option.isSome_iff_exists.1 ((husable r hr).bound (.inl hop))
      have hmem := mem_bounds.2 ⟨r, hr, hop, hb⟩
      rcases lower_spec h with ⟨-, hnil⟩ | ⟨l, -, hl, hgreatest⟩
      · exact absurd hmem (hnil ▸ List.not_mem_nil)
      · obtain ⟨n, hn, hlt⟩ := hlower l hl
        exact (matches_gt hop).2 ⟨b, n, hb, hn, (hgreatest b hmem).trans_lt hlt⟩
    case opLt =>
      obtain ⟨b, hb⟩ := Option.isSome_iff_exists.1 ((husable r hr).bound (.inr hop))
      have hmem := mem_bounds.2 ⟨r, hr, hop, hb⟩
      rcases upper_spec h with ⟨-, hnil⟩ | ⟨u, -, hu, hleast⟩
      · exact absurd hmem (hnil ▸ List.not_mem_nil)
      · obtain ⟨n, hn, hlt⟩ := hupper u hu
        exact (matches_lt hop).2 ⟨b, n, hb, hn, hlt.trans_le (hleast b hmem)⟩
  · intro hmatches
    refine ⟨fun hv => ?_, fun l hl => ?_, fun u hu => ?_⟩
    · obtain ⟨r, hr, hop, hv⟩ := (h.excluded v).1 hv
      exact (matches_notIn hop).1 (hmatches r hr) v hv rfl
    · rcases lower_spec h with ⟨hnone, -⟩ | ⟨l', hmem, hl', -⟩
      · rw [hnone] at hl
        cases hl
      · obtain rfl := Option.some.inj (hl.symm.trans hl')
        obtain ⟨r, hr, hop, hb⟩ := mem_bounds.1 hmem
        obtain ⟨b, n, hb', hn, hlt⟩ := (matches_gt hop).1 (hmatches r hr)
        obtain rfl := Option.some.inj (hb.symm.trans hb')
        exact ⟨n, hn, hlt⟩
    · rcases upper_spec h with ⟨hnone, -⟩ | ⟨u', hmem, hu', -⟩
      · rw [hnone] at hu
        cases hu
      · obtain rfl := Option.some.inj (hu.symm.trans hu')
        obtain ⟨r, hr, hop, hb⟩ := mem_bounds.1 hmem
        obtain ⟨b, n, hb', hn, hlt⟩ := (matches_lt hop).1 (hmatches r hr)
        obtain rfl := Option.some.inj (hb.symm.trans hb')
        exact ⟨n, hn, hlt⟩

/-- The check accepts the requirements on one label or field. -/
def Accepts (rs : List NodeSelectorRequirement) : Prop :=
  (∀ r ∈ rs, r.Usable) ∧
    ∃ c : SelectorConstraint, c.Describes {r | r ∈ rs} ∧ selectorConstraintSatisfiable c = true

/-- With `DoesNotExist`, no other operator is accepted. -/
theorem accepts_absent (habsent : ∃ r ∈ rs, r.operator = .opDoesNotExist) :
    Accepts rs ↔ Meetable rs ∧ Unambiguous rs := by
  rw [Meetable, if_pos habsent]
  obtain ⟨r, hr, hop⟩ := habsent
  have hpresence : r.presence = false := by simp [NodeSelectorRequirement.presence, hop]
  have honly : (∀ r' ∈ rs, r'.operator = .opNotIn ∨ r'.operator = .opDoesNotExist) ∧
      Unambiguous rs ↔ ∀ r' ∈ rs, r'.operator = .opDoesNotExist := by
    constructor
    · rintro ⟨hall, hunambiguous⟩ r' hr'
      exact (hall r' hr').resolve_left fun hnotIn =>
        hunambiguous.existence r' hr' hnotIn r hr hop
    · intro hall
      have hnotIn : ∀ r' ∈ rs, r'.operator ≠ .opNotIn := by
        intro r' hr'
        rw [hall r' hr']
        decide
      exact ⟨fun r' hr' => .inr (hall r' hr'), fun r' hr' h => absurd h (hnotIn r' hr'),
        fun _ _ _ _ r' hr' h => absurd h (hnotIn r' hr')⟩
  rw [honly]
  constructor
  · rintro ⟨-, c, hc, -⟩ r' hr'
    have hold := hc.existence
    cases he : c.existence with
    | none =>
      rw [he, Option.elim_none, Set.eq_empty_iff_forall_notMem] at hold
      exact absurd hr (hold r)
    | some present =>
      rw [he] at hold
      have hsame := (hold.2 r' hr').trans (hold.2 r hr).symm
      rw [hpresence] at hsame
      simpa [NodeSelectorRequirement.presence] using hsame
  · intro hall
    refine ⟨fun r' hr' => ⟨fun h => ?_, fun h => ?_⟩, ⟨some false, none, [], none, none⟩, ?_, rfl⟩
    · rw [hall r' hr'] at h
      cases h
    · rw [hall r' hr'] at h
      rcases h with h | h <;> cases h
    · have hbounds : ∀ o : NodeSelectorOperator, o ≠ .opDoesNotExist →
          boundsOf o {r | r ∈ rs} = ∅ := by
        intro o ho
        refine Set.eq_empty_of_forall_notMem fun b hb => ?_
        obtain ⟨r', hr', hop', -⟩ := hb
        exact ho (hop'.symm.trans (hall r' hr'))
      refine ⟨⟨⟨r, hr⟩, fun r' hr' => ?_⟩, fun r' hr' => ?_, fun v => ?_, hbounds _ (by decide),
        hbounds _ (by decide)⟩
      · simp [NodeSelectorRequirement.presence, hall r' hr']
      · rw [hall r' hr']
        decide
      · refine ⟨fun hv => absurd hv List.not_mem_nil, ?_⟩
        rintro ⟨r', hr', hnotIn, -⟩
        rw [hall r' hr'] at hnotIn
        cases hnotIn

/-- With `In`, the values that are listed are tried. -/
theorem accepts_listed (habsent : ¬∃ r ∈ rs, r.operator = .opDoesNotExist)
    (hin : ∃ r ∈ rs, r.operator = .opIn) : Accepts rs ↔ Meetable rs ∧ Unambiguous rs := by
  have hpresent : ∀ r ∈ rs, r.presence = true := fun r hr =>
    presence_eq_true.2 fun hop => habsent ⟨r, hr, hop⟩
  have hunambiguous : Unambiguous rs := by
    obtain ⟨r, hr, hop⟩ := hin
    exact ⟨fun _ _ _ r' hr' hop' => habsent ⟨r', hr', hop'⟩, fun hno => absurd hop (hno r hr)⟩
  rw [Meetable, if_neg habsent, if_pos hin, and_iff_left hunambiguous]
  -- the constraint has a list of allowed values
  have hsat : ∀ {c : SelectorConstraint}, c.Describes {r | r ∈ rs} → (∀ r ∈ rs, r.Usable) →
      (selectorConstraintSatisfiable c = true ↔ ∃ v, ∀ r ∈ rs, r.Matches (some v)) := by
    intro c hc husable
    obtain ⟨l, hl⟩ : ∃ l, c.allowed = some l := by
      cases hl : c.allowed with
      | some l => exact ⟨l, rfl⟩
      | none =>
        have hold := hc.allowed
        rw [hl] at hold
        obtain ⟨r, hr, hop⟩ := hin
        exact absurd hop (hold r hr)
    have hallowed := hc.allowed
    rw [hl] at hallowed
    unfold selectorConstraintSatisfiable
    rw [if_neg (existence_spec hc hpresent), hl]
    simp only [List.any_eq_true]
    refine exists_congr fun v => ?_
    rw [hallowed.2]
    constructor
    · rintro ⟨hv, hwithin⟩
      exact (withinBounds_iff_matches hc husable hpresent hv).1 hwithin
    · intro hmatches
      have hv : ∀ r ∈ rs, r.operator = .opIn → v ∈ r.values := by
        intro r hr hop
        obtain ⟨v', hv', heq⟩ := (matches_in hop).1 (hmatches r hr)
        rw [Option.some.inj heq]
        exact hv'
      exact ⟨hv, (withinBounds_iff_matches hc husable hpresent hv).2 hmatches⟩
  constructor
  · rintro ⟨husable, c, hc, h⟩
    obtain ⟨v, hv⟩ := (hsat hc husable).1 h
    obtain ⟨r, hr, hop⟩ := hin
    obtain ⟨v', hv', heq⟩ := (matches_in hop).1 (hv r hr)
    obtain rfl := Option.some.inj heq
    exact ⟨v, List.mem_flatMap.2 ⟨r, hr, hv'⟩, hv⟩
  · rintro ⟨v, -, hv⟩
    have husable : ∀ r ∈ rs, r.Usable := by
      refine fun r hr => ⟨fun hop hnil => ?_, fun hop => ?_⟩
      · obtain ⟨v', hv', -⟩ := (matches_in hop).1 (hv r hr)
        exact absurd hv' (hnil ▸ List.not_mem_nil)
      · obtain ⟨-, -, hbound⟩ := bound_isSome_of_matches hop (hv r hr)
        exact hbound
    obtain ⟨c, hc⟩ := exists_describes fun r hr => ⟨husable r hr, hpresent r hr⟩
    exact ⟨husable, c, hc, (hsat hc husable).2 ⟨v, hv⟩⟩

/-- Without `DoesNotExist` and `In`, the bounds decide. -/
theorem satisfiable_bounds (h : c.Describes {r | r ∈ rs}) (hpresent : ∀ r ∈ rs, r.presence = true)
    (hin : ∀ r ∈ rs, r.operator ≠ .opIn) :
    selectorConstraintSatisfiable c = true ↔ ∀ l u, c.lower = some l → c.upper = some u →
      l ≠ 2 ^ 63 - 1 ∧ l + 1 < u ∧ (l + 2 = u → decimal (l + 1) ∉ c.excluded) := by
  have hallowed : c.allowed = none := by
    cases hl : c.allowed with
    | none => rfl
    | some l =>
      have hold := h.allowed
      rw [hl] at hold
      obtain ⟨⟨r, hr, hop⟩, -⟩ := hold
      exact absurd hop (hin r hr)
  unfold selectorConstraintSatisfiable
  rw [if_neg (existence_spec h hpresent), hallowed]
  cases hl : c.lower with
  | none => simp
  | some l =>
    cases hu : c.upper with
    | none => simp
    | some u =>
      dsimp only
      split
      case isTrue hend =>
        refine ⟨fun hsat => (nomatch hsat), fun hall => ?_⟩
        obtain ⟨hne, hgap, -⟩ := hall l u rfl rfl
        omega
      case isFalse hend =>
        have hgap : l ≠ 2 ^ 63 - 1 ∧ l + 1 < u := by omega
        constructor
        · rintro hsat _ _ ⟨⟩ ⟨⟩
          refine ⟨hgap.1, hgap.2, fun htwo => ?_⟩
          rw [if_pos htwo] at hsat
          exact of_decide_eq_true hsat
        · intro hall
          obtain ⟨-, -, hspelled⟩ := hall l u rfl rfl
          split
          case isTrue htwo => exact decide_eq_true (hspelled htwo)
          case isFalse => rfl

theorem accepts_of_bounds (hpresent : ∀ r ∈ rs, r.presence = true)
    (hin : ∀ r ∈ rs, r.operator ≠ .opIn)
    (hreadable : ∀ r ∈ rs, r.operator.Compares → r.bound.isSome = true)
    (hboth : ∀ l ∈ bounds .opGt rs, ∀ u ∈ bounds .opLt rs, l ≠ 2 ^ 63 - 1 ∧ l + 1 < u ∧
      (l + 2 = u → ∀ r ∈ rs, r.operator = .opNotIn → decimal (l + 1) ∉ r.values)) :
    Accepts rs := by
  have husable : ∀ r ∈ rs, r.Usable := fun r hr =>
    ⟨fun hop => absurd hop (hin r hr), hreadable r hr⟩
  obtain ⟨c, hc⟩ := exists_describes fun r hr => ⟨husable r hr, hpresent r hr⟩
  refine ⟨husable, c, hc, (satisfiable_bounds hc hpresent hin).2 fun l u hl hu => ?_⟩
  rcases lower_spec hc with ⟨hnone, -⟩ | ⟨l', hmem, hl', -⟩
  · rw [hnone] at hl
    cases hl
  rcases upper_spec hc with ⟨hnone, -⟩ | ⟨u', hmem', hu', -⟩
  · rw [hnone] at hu
    cases hu
  obtain rfl := Option.some.inj (hl.symm.trans hl')
  obtain rfl := Option.some.inj (hu.symm.trans hu')
  obtain ⟨hend, hgap, hspelled⟩ := hboth l hmem u hmem'
  refine ⟨hend, hgap, fun htwo hv => ?_⟩
  obtain ⟨r, hr, hop, hv⟩ := (hc.excluded _).1 hv
  exact hspelled htwo r hr hop hv

/-- A bound on one side only is not compared with the end of the range. -/
theorem compared_of_accepts (habsent : ∀ r ∈ rs, r.operator ≠ .opDoesNotExist)
    (hin : ∀ r ∈ rs, r.operator ≠ .opIn) (h : Accepts rs) :
    Comparable rs ∧ Unambiguous rs ∨ Beyond rs := by
  obtain ⟨husable, c, hc, hsat⟩ := h
  rw [satisfiable_bounds hc (fun r hr => presence_eq_true.2 (habsent r hr)) hin] at hsat
  have hreadable : ∀ r ∈ rs, r.operator.Compares → r.bound.isSome = true :=
    fun r hr => (husable r hr).bound
  have hoperators : ∀ r ∈ rs, r.operator ≠ .opIn ∧ r.operator ≠ .opDoesNotExist :=
    fun r hr => ⟨hin r hr, habsent r hr⟩
  have hexistence : ∀ r ∈ rs, r.operator = .opNotIn → ∀ r' ∈ rs, r'.operator ≠ .opDoesNotExist :=
    fun _ _ _ => habsent
  rcases lower_spec hc with ⟨-, hnil⟩ | ⟨l, hl, hlower, hgreatest⟩ <;>
    rcases upper_spec hc with ⟨-, hnil'⟩ | ⟨u, hu, hupper, hleast⟩
  · exact .inl ⟨⟨hreadable, by simp [hnil], by simp [hnil'], by simp [hnil]⟩,
      hexistence, by simp [hnil]⟩
  · by_cases hend : u = -(2 ^ 63)
    · exact .inr ⟨hoperators, hreadable, .inr ⟨hend ▸ hu, hnil⟩⟩
    · refine .inl ⟨⟨hreadable, by simp [hnil], fun u' hu' => ?_, by simp [hnil]⟩,
        hexistence, by simp [hnil]⟩
      have := hleast u' hu'
      have := bounds_range hu
      omega
  · by_cases hend : l = 2 ^ 63 - 1
    · exact .inr ⟨hoperators, hreadable, .inl ⟨hend ▸ hl, hnil'⟩⟩
    · refine .inl ⟨⟨hreadable, fun l' hl' => ?_, by simp [hnil'], by simp [hnil']⟩,
        hexistence, by simp [hnil']⟩
      have := hgreatest l' hl'
      have := bounds_range hl
      omega
  · -- both bounds: the end of the range is looked at
    obtain ⟨hend, hgap, hexcluded⟩ := hsat l u hlower hupper
    have hl_range := bounds_range hl
    refine .inl ⟨⟨hreadable, fun l' hl' => ?_, fun u' hu' => ?_, fun l' hl' u' hu' => ?_⟩,
      hexistence, fun _ l' hl' hu' r hr hop hv => ?_⟩
    · have := hgreatest l' hl'
      omega
    · have := hleast u' hu'
      omega
    · have := hgreatest l' hl'
      have := hleast u' hu'
      omega
    · have := hgreatest l' hl'
      have := hleast _ hu'
      obtain rfl : l' = l := by omega
      exact hexcluded (by omega) ((hc.excluded _).2 ⟨r, hr, hop, hv⟩)

/-- Otherwise the bounds decide, but for the end of the range where there is one bound only. -/
theorem accepts_compared (habsent : ¬∃ r ∈ rs, r.operator = .opDoesNotExist)
    (hin : ¬∃ r ∈ rs, r.operator = .opIn) :
    Accepts rs ↔ Meetable rs ∧ Unambiguous rs ∨ Beyond rs := by
  rw [Meetable, if_neg habsent, if_neg hin]
  push Not at habsent hin
  have hpresent : ∀ r ∈ rs, r.presence = true := fun r hr => presence_eq_true.2 (habsent r hr)
  refine ⟨compared_of_accepts habsent hin, ?_⟩
  rintro (⟨hcompare, hunambiguous⟩ | hbeyond)
  · refine accepts_of_bounds hpresent hin hcompare.readable fun l hl u hu => ?_
    have := hcompare.lower l hl
    refine ⟨by omega, hcompare.between l hl u hu, fun htwo => ?_⟩
    exact hunambiguous.spelling hin l hl (htwo ▸ hu)
  · refine accepts_of_bounds hpresent hin hbeyond.readable fun l hl u hu => ?_
    rcases hbeyond.beyond with ⟨-, hnil⟩ | ⟨-, hnil⟩
    · exact absurd hu (hnil ▸ List.not_mem_nil)
    · exact absurd hl (hnil ▸ List.not_mem_nil)

/-- **What is accepted on one label or field**: what can be met and is read as Kubernetes does, and
comparisons beyond the range. -/
theorem accepts_iff : Accepts rs ↔ Meetable rs ∧ Unambiguous rs ∨ Beyond rs := by
  by_cases habsent : ∃ r ∈ rs, r.operator = .opDoesNotExist
  · rw [accepts_absent habsent, or_iff_left]
    obtain ⟨r, hr, hop⟩ := habsent
    exact fun hbeyond => (hbeyond.operators r hr).2 hop
  by_cases hin : ∃ r ∈ rs, r.operator = .opIn
  · rw [accepts_listed habsent hin, or_iff_left]
    obtain ⟨r, hr, hop⟩ := hin
    exact fun hbeyond => (hbeyond.operators r hr).1 hop
  · exact accepts_compared habsent hin

end OneKey

/-! ## Affinities -/

/-- The requirements that are accepted. -/
def Found (rs : List NodeSelectorRequirement) : Prop := Meetable rs ∧ Unambiguous rs ∨ Beyond rs

instance : DecidablePred Found := fun _ => inferInstanceAs (Decidable (_ ∨ _))

variable {left right : NodeSelectorTerm} {a b : Option VolumeNodeAffinity}

theorem termsCompatible_iff :
    nodeSelectorTermsCompatible left right = true ↔ OnNames Found left right := by
  have hname : ∀ name, onName (pairRequirements left right) name =
      {r | r ∈ requirementsOn name (pairRequirements left right)} := by
    intro name
    ext r
    exact mem_requirementsOn.symm
  rw [compatible_iff]
  unfold OnNames Found
  simp only [← accepts_iff]
  constructor
  · intro h q hq
    refine ⟨fun r hr => ?_, hname (nameOf q) ▸ h.satisfiable q hq⟩
    obtain ⟨q', hq', -, rfl⟩ := mem_requirementsOn.1 hr
    exact h.usable q' hq'
  · intro h
    refine ⟨fun q hq => (h q hq).1 q.2 (mem_requirementsOn.2 ⟨q, hq, rfl, rfl⟩), fun q hq => ?_⟩
    rw [hname]
    exact (h q hq).2

/-- **When a negative answer is right**, for all nodes: a pair of terms that can be met although a
label or field is ambiguous comes with a pair that is found. -/
theorem no_node_of_incompatible_iff (a b : Option VolumeNodeAffinity) :
    (volumeNodeAffinitiesCompatible a b = false →
      ∀ node, ¬ (AffinityMatches a node ∧ AffinityMatches b node)) ↔
    ∀ left ∈ candidates a, ∀ right ∈ candidates b, OnNames Meetable left right →
      ¬OnNames Unambiguous left right →
      ∃ left' ∈ candidates a, ∃ right' ∈ candidates b, OnNames Found left' right' := by
  have hnode := exists_node_iff (a := a) (b := b)
  have hfound := volumesCompatible_iff (a := a) (b := b)
  simp only [termsCompatible_iff] at hfound
  constructor
  · intro h left hleft right hright hmeet _
    rw [← hfound]
    by_contra hfalse
    obtain ⟨node, hmatches⟩ := hnode.2 ⟨left, hleft, right, hright, hmeet⟩
    exact h (Bool.eq_false_of_not_eq_true hfalse) node hmatches
  · intro h hfalse node hmatches
    obtain ⟨left, hleft, right, hright, hmeet⟩ := hnode.1 ⟨node, hmatches⟩
    have htrue : volumeNodeAffinitiesCompatible a b = true := by
      rw [hfound]
      by_cases hclear : OnNames Unambiguous left right
      · exact ⟨left, hleft, right, hright, fun q hq => .inl ⟨hmeet q hq, hclear q hq⟩⟩
      · exact h left hleft right hright hmeet hclear
    rw [hfalse] at htrue
    cases htrue

-- a pair that is read wrongly does no harm next to one that is found
example : ∃ left ∈ candidates (some ⟨some [⟨[⟨ascii "zone", .opNotIn, [ascii "a"]⟩], []⟩,
      ⟨[⟨ascii "zone", .opIn, [ascii "b"]⟩], []⟩]⟩),
    ∃ right ∈ candidates (some ⟨some [⟨[⟨ascii "zone", .opDoesNotExist, []⟩], []⟩,
      ⟨[⟨ascii "zone", .opExists, []⟩], []⟩]⟩), OnNames Found left right := by
  decide

/-- The affinity with one term, of one requirement on a label. -/
def labelAffinity (key : String) (operator : NodeSelectorOperator) (values : List String) :
    Option VolumeNodeAffinity :=
  some ⟨some [⟨[⟨ascii key, operator, values.map ascii⟩], []⟩]⟩

def rackRange : Option VolumeNodeAffinity :=
  some ⟨some [⟨[⟨ascii "rack", .opGt, [ascii "4"]⟩, ⟨ascii "rack", .opLt, [ascii "6"]⟩], []⟩]⟩

/-- A node without the label satisfies `NotIn` as well as `DoesNotExist`, and one that spells 5 as
05 has an integer between 4 and 6 that is not the text 5; both pairs are found incompatible. -/
theorem node_of_incompatible :
    (volumeNodeAffinitiesCompatible (labelAffinity "zone" .opNotIn ["a"])
        (labelAffinity "zone" .opDoesNotExist []) = false ∧
      ∃ node, AffinityMatches (labelAffinity "zone" .opNotIn ["a"]) node ∧
        AffinityMatches (labelAffinity "zone" .opDoesNotExist []) node) ∧
    (volumeNodeAffinitiesCompatible rackRange (labelAffinity "rack" .opNotIn ["5"]) = false ∧
      ∃ node, AffinityMatches rackRange node ∧
        AffinityMatches (labelAffinity "rack" .opNotIn ["5"]) node) := by
  refine ⟨⟨rfl, ⟨fun _ => none, fun _ => none⟩, ?_, ?_⟩, rfl,
    ⟨fun _ => some (ascii "05"), fun _ => none⟩, ?_, ?_⟩
  all_goals
    rintro terms ⟨⟩
    refine ⟨_, List.mem_singleton_self _, by decide, ?_, by simp⟩
    intro r hr
  · obtain rfl := List.mem_singleton.1 hr
    intro v _ h
    cases h
  · obtain rfl := List.mem_singleton.1 hr
    rfl
  · simp only [List.mem_cons, List.not_mem_nil, or_false] at hr
    rcases hr with rfl | rfl
    · exact ⟨4, 5, rfl, rfl, by decide⟩
    · exact ⟨6, 5, rfl, rfl, by decide⟩
  · obtain rfl := List.mem_singleton.1 hr
    intro v hv h
    obtain rfl := List.mem_singleton.1 hv
    exact absurd h (by decide)

/-- **When a positive answer is right**: a pair of terms that is found although a label or field
cannot be met, its bound being the end of the range, comes with a pair that can be met. -/
theorem exists_node_of_compatible_iff (a b : Option VolumeNodeAffinity) :
    (volumeNodeAffinitiesCompatible a b = true →
      ∃ node, AffinityMatches a node ∧ AffinityMatches b node) ↔
    ∀ left ∈ candidates a, ∀ right ∈ candidates b, OnNames Found left right →
      ¬OnNames (fun rs => ¬Beyond rs) left right →
      ∃ left' ∈ candidates a, ∃ right' ∈ candidates b, OnNames Meetable left' right' := by
  rw [exists_node_iff, volumesCompatible_iff]
  simp only [termsCompatible_iff]
  constructor
  · intro h left hleft right hright hfound _
    exact h ⟨left, hleft, right, hright, hfound⟩
  · rintro h ⟨left, hleft, right, hright, hfound⟩
    by_cases hinside : OnNames (fun rs => ¬Beyond rs) left right
    · exact ⟨left, hleft, right, hright, fun q hq =>
        ((hfound q hq).resolve_right (hinside q hq)).1⟩
    · exact h left hleft right hright hfound hinside

-- nor does a bound at the end of the range next to a term that can be met
example : ∃ left ∈ candidates (some ⟨some [⟨[⟨ascii "rack", .opGt,
      [ascii "9223372036854775807"]⟩], []⟩, ⟨[⟨ascii "zone", .opIn, [ascii "b"]⟩], []⟩]⟩),
    ∃ right ∈ candidates none, OnNames Meetable left right := by
  decide

/-- No integer is above the largest or below the least one, and nothing else is compared. -/
theorem no_node_of_compatible :
    (volumeNodeAffinitiesCompatible (labelAffinity "rack" .opGt ["9223372036854775807"]) none =
        true ∧
      ∀ node, ¬ AffinityMatches (labelAffinity "rack" .opGt ["9223372036854775807"]) node) ∧
    (volumeNodeAffinitiesCompatible (labelAffinity "rack" .opLt ["-9223372036854775808"]) none =
        true ∧
      ∀ node, ¬ AffinityMatches (labelAffinity "rack" .opLt ["-9223372036854775808"]) node) := by
  refine ⟨⟨rfl, fun node h => ?_⟩, rfl, fun node h => ?_⟩
  all_goals
    obtain ⟨term, hterm, hmatches⟩ := h _ rfl
    obtain rfl := List.mem_singleton.1 hterm
    obtain ⟨bound, n, hbound, hn, hlt⟩ := hmatches.expressions _ (List.mem_singleton_self _)
    obtain ⟨v, -, hparse⟩ := Option.bind_eq_some_iff.1 hn
    have hrange := parseInt_range hparse
  · have hmax : bound = 2 ^ 63 - 1 :=
      Option.some.inj (hbound.symm.trans rfl)
    omega
  · have hmin : bound = -(2 ^ 63) :=
      Option.some.inj (hbound.symm.trans rfl)
    omega

end Kama.Controller
