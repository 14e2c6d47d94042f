import Mathlib.Data.Set.Finite.Basic
import Kama.Controller.Volume

/-!
# The nodes of an affinity

What a node selector means in Kubernetes, and which affinities have a node in common.

* `Matches` is the meaning: one of the terms that are not empty, and all requirements of that term;
  a missing label satisfies `NotIn` and `DoesNotExist`.
* `meetable_iff`: requirements on one label or field that a value, or its absence, meets, read off
  their operators and values. An integer has a spelling outside of every list of values
  (`exists_spelling`).
* `exists_node_iff`: two affinities share a node when two of their terms can be met on each label
  and field.
-/

namespace Kama.Controller

open Bytes Json

/-! ## Node selectors -/

/-- A node, as a selector sees it. -/
structure Node where
  labels : Bytes → Option Bytes
  fields : Bytes → Option Bytes

/-- The integer that a requirement compares with. -/
def NodeSelectorRequirement.bound (r : NodeSelectorRequirement) : Option Int :=
  match r.values with
  | [text] => parseInt text
  | _ => none

/-- The requirement on a label or field with this value. -/
def NodeSelectorRequirement.Matches (r : NodeSelectorRequirement) (value : Option Bytes) : Prop :=
  match r.operator with
  | .opIn => ∃ v ∈ r.values, value = some v
  | .opNotIn => ∀ v ∈ r.values, value ≠ some v
  | .opExists => value.isSome = true
  | .opDoesNotExist => value.isSome = false
  | .opGt => ∃ bound n, r.bound = some bound ∧ value.bind parseInt = some n ∧ bound < n
  | .opLt => ∃ bound n, r.bound = some bound ∧ value.bind parseInt = some n ∧ n < bound

/-- An empty term matches no node. -/
structure NodeSelectorTerm.Matches (term : NodeSelectorTerm) (node : Node) : Prop where
  nonempty : nodeSelectorTermNonempty term = true
  expressions : ∀ r ∈ term.matchExpressions, r.Matches (node.labels r.key)
  fields : ∀ r ∈ term.matchFields, r.Matches (node.fields r.key)

/-- A volume without an affinity can be mounted anywhere. -/
def AffinityMatches (affinity : Option VolumeNodeAffinity) (node : Node) : Prop :=
  ∀ terms, requiredVolumeTerms affinity = some terms → ∃ term ∈ terms, term.Matches node

/-! ## Values -/

/-- The integer with some zeros in front of its digits. -/
def padded (zeros : Nat) : Int → Bytes
  | .ofNat n => List.replicate zeros 48 ++ natDigits n
  | .negSucc n => 45 :: (List.replicate zeros 48 ++ natDigits (n + 1))

theorem ofDigits_padded (zeros n : Nat) :
    ofDigits (List.replicate zeros 48 ++ natDigits n) = n := by
  induction zeros with
  | zero => exact ofDigits_natDigits n
  | succ zeros ih =>
    rw [List.replicate_succ, List.cons_append, ofDigits, List.foldl_cons]
    exact ih

theorem digits_padded (zeros n : Nat) :
    ¬ (List.replicate zeros 48 ++ natDigits n = [] ∨
      (List.replicate zeros 48 ++ natDigits n).all isDigit = false) := by
  obtain ⟨-, -, b, ds, hds, -⟩ := digitsFrom_spec (Nat.lt_succ_self n)
  rintro (hnil | hfalse)
  · rw [natDigits, hds] at hnil
    simp at hnil
  · rw [List.all_eq_true.2] at hfalse
    · cases hfalse
    · intro b hb
      rcases List.mem_append.1 hb with hb | hb
      · rw [List.eq_of_mem_replicate hb]
        decide
      · exact isDigit_of_mem_natDigits hb

theorem parseInt_digits {s : Bytes} (h : ¬ (s = [] ∨ s.all isDigit = false)) :
    parseInt s = parseInt64 s ∧ splitSign s = (false, s) := by
  cases s with
  | nil => simp at h
  | cons b s =>
    have hb : isDigit b = true := by
      simp only [reduceCtorEq, false_or, Bool.not_eq_false, List.all_cons, Bool.and_eq_true] at h
      exact h.1
    refine ⟨?_, ?_⟩
    · unfold parseInt
      split
      case h_1 heq =>
        obtain ⟨rfl, -⟩ := List.cons.inj heq
        exact absurd hb (by decide)
      case h_2 => rfl
    · unfold splitSign
      split
      case h_1 heq =>
        obtain ⟨rfl, -⟩ := List.cons.inj heq
        exact absurd hb (by decide)
      case h_2 => rfl

theorem parseInt_padded {n : Int} (h : -(2 ^ 63) ≤ n ∧ n < 2 ^ 63) (zeros : Nat) :
    parseInt (padded zeros n) = some n := by
  cases n with
  | ofNat n =>
    obtain ⟨hparse, hsign⟩ := parseInt_digits (digits_padded zeros n)
    rw [padded, hparse, parseInt64, hsign]
    simp only [digits_padded, if_false, ofDigits_padded, Bool.false_eq_true]
    exact if_pos h
  | negSucc n =>
    have hneg : (Int.negSucc n : Int) = -((n + 1 : Nat) : Int) := rfl
    have hparse : parseInt (45 :: (List.replicate zeros 48 ++ natDigits (n + 1))) =
        parseInt64 (45 :: (List.replicate zeros 48 ++ natDigits (n + 1))) := rfl
    have hsign : splitSign (45 :: (List.replicate zeros 48 ++ natDigits (n + 1))) =
        (true, List.replicate zeros 48 ++ natDigits (n + 1)) := rfl
    rw [padded, hparse, parseInt64, hsign]
    simp only [digits_padded, if_false, ofDigits_padded, if_true]
    rw [← hneg, if_pos h]

/-- Every integer has a spelling outside of a list. -/
theorem exists_spelling {n : Int} (h : -(2 ^ 63) ≤ n ∧ n < 2 ^ 63) (l : List Bytes) :
    ∃ v, v ∉ l ∧ parseInt v = some n := by
  have hinj : Function.Injective fun zeros => padded zeros n := by
    intro a b hab
    have := congrArg List.length hab
    cases n <;> simpa [padded] using this
  obtain ⟨v, ⟨zeros, rfl⟩, hv⟩ :=
    (Set.infinite_range_of_injective hinj).exists_notMem_finite (List.finite_toSet l)
  exact ⟨_, hv, parseInt_padded h zeros⟩

theorem parseInt64_range {s : Bytes} {n : Int} (h : parseInt64 s = some n) :
    -(2 ^ 63) ≤ n ∧ n < 2 ^ 63 := by
  dsimp only [parseInt64] at h
  generalize (if (splitSign s).1 then -(ofDigits (splitSign s).2 : Int)
    else ofDigits (splitSign s).2) = i at h
  split at h
  case isTrue => cases h
  case isFalse =>
    split at h
    case isTrue hrange =>
      obtain rfl := Option.some.inj h
      exact hrange
    case isFalse => cases h

theorem parseInt_range {s : Bytes} {n : Int} (h : parseInt s = some n) :
    -(2 ^ 63) ≤ n ∧ n < 2 ^ 63 := by
  unfold parseInt at h
  split at h
  · split at h
    · cases h
    · exact parseInt64_range h
  · exact parseInt64_range h

theorem bound_range {r : NodeSelectorRequirement} {n : Int} (h : r.bound = some n) :
    -(2 ^ 63) ≤ n ∧ n < 2 ^ 63 := by
  unfold NodeSelectorRequirement.bound at h
  split at h
  · exact parseInt_range h
  · cases h

/-! ## Requirements on one label or field -/

def NodeSelectorOperator.Compares (o : NodeSelectorOperator) : Prop := o = .opGt ∨ o = .opLt

instance (o : NodeSelectorOperator) : Decidable o.Compares := inferInstanceAs (Decidable (_ ∨ _))

/-- The integers that requirements with the operator compare with. -/
def bounds (o : NodeSelectorOperator) (rs : List NodeSelectorRequirement) : List Int :=
  rs.filterMap fun r => if r.operator = o then r.bound else none

/-- The requirements of a comparison can be read, and leave an integer. -/
@[mk_iff] structure Comparable (rs : List NodeSelectorRequirement) : Prop where
  readable : ∀ r ∈ rs, r.operator.Compares → r.bound.isSome = true
  lower : ∀ l ∈ bounds .opGt rs, l < 2 ^ 63 - 1
  upper : ∀ u ∈ bounds .opLt rs, -(2 ^ 63) < u
  between : ∀ l ∈ bounds .opGt rs, ∀ u ∈ bounds .opLt rs, l + 1 < u

/-- Requirements on one label or field that can be met together: with `DoesNotExist`, no others that
need a value; with `In`, by one of the values that are listed; otherwise when the comparisons leave
an integer. -/
def Meetable (rs : List NodeSelectorRequirement) : Prop :=
  if ∃ r ∈ rs, r.operator = .opDoesNotExist then
    ∀ r ∈ rs, r.operator = .opNotIn ∨ r.operator = .opDoesNotExist
  else if ∃ r ∈ rs, r.operator = .opIn then
    ∃ v ∈ rs.flatMap NodeSelectorRequirement.values, ∀ r ∈ rs, r.Matches (some v)
  else Comparable rs

section OneKey

variable {rs : List NodeSelectorRequirement} {r : NodeSelectorRequirement} {value : Option Bytes}

theorem mem_bounds {o : NodeSelectorOperator} {b : Int} :
    b ∈ bounds o rs ↔ ∃ r ∈ rs, r.operator = o ∧ r.bound = some b := by
  simp only [bounds, List.mem_filterMap]
  refine exists_congr fun r => and_congr_right fun _ => ?_
  split
  case isTrue h => simp [h]
  case isFalse h => simp [h]

theorem bounds_range {o : NodeSelectorOperator} {b : Int} (h : b ∈ bounds o rs) :
    -(2 ^ 63) ≤ b ∧ b < 2 ^ 63 := by
  obtain ⟨r, -, -, hbound⟩ := mem_bounds.1 h
  exact bound_range hbound

theorem matches_in (h : r.operator = .opIn) : r.Matches value ↔ ∃ v ∈ r.values, value = some v := by
  simp only [NodeSelectorRequirement.Matches, h]

theorem matches_notIn (h : r.operator = .opNotIn) :
    r.Matches value ↔ ∀ v ∈ r.values, value ≠ some v := by
  simp only [NodeSelectorRequirement.Matches, h]

theorem matches_exists (h : r.operator = .opExists) : r.Matches value ↔ value.isSome = true := by
  simp only [NodeSelectorRequirement.Matches, h]

theorem matches_doesNotExist (h : r.operator = .opDoesNotExist) :
    r.Matches value ↔ value = none := by
  simp only [NodeSelectorRequirement.Matches, h, Option.isSome_eq_false_iff,
    Option.isNone_iff_eq_none]

theorem matches_gt (h : r.operator = .opGt) :
    r.Matches value ↔
      ∃ bound n, r.bound = some bound ∧ value.bind parseInt = some n ∧ bound < n := by
  simp only [NodeSelectorRequirement.Matches, h]

theorem matches_lt (h : r.operator = .opLt) :
    r.Matches value ↔
      ∃ bound n, r.bound = some bound ∧ value.bind parseInt = some n ∧ n < bound := by
  simp only [NodeSelectorRequirement.Matches, h]

instance (r : NodeSelectorRequirement) (value : Option Bytes) : Decidable (r.Matches value) :=
  match hop : r.operator with
  | .opIn => decidable_of_iff _ (matches_in hop).symm
  | .opNotIn => decidable_of_iff _ (matches_notIn hop).symm
  | .opExists => decidable_of_iff _ (matches_exists hop).symm
  | .opDoesNotExist => decidable_of_iff _ (matches_doesNotExist hop).symm
  | .opGt => decidable_of_iff (∃ bound ∈ r.bound, ∃ n ∈ value.bind parseInt, bound < n)
    (by simp [matches_gt hop])
  | .opLt => decidable_of_iff (∃ bound ∈ r.bound, ∃ n ∈ value.bind parseInt, n < bound)
    (by simp [matches_lt hop])

instance (rs : List NodeSelectorRequirement) : Decidable (Comparable rs) :=
  decidable_of_iff _ (comparable_iff rs).symm

instance (rs : List NodeSelectorRequirement) : Decidable (Meetable rs) :=
  inferInstanceAs (Decidable (ite _ _ (ite _ _ _)))

/-- Only two operators accept that a label is missing. -/
theorem matches_none_iff :
    r.Matches none ↔ r.operator = .opNotIn ∨ r.operator = .opDoesNotExist := by
  cases hop : r.operator
  case opIn => simp [matches_in hop]
  case opNotIn => simp [matches_notIn hop]
  case opExists => simp [matches_exists hop]
  case opDoesNotExist => simp [matches_doesNotExist hop]
  case opGt => simp [matches_gt hop]
  case opLt => simp [matches_lt hop]

theorem bound_isSome_of_matches (hop : r.operator.Compares) (h : r.Matches value) :
    ∃ n, value.bind parseInt = some n ∧ r.bound.isSome = true := by
  rcases hop with hop | hop
  · obtain ⟨bound, n, hbound, hn, -⟩ := (matches_gt hop).1 h
    exact ⟨n, hn, by rw [hbound]; rfl⟩
  · obtain ⟨bound, n, hbound, hn, -⟩ := (matches_lt hop).1 h
    exact ⟨n, hn, by rw [hbound]; rfl⟩

/-- What a value that meets all requirements says about the comparisons. -/
theorem comparable_of_matches (h : ∀ r ∈ rs, r.Matches value) : Comparable rs := by
  have hlower : ∀ l ∈ bounds .opGt rs, ∃ n, value.bind parseInt = some n ∧ l < n := by
    intro l hl
    obtain ⟨r, hr, hop, hbound⟩ := mem_bounds.1 hl
    obtain ⟨l', n, hl', hn, hlt⟩ := (matches_gt hop).1 (h r hr)
    obtain rfl := Option.some.inj (hbound.symm.trans hl')
    exact ⟨n, hn, hlt⟩
  have hupper : ∀ u ∈ bounds .opLt rs, ∃ n, value.bind parseInt = some n ∧ n < u := by
    intro u hu
    obtain ⟨r, hr, hop, hbound⟩ := mem_bounds.1 hu
    obtain ⟨u', n, hu', hn, hlt⟩ := (matches_lt hop).1 (h r hr)
    obtain rfl := Option.some.inj (hbound.symm.trans hu')
    exact ⟨n, hn, hlt⟩
  have hrange : ∀ n, value.bind parseInt = some n → -(2 ^ 63) ≤ n ∧ n < 2 ^ 63 := by
    intro n hn
    obtain ⟨v, -, hparse⟩ := Option.bind_eq_some_iff.1 hn
    exact parseInt_range hparse
  refine ⟨fun r hr hop => ?_, fun l hl => ?_, fun u hu => ?_, fun l hl u hu => ?_⟩
  · obtain ⟨-, -, hbound⟩ := bound_isSome_of_matches hop (h r hr)
    exact hbound
  · obtain ⟨n, hn, hlt⟩ := hlower l hl
    have := hrange n hn
    omega
  · obtain ⟨n, hn, hlt⟩ := hupper u hu
    have := hrange n hn
    omega
  · obtain ⟨n, hn, hlt⟩ := hlower l hl
    obtain ⟨m, hm, hlt'⟩ := hupper u hu
    obtain rfl := Option.some.inj (hn.symm.trans hm)
    omega

/-- The comparisons leave an integer. -/
theorem Comparable.exists_integer (h : Comparable rs) :
    ∃ n : Int, (-(2 ^ 63) ≤ n ∧ n < 2 ^ 63) ∧ (∀ l ∈ bounds .opGt rs, l < n) ∧
      ∀ u ∈ bounds .opLt rs, n < u := by
  -- the integer after the largest lower bound, or before the least upper bound
  by_cases hnil : bounds .opGt rs = []
  · by_cases hnil' : bounds .opLt rs = []
    · exact ⟨0, by decide, by simp [hnil], by simp [hnil']⟩
    · have hu := List.min_mem hnil'
      have := h.upper _ hu
      have := bounds_range hu
      refine ⟨(bounds .opLt rs).min hnil' - 1, by omega, by simp [hnil], fun u hu' => ?_⟩
      have := List.min_le_of_mem hu'
      omega
  · have hl := List.max_mem hnil
    have := h.lower _ hl
    have := bounds_range hl
    refine ⟨(bounds .opGt rs).max hnil + 1, by omega, fun l hl' => ?_, h.between _ hl⟩
    have := List.le_max_of_mem hl'
    omega

/-- An integer between the bounds, in a spelling that no requirement lists. -/
theorem matches_of_integer {n : Int} {v : Bytes} (hparse : parseInt v = some n)
    (hfresh : v ∉ rs.flatMap NodeSelectorRequirement.values) (hcompare : Comparable rs)
    (hlower : ∀ l ∈ bounds .opGt rs, l < n) (hupper : ∀ u ∈ bounds .opLt rs, n < u)
    (habsent : ¬∃ r ∈ rs, r.operator = .opDoesNotExist) (hin : ¬∃ r ∈ rs, r.operator = .opIn) :
    ∀ r ∈ rs, r.Matches (some v) := by
  intro r hr
  cases hop : r.operator
  case opIn => exact absurd ⟨r, hr, hop⟩ hin
  case opDoesNotExist => exact absurd ⟨r, hr, hop⟩ habsent
  case opNotIn =>
    refine (matches_notIn hop).2 fun v' hv' heq => hfresh (List.mem_flatMap.2 ⟨r, hr, ?_⟩)
    rw [Option.some.inj heq]
    exact hv'
  case opExists => exact (matches_exists hop).2 rfl
  case opGt =>
    obtain ⟨l, hl⟩ := Option.isSome_iff_exists.1 (hcompare.readable r hr (.inl hop))
    exact (matches_gt hop).2 ⟨l, n, hl, hparse, hlower l (mem_bounds.2 ⟨r, hr, hop, hl⟩)⟩
  case opLt =>
    obtain ⟨u, hu⟩ := Option.isSome_iff_exists.1 (hcompare.readable r hr (.inr hop))
    exact (matches_lt hop).2 ⟨u, n, hu, hparse, hupper u (mem_bounds.2 ⟨r, hr, hop, hu⟩)⟩

/-- **Requirements that can be met.** -/
theorem meetable_iff : Meetable rs ↔ ∃ value, ∀ r ∈ rs, r.Matches value := by
  by_cases habsent : ∃ r ∈ rs, r.operator = .opDoesNotExist
  · rw [Meetable, if_pos habsent]
    constructor
    · intro h
      exact ⟨none, fun r hr => matches_none_iff.2 (h r hr)⟩
    · rintro ⟨value, h⟩ r hr
      obtain ⟨r', hr', hop⟩ := habsent
      obtain rfl := (matches_doesNotExist hop).1 (h r' hr')
      exact matches_none_iff.1 (h r hr)
  rw [Meetable, if_neg habsent]
  by_cases hin : ∃ r ∈ rs, r.operator = .opIn
  · rw [if_pos hin]
    constructor
    · rintro ⟨v, -, h⟩
      exact ⟨some v, h⟩
    · rintro ⟨value, h⟩
      obtain ⟨r, hr, hop⟩ := hin
      obtain ⟨v, hv, rfl⟩ := (matches_in hop).1 (h r hr)
      exact ⟨v, List.mem_flatMap.2 ⟨r, hr, hv⟩, h⟩
  · rw [if_neg hin]
    constructor
    · intro h
      obtain ⟨n, hrange, hlower, hupper⟩ := h.exists_integer
      obtain ⟨v, hfresh, hparse⟩ :=
        exists_spelling hrange (rs.flatMap NodeSelectorRequirement.values)
      exact ⟨some v, matches_of_integer hparse hfresh h hlower hupper habsent hin⟩
    · rintro ⟨value, h⟩
      exact comparable_of_matches h

end OneKey

/-! ## Terms -/

def labelDomain : Bytes := ascii "label:"
def fieldDomain : Bytes := ascii "field:"

/-- The requirements of two terms, each with the domain of its key, in the order in which they are
collected. -/
def pairRequirements (left right : NodeSelectorTerm) : List (Bytes × NodeSelectorRequirement) :=
  left.matchExpressions.map (labelDomain, ·) ++ right.matchExpressions.map (labelDomain, ·) ++
    left.matchFields.map (fieldDomain, ·) ++ right.matchFields.map (fieldDomain, ·)

/-- The label or field that a requirement is about. -/
def nameOf (q : Bytes × NodeSelectorRequirement) : Bytes := q.1 ++ q.2.key

/-- The requirements on one label or field. -/
def requirementsOn (name : Bytes) (requirements : List (Bytes × NodeSelectorRequirement)) :
    List NodeSelectorRequirement :=
  (requirements.filter fun q => nameOf q = name).map Prod.snd

theorem mem_requirementsOn {name : Bytes} {requirements : List (Bytes × NodeSelectorRequirement)}
    {r : NodeSelectorRequirement} :
    r ∈ requirementsOn name requirements ↔ ∃ q ∈ requirements, nameOf q = name ∧ q.2 = r := by
  simp only [requirementsOn, List.mem_map, List.mem_filter, decide_eq_true_eq, and_assoc]

/-- The value of a label or field, by its key with the domain. -/
def Node.valueOf (node : Node) (key : Bytes) : Option Bytes :=
  if labelDomain <+: key then node.labels (key.drop labelDomain.length)
  else if fieldDomain <+: key then node.fields (key.drop fieldDomain.length)
  else none

theorem valueOf_label (node : Node) (key : Bytes) :
    node.valueOf (labelDomain ++ key) = node.labels key := by
  rw [Node.valueOf, if_pos (List.prefix_append _ _), List.drop_left]

theorem valueOf_field (node : Node) (key : Bytes) :
    node.valueOf (fieldDomain ++ key) = node.fields key := by
  have hne : ¬ labelDomain <+: fieldDomain ++ key := by
    rintro ⟨rest, h⟩
    have := congrArg List.head? h
    simp [labelDomain, fieldDomain, ascii] at this
  rw [Node.valueOf, if_neg hne, if_pos (List.prefix_append _ _), List.drop_left]

variable {left right : NodeSelectorTerm} {node : Node}

theorem forall_pairRequirements {P : Bytes × NodeSelectorRequirement → Prop} :
    (∀ q ∈ pairRequirements left right, P q) ↔
      ((∀ r ∈ left.matchExpressions, P (labelDomain, r)) ∧
        ∀ r ∈ left.matchFields, P (fieldDomain, r)) ∧
      (∀ r ∈ right.matchExpressions, P (labelDomain, r)) ∧
        ∀ r ∈ right.matchFields, P (fieldDomain, r) := by
  simp only [pairRequirements, List.forall_mem_append, List.forall_mem_map]
  tauto

/-- The node meets all requirements of a term. -/
def NodeSelectorTerm.MetBy (term : NodeSelectorTerm) (node : Node) : Prop :=
  (∀ r ∈ term.matchExpressions, r.Matches (node.labels r.key)) ∧
    ∀ r ∈ term.matchFields, r.Matches (node.fields r.key)

theorem metBy_iff : left.MetBy node ∧ right.MetBy node ↔
    ∀ q ∈ pairRequirements left right, q.2.Matches (node.valueOf (nameOf q)) := by
  rw [forall_pairRequirements]
  simp only [nameOf, valueOf_label, valueOf_field]
  exact Iff.rfl

/-- On each label and field of two terms, the requirements have the property. -/
def OnNames (P : List NodeSelectorRequirement → Prop) (left right : NodeSelectorTerm) : Prop :=
  ∀ q ∈ pairRequirements left right, P (requirementsOn (nameOf q) (pairRequirements left right))

instance (P : List NodeSelectorRequirement → Prop) [DecidablePred P]
    (left right : NodeSelectorTerm) : Decidable (OnNames P left right) :=
  inferInstanceAs (Decidable (∀ _ ∈ _, _))

/-- Terms that can be met on each label and field are met by one node. -/
theorem onNames_meetable_iff :
    OnNames Meetable left right ↔ ∃ node : Node, left.MetBy node ∧ right.MetBy node := by
  simp only [metBy_iff]
  constructor
  · intro h
    -- a value for each name; names without requirements take any
    have hvalue : ∀ name, ∃ value, ∀ q ∈ pairRequirements left right, nameOf q = name →
        q.2.Matches value := by
      intro name
      by_cases hname : ∃ q ∈ pairRequirements left right, nameOf q = name
      · obtain ⟨q, hq, rfl⟩ := hname
        obtain ⟨value, hvalue⟩ := meetable_iff.1 (h q hq)
        exact ⟨value, fun q' hq' heq => hvalue q'.2 (mem_requirementsOn.2 ⟨q', hq', heq, rfl⟩)⟩
      · exact ⟨none, fun q hq heq => absurd ⟨q, hq, heq⟩ hname⟩
    choose f hf using hvalue
    let node : Node := ⟨fun key => f (labelDomain ++ key), fun key => f (fieldDomain ++ key)⟩
    refine ⟨node, forall_pairRequirements.2 ?_⟩
    simp only [nameOf, valueOf_label, valueOf_field]
    exact forall_pairRequirements.1 fun q hq => hf (nameOf q) q hq rfl
  · rintro ⟨node, hnode⟩ q hq
    refine meetable_iff.2 ⟨node.valueOf (nameOf q), fun r hr => ?_⟩
    obtain ⟨q', hq', hname, rfl⟩ := mem_requirementsOn.1 hr
    rw [← hname]
    exact hnode q' hq'

/-! ## Affinities -/

/-- The terms that are compared; an unconstrained volume has one that requires nothing. -/
def candidates (affinity : Option VolumeNodeAffinity) : List NodeSelectorTerm :=
  match requiredVolumeTerms affinity with
  | none => [⟨[], []⟩]
  | some terms => terms.filter nodeSelectorTermNonempty

variable {a b : Option VolumeNodeAffinity}

theorem affinityMatches_iff :
    AffinityMatches a node ↔ ∃ term ∈ candidates a, term.MetBy node := by
  unfold AffinityMatches candidates
  cases requiredVolumeTerms a with
  | none => simp [NodeSelectorTerm.MetBy]
  | some terms =>
    constructor
    · intro h
      obtain ⟨term, hterm, hmatches⟩ := h terms rfl
      exact ⟨term, List.mem_filter.2 ⟨hterm, hmatches.nonempty⟩, hmatches.expressions,
        hmatches.fields⟩
    · rintro ⟨term, hterm, hmet⟩ terms' ⟨⟩
      obtain ⟨hterm, hnonempty⟩ := List.mem_filter.1 hterm
      exact ⟨term, hterm, hnonempty, hmet.1, hmet.2⟩

/-- **Affinities with a node in common.** -/
theorem exists_node_iff : (∃ node, AffinityMatches a node ∧ AffinityMatches b node) ↔
    ∃ left ∈ candidates a, ∃ right ∈ candidates b, OnNames Meetable left right := by
  simp only [affinityMatches_iff, onNames_meetable_iff]
  constructor
  · rintro ⟨node, ⟨left, hleft, hmet⟩, right, hright, hmet'⟩
    exact ⟨left, hleft, right, hright, node, hmet, hmet'⟩
  · rintro ⟨left, hleft, right, hright, node, hmet, hmet'⟩
    exact ⟨node, ⟨left, hleft, hmet⟩, right, hright, hmet'⟩

end Kama.Controller
