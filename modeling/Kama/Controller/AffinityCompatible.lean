import Kama.Controller.AffinityNormal
import Kama.Controller.SelectorConstraints

/-!
# Compatible affinities

What `volumeNodeAffinitiesCompatible` decides depends on nothing but which terms, requirements and
values there are (`volumesCompatible_congr`), as requirements that agree have the same constraints
(`describes_of_agrees`). With the normal form of an affinity this gives
`normalizeVolumeNodeAffinity_canonical`.
-/

namespace Kama.Controller

open Bytes Json Utf8 SortedSet

variable {c : SelectorConstraint} {r : NodeSelectorRequirement}
  {rs rs' : Set NodeSelectorRequirement}
  {reqs reqs' : List (Bytes × NodeSelectorRequirement)} {q : Bytes × NodeSelectorRequirement}

/-! ## Requirements that agree -/

theorem boundsOf_subset {o : NodeSelectorOperator} (ho : o.Compares)
    (h : ∀ r ∈ rs, ∃ r' ∈ rs', r.Agrees r') : boundsOf o rs ⊆ boundsOf o rs' := by
  rintro b ⟨r, hr, rfl, hb⟩
  obtain ⟨r', hr', hagrees⟩ := h r hr
  exact ⟨r', hr', hagrees.operator.symm, hagrees.bound ho ▸ hb⟩

/-- Sets of requirements that agree have the same constraints. -/
theorem describes_of_agrees (h₁ : ∀ r ∈ rs, ∃ r' ∈ rs', r.Agrees r')
    (h₂ : ∀ r' ∈ rs', ∃ r ∈ rs, r'.Agrees r) (h : c.Describes rs) : c.Describes rs' := by
  have hall {P : NodeSelectorRequirement → Prop} (hP : ∀ r r', r.Agrees r' → (P r ↔ P r')) :
      (∀ r ∈ rs, P r) ↔ ∀ r ∈ rs', P r := by
    refine ⟨fun hp r' hr' => ?_, fun hp r hr => ?_⟩
    · obtain ⟨r, hr, hagrees⟩ := h₂ r' hr'
      exact (hP r' r hagrees).2 (hp r hr)
    · obtain ⟨r', hr', hagrees⟩ := h₁ r hr
      exact (hP r r' hagrees).2 (hp r' hr')
  have hany {P : NodeSelectorRequirement → Prop} (hP : ∀ r r', r.Agrees r' → (P r ↔ P r')) :
      (∃ r ∈ rs, P r) ↔ ∃ r ∈ rs', P r := by
    have := not_congr (hall fun r r' hagrees => not_congr (hP r r' hagrees))
    simpa using this
  have hempty : rs = ∅ ↔ rs' = ∅ := by
    simpa only [Set.eq_empty_iff_forall_notMem] using
      hall (P := fun _ => False) fun _ _ _ => Iff.rfl
  have hpresence (r r' : NodeSelectorRequirement) (hagrees : r.Agrees r') :
      r.presence = r'.presence := by
    rw [NodeSelectorRequirement.presence, hagrees.operator]
    rfl
  have hbounds {o : NodeSelectorOperator} (ho : o.Compares) : boundsOf o rs = boundsOf o rs' :=
    (boundsOf_subset ho h₁).antisymm (boundsOf_subset ho h₂)
  constructor
  · have hold := h.existence
    cases he : c.existence <;> rw [he] at hold
    case none => exact hempty.1 hold
    case some b =>
      obtain ⟨⟨r, hr⟩, hb⟩ := hold
      obtain ⟨r', hr', -⟩ := h₁ r hr
      exact ⟨⟨r', hr'⟩, (hall fun r r' hagrees => by rw [hpresence r r' hagrees]).1 hb⟩
  · have hold := h.allowed
    cases hl : c.allowed <;> rw [hl] at hold
    case none => exact (hall fun r r' hagrees => by rw [hagrees.operator]).1 hold
    case some l =>
      refine ⟨(hany fun r r' hagrees => by rw [hagrees.operator]).1 hold.1, fun v => ?_⟩
      rw [hold.2 v]
      exact hall fun r r' hagrees => by rw [hagrees.operator, hagrees.values]
  · intro v
    rw [h.excluded]
    exact hany fun r r' hagrees => by rw [hagrees.operator, hagrees.values]
  · rw [← hbounds (.inl rfl)]
    exact h.lower
  · rw [← hbounds (.inr rfl)]
    exact h.upper

theorem usable_of_agrees {r' : NodeSelectorRequirement} (h : r.Agrees r') (hr : r.Usable) :
    r'.Usable := by
  refine ⟨fun hop hnil => ?_, fun hop => ?_⟩
  · refine hr.values (h.operator.trans hop) (List.eq_nil_iff_forall_not_mem.2 fun v hv => ?_)
    simpa [hnil] using (h.values v).1 hv
  · have hcompares : r.operator.Compares := h.operator ▸ hop
    rw [← h.bound hcompares]
    exact hr.bound hcompares

/-- Requirements on the same label or field that agree. -/
def PairAgrees (q q' : Bytes × NodeSelectorRequirement) : Prop := q.1 = q'.1 ∧ q.2.Agrees q'.2

theorem PairAgrees.nameOf_eq {q' : Bytes × NodeSelectorRequirement} (h : PairAgrees q q') :
    nameOf q = nameOf q' := by
  rw [nameOf, nameOf, h.1, h.2.key]

theorem onName_agrees (h : ∀ q ∈ reqs, ∃ q' ∈ reqs', PairAgrees q q') (name : Bytes) :
    ∀ r ∈ onName reqs name, ∃ r' ∈ onName reqs' name, r.Agrees r' := by
  rintro r ⟨q, hq, hname, rfl⟩
  obtain ⟨q', hq', hagrees⟩ := h q hq
  exact ⟨q'.2, ⟨q', hq', hagrees.nameOf_eq ▸ hname, rfl⟩, hagrees.2⟩

theorem consistent_of_alike (h : Alike PairAgrees reqs reqs') (hreqs : Consistent reqs) :
    Consistent reqs' := by
  have hback : Alike PairAgrees reqs' reqs :=
    h.symm fun q q' hagrees => ⟨hagrees.1.symm, agrees_symm hagrees.2⟩
  refine ⟨fun q' hq' => ?_, fun q' hq' => ?_⟩
  · obtain ⟨q, hq, hagrees⟩ := h.2 q' hq'
    exact usable_of_agrees hagrees.2 (hreqs.usable q hq)
  · obtain ⟨q, hq, hagrees⟩ := h.2 q' hq'
    obtain ⟨c, hc, hsat⟩ := hreqs.satisfiable q hq
    rw [hagrees.nameOf_eq] at hc
    exact ⟨c, describes_of_agrees (onName_agrees h.1 _) (onName_agrees hback.1 _) hc, hsat⟩

theorem consistent_iff_of_alike (h : Alike PairAgrees reqs reqs') :
    Consistent reqs ↔ Consistent reqs' :=
  ⟨consistent_of_alike h, consistent_of_alike
    (h.symm fun _ _ hagrees => ⟨hagrees.1.symm, agrees_symm hagrees.2⟩)⟩

/-! ## Compatible terms and affinities -/

theorem termsCompatible_congr {left left' right right' : NodeSelectorTerm}
    (hleft : left.Like NodeSelectorRequirement.Agrees left')
    (hright : right.Like NodeSelectorRequirement.Agrees right') :
    nodeSelectorTermsCompatible left right = true ↔
      nodeSelectorTermsCompatible left' right' = true := by
  rw [compatible_iff, compatible_iff]
  have hpair (domain : Bytes) {rs rs' : List NodeSelectorRequirement}
      (h : Alike NodeSelectorRequirement.Agrees rs rs') :
      Alike PairAgrees (rs.map (domain, ·)) (rs'.map (domain, ·)) :=
    h.map fun _ _ hagrees => ⟨rfl, hagrees⟩
  exact consistent_iff_of_alike ((((hpair _ hleft.expressions).append
    (hpair _ hright.expressions)).append (hpair _ hleft.fields)).append (hpair _ hright.fields))

theorem termsCompatible_comm {left right : NodeSelectorTerm} :
    nodeSelectorTermsCompatible left right = true ↔
      nodeSelectorTermsCompatible right left = true := by
  rw [compatible_iff, compatible_iff]
  refine consistent_iff_of_alike (.of_mem (fun q => ⟨rfl, agrees_refl q.2⟩) fun q => ?_)
  simp only [pairRequirements, List.mem_append]
  exact or_assoc.trans ((or_congr or_comm or_comm).trans or_assoc.symm)

theorem like_refl (t : NodeSelectorTerm) : t.Like NodeSelectorRequirement.Agrees t :=
  ⟨.of_mem agrees_refl fun _ => Iff.rfl, .of_mem agrees_refl fun _ => Iff.rfl⟩

theorem candidates_alike {affinity affinity' : Option VolumeNodeAffinity}
    (h : AffinityLike NodeSelectorRequirement.Agrees affinity affinity') :
    Alike (NodeSelectorTerm.Like NodeSelectorRequirement.Agrees)
      (candidates affinity) (candidates affinity') := by
  have hterms := h.terms
  unfold candidates
  generalize requiredVolumeTerms affinity = terms at hterms
  generalize requiredVolumeTerms affinity' = terms' at hterms
  cases hterms with
  | none => exact .of_mem like_refl fun _ => Iff.rfl
  | some hterms => exact hterms.filter fun _ _ => nonempty_like

theorem volumesCompatible_congr {left left' right right' : Option VolumeNodeAffinity}
    (hleft : AffinityLike NodeSelectorRequirement.Agrees left left')
    (hright : AffinityLike NodeSelectorRequirement.Agrees right right') :
    volumeNodeAffinitiesCompatible left right = volumeNodeAffinitiesCompatible left' right' := by
  rw [Bool.eq_iff_iff, volumesCompatible_iff, volumesCompatible_iff]
  exact (candidates_alike hleft).exists_mem_iff fun _ _ _ _ hl =>
    (candidates_alike hright).exists_mem_iff fun _ _ _ _ hr => termsCompatible_congr hl hr

theorem volumesCompatible_comm (left right : Option VolumeNodeAffinity) :
    volumeNodeAffinitiesCompatible left right = volumeNodeAffinitiesCompatible right left := by
  rw [Bool.eq_iff_iff, volumesCompatible_iff, volumesCompatible_iff]
  constructor
  · rintro ⟨l, hl, r, hr, h⟩
    exact ⟨r, hr, l, hl, termsCompatible_comm.1 h⟩
  · rintro ⟨r, hr, l, hl, h⟩
    exact ⟨l, hl, r, hr, termsCompatible_comm.1 h⟩

theorem affinityLike_refl {affinity : Option VolumeNodeAffinity} :
    AffinityLike NodeSelectorRequirement.Agrees affinity affinity := by
  rcases affinity with _ | ⟨_ | terms⟩
  · exact .none
  · exact .some .none
  · exact .some (.some (.of_mem like_refl fun _ => Iff.rfl))

/-- **The normal form of an affinity is canonical and keeps its meaning.** -/
theorem normalizeVolumeNodeAffinity_canonical (affinity : Option VolumeNodeAffinity)
    (h : AffinityAdmitted affinity) :
    normalizeVolumeNodeAffinity (normalizeVolumeNodeAffinity affinity) =
        normalizeVolumeNodeAffinity affinity ∧
      (∀ affinity', AffinityLike NodeSelectorRequirement.Same affinity affinity' →
        normalizeVolumeNodeAffinity affinity' = normalizeVolumeNodeAffinity affinity) ∧
      (∀ node, AffinityMatches (normalizeVolumeNodeAffinity affinity) node ↔
        AffinityMatches affinity node) ∧
      ∀ other,
        volumeNodeAffinitiesCompatible affinity other =
          volumeNodeAffinitiesCompatible other affinity ∧
        volumeNodeAffinitiesCompatible (normalizeVolumeNodeAffinity affinity) other =
          volumeNodeAffinitiesCompatible affinity other ∧
        volumeNodeAffinitiesCompatible other (normalizeVolumeNodeAffinity affinity) =
          volumeNodeAffinitiesCompatible other affinity := by
  have hlike := like_normalize h
  have hsame := hlike.mono fun r r' hagrees => hagrees.toSame
  refine ⟨normalize_eq_of_same h hsame, fun _ => normalize_eq_of_same h,
    fun node => (affinity_matches_iff hlike node).symm, fun other => ?_⟩
  refine ⟨volumesCompatible_comm _ _, ?_, ?_⟩
  · exact (volumesCompatible_congr hlike affinityLike_refl).symm
  · exact (volumesCompatible_congr affinityLike_refl hlike).symm

/-- One term, with a requirement on a zone and one on a number of disks. -/
def sampleAffinity (zones : List String) : NodeSelectorTerm :=
  ⟨[⟨ascii "zone", .opIn, zones.map ascii⟩, ⟨ascii "disks", .opGt, [ascii "2"]⟩], []⟩

theorem normalizeVolumeNodeAffinity_canonical_zones :
    normalizeVolumeNodeAffinity (some ⟨some [sampleAffinity ["a", "b"],
      sampleAffinity ["b", "a", "b"]]⟩) =
    normalizeVolumeNodeAffinity (some ⟨some [sampleAffinity ["a", "b"]]⟩) := by
  have hvalid (s : String) (hs : s ∈ ["zone", "disks", "2", "a", "b"]) :
      Valid (ascii s) ∧ 0 ∉ ascii s := by
    simp only [List.mem_cons, List.not_mem_nil, or_false] at hs
    rcases hs with rfl | rfl | rfl | rfl | rfl <;> exact ⟨valid_of_all (by decide), by decide⟩
  refine (normalizeVolumeNodeAffinity_canonical (some ⟨some [sampleAffinity ["a", "b"]]⟩)
    ?_).2.1 _ ?_
  · intro terms hterms t ht
    obtain rfl := Option.some.inj hterms
    obtain rfl := List.mem_singleton.1 ht
    refine ⟨?_, by simp [sampleAffinity]⟩
    simp only [sampleAffinity, List.forall_mem_cons]
    refine ⟨⟨by simp [NodeSelectorOperator.Takes], hvalid _ (by simp), ?_⟩,
      ⟨⟨_, rfl⟩, hvalid _ (by simp), ?_⟩, by simp⟩
    · simpa using ⟨hvalid "a" (by simp), hvalid "b" (by simp)⟩
    · simpa using hvalid "2" (by simp)
  · have hlike : (sampleAffinity ["a", "b"]).Like NodeSelectorRequirement.Same
        (sampleAffinity ["b", "a", "b"]) := by
      have hzone : NodeSelectorRequirement.Same ⟨ascii "zone", .opIn, ["a", "b"].map ascii⟩
          ⟨ascii "zone", .opIn, ["b", "a", "b"].map ascii⟩ :=
        ⟨rfl, rfl, fun v => by
          simp only [List.map_cons, List.map_nil, List.mem_cons]
          tauto⟩
      have hdisks := (agrees_refl ⟨ascii "disks", .opGt, [ascii "2"]⟩).toSame
      refine ⟨⟨?_, ?_⟩, .of_mem (fun r => (agrees_refl r).toSame) fun _ => Iff.rfl⟩ <;>
        simp [sampleAffinity] <;> tauto
    have hrefl := (like_refl (sampleAffinity ["a", "b"])).mono fun _ _ => (·.toSame)
    refine .some (.some ⟨?_, ?_⟩)
    · simpa using .inl hrefl
    · simpa using ⟨hrefl, hlike⟩

end Kama.Controller
