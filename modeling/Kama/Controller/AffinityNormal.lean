import Kama.Foundations.SortedSet
import Kama.Controller.NodeAffinity

/-!
# The normal form of an affinity

`normalizeVolumeNodeAffinity` sorts the values of a requirement, the requirements of a term and the
terms, each by a key of its own, and drops repetitions. For requirements that the API admits:

* `normalize_eq_of_same`: the normal form depends on nothing but which terms, requirements and
  values there are;
* `like_normalize`: an affinity and its normal form have terms and requirements that say the same,
  so that they match the same nodes (`affinity_matches_iff`).
-/

namespace Kama.Controller

open Bytes Json Utf8 SortedSet

variable {rs : List NodeSelectorRequirement} {r : NodeSelectorRequirement}

/-! ## Admitted affinities -/

/-- The values that the API admits with an operator. -/
def NodeSelectorOperator.Takes : NodeSelectorOperator → List Bytes → Prop
  | .opIn, values | .opNotIn, values => values ≠ []
  | .opExists, values | .opDoesNotExist, values => values = []
  | .opGt, values | .opLt, values => ∃ v, values = [v]

/-- A requirement as the API admits it, of text without a NUL byte. -/
structure NodeSelectorRequirement.Admitted (r : NodeSelectorRequirement) : Prop where
  shape : r.operator.Takes r.values
  key : Valid r.key ∧ 0 ∉ r.key
  values : ∀ v ∈ r.values, Valid v ∧ 0 ∉ v

structure NodeSelectorTerm.Admitted (t : NodeSelectorTerm) : Prop where
  expressions : ∀ r ∈ t.matchExpressions, r.Admitted
  fields : ∀ r ∈ t.matchFields, r.Admitted

def AffinityAdmitted (affinity : Option VolumeNodeAffinity) : Prop :=
  ∀ terms, requiredVolumeTerms affinity = some terms → ∀ t ∈ terms, t.Admitted

/-- The same requirement, with its values in any order and number. -/
structure NodeSelectorRequirement.Same (r r' : NodeSelectorRequirement) : Prop where
  key : r.key = r'.key
  operator : r.operator = r'.operator
  values : ∀ v, v ∈ r.values ↔ v ∈ r'.values

/-- Terms with the same requirements up to `S`, in any order and number. -/
structure NodeSelectorTerm.Like (S : NodeSelectorRequirement → NodeSelectorRequirement → Prop)
    (t t' : NodeSelectorTerm) : Prop where
  expressions : Alike S t.matchExpressions t'.matchExpressions
  fields : Alike S t.matchFields t'.matchFields

/-- Affinities with the same terms up to `S`, in any order and number. -/
def VolumeNodeAffinity.Like (S : NodeSelectorRequirement → NodeSelectorRequirement → Prop)
    (a a' : VolumeNodeAffinity) : Prop :=
  Option.Rel (Alike (NodeSelectorTerm.Like S)) a.required a'.required

def AffinityLike (S : NodeSelectorRequirement → NodeSelectorRequirement → Prop)
    (affinity affinity' : Option VolumeNodeAffinity) : Prop :=
  Option.Rel (VolumeNodeAffinity.Like S) affinity affinity'

/-! ## Values -/

theorem bytes_le_trans (a b c : Bytes) :
    decide (a ≤ b) = true → decide (b ≤ c) = true → decide (a ≤ c) = true := by
  simp only [decide_eq_true_eq]
  exact List.le_trans

theorem bytes_le_total (a b : Bytes) : (decide (a ≤ b) || decide (b ≤ a)) = true := by
  simp only [Bool.or_eq_true, decide_eq_true_eq]
  exact List.le_total a b

theorem separates_bytes (l : List Bytes) : Separates (fun a b => decide (a ≤ b)) (· ≠ ·) l where
  antisymm _ _ _ _ hab hba := List.le_antisymm (of_decide_eq_true hab) (of_decide_eq_true hba)
  ne_iff _ _ _ _ := Iff.rfl

/-- The requirement with its values sorted and without repetitions. -/
def NodeSelectorRequirement.sortValues (r : NodeSelectorRequirement) : NodeSelectorRequirement :=
  { r with values := compact (r.values.mergeSort fun a b => decide (a ≤ b)) }

theorem mem_sortValues {v : Bytes} :
    v ∈ r.sortValues.values ↔ v ∈ r.values := mem_destutter_mergeSort (separates_bytes _)

theorem sortValues_eq {r' : NodeSelectorRequirement} (h : r.Same r') :
    r'.sortValues = r.sortValues := by
  obtain ⟨key, operator, values⟩ := r
  obtain ⟨key', operator', values'⟩ := r'
  obtain ⟨rfl, rfl, hvalues⟩ := h
  have := destutter_mergeSort_eq bytes_le_trans bytes_le_total (separates_bytes values)
    fun v => (hvalues v).symm
  rw [NodeSelectorRequirement.sortValues, NodeSelectorRequirement.sortValues, compact, this]
  rfl

theorem sortValues_single {v : Bytes} (h : r.values = [v]) : r.sortValues = r := by
  obtain ⟨key, operator, values⟩ := r
  subst h
  simp [NodeSelectorRequirement.sortValues, compact]

/-! ## Requirements -/

theorem joinNul_cons_cons (a b : Bytes) (l : List Bytes) :
    joinNul (a :: b :: l) = a ++ 0 :: joinNul (b :: l) := by
  simp [joinNul, List.intercalate]

theorem append_nul_inj {a b s t : Bytes} (ha : 0 ∉ a) (hb : 0 ∉ b) (h : a ++ 0 :: s = b ++ 0 :: t) :
    a = b ∧ s = t := by
  rcases List.append_eq_append_iff.1 h with ⟨m, rfl, hm⟩ | ⟨m, rfl, hm⟩ <;> cases m with
  | nil => simpa [eq_comm] using hm
  | cons x m =>
    obtain ⟨rfl, -⟩ := List.cons.inj hm
    simp at ha hb

/-- Values without a NUL byte can be told apart after they are joined. -/
theorem joinNul_inj {l l' : List Bytes} (hl : ∀ v ∈ l, 0 ∉ v) (hl' : ∀ v ∈ l', 0 ∉ v)
    (hnil : l = [] ↔ l' = []) (h : joinNul l = joinNul l') : l = l' := by
  have hsingle (a : Bytes) : joinNul [a] = a := by simp [joinNul, List.intercalate]
  induction l generalizing l' with
  | nil => exact (hnil.1 rfl).symm
  | cons a l ih =>
    obtain ⟨b, l', rfl⟩ := List.exists_cons_of_ne_nil fun h => List.cons_ne_nil a l (hnil.2 h)
    obtain ⟨ha, htail⟩ := List.forall_mem_cons.1 hl
    obtain ⟨hb, htail'⟩ := List.forall_mem_cons.1 hl'
    cases l with
    | nil =>
      cases l' with
      | nil => rw [hsingle, hsingle] at h; rw [h]
      | cons b' l' =>
        rw [hsingle, joinNul_cons_cons] at h
        exact absurd (by simp [h]) ha
    | cons a' l =>
      cases l' with
      | nil =>
        rw [hsingle, joinNul_cons_cons] at h
        exact absurd (by simp [← h]) hb
      | cons b' l' =>
        rw [joinNul_cons_cons, joinNul_cons_cons] at h
        obtain ⟨rfl, hrest⟩ := append_nul_inj ha hb h
        exact congrArg (a :: ·) (ih htail htail' (by simp) hrest)

theorem operator_text_inj : ∀ o o' : NodeSelectorOperator, o.text = o'.text → o = o' := by
  intro o o'
  cases o <;> cases o' <;> decide

theorem requirement_le_iff {a b : NodeSelectorRequirement} :
    a.le b = true ↔ a.key < b.key ∨ a.key = b.key ∧ (a.operator.text < b.operator.text ∨
      a.operator = b.operator ∧ joinNul a.values ≤ joinNul b.values) := by
  have hlt {s t : Bytes} (hne : s ≠ t) : s ≤ t ↔ s < t :=
    ⟨fun h => Std.lt_of_le_of_ne h hne, List.le_of_lt⟩
  unfold NodeSelectorRequirement.le
  split
  case isTrue hkey => simp [hkey, hlt hkey]
  case isFalse hkey =>
    have hkey := not_not.1 hkey
    have hirrefl : ¬b.key < b.key := List.lt_irrefl _
    split
    case isTrue hop => simp [hkey, hirrefl, hop, hlt fun h => hop (operator_text_inj _ _ h)]
    case isFalse hop =>
      have hirrefl' : ¬b.operator.text < b.operator.text := List.lt_irrefl _
      simp [hkey, hirrefl, not_not.1 hop, hirrefl']

theorem requirement_le_trans (a b c : NodeSelectorRequirement) (hab : a.le b = true)
    (hbc : b.le c = true) : a.le c = true := by
  rw [requirement_le_iff] at *
  rcases hab with hab | ⟨hab, hop⟩
  · rcases hbc with hbc | ⟨hbc, -⟩
    · exact .inl (List.lt_trans hab hbc)
    · exact .inl (hbc ▸ hab)
  · rcases hbc with hbc | ⟨hbc, hop'⟩
    · exact .inl (hab ▸ hbc)
    · refine .inr ⟨hab.trans hbc, ?_⟩
      rcases hop with hop | ⟨hop, hvalues⟩
      · rcases hop' with hop' | ⟨hop', -⟩
        · exact .inl (List.lt_trans hop hop')
        · exact .inl (hop' ▸ hop)
      · rcases hop' with hop' | ⟨hop', hvalues'⟩
        · exact .inl (hop ▸ hop')
        · exact .inr ⟨hop.trans hop', List.le_trans hvalues hvalues'⟩

theorem requirement_le_total (a b : NodeSelectorRequirement) : (a.le b || b.le a) = true := by
  simp only [Bool.or_eq_true, requirement_le_iff]
  have htri (s t : Bytes) : s < t ∨ s = t ∨ t < s := Std.lt_trichotomy s t
  have htotal := List.le_total (joinNul a.values) (joinNul b.values)
  have hop := operator_text_inj a.operator b.operator
  rcases htri a.key b.key with h | h | h
  · exact .inl (.inl h)
  · rcases htri a.operator.text b.operator.text with h' | h' | h'
    · exact .inl (.inr ⟨h, .inl h'⟩)
    · exact htotal.imp (fun hle => .inr ⟨h, .inr ⟨hop h', hle⟩⟩)
        fun hle => .inr ⟨h.symm, .inr ⟨(hop h').symm, hle⟩⟩
    · exact .inr (.inr ⟨h.symm, .inl h'⟩)
  · exact .inr (.inl h)

theorem sortValues_nil : r.sortValues.values = [] ↔ r.values = [] := by
  simp only [List.eq_nil_iff_forall_not_mem, mem_sortValues]

theorem takes_sortValues (h : r.operator.Takes r.values) :
    r.operator.Takes r.sortValues.values := by
  cases hop : r.operator <;> rw [hop] at h
  case opIn | opNotIn => exact fun hnil => h (sortValues_nil.1 hnil)
  case opExists | opDoesNotExist => exact sortValues_nil.2 h
  case opGt | opLt =>
    obtain ⟨v, hv⟩ := h
    rw [sortValues_single hv]
    exact ⟨v, hv⟩

theorem NodeSelectorRequirement.Admitted.sortValues (h : r.Admitted) : r.sortValues.Admitted where
  shape := takes_sortValues h.shape
  key := h.key
  values v hv := h.values v (mem_sortValues.1 hv)

/-- An operator takes values or takes none. -/
theorem NodeSelectorOperator.Takes.nil_iff {o : NodeSelectorOperator} {l l' : List Bytes}
    (h : o.Takes l) (h' : o.Takes l') : l = [] ↔ l' = [] := by
  cases o
  case opIn | opNotIn => exact ⟨fun hl => absurd hl h, fun hl' => absurd hl' h'⟩
  case opExists | opDoesNotExist => exact ⟨fun _ => h', fun _ => h⟩
  case opGt | opLt =>
    obtain ⟨v, rfl⟩ := h
    obtain ⟨v', rfl⟩ := h'
    simp

theorem separates_requirements (h : ∀ r ∈ rs, r.Admitted) :
    Separates NodeSelectorRequirement.le (· ≠ ·) rs where
  ne_iff _ _ _ _ := Iff.rfl
  antisymm a ha b hb hab hba := by
    have hasymm {s t : Bytes} (h : s < t) : ¬t < s :=
      fun h' => List.lt_irrefl s (List.lt_trans h h')
    have hne {s t : Bytes} (h : s < t) : s ≠ t := fun heq => List.lt_irrefl t (heq ▸ h)
    rw [requirement_le_iff] at hab hba
    rcases hab with hab | ⟨hkey, hab⟩
    · exact (hba.elim (hasymm hab) fun hba => hne hab hba.1.symm).elim
    rcases hba with hba | ⟨-, hba⟩
    · exact absurd hkey.symm (hne hba)
    rcases hab with hab | ⟨hop, hab⟩
    · exact (hba.elim (hasymm hab) fun hba => hne hab (hba.1 ▸ rfl)).elim
    rcases hba with hba | ⟨-, hba⟩
    · exact absurd (hop ▸ rfl) (hne hba)
    have hnil := (h a ha).shape.nil_iff (hop ▸ (h b hb).shape)
    have hvalues := joinNul_inj (fun v hv => ((h a ha).values v hv).2)
      (fun v hv => ((h b hb).values v hv).2) hnil (List.le_antisymm hab hba)
    cases a
    cases b
    simp_all

theorem normalizeRequirements_eq_map (rs : List NodeSelectorRequirement) :
    normalizeRequirements rs = ((rs.map NodeSelectorRequirement.sortValues).mergeSort
      NodeSelectorRequirement.le).destutter (· ≠ ·) := rfl

theorem separates_sortValues (h : ∀ r ∈ rs, r.Admitted) :
    Separates NodeSelectorRequirement.le (· ≠ ·) (rs.map NodeSelectorRequirement.sortValues) := by
  refine separates_requirements fun r hr => ?_
  obtain ⟨r', hr', rfl⟩ := List.mem_map.1 hr
  exact (h r' hr').sortValues

theorem mem_normalizeRequirements (h : ∀ r ∈ rs, r.Admitted) :
    r ∈ normalizeRequirements rs ↔ ∃ r' ∈ rs, r'.sortValues = r := by
  rw [normalizeRequirements_eq_map, mem_destutter_mergeSort (separates_sortValues h), List.mem_map]

theorem normalizeRequirements_eq {rs' : List NodeSelectorRequirement} (h : ∀ r ∈ rs, r.Admitted)
    (hsame : Alike NodeSelectorRequirement.Same rs rs') :
    normalizeRequirements rs' = normalizeRequirements rs :=
  destutter_mergeSort_eq requirement_le_trans requirement_le_total (separates_sortValues h)
    (hsame.mem_map fun _ _ _ _ hs => (sortValues_eq hs).symm)

/-! ## Terms -/

theorem admitted_normalizeRequirements (h : ∀ r ∈ rs, r.Admitted) :
    ∀ r ∈ normalizeRequirements rs, r.Admitted := by
  intro r hr
  obtain ⟨r', hr', rfl⟩ := (mem_normalizeRequirements h).1 hr
  exact (h r' hr').sortValues

theorem NodeSelectorTerm.Admitted.normalize {t : NodeSelectorTerm} (h : t.Admitted) :
    t.normalize.Admitted :=
  ⟨admitted_normalizeRequirements h.expressions, admitted_normalizeRequirements h.fields⟩

theorem term_normalize_eq {t t' : NodeSelectorTerm} (h : t.Admitted)
    (hsame : t.Like NodeSelectorRequirement.Same t') : t'.normalize = t.normalize := by
  rw [NodeSelectorTerm.normalize, NodeSelectorTerm.normalize,
    normalizeRequirements_eq h.expressions hsame.expressions,
    normalizeRequirements_eq h.fields hsame.fields]

theorem soundItems_map {α : Type} {toJson : α → Json} {l : List α}
    (h : ∀ a ∈ l, Json.Sound (toJson a)) : Json.SoundItems (l.map toJson) := by
  induction l with
  | nil => trivial
  | cons a l ih =>
    obtain ⟨ha, hl⟩ := List.forall_mem_cons.1 h
    exact ⟨ha, ih hl⟩

theorem sound_requirement (h : r.Admitted) : Json.Sound r.toJson := by
  have hoperator : Valid r.operator.text := by
    cases r.operator <;> exact valid_of_all (by decide)
  refine soundMembers_append ⟨?_, h.key.1, ?_, hoperator, trivial⟩ (soundMembers_omitempty ?_ ?_)
  · exact valid_of_all (by decide)
  · exact valid_of_all (by decide)
  · exact valid_of_all (by decide)
  · exact sound_strings fun v hv => (h.values v hv).1

theorem sound_term {t : NodeSelectorTerm} (h : t.Admitted) : Json.Sound t.toJson := by
  refine soundMembers_append (soundMembers_omitempty ?_ ?_) (soundMembers_omitempty ?_ ?_)
  · exact valid_of_all (by decide)
  · exact soundItems_map fun r hr => sound_requirement (h.expressions r hr)
  · exact valid_of_all (by decide)
  · exact soundItems_map fun r hr => sound_requirement (h.fields r hr)

theorem strings_inj {l l' : List Bytes} (h : strings l = strings l') : l = l' := by
  unfold strings at h
  split at h <;> split at h
  case isTrue.isTrue hl hl' => rw [hl, hl']
  case isFalse.isFalse =>
    have hmap := Json.arr.inj h
    exact List.map_injective_iff.2 (fun _ _ hs => Json.str.inj hs) hmap
  all_goals cases h

/-- A member with `omitempty` says what the list is. -/
theorem omitempty_inj {α : Type} [DecidableEq α] {name : Bytes} {toJson : List α → Json}
    (hinj : Function.Injective toJson) {l l' : List α}
    (h : Json.omitempty (l = []) name (toJson l) = Json.omitempty (l' = []) name (toJson l')) :
    l = l' := by
  unfold Json.omitempty at h
  split at h <;> split at h
  case isTrue.isTrue hl hl' => rw [hl, hl']
  case isFalse.isFalse => exact hinj (by simpa using h)
  all_goals cases h

theorem requirement_toJson_inj : Function.Injective NodeSelectorRequirement.toJson := by
  rintro ⟨key, operator, values⟩ ⟨key', operator', values'⟩ h
  have hmembers := Json.obj.inj h
  simp only [List.cons_append, List.nil_append, List.cons.injEq, Prod.mk.injEq, true_and,
    Json.str.injEq] at hmembers
  obtain ⟨hkey, hoperator, hvalues⟩ := hmembers
  rw [hkey, operator_text_inj _ _ hoperator, omitempty_inj (fun _ _ => strings_inj) hvalues]

theorem filter_omitempty {p : Prop} [Decidable p] (name name' : Bytes) (j : Json) :
    (Json.omitempty p name j).filter (fun m => decide (m.1 = name')) =
      if name = name' then Json.omitempty p name j else [] := by
  unfold Json.omitempty
  split_ifs <;> simp_all

theorem term_toJson_inj : Function.Injective NodeSelectorTerm.toJson := by
  rintro ⟨expressions, fields⟩ ⟨expressions', fields'⟩ h
  have hmembers := Json.obj.inj h
  have harr : Function.Injective fun l : List NodeSelectorRequirement =>
      Json.arr (l.map NodeSelectorRequirement.toJson) := fun _ _ heq =>
    List.map_injective_iff.2 requirement_toJson_inj (Json.arr.inj heq)
  have hfilter := congrArg
    (List.filter fun m => decide (m.1 = ascii "matchExpressions")) hmembers
  have hnames : ascii "matchFields" ≠ ascii "matchExpressions" := by decide
  simp only [List.filter_append, filter_omitempty, hnames, if_true, if_false,
    List.append_nil] at hfilter
  obtain rfl := omitempty_inj harr hfilter
  obtain rfl := omitempty_inj harr (List.append_cancel_left hmembers)
  rfl

theorem encode_term_inj {t t' : NodeSelectorTerm} (h : t.Admitted) (h' : t'.Admitted)
    (heq : encode t.toJson = encode t'.toJson) : t = t' := by
  have hparse := parse_encode (sound_term h)
  rw [heq, parse_encode (sound_term h'), Option.some.injEq, Prod.mk.injEq] at hparse
  exact term_toJson_inj hparse.1.symm

theorem separates_terms {ts : List NodeSelectorTerm} (h : ∀ t ∈ ts, t.Admitted) :
    Separates (fun a b => decide (encode a.toJson ≤ encode b.toJson))
      (fun a b => encode a.toJson ≠ encode b.toJson)
      (ts.map NodeSelectorTerm.normalize) := by
  have hinj : ∀ a ∈ ts.map NodeSelectorTerm.normalize, ∀ b ∈ ts.map NodeSelectorTerm.normalize,
      encode a.toJson = encode b.toJson → a = b := by
    intro a ha b hb
    obtain ⟨t, ht, rfl⟩ := List.mem_map.1 ha
    obtain ⟨t', ht', rfl⟩ := List.mem_map.1 hb
    exact encode_term_inj (h t ht).normalize (h t' ht').normalize
  refine ⟨fun a ha b hb hab hba => hinj a ha b hb ?_,
    fun a ha b hb => not_congr ⟨hinj a ha b hb, ?_⟩⟩
  · exact List.le_antisymm (of_decide_eq_true hab) (of_decide_eq_true hba)
  · rintro rfl
    rfl

/-! ## Affinities -/

/-- The terms of a normal form. -/
def normalizeTerms (terms : List NodeSelectorTerm) : List NodeSelectorTerm :=
  ((terms.map NodeSelectorTerm.normalize).mergeSort fun a b =>
    decide (encode a.toJson ≤ encode b.toJson)).destutter fun a b =>
      encode a.toJson ≠ encode b.toJson

theorem mem_normalizeTerms {ts : List NodeSelectorTerm} (h : ∀ t ∈ ts, t.Admitted)
    {t : NodeSelectorTerm} : t ∈ normalizeTerms ts ↔ ∃ t' ∈ ts, t'.normalize = t := by
  rw [normalizeTerms, mem_destutter_mergeSort (separates_terms h), List.mem_map]

theorem normalizeTerms_eq {ts ts' : List NodeSelectorTerm} (h : ∀ t ∈ ts, t.Admitted)
    (hsame : Alike (NodeSelectorTerm.Like NodeSelectorRequirement.Same) ts ts') :
    normalizeTerms ts' = normalizeTerms ts :=
  destutter_mergeSort_eq (fun _ _ _ => bytes_le_trans _ _ _) (fun _ _ => bytes_le_total _ _)
    (separates_terms h) (hsame.mem_map fun t ht _ _ hs => (term_normalize_eq (h t ht) hs).symm)

/-- The normal form depends only on which terms, requirements and values there are. -/
theorem normalize_eq_of_same {affinity affinity' : Option VolumeNodeAffinity}
    (h : AffinityAdmitted affinity)
    (hsame : AffinityLike NodeSelectorRequirement.Same affinity affinity') :
    normalizeVolumeNodeAffinity affinity' = normalizeVolumeNodeAffinity affinity := by
  cases hsame with
  | none => rfl
  | some hsame =>
    rename_i a a'
    obtain ⟨required⟩ := a
    obtain ⟨required'⟩ := a'
    cases hsame with
    | none => rfl
    | some hsame =>
      exact congrArg (fun terms => some (VolumeNodeAffinity.mk (some terms)))
        (normalizeTerms_eq (h _ rfl) hsame)

/-! ## What a normal form says -/

/-- The same requirement; a comparison has the same bound. -/
structure NodeSelectorRequirement.Agrees (r r' : NodeSelectorRequirement) : Prop
    extends r.Same r' where
  bound : r.operator.Compares → r.bound = r'.bound

theorem agrees_refl (r : NodeSelectorRequirement) : r.Agrees r :=
  ⟨⟨rfl, rfl, fun _ => Iff.rfl⟩, fun _ => rfl⟩

theorem agrees_symm {r' : NodeSelectorRequirement} (h : r.Agrees r') : r'.Agrees r :=
  ⟨⟨h.key.symm, h.operator.symm, fun v => (h.values v).symm⟩,
    fun hop => (h.bound (h.operator ▸ hop)).symm⟩

/-- A comparison has one value, so its values are sorted already. -/
theorem agrees_sortValues (h : r.Admitted) : r.Agrees r.sortValues := by
  refine ⟨⟨rfl, rfl, fun _ => mem_sortValues.symm⟩, fun hop => ?_⟩
  have hsingle : ∃ v, r.values = [v] := by
    have hshape := h.shape
    rcases hop with hop | hop <;> rwa [hop] at hshape
  obtain ⟨v, hv⟩ := hsingle
  rw [sortValues_single hv]

theorem alike_normalizeRequirements (h : ∀ r ∈ rs, r.Admitted) :
    Alike NodeSelectorRequirement.Agrees rs (normalizeRequirements rs) := by
  refine ⟨fun r hr => ⟨_, (mem_normalizeRequirements h).2 ⟨r, hr, rfl⟩,
    agrees_sortValues (h r hr)⟩, fun r hr => ?_⟩
  obtain ⟨r', hr', rfl⟩ := (mem_normalizeRequirements h).1 hr
  exact ⟨r', hr', agrees_sortValues (h r' hr')⟩

theorem like_normalize_term {t : NodeSelectorTerm} (h : t.Admitted) :
    t.Like NodeSelectorRequirement.Agrees t.normalize :=
  ⟨alike_normalizeRequirements h.expressions, alike_normalizeRequirements h.fields⟩

theorem alike_normalizeTerms {ts : List NodeSelectorTerm} (h : ∀ t ∈ ts, t.Admitted) :
    Alike (NodeSelectorTerm.Like NodeSelectorRequirement.Agrees) ts (normalizeTerms ts) := by
  refine ⟨fun t ht => ⟨_, (mem_normalizeTerms h).2 ⟨t, ht, rfl⟩, like_normalize_term (h t ht)⟩,
    fun t ht => ?_⟩
  obtain ⟨t', ht', rfl⟩ := (mem_normalizeTerms h).1 ht
  exact ⟨t', ht', like_normalize_term (h t' ht')⟩

/-- An affinity and its normal form say the same. -/
theorem like_normalize {affinity : Option VolumeNodeAffinity} (h : AffinityAdmitted affinity) :
    AffinityLike NodeSelectorRequirement.Agrees affinity
      (normalizeVolumeNodeAffinity affinity) := by
  cases affinity with
  | none => exact .none
  | some a =>
    obtain ⟨required⟩ := a
    cases required with
    | none => exact .some .none
    | some terms => exact .some (.some (alike_normalizeTerms (h terms rfl)))

theorem NodeSelectorTerm.Like.mono {S T : NodeSelectorRequirement → NodeSelectorRequirement → Prop}
    {t t' : NodeSelectorTerm} (hST : ∀ r r', S r r' → T r r') (h : t.Like S t') : t.Like T t' :=
  ⟨h.expressions.mono fun _ _ _ _ => hST _ _, h.fields.mono fun _ _ _ _ => hST _ _⟩

theorem AffinityLike.mono {S T : NodeSelectorRequirement → NodeSelectorRequirement → Prop}
    {affinity affinity' : Option VolumeNodeAffinity} (hST : ∀ r r', S r r' → T r r')
    (h : AffinityLike S affinity affinity') : AffinityLike T affinity affinity' := by
  cases h with
  | none => exact .none
  | some h =>
    rename_i a a'
    obtain ⟨required⟩ := a
    obtain ⟨required'⟩ := a'
    cases h with
    | none => exact .some .none
    | some h => exact .some (.some (h.mono fun _ _ _ _ => .mono hST))

theorem AffinityLike.terms {S : NodeSelectorRequirement → NodeSelectorRequirement → Prop}
    {affinity affinity' : Option VolumeNodeAffinity} (h : AffinityLike S affinity affinity') :
    Option.Rel (Alike (NodeSelectorTerm.Like S)) (requiredVolumeTerms affinity)
      (requiredVolumeTerms affinity') := by
  cases h with
  | none => exact .none
  | some h => exact h

theorem requirement_matches_iff {r' : NodeSelectorRequirement} (h : r.Agrees r')
    (value : Option Bytes) : r.Matches value ↔ r'.Matches value := by
  have hbound := h.bound
  unfold NodeSelectorRequirement.Matches
  rw [← h.operator]
  cases hop : r.operator <;> rw [hop] at hbound
  case opIn | opNotIn => simp only [h.values]
  case opGt => rw [hbound (.inl rfl)]
  case opLt => rw [hbound (.inr rfl)]

theorem forall_matches_iff {rs' : List NodeSelectorRequirement}
    (h : Alike NodeSelectorRequirement.Agrees rs rs') (f : Bytes → Option Bytes) :
    (∀ r ∈ rs, r.Matches (f r.key)) ↔ ∀ r ∈ rs', r.Matches (f r.key) := by
  refine h.forall_mem_iff fun r _ r' _ hagrees => ?_
  rw [requirement_matches_iff hagrees, hagrees.key]

theorem nonempty_like {t t' : NodeSelectorTerm}
    {S : NodeSelectorRequirement → NodeSelectorRequirement → Prop} (h : t.Like S t') :
    nodeSelectorTermNonempty t = nodeSelectorTermNonempty t' := by
  simp only [nodeSelectorTermNonempty, ne_eq, h.expressions.nil_iff, h.fields.nil_iff]

theorem term_matches_iff {t t' : NodeSelectorTerm} (h : t.Like NodeSelectorRequirement.Agrees t')
    (node : Node) : t.Matches node ↔ t'.Matches node := by
  have hexpressions := forall_matches_iff h.expressions node.labels
  have hfields := forall_matches_iff h.fields node.fields
  have hnonempty := nonempty_like h
  exact ⟨fun hm => ⟨hnonempty ▸ hm.nonempty, hexpressions.1 hm.expressions, hfields.1 hm.fields⟩,
    fun hm => ⟨hnonempty ▸ hm.nonempty, hexpressions.2 hm.expressions, hfields.2 hm.fields⟩⟩

theorem affinity_matches_iff {affinity affinity' : Option VolumeNodeAffinity}
    (h : AffinityLike NodeSelectorRequirement.Agrees affinity affinity') (node : Node) :
    AffinityMatches affinity node ↔ AffinityMatches affinity' node := by
  have hterms := h.terms
  unfold AffinityMatches
  generalize requiredVolumeTerms affinity = terms at hterms
  generalize requiredVolumeTerms affinity' = terms' at hterms
  cases hterms with
  | none => simp
  | some hterms =>
    simp only [Option.some.injEq, forall_eq']
    exact hterms.exists_mem_iff fun _ _ _ _ hlike => term_matches_iff hlike node

end Kama.Controller
