import Kama.Runtime.State
import Mathlib.Data.Finset.Card
import Mathlib.Data.Finset.Lattice.Fold
import Mathlib.Data.Finset.Max
import Mathlib.Order.Lattice.Nat

/-!
# The accelerator evidence as a fold

The lines of the child's log are folded into the number of visible accelerators one by one, and
several lines may speak of one device. `Evidence` is the part of the state that takes part in this,
and a `Sighting` is what one pattern finds in one line.

* `evidence_observeStartupLog`: a line adds its sightings to the evidence.
* `Seen l e`: the evidence `e` is that of the sightings `l`, said with finite sets
  (`seen_foldl`): the largest of the counts and of the number of indices.
* `visible_eq_of_mem_iff`, `visible_mono`: the result depends on the set of lines, and more lines
  never lower it.
-/

namespace Kama.Runtime

/-! ## Sightings -/

/-- What a line reports: a number of devices, or a device. -/
inductive Sighting
  | count (n : Nat)
  | device (index : Nat) (name : String)
  deriving DecidableEq, Repr

/-- The device that a pattern found, if there is something left of its name. -/
def deviceSighting : Option (Nat × String) → List Sighting
  | some (index, name) => if name = "" then [] else [.device index name]
  | none => []

/-- The count that the pattern found, if it fits. -/
def countSighting : Option Nat → List Sighting
  | some n => if fitsInt32 n then [.count n] else []
  | none => []

def LogFacts.sightings (facts : LogFacts) : List Sighting :=
  countSighting facts.cudaCount ++ deviceSighting facts.legacyDevice ++
    deviceSighting facts.inventoryDevice

structure Evidence where
  visible : Option Nat
  devices : List (Nat × String)
  device : String
  deriving DecidableEq, Repr

namespace Evidence

def empty : Evidence := ⟨none, [], ""⟩

/-- The name of the only device, if it is the only one that is visible. -/
def onlyDevice (count : Nat) : List (Nat × String) → String
  | [(_, name)] => if count = 1 then name else ""
  | _ => ""

def update (e : Evidence) (observed : Nat) : Evidence :=
  let count := max (max observed (e.visible.getD 0)) e.devices.length
  { e with visible := some count, device := onlyDevice count e.devices }

def addDevice (devices : List (Nat × String)) (index : Nat) (name : String) :
    List (Nat × String) :=
  if devices.any (·.1 == index) then devices else devices ++ [(index, name)]

def see (e : Evidence) : Sighting → Evidence
  | .count n => e.update n
  | .device index name =>
    let devices := addDevice e.devices index name
    { e with devices := devices }.update devices.length

end Evidence

def State.evidence (s : State) : Evidence :=
  ⟨s.runtime.visibleAccelerators, s.observedCUDADevices, s.runtime.acceleratorDevice⟩

theorem evidence_updateVisibleAcceleratorsLocked (s : State) (observed : Nat) :
    (s.updateVisibleAcceleratorsLocked observed).evidence = s.evidence.update observed := by
  unfold State.updateVisibleAcceleratorsLocked Evidence.update State.evidence Evidence.onlyDevice
  rfl

theorem evidence_observeCount (s : State) (count : Option Nat) :
    (s.observeCount count).evidence = (countSighting count).foldl Evidence.see s.evidence := by
  cases count with
  | none => rfl
  | some count =>
    simp only [State.observeCount, countSighting]
    split
    · exact evidence_updateVisibleAcceleratorsLocked s count
    · rfl

theorem evidence_observeOffload (s : State) (offload : Option (Nat × Nat)) :
    (s.observeOffload offload).evidence = s.evidence := by
  rcases offload with _ | ⟨offloaded, total⟩
  · rfl
  · simp only [State.observeOffload]
    split <;> rfl

theorem evidence_observeDevice (s : State) (device : Option (Nat × String)) :
    (s.observeDevice device).evidence = (deviceSighting device).foldl Evidence.see s.evidence := by
  rcases device with _ | ⟨index, name⟩
  · rfl
  · simp only [State.observeDevice, State.observeCUDADeviceLocked, deviceSighting]
    split
    · rfl
    · exact evidence_updateVisibleAcceleratorsLocked _ _

/-- A line adds its sightings to the evidence. -/
theorem evidence_observeStartupLog {config : Config} (hmode : config.mode = .accelerator)
    (s : State) (facts : LogFacts) :
    (s.observeStartupLog config facts).evidence =
      facts.sightings.foldl Evidence.see s.evidence := by
  rw [State.observeStartupLog, if_pos hmode, evidence_observeDevice, evidence_observeDevice,
    evidence_observeOffload, evidence_observeCount, LogFacts.sightings, List.foldl_append,
    List.foldl_append]

/-! ## What the sightings amount to -/

/-- The counts that were reported. -/
def counts (l : List Sighting) : Finset Nat :=
  (l.filterMap fun
    | .count n => some n
    | .device _ _ => none).toFinset

/-- The indices of the devices that were reported. -/
def indices (l : List Sighting) : Finset Nat :=
  (l.filterMap fun
    | .count _ => none
    | .device index _ => some index).toFinset

/-- The largest of the counts and of the number of devices. -/
def largest (l : List Sighting) : Nat := max ((counts l).sup id) (indices l).card

def visible (l : List Sighting) : Option Nat := if l = [] then none else some (largest l)

@[simp] theorem counts_append_count (l : List Sighting) (n : Nat) :
    counts (l ++ [.count n]) = insert n (counts l) := by
  ext m
  simp [counts]

@[simp] theorem counts_append_device (l : List Sighting) (index : Nat) (name : String) :
    counts (l ++ [.device index name]) = counts l := by
  simp [counts]

@[simp] theorem indices_append_count (l : List Sighting) (n : Nat) :
    indices (l ++ [.count n]) = indices l := by
  simp [indices]

@[simp] theorem indices_append_device (l : List Sighting) (index : Nat) (name : String) :
    indices (l ++ [.device index name]) = insert index (indices l) := by
  ext m
  simp [indices]

/-- The evidence of the sightings `l`. -/
structure Seen (l : List Sighting) (e : Evidence) : Prop where
  visible : e.visible = visible l
  nodup : (e.devices.map Prod.fst).Nodup
  devices : (e.devices.map Prod.fst).toFinset = indices l
  named : ∀ d ∈ e.devices, d.2 ≠ ""
  device : e.device = Evidence.onlyDevice (largest l) e.devices

theorem seen_empty : Seen [] Evidence.empty :=
  ⟨rfl, List.nodup_nil, rfl, fun _ hd => absurd hd List.not_mem_nil, rfl⟩

namespace Seen

variable {l : List Sighting} {e : Evidence}

theorem length_devices (h : Seen l e) : e.devices.length = (indices l).card := by
  rw [← h.devices, List.toFinset_card_of_nodup h.nodup, List.length_map]

/-- Before the first sighting the number counts as zero, and so does the largest of nothing. -/
theorem getD_visible (h : Seen l e) : e.visible.getD 0 = largest l := by
  rw [h.visible, Runtime.visible]
  split
  case isTrue hnil =>
    rw [hnil]
    rfl
  case isFalse => rfl

theorem count (h : Seen l e) (n : Nat) : Seen (l ++ [.count n]) (e.update n) := by
  have hlargest : max (max n (e.visible.getD 0)) e.devices.length = largest (l ++ [.count n]) := by
    rw [h.getD_visible, h.length_devices, largest, largest, counts_append_count,
      indices_append_count, Finset.sup_insert, id]
    omega
  refine ⟨?_, h.nodup, by rw [indices_append_count]; exact h.devices, h.named, ?_⟩
  · rw [Runtime.visible, if_neg (by simp), ← hlargest]
    rfl
  · rw [← hlargest]
    rfl

/-- A device is added unless its index is there already. -/
theorem addDevice (h : Seen l e) (index : Nat) {name : String} (hname : name ≠ "") :
    ((Evidence.addDevice e.devices index name).map Prod.fst).Nodup ∧
      ((Evidence.addDevice e.devices index name).map Prod.fst).toFinset =
        insert index (indices l) ∧
      ∀ d ∈ Evidence.addDevice e.devices index name, d.2 ≠ "" := by
  unfold Evidence.addDevice
  split
  case isTrue hany =>
    obtain ⟨d, hd, hindex⟩ := List.any_eq_true.1 hany
    have hmem : index ∈ indices l := by
      rw [← h.devices, List.mem_toFinset]
      exact List.mem_map.2 ⟨d, hd, by simpa using hindex⟩
    exact ⟨h.nodup, by rw [h.devices, Finset.insert_eq_of_mem hmem], h.named⟩
  case isFalse hany =>
    have hnew : index ∉ e.devices.map Prod.fst := by
      intro hmem
      obtain ⟨d, hd, rfl⟩ := List.mem_map.1 hmem
      exact hany (List.any_eq_true.2 ⟨d, hd, by simp⟩)
    refine ⟨?_, ?_, ?_⟩
    · rw [List.map_append, List.map_singleton]
      refine List.nodup_append.2 ⟨h.nodup, List.nodup_singleton _, ?_⟩
      rintro a ha b hb rfl
      rw [List.mem_singleton.1 hb] at ha
      exact hnew ha
    · rw [List.map_append, List.toFinset_append, h.devices]
      simp [Finset.union_comm]
    · intro d hd
      rcases List.mem_append.1 hd with hd | hd
      · exact h.named d hd
      · rw [List.mem_singleton.1 hd]
        exact hname

theorem see (h : Seen l e) {s : Sighting} (hs : ∀ index, s ≠ .device index "") :
    Seen (l ++ [s]) (e.see s) := by
  cases s with
  | count n => exact h.count n
  | device index name =>
    obtain ⟨hnodup, hdevices, hnamed⟩ := h.addDevice index
      fun hname => hs index (hname ▸ rfl)
    have hlength : (Evidence.addDevice e.devices index name).length =
        (indices (l ++ [.device index name])).card := by
      rw [indices_append_device, ← hdevices, List.toFinset_card_of_nodup hnodup, List.length_map]
    have hcard : (indices l).card ≤ (indices (l ++ [.device index name])).card := by
      rw [indices_append_device]
      exact Finset.card_le_card (Finset.subset_insert _ _)
    have hlargest : max (max (Evidence.addDevice e.devices index name).length (e.visible.getD 0))
        (Evidence.addDevice e.devices index name).length = largest (l ++ [.device index name]) := by
      rw [h.getD_visible, hlength, largest, largest, counts_append_device]
      omega
    refine ⟨?_, hnodup, by rw [indices_append_device]; exact hdevices, hnamed, ?_⟩
    · rw [Runtime.visible, if_neg (by simp), ← hlargest]
      rfl
    · rw [← hlargest]
      rfl

end Seen

/-- More sightings are added to those that the evidence is of. -/
theorem Seen.foldl {l more : List Sighting} {e : Evidence} (h : Seen l e)
    (hmore : ∀ index, .device index "" ∉ more) : Seen (l ++ more) (more.foldl Evidence.see e) := by
  induction more generalizing l e with
  | nil => rwa [List.append_nil]
  | cons s more ih =>
    rw [List.foldl_cons, List.append_cons]
    refine ih (h.see fun index hs => ?_) fun index hmem => ?_
    · exact hmore index (hs ▸ List.mem_cons_self)
    · exact hmore index (List.mem_cons_of_mem s hmem)

/-- **The fold of the sightings is their maximum.** -/
theorem seen_foldl {l : List Sighting} (h : ∀ index, .device index "" ∉ l) :
    Seen l (l.foldl Evidence.see Evidence.empty) :=
  seen_empty.foldl h

/-- The name is there when the only device that is visible has been named. -/
theorem Seen.device_ne_iff {l : List Sighting} {e : Evidence} (h : Seen l e) :
    e.device ≠ "" ↔ e.visible = some 1 ∧ (indices l).card = 1 := by
  have hlength := h.length_devices
  have hvisible : e.visible = some 1 ↔ largest l = 1 := by
    rw [h.visible, Runtime.visible]
    split
    case isTrue hnil =>
      subst hnil
      simp [largest, counts, indices]
    case isFalse => simp
  rw [h.device, hvisible]
  have hnamed := h.named
  cases hdevices : e.devices with
  | nil =>
    rw [hdevices] at hlength
    simp [Evidence.onlyDevice, ← hlength]
  | cons d rest =>
    rw [hdevices] at hlength hnamed
    cases rest with
    | nil =>
      have hname := hnamed d List.mem_cons_self
      simp only [List.length_singleton] at hlength
      simp only [Evidence.onlyDevice, ← hlength, and_true]
      split <;> simp_all
    | cons d' rest =>
      simp only [List.length_cons] at hlength
      have hcard : (indices l).card ≠ 1 := by omega
      simp [Evidence.onlyDevice, hcard]

/-! ## Lines -/

/-- What the lines report. -/
def sightingsOf (lines : List LogFacts) : List Sighting := lines.flatMap LogFacts.sightings

theorem evidence_foldl {config : Config} (hmode : config.mode = .accelerator)
    (lines : List LogFacts) (s : State) :
    (lines.foldl (State.observeStartupLog config) s).evidence =
      (sightingsOf lines).foldl Evidence.see s.evidence := by
  induction lines generalizing s with
  | nil => rfl
  | cons facts lines ih =>
    have hcons : sightingsOf (facts :: lines) = facts.sightings ++ sightingsOf lines := rfl
    rw [List.foldl_cons, ih, evidence_observeStartupLog hmode, hcons, List.foldl_append]

theorem named_sightingsOf (lines : List LogFacts) (index : Nat) :
    .device index "" ∉ sightingsOf lines := by
  have hdevice : ∀ device, .device index "" ∉ deviceSighting device := by
    rintro (_ | ⟨index', name⟩)
    · exact List.not_mem_nil
    · simp only [deviceSighting]
      split
      · exact List.not_mem_nil
      · rename_i hname
        intro hmem
        cases List.mem_singleton.1 hmem
        exact hname rfl
  have hcount : ∀ count, .device index "" ∉ countSighting count := by
    rintro (_ | n)
    · exact List.not_mem_nil
    · simp only [countSighting]
      split <;> simp
  intro hmem
  obtain ⟨facts, -, hmem⟩ := List.mem_flatMap.1 hmem
  rcases List.mem_append.1 hmem with hmem | hmem
  · rcases List.mem_append.1 hmem with hmem | hmem
    · exact hcount _ hmem
    · exact hdevice _ hmem
  · exact hdevice _ hmem

/-- The evidence of the lines that a supervisor has seen. -/
theorem seen_lines {config : Config} (hmode : config.mode = .accelerator) (lines : List LogFacts) :
    Seen (sightingsOf lines)
      (lines.foldl (State.observeStartupLog config) newSupervisor).evidence := by
  rw [evidence_foldl hmode]
  exact seen_foldl (named_sightingsOf lines)

theorem visible_eq_of_mem_iff {l l' : List Sighting} (h : ∀ s, s ∈ l ↔ s ∈ l') :
    visible l = visible l' := by
  have hcounts : counts l = counts l' := by
    ext n
    simp only [counts, List.mem_toFinset, List.mem_filterMap, h]
  have hindices : indices l = indices l' := by
    ext n
    simp only [indices, List.mem_toFinset, List.mem_filterMap, h]
  have hnil : l = [] ↔ l' = [] := by
    simp only [List.eq_nil_iff_forall_not_mem, h]
  simp only [visible, largest, hcounts, hindices, hnil]

theorem counts_append (l more : List Sighting) : counts (l ++ more) = counts l ∪ counts more := by
  simp only [counts, List.filterMap_append, List.toFinset_append]

theorem indices_append (l more : List Sighting) :
    indices (l ++ more) = indices l ∪ indices more := by
  simp only [indices, List.filterMap_append, List.toFinset_append]

theorem largest_mono (l more : List Sighting) : largest l ≤ largest (l ++ more) := by
  have hcounts : counts l ⊆ counts (l ++ more) := by
    rw [counts_append]
    exact Finset.subset_union_left
  have hindices : indices l ⊆ indices (l ++ more) := by
    rw [indices_append]
    exact Finset.subset_union_left
  exact max_le_max (Finset.sup_mono hcounts) (Finset.card_le_card hindices)

theorem visible_mono {l : List Sighting} {v : Nat} (h : visible l = some v)
    (more : List Sighting) : ∃ v', v ≤ v' ∧ visible (l ++ more) = some v' := by
  unfold visible at h
  split at h
  · cases h
  · rename_i hne
    obtain rfl := Option.some.inj h
    refine ⟨largest (l ++ more), largest_mono l more, ?_⟩
    rw [visible, if_neg fun hnil => hne (List.append_eq_nil_iff.1 hnil).1]

/-- More sightings of one device at most leave it at that. -/
theorem Seen.one {l more : List Sighting} {e : Evidence} (h : Seen l e)
    (hvisible : e.visible = some 1) (hmore : ∀ index, .device index "" ∉ more)
    (hcounts : ∀ n ∈ counts more, n ≤ 1)
    (hindices : ∀ i ∈ indices more, ∀ j ∈ indices more ∪ indices l, i = j) :
    (more.foldl Evidence.see e).visible = some 1 := by
  have hlargest : largest l = 1 := by rw [← h.getD_visible, hvisible, Option.getD_some]
  have hne : l ++ more ≠ [] := by
    intro hnil
    rw [h.visible, (List.append_eq_nil_iff.1 hnil).1] at hvisible
    cases hvisible
  rw [(h.foldl hmore).visible, Runtime.visible, if_neg hne]
  have hsup : (counts l).sup id ≤ 1 ∧ (indices l).card ≤ 1 := by
    unfold largest at hlargest
    omega
  have hsup' : (counts (l ++ more)).sup id ≤ 1 := by
    rw [counts_append, Finset.sup_union]
    exact sup_le hsup.1 (Finset.sup_le hcounts)
  have hcard : (indices (l ++ more)).card ≤ 1 := by
    rw [indices_append]
    refine Finset.card_le_one.2 fun i hi j hj => ?_
    rcases Finset.mem_union.1 hi with hi | hi
    · rcases Finset.mem_union.1 hj with hj | hj
      · exact Finset.card_le_one.1 hsup.2 i hi j hj
      · exact (hindices j hj i (Finset.mem_union_right _ hi)).symm
    · rw [Finset.union_comm] at hj
      exact hindices i hi j hj
  have hle := largest_mono l more
  have hge : largest (l ++ more) ≤ 1 := max_le hsup' hcard
  rw [show largest (l ++ more) = 1 by omega]

end Kama.Runtime
