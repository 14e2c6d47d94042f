import Kama.Controller.Admission
import Kama.Controller.ImportJob

/-!
# The watches of a model deployment

`newServingDeployment` puts the name of its `ModelDeployment` in a label of the Pods, and
`SetupWithManager` reads the label back to find out which `ModelDeployment` an event of a Pod or a
ReplicaSet is about. A label has room for 63 bytes; a longer name is replaced by a hash.

* `templateLabels` are the labels of the Pods, `podRequests` and `replicaSetRequests` the handlers.
* `boundedLabelValue_subdomain`: a name is kept as a label if and only if it fits.
* `servingRequests_iff`: the handlers reach the `ModelDeployment` if and only if its name fits.
-/

namespace Kama.Controller.Watch

open Bytes

/-! ## Labels and handlers -/

/-- The metadata of a `ModelDeployment` that its labels are made of. -/
structure DeploymentMeta where
  namespace_ : Bytes
  name : Bytes
  uid : Bytes
  deriving DecidableEq, Repr

def modelDeploymentNameLabel : LabelKey :=
  .other (ascii "kama.tannerburns.github.io/model-deployment")

def modelDeploymentUIDLabel : LabelKey :=
  .other (ascii "kama.tannerburns.github.io/model-deployment-uid")

def runtimeFingerprintLabel : LabelKey :=
  .other (ascii "kama.tannerburns.github.io/runtime-fingerprint")

def servingLabels (rules : NameRules) (deployment : DeploymentMeta) : Labels :=
  [(.managedBy, kamaName), (.component, modelDeploymentComponent),
    (modelDeploymentNameLabel, boundedLabelValue rules deployment.name),
    (modelDeploymentUIDLabel, deployment.uid)]

/-- The labels of the Pod template of `newServingDeployment`. -/
def templateLabels (rules : NameRules) (deployment : DeploymentMeta)
    (fingerprint artifactUID : Bytes) : Labels :=
  servingLabels rules deployment ++
    [(runtimeFingerprintLabel, boundedLabelValue rules fingerprint),
      (.artifactUID, boundedLabelValue rules artifactUID)]

structure NamespacedName where
  namespace_ : Bytes
  name : Bytes
  deriving DecidableEq, Repr

/-- What the handlers read of an object. -/
structure Watched where
  namespace_ : Bytes
  labels : Labels
  deriving DecidableEq, Repr

/-- The function that `SetupWithManager` has for Pods and, once more, for ReplicaSets. -/
def labelRequests (object : Watched) : List NamespacedName :=
  if object.labels.get .managedBy ≠ kamaName ∨
      object.labels.get .component ≠ modelDeploymentComponent then []
  else
    let name := object.labels.get modelDeploymentNameLabel
    if name = [] then [] else [⟨object.namespace_, name⟩]

def podRequests (object : Watched) : List NamespacedName := labelRequests object

def replicaSetRequests (object : Watched) : List NamespacedName := labelRequests object

/-- The object has the labels of the template, and maybe others. -/
structure Watched.Carries (object : Watched) (rules : NameRules) (deployment : DeploymentMeta)
    (fingerprint artifactUID : Bytes) : Prop where
  namespace_eq : object.namespace_ = deployment.namespace_
  labels : ∀ label ∈ templateLabels rules deployment fingerprint artifactUID,
    object.labels.lookup label.1 = some label.2

/-! ## Names as labels -/

/-- The text of a label value, of any length. -/
def LabelText (s : Bytes) : Prop :=
  s.all isLabelValueByte = true ∧ s.head?.any isAlphanumeric = true ∧
    s.getLast?.any isAlphanumeric = true

theorem isAlphanumeric_of_isLabelEnd {b : UInt8} (h : isLabelEnd b = true) :
    isAlphanumeric b = true := by
  simp only [isLabelEnd, isAlphanumeric, Bool.or_eq_true] at h ⊢
  tauto

theorem isLabelValueByte_of_isLabelByte {b : UInt8} (h : isLabelByte b = true) :
    isLabelValueByte b = true := by
  simp only [isLabelByte, isLabelValueByte, isAlphanumeric, Bool.or_eq_true] at h ⊢
  tauto

theorem labelText_of_dns1123Label {s : Bytes} (h : dns1123Label s = true) : LabelText s := by
  simp only [dns1123Label, Bool.and_eq_true, List.all_eq_true] at h
  obtain ⟨⟨hall, hhead⟩, hlast⟩ := h
  refine ⟨List.all_eq_true.2 fun b hb => isLabelValueByte_of_isLabelByte (hall b hb), ?_, ?_⟩
  · obtain ⟨b, hb, hend⟩ := (Option.any_eq_true _ _).1 hhead
    exact (Option.any_eq_true _ _).2 ⟨b, hb, isAlphanumeric_of_isLabelEnd hend⟩
  · obtain ⟨b, hb, hend⟩ := (Option.any_eq_true _ _).1 hlast
    exact (Option.any_eq_true _ _).2 ⟨b, hb, isAlphanumeric_of_isLabelEnd hend⟩

theorem LabelText.ne_nil {s : Bytes} (h : LabelText s) : s ≠ [] := by
  rintro rfl
  exact absurd h.2.1 (by decide)

theorem LabelText.append {s t : Bytes} (hs : LabelText s) (ht : LabelText t) :
    LabelText (s ++ 46 :: t) := by
  refine ⟨?_, ?_, ?_⟩
  · rw [List.all_append, List.all_cons, hs.1, ht.1]
    rfl
  · rw [List.head?_append_of_ne_nil _ hs.ne_nil]
    exact hs.2.1
  · rw [List.getLast?_append_of_ne_nil _ (List.cons_ne_nil _ _),
      List.getLast?_cons_of_ne_nil ht.ne_nil]
    exact ht.2.2

theorem labelText_intercalate {labels : List Bytes} (hne : labels ≠ [])
    (h : ∀ label ∈ labels, LabelText label) : LabelText ([46].intercalate labels) := by
  induction labels with
  | nil => exact absurd rfl hne
  | cons label labels ih =>
    cases labels with
    | nil => simpa using h label (List.mem_cons_self ..)
    | cons next rest =>
      have hrest := ih (List.cons_ne_nil _ _) fun l hl => h l (List.mem_cons_of_mem _ hl)
      have hjoin : [46].intercalate (label :: next :: rest) =
          label ++ 46 :: [46].intercalate (next :: rest) := by
        simp
      rw [hjoin]
      exact (h label (List.mem_cons_self ..)).append hrest

theorem labelText_of_subdomain {rules : NameRules} {name : Bytes}
    (h : rules.isDNS1123Subdomain name = []) : LabelText name := by
  rw [rules.isDNS1123Subdomain_eq_nil, dns1123Subdomain, Bool.and_eq_true] at h
  have hjoin : LabelText ([46].intercalate (name.splitOn 46)) :=
    labelText_intercalate (by simp) fun label hlabel =>
      labelText_of_dns1123Label (List.all_eq_true.1 h.2 label hlabel)
  rwa [List.intercalate_splitOn] at hjoin

theorem length_deterministicName_object (value : Bytes) :
    (deterministicName (ascii "object") [value]).length ≤ 19 := by
  have hpre : (namePrefixOf (ascii "object") ++ ascii "-").length = 7 := by decide
  rw [deterministicName, List.length_append, hpre, List.length_take]
  omega

/-- A name stays what it is as a label if and only if it fits. -/
theorem boundedLabelValue_subdomain {rules : NameRules} {name : Bytes}
    (h : rules.isDNS1123Subdomain name = []) :
    boundedLabelValue rules name = name ↔ name.length ≤ 63 := by
  obtain ⟨hall, hhead, hlast⟩ := labelText_of_subdomain h
  unfold boundedLabelValue
  constructor
  · intro heq
    by_contra hlong
    have hinvalid : ¬rules.isValidLabelValue name = [] := by
      simp [rules.isValidLabelValue_eq_nil, labelValue, hlong]
    rw [if_neg hinvalid] at heq
    have hlength := length_deterministicName_object name
    rw [heq] at hlength
    omega
  · intro hle
    exact if_pos (by
      simp [rules.isValidLabelValue_eq_nil, labelValue, hle, hall, hhead, hlast])

/-! ## The way back -/

section Requests

variable {rules : NameRules} {d : DeploymentMeta} {fingerprint artifactUID : Bytes}
  {object : Watched}

theorem Watched.Carries.get (h : object.Carries rules d fingerprint artifactUID) {key : LabelKey}
    {value : Bytes} (hmem : (key, value) ∈ templateLabels rules d fingerprint artifactUID) :
    object.labels.get key = value := by
  rw [Labels.get, h.labels (key, value) hmem]
  rfl

theorem boundedLabelValue_ne_nil {value : Bytes} (h : value ≠ []) :
    boundedLabelValue rules value ≠ [] := by
  unfold boundedLabelValue
  split
  · exact h
  · simp [deterministicName, ascii]

/-- Where the name is not empty, the request is for what the label says. -/
theorem labelRequests_of_carries (h : object.Carries rules d fingerprint artifactUID)
    (hne : d.name ≠ []) :
    labelRequests object = [⟨d.namespace_, boundedLabelValue rules d.name⟩] := by
  have hmanaged : object.labels.get .managedBy = kamaName :=
    h.get (by simp [templateLabels, servingLabels])
  have hcomponent : object.labels.get .component = modelDeploymentComponent :=
    h.get (by simp [templateLabels, servingLabels])
  have hname : object.labels.get modelDeploymentNameLabel = boundedLabelValue rules d.name :=
    h.get (by simp [templateLabels, servingLabels])
  unfold labelRequests
  rw [if_neg (not_or.2 ⟨not_not.2 hmanaged, not_not.2 hcomponent⟩), hname, h.namespace_eq]
  exact if_neg (boundedLabelValue_ne_nil hne)

theorem carries_template (rules : NameRules) (d : DeploymentMeta)
    (fingerprint artifactUID : Bytes) :
    Watched.Carries ⟨d.namespace_, templateLabels rules d fingerprint artifactUID⟩ rules d
      fingerprint artifactUID := by
  refine ⟨rfl, fun label hlabel => ?_⟩
  simp only [templateLabels, servingLabels, List.cons_append, List.nil_append, List.mem_cons,
    List.not_mem_nil, or_false] at hlabel
  rcases hlabel with rfl | rfl | rfl | rfl | rfl | rfl <;> rfl

/-- **The handlers map what carries the labels of a deployment to that deployment if and only if its
name fits in a label.** -/
theorem servingRequests_iff (hname : rules.isDNS1123Subdomain d.name = [])
    (fingerprint artifactUID : Bytes) :
    (∀ object : Watched, object.Carries rules d fingerprint artifactUID →
      podRequests object = [⟨d.namespace_, d.name⟩] ∧
        replicaSetRequests object = [⟨d.namespace_, d.name⟩]) ↔ d.name.length ≤ 63 := by
  have hne : d.name ≠ [] := (labelText_of_subdomain hname).ne_nil
  rw [← boundedLabelValue_subdomain hname]
  constructor
  · intro h
    have hcarries := carries_template rules d fingerprint artifactUID
    have hpod := (h _ hcarries).1
    rw [podRequests, labelRequests_of_carries hcarries hne] at hpod
    injection hpod with hpod
    injection hpod
  · intro heq object hobject
    have hrequests := labelRequests_of_carries hobject hne
    rw [heq] at hrequests
    exact ⟨hrequests, hrequests⟩

end Requests

/-- A deployment with this name. -/
def deploymentNamed (name : Bytes) : DeploymentMeta := ⟨ascii "default", name, ascii "uid"⟩

/-- A Pod of it. -/
def podOf (name : Bytes) : Watched :=
  ⟨ascii "default", templateLabels sampleRules (deploymentNamed name) [] []⟩

theorem servingRequests_chat :
    podRequests (podOf (ascii "chat.v1")) = [⟨ascii "default", ascii "chat.v1"⟩] ∧
      replicaSetRequests (podOf (ascii "chat.v1")) = [⟨ascii "default", ascii "chat.v1"⟩] := by
  have hname : sampleRules.isDNS1123Subdomain (deploymentNamed (ascii "chat.v1")).name = [] := by
    decide
  exact (servingRequests_iff hname [] []).2 (by decide) _
    (carries_template sampleRules (deploymentNamed (ascii "chat.v1")) [] [])

/-- The events of a deployment with 64 bytes in its name are taken for those of another one. -/
theorem servingRequests_long :
    sampleRules.isDNS1123Subdomain (List.replicate 64 97) = [] ∧
      (podOf (List.replicate 64 97)).Carries sampleRules (deploymentNamed (List.replicate 64 97))
        [] [] ∧
      podRequests (podOf (List.replicate 64 97)) ≠ [⟨ascii "default", List.replicate 64 97⟩] ∧
      replicaSetRequests (podOf (List.replicate 64 97)) ≠
        [⟨ascii "default", List.replicate 64 97⟩] := by
  have hname : sampleRules.isDNS1123Subdomain (List.replicate 64 97) = [] := by decide +kernel
  have hcarries : (podOf (List.replicate 64 97)).Carries sampleRules
      (deploymentNamed (List.replicate 64 97)) [] [] :=
    carries_template sampleRules (deploymentNamed (List.replicate 64 97)) [] []
  have hne : labelRequests (podOf (List.replicate 64 97)) ≠
      [⟨ascii "default", List.replicate 64 97⟩] := by
    rw [labelRequests_of_carries hcarries (by decide)]
    intro h
    injection h with h
    injection h with _ h
    exact absurd ((boundedLabelValue_subdomain hname).1 h) (by decide)
  exact ⟨hname, hcarries, hne, hne⟩

end Kama.Controller.Watch
