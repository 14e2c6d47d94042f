import Kama.Controller.Admission
import Kama.Controller.CacheDeletion
import Kama.Controller.ProbeRetry
import Mathlib.Logic.Relation

/-!
# Admission of model caches, and the life of their claims

The webhook of `modelcache_webhook.go` and what it means for the controller: the claim that is
created from an admitted template passes `validateManagedCacheClaim`, the check before the
controller adopts or deletes a claim, and goes on passing it while the cluster works with it.

* `validateModelCache` is the webhook, on what is submitted. `SubmittedTemplate.decode` is the same
  template in the terms of the controller.
* `Contract` is what `validateManagedCacheClaim` checks (`validateClaimContract_eq_ok`).
* `ClaimChange` are the changes that the cluster and the controller make to a claim. Each keeps the
  contract (`Contract.change`), so that every sequence of them does.
* `managedClaim_stays_valid` puts the two together.
-/

namespace Kama.Controller

open Bytes Api Program Artifact Reader

variable {cache : Object Bytes ModelCache} {template : ModelCacheClaimTemplate} (rules : NameRules)
  (path : FieldPath)

/-! ## The webhook -/

def invalidName (value : Bytes) : List String → List FieldErr
  | [] => []
  | messages => [.invalid path (.text value) (joinMessages messages)]

def validateMetadataKey (key : Bytes) (path : FieldPath) : List FieldErr :=
  invalidName path key (rules.isQualifiedName key)

def FieldPath.children (names : List String) : FieldPath :=
  path ++ names.map .child

def validateTemplateLabels (labels : List (Bytes × Bytes)) : List FieldErr :=
  labels.flatMap fun (key, value) =>
    let keyPath := path.children ["metadata", "labels"] ++ [.key key]
    validateMetadataKey rules key keyPath ++
      invalidName keyPath value (rules.isValidLabelValue value)

def validateTemplateAnnotations (annotations : List (Bytes × Bytes)) : List FieldErr :=
  annotations.flatMap fun (key, _) =>
    let keyPath := path.children ["metadata", "annotations"] ++ [.key key]
    (if key = AnnotationKey.cacheDeletionGuard.text ∨
        key = AnnotationKey.cacheDeletionGuardedAt.text then
      [.forbidden keyPath "annotation is reserved for the ModelCache deletion protocol"]
    else []) ++ validateMetadataKey rules key keyPath

def validateTemplateStorageClass (name : Option Bytes) : List FieldErr :=
  match name with
  | some name =>
    if name ≠ [] then
      invalidName (path.child "storageClassName") name (rules.isDNS1123Subdomain name)
    else []
  | none => []

def writableModes : List Bytes :=
  [AccessMode.readWriteOnce.text, AccessMode.readWriteMany.text, AccessMode.readWriteOncePod.text]

def supportedModes : List Bytes :=
  [AccessMode.readWriteOnce.text, AccessMode.readOnlyMany.text, AccessMode.readWriteMany.text,
    AccessMode.readWriteOncePod.text]

/-- The loop over the access modes: the errors, and whether a mode is writable. -/
def validateModes : Nat → List Bytes → List Bytes → List FieldErr × Bool
  | _, _, [] => ([], false)
  | index, seen, mode :: modes =>
    let modePath := path ++ [.index index]
    if mode ∈ seen then
      let rest := validateModes (index + 1) seen modes
      (.duplicate modePath mode :: rest.1, rest.2)
    else
      let rest := validateModes (index + 1) (mode :: seen) modes
      if mode ∈ writableModes then (rest.1, true)
      else if mode = AccessMode.readOnlyMany.text then rest
      else (.notSupported modePath mode supportedModes :: rest.1, rest.2)

def validateAccessModes (modes : List Bytes) : List FieldErr :=
  let checked := validateModes path 0 [] modes
  (if modes = [] then [.required path "at least one writable access mode is required"] else []) ++
  (if 4 < modes.length then [.tooMany path modes.length 4] else []) ++ checked.1 ++
  (if modes ≠ [] ∧ checked.2 = false then [.invalid path (.modes modes)
    "a managed cache requires ReadWriteOnce, ReadWriteMany, or ReadWriteOncePod"] else [])

def validateVolumeMode (mode : Bytes) : List FieldErr :=
  let volumeMode := if mode = [] then VolumeMode.filesystem.text else mode
  if volumeMode ≠ VolumeMode.filesystem.text then
    [.notSupported path volumeMode [VolumeMode.filesystem.text]]
  else []

def resourceStorage : Bytes := ascii "storage"

def validateRequests (requests : List (Bytes × Int)) : List FieldErr :=
  (match requests.lookup resourceStorage with
  | none => [.required (path ++ [.key resourceStorage]) "a positive storage request is required"]
  | some storage =>
    if storage ≤ 0 then
      [.invalid (path ++ [.key resourceStorage]) (.quantity storage) "must be greater than zero"]
    else []) ++
  requests.flatMap fun (name, _) =>
    if name ≠ resourceStorage then
      [.forbidden (path ++ [.key name]) "only \"storage\" may be requested"]
    else []

def validateClaimTemplate (template : SubmittedTemplate) (path : FieldPath) : List FieldErr :=
  let specPath := path.child "spec"
  validateTemplateLabels rules path template.labels.entries ++
  validateTemplateAnnotations rules path template.annotations.entries ++
  validateTemplateStorageClass rules specPath template.storageClassName ++
  validateAccessModes (specPath.child "accessModes") template.accessModes ++
  validateVolumeMode (specPath.child "volumeMode") template.volumeMode ++
  validateRequests (specPath.children ["resources", "requests"]) template.requests.entries

def retainPolicy : Bytes := ascii "Retain"

def deletePolicy : Bytes := ascii "Delete"

/-- The `spec` of a `ModelCache` as it is submitted. -/
structure SubmittedCache where
  storage : SubmittedStorage
  retentionPolicy : Bytes
  deriving DecidableEq, Repr

def validateModelCache (cache : SubmittedCache) : List FieldErr :=
  let storagePath := specPath.child "storage"
  let retentionPath := specPath.child "retentionPolicy"
  let retention := if cache.retentionPolicy = [] then retainPolicy else cache.retentionPolicy
  (if cache.storage.existingClaim.isSome = cache.storage.claimTemplate.isSome then
    [.invalid storagePath (.storage cache.storage)
      "exactly one of existingClaim or claimTemplate must be set"]
  else []) ++
  (if retention ≠ retainPolicy ∧ retention ≠ deletePolicy then
    [.notSupported retentionPath retention [retainPolicy, deletePolicy]]
  else []) ++
  (match cache.storage.existingClaim with
  | some name =>
    (validateLocalObjectName rules name (storagePath.children ["existingClaim", "name"])).toList ++
    (if retention ≠ retainPolicy then
      [.forbidden retentionPath "adopted claims must use Retain"]
    else [])
  | none => []) ++
  (match cache.storage.claimTemplate with
  | some template => validateClaimTemplate rules template (storagePath.child "claimTemplate")
  | none => [])

/-! ## The same in the terms of the controller -/

def LabelKey.named : List LabelKey :=
  [.managedBy, .component, .cacheName, .cacheUID, .artifactName, .artifactUID, .operationID,
    .jobName]

def LabelKey.ofText (key : Bytes) : LabelKey :=
  (named.find? fun known => known.text = key).getD (.other key)

def AnnotationKey.ofText (key : Bytes) : AnnotationKey :=
  if key = cacheDeletionGuard.text then .cacheDeletionGuard
  else if key = cacheDeletionGuardedAt.text then .cacheDeletionGuardedAt
  else .other key

def AccessMode.ofText (mode : Bytes) : Option AccessMode :=
  [readWriteOnce, readOnlyMany, readWriteMany, readWriteOncePod].find? fun known =>
    known.text = mode

def SubmittedTemplate.decode (template : SubmittedTemplate) : ModelCacheClaimTemplate where
  labels := template.labels.entries.map fun (key, value) => (.ofText key, value)
  annotations := template.annotations.entries.map fun (key, value) => (.ofText key, value)
  storageClassName := template.storageClassName
  accessModes := template.accessModes.filterMap AccessMode.ofText
  volumeMode :=
    if template.volumeMode = [] then none
    else if template.volumeMode = VolumeMode.filesystem.text then some .filesystem
    else some .block
  storageRequest := (template.requests.entries.lookup resourceStorage).map Int.toNat
  otherRequests :=
    (template.requests.entries.filter fun (name, _) => name ≠ resourceStorage).map Prod.fst

def SubmittedCache.decode (cache : SubmittedCache) : ModelCacheSpec where
  existingClaim := cache.storage.existingClaim
  claimTemplate := cache.storage.claimTemplate.map SubmittedTemplate.decode
  retentionPolicy := if cache.retentionPolicy = deletePolicy then .delete else .retain

theorem LabelKey.text_ofText (key : Bytes) : (LabelKey.ofText key).text = key := by
  unfold ofText
  cases hfind : named.find? fun known => known.text = key with
  | none => rfl
  | some known =>
    have hknown := List.find?_some hfind
    simpa using hknown

theorem AnnotationKey.text_ofText (key : Bytes) : (AnnotationKey.ofText key).text = key := by
  unfold ofText
  split
  · rename_i hkey
    exact hkey.symm
  · split
    · rename_i hkey
      exact hkey.symm
    · rfl

/-- What the controller relies on in a template. -/
structure ModelCacheClaimTemplate.Admitted (template : ModelCacheClaimTemplate) : Prop where
  labels : (template.labels.map Prod.fst).Nodup
  annotations : (template.annotations.map Prod.fst).Nodup
  unreserved : ∀ entry ∈ template.annotations, entry.1.isReserved = false
  storageRequest : template.storageRequest ≠ none
  otherRequests : template.otherRequests = []

theorem nodup_ofText {γ α : Type} {ofText : Bytes → γ} {text : γ → Bytes}
    (hinverse : Function.LeftInverse text ofText) (m : StringMap α) :
    ((m.entries.map fun (key, value) => (ofText key, value)).map Prod.fst).Nodup := by
  have hmap : (m.entries.map fun (key, value) => (ofText key, value)).map Prod.fst =
      (m.entries.map Prod.fst).map ofText := by
    simp [Function.comp_def]
  rw [hmap]
  exact m.nodup.map hinverse.injective

theorem isReserved_ofText {key : Bytes} (h : ¬(key = AnnotationKey.cacheDeletionGuard.text ∨
    key = AnnotationKey.cacheDeletionGuardedAt.text)) :
    (AnnotationKey.ofText key).isReserved = false := by
  rw [not_or] at h
  rw [AnnotationKey.ofText, if_neg h.1, if_neg h.2]
  rfl

/-- **What the webhook admits is what the controller relies on.** -/
theorem admitted_decode {rules : NameRules} {template : SubmittedTemplate} {path : FieldPath}
    (h : validateClaimTemplate rules template path = []) : template.decode.Admitted := by
  simp only [validateClaimTemplate, List.append_eq_nil_iff] at h
  obtain ⟨⟨⟨⟨⟨-, hannotations⟩, -⟩, -⟩, -⟩, hrequests⟩ := h
  simp only [validateTemplateAnnotations, List.flatMap_eq_nil_iff, List.append_eq_nil_iff]
    at hannotations
  simp only [validateRequests, List.append_eq_nil_iff, List.flatMap_eq_nil_iff] at hrequests
  obtain ⟨hstorage, hothers⟩ := hrequests
  refine ⟨nodup_ofText LabelKey.text_ofText _, nodup_ofText AnnotationKey.text_ofText _,
    fun entry hentry => ?_, fun hnone => ?_, ?_⟩
  · obtain ⟨⟨key, value⟩, hmem, rfl⟩ := List.mem_map.1 hentry
    refine isReserved_ofText fun hreserved => ?_
    have hnil := (hannotations _ hmem).1
    rw [if_pos hreserved] at hnil
    cases hnil
  · rw [Option.map_eq_none_iff.1 hnone] at hstorage
    cases hstorage
  · rw [SubmittedTemplate.decode, List.map_eq_nil_iff, List.filter_eq_nil_iff]
    intro entry hentry
    have hnil := hothers entry hentry
    split at hnil
    · cases hnil
    · simpa using ‹¬entry.1 ≠ resourceStorage›

/-- The template of a cache that the webhook admits is admitted, and no claim is adopted. -/
theorem admitted_of_validateModelCache {rules : NameRules} {cache : SubmittedCache}
    {template : SubmittedTemplate} (htemplate : cache.storage.claimTemplate = some template)
    (h : validateModelCache rules cache = []) :
    template.decode.Admitted ∧ cache.decode.existingClaim = none := by
  simp only [validateModelCache, List.append_eq_nil_iff, htemplate] at h
  obtain ⟨⟨⟨hexactly, -⟩, -⟩, hclaim⟩ := h
  refine ⟨admitted_decode hclaim, ?_⟩
  cases hexisting : cache.storage.existingClaim with
  | none => exact hexisting
  | some name =>
    rw [hexisting] at hexactly
    cases hexactly

/-! ## The contract of the claim -/

/-- What `validateManagedCacheClaim` checks. -/
structure Contract (opts : CacheOptions) (cache : Object Bytes ModelCache)
    (template : ModelCacheClaimTemplate) (claim : Object Bytes Claim) : Prop where
  key : claim.key = cacheClaimName opts.toOptions cache
  labels : ∀ entry ∈ wantLabels opts cache template, claim.body.labels.get entry.1 = entry.2
  annotations : ∀ entry ∈ template.annotations,
    entry.1.isReserved = false ∧ claim.body.annotations.get entry.1 = entry.2
  owners : claim.body.owners = []
  accessModes :
    normalizeAccessModes claim.body.accessModes = normalizeAccessModes template.accessModes
  volumeMode : claim.body.volumeMode.getD .filesystem = template.volumeMode.getD .filesystem
  storageClassName :
    validateStorageClassName claim.body.storageClassName template.storageClassName = .ok ()
  storageRequest :
    validateStorageRequest claim.body.storageRequest template.storageRequest = .ok ()
  otherRequests : claim.body.otherRequests = []
  limits : claim.body.limits = []
  selected : claim.body.selected = false
  attributes : claim.body.volumeAttributesClassName.any (· ≠ []) = false

theorem validateAnnotations_eq_ok {claim annotations : Annotations} :
    validateAnnotations claim annotations = .ok () ↔
      ∀ entry ∈ annotations, entry.1.isReserved = false ∧ claim.get entry.1 = entry.2 := by
  induction annotations with
  | nil => simp [validateAnnotations]
  | cons entry rest ih =>
    obtain ⟨key, value⟩ := entry
    rw [validateAnnotations, List.forall_mem_cons, ← ih]
    split
    · simp [*]
    · split
      · simp [*]
      · simp_all

theorem validateStorageRequest_eq_ok {claim template : Option Nat} :
    validateStorageRequest claim template = .ok () ↔
      ∃ got wanted, claim = some got ∧ template = some wanted ∧ wanted ≤ got := by
  cases template with
  | none => simp [validateStorageRequest]
  | some wanted => cases claim <;> simp [validateStorageRequest]

theorem validateClaimContract_eq_ok {opts : CacheOptions} {claim : Object Bytes Claim} :
    validateClaimContract opts cache claim template = .ok () ↔
      Contract opts cache template claim := by
  constructor
  · intro h
    obtain ⟨hkey, h⟩ := except_refuse_eq_ok.1 h
    split at h
    · cases h
    rename_i hlabels
    obtain ⟨⟨⟩, hannotations, h⟩ := except_bind_eq_ok.1 h
    obtain ⟨howners, h⟩ := except_refuse_eq_ok.1 h
    obtain ⟨hmodes, h⟩ := except_refuse_eq_ok.1 h
    obtain ⟨hvolume, h⟩ := except_refuse_eq_ok.1 h
    obtain ⟨⟨⟩, hclass, h⟩ := except_bind_eq_ok.1 h
    obtain ⟨⟨⟩, hrequest, h⟩ := except_bind_eq_ok.1 h
    have hothers : claim.body.otherRequests = [] := by
      cases hothers : claim.body.otherRequests with
      | nil => rfl
      | cons name rest =>
        rw [hothers] at h
        cases h
    rw [hothers] at h
    obtain ⟨hlimits, h⟩ := except_refuse_eq_ok.1 h
    obtain ⟨hselected, h⟩ := except_refuse_eq_ok.1 h
    obtain ⟨hattributes, -⟩ := except_refuse_eq_ok.1 h
    refine ⟨not_not.1 hkey, fun entry hentry => ?_, validateAnnotations_eq_ok.1 hannotations,
      not_not.1 howners, not_not.1 hmodes, not_not.1 hvolume, hclass, hrequest, hothers,
      not_not.1 hlimits, eq_false_of_ne_true hselected, eq_false_of_ne_true hattributes⟩
    simpa using List.find?_eq_none.1 hlabels entry hentry
  · intro h
    refine except_refuse_eq_ok.2 ⟨not_not.2 h.key, ?_⟩
    split
    · rename_i hfound
      exact absurd (h.labels _ (List.mem_of_find?_eq_some hfound))
        (by simpa using List.find?_some hfound)
    refine except_bind_eq_ok.2 ⟨(), validateAnnotations_eq_ok.2 h.annotations, ?_⟩
    refine except_refuse_eq_ok.2 ⟨not_not.2 h.owners, except_refuse_eq_ok.2
      ⟨not_not.2 h.accessModes, except_refuse_eq_ok.2 ⟨not_not.2 h.volumeMode, ?_⟩⟩⟩
    refine except_bind_eq_ok.2 ⟨(), h.storageClassName, except_bind_eq_ok.2
      ⟨(), h.storageRequest, ?_⟩⟩
    rw [h.otherRequests]
    refine except_refuse_eq_ok.2 ⟨not_not.2 h.limits, except_refuse_eq_ok.2
      ⟨ne_true_of_eq_false h.selected, except_refuse_eq_ok.2
        ⟨ne_true_of_eq_false h.attributes, rfl⟩⟩⟩

/-! ## Creation -/

/-- Looking up a key of a map. -/
theorem lookup_of_mem {κ γ : Type} [DecidableEq κ] {l : List (κ × γ)} {entry : κ × γ}
    (h : (l.map Prod.fst).Nodup) (hmem : entry ∈ l) : l.lookup entry.1 = some entry.2 := by
  obtain ⟨front, back, rfl⟩ := List.append_of_mem hmem
  rw [List.map_append, List.nodup_append] at h
  refine List.lookup_eq_some_iff.2 ⟨front, back, rfl, fun other hother => ?_⟩
  exact bne_iff_ne.2
    (h.2.2 _ (List.mem_map_of_mem hother) _ (List.mem_cons_self ..)).symm

theorem lookup_set_of_ne {key other : LabelKey} (hne : other ≠ key) (value : Bytes)
    (labels : Labels) : (labels.set key value).lookup other = labels.lookup other := by
  have hlookup := FileTree.Tree.lookup_filter_fst (fun k => decide (k ≠ key)) labels other
  rw [if_pos (decide_eq_true hne)] at hlookup
  rw [Labels.set, List.lookup_cons, beq_eq_false_iff_ne.2 hne]
  exact hlookup

theorem get_set_of_ne {key other : LabelKey} (hne : other ≠ key) (value : Bytes)
    (labels : Labels) : (labels.set key value).get other = labels.get other :=
  congrArg (Option.getD · []) (lookup_set_of_ne hne value labels)

@[simp] theorem get_set_self (key : LabelKey) (value : Bytes) (labels : Labels) :
    (labels.set key value).get key = value := by
  rw [Labels.get, Labels.set, List.lookup_cons_self]
  rfl

/-- What is wanted in the end was wanted before, or is a label of the template under a key that
was free. -/
theorem mem_addUnreserved {entry : LabelKey × Bytes} {want labels : Labels}
    (h : entry ∈ addUnreserved want labels) :
    entry ∈ want ∨ entry ∈ labels ∧ want.lookup entry.1 = none := by
  induction labels generalizing want with
  | nil => exact .inl h
  | cons first rest ih =>
    obtain ⟨key, value⟩ := first
    rw [addUnreserved] at h
    split at h
    case isTrue hsome =>
      exact (ih h).imp_right fun ⟨hmem, hfree⟩ => ⟨List.mem_cons_of_mem _ hmem, hfree⟩
    case isFalse hnone =>
      rw [Bool.not_eq_true, Option.isSome_eq_false_iff, Option.isNone_iff_eq_none] at hnone
      rcases ih h with hset | ⟨hmem, hfree⟩
      · rcases List.mem_cons.1 hset with rfl | hwant
        · exact .inr ⟨List.mem_cons_self .., hnone⟩
        · exact .inl (List.mem_filter.1 hwant).1
      · have hne : entry.1 ≠ key := by
          rintro rfl
          rw [Labels.set, List.lookup_cons_self] at hfree
          cases hfree
        exact .inr ⟨List.mem_cons_of_mem _ hmem, (lookup_set_of_ne hne value want).symm.trans hfree⟩

/-- **The labels that are written are those that are looked for.** -/
theorem get_claimLabels {opts : CacheOptions} (h : (template.labels.map Prod.fst).Nodup)
    {entry : LabelKey × Bytes} (hentry : entry ∈ wantLabels opts cache template) :
    (claimLabels opts cache template).get entry.1 = entry.2 := by
  rcases mem_addUnreserved hentry with hreserved | ⟨htemplate, hfree⟩
  · -- a key that is written first is not written over by the others
    simp only [reservedLabels, List.mem_cons, List.not_mem_nil, or_false] at hreserved
    rcases hreserved with rfl | rfl | rfl | rfl <;> simp [claimLabels, get_set_of_ne]
  · have hne : ∀ key ∈ (reservedLabels opts cache).map Prod.fst, entry.1 ≠ key := by
      rintro key hkey rfl
      obtain ⟨own, hown, heq⟩ := List.mem_map.1 hkey
      rw [← heq, lookup_of_mem (by simp [reservedLabels]) hown] at hfree
      cases hfree
    have hget : template.labels.get entry.1 = entry.2 := by
      rw [Labels.get, lookup_of_mem h htemplate]
      rfl
    rw [claimLabels, get_set_of_ne (hne .cacheUID (by simp [reservedLabels])),
      get_set_of_ne (hne .cacheName (by simp [reservedLabels])),
      get_set_of_ne (hne .component (by simp [reservedLabels])),
      get_set_of_ne (hne .managedBy (by simp [reservedLabels])), hget]

/-- The claim that is created meets the contract. -/
theorem contract_templateClaim {opts : CacheOptions} (h : template.Admitted)
    {created : Object Bytes Claim} (hkey : created.key = cacheClaimName opts.toOptions cache)
    (hbody : created.body = templateClaim opts cache template) :
    Contract opts cache template created := by
  obtain ⟨wanted, hwanted⟩ := Option.ne_none_iff_exists'.1 h.storageRequest
  refine ⟨hkey, ?_, ?_, ?_, ?_, ?_, ?_, ?_, ?_, ?_, ?_, ?_⟩ <;> rw [hbody]
  · exact fun entry hentry => get_claimLabels h.labels hentry
  · intro entry hentry
    refine ⟨h.unreserved entry hentry, ?_⟩
    show (template.annotations.lookup entry.1).getD [] = entry.2
    rw [lookup_of_mem h.annotations hentry]
    rfl
  · rfl
  · rfl
  · rfl
  · show validateStorageClassName template.storageClassName template.storageClassName = .ok ()
    cases template.storageClassName with
    | none => rfl
    | some name => exact if_neg (not_not.2 rfl)
  · exact validateStorageRequest_eq_ok.2 ⟨wanted, wanted, hwanted, hwanted, Nat.le_refl _⟩
  · exact h.otherRequests
  · rfl
  · rfl
  · rfl

/-! ## What happens to a claim -/

def withLabels (claim : Object Bytes Claim) (labels : Labels) : Object Bytes Claim :=
  { claim with body := { claim.body with labels := labels } }

/-- The changes to a claim that the cluster and the controller may make. -/
inductive ClaimChange (opts : CacheOptions) (cache : Object Bytes ModelCache)
    (template : ModelCacheClaimTemplate) : Object Bytes Claim → Object Bytes Claim → Prop
  | storageClass (claim : Object Bytes Claim) (name : Bytes)
      (hunset : claim.body.storageClassName = none) (hname : name ≠ []) :
      ClaimChange opts cache template claim
        { claim with body := { claim.body with storageClassName := some name } }
  | bind (claim : Object Bytes Claim) (volume : Bytes) (modes : List AccessMode)
      (capacity : Option Nat) :
      ClaimChange opts cache template claim
        { claim with
          body := { claim.body with
            volumeName := volume, phase := .bound, boundAccessModes := modes,
            capacity := capacity } }
  | finalizers (claim : Object Bytes Claim) (added : List String) :
      ClaimChange opts cache template claim { claim with finalizers := claim.finalizers ++ added }
  | label (claim : Object Bytes Claim) (key : LabelKey) (value : Bytes)
      (htemplate : key ∉ template.labels.map Prod.fst)
      (hreserved : key ∉ (reservedLabels opts cache).map Prod.fst) :
      ClaimChange opts cache template claim
        (withLabels claim (claim.body.labels.set key value))
  | annotation (claim : Object Bytes Claim) (key : AnnotationKey) (value : Bytes)
      (htemplate : key ∉ template.annotations.map Prod.fst)
      (hreserved : key.isReserved = false) :
      ClaimChange opts cache template claim
        (withAnnotations claim (annotate key value claim.body.annotations))
  | grow (claim : Object Bytes Claim) (current request : Nat)
      (hcurrent : claim.body.storageRequest = some current) (hle : current ≤ request) :
      ClaimChange opts cache template claim
        { claim with body := { claim.body with storageRequest := some request } }
  | guard (claim : Object Bytes Claim) (guardedAt : Nat) :
      ClaimChange opts cache template claim (guardClaim opts cache claim guardedAt)
  | unguard (claim : Object Bytes Claim) (key : AnnotationKey) (hreserved : key.isReserved = true) :
      ClaimChange opts cache template claim
        (withAnnotations claim (claim.body.annotations.filter fun (other, _) => other ≠ key))
  /-- every write of the server is a new version -/
  | version (claim : Object Bytes Claim) (version : Nat) :
      ClaimChange opts cache template claim { claim with version := version }

section Change

variable {opts : CacheOptions} {cache : Object Bytes ModelCache}
  {template : ModelCacheClaimTemplate} {claim claim' : Object Bytes Claim}

theorem get_filter_of_ne {key other : AnnotationKey} (hne : other ≠ key)
    (annotations : Annotations) :
    Annotations.get (annotations.filter fun (k, _) => k ≠ key) other = annotations.get other := by
  have hlookup := FileTree.Tree.lookup_filter_fst (fun k => decide (k ≠ key)) annotations other
  rw [if_pos (decide_eq_true hne)] at hlookup
  exact congrArg (Option.getD · []) hlookup

theorem get_annotate_of_ne {key other : AnnotationKey} (hne : other ≠ key) (value : Bytes)
    (annotations : Annotations) :
    Annotations.get (annotate key value annotations) other = annotations.get other := by
  rw [← get_filter_of_ne hne annotations]
  unfold Annotations.get annotate
  rw [List.lookup_cons, beq_eq_false_iff_ne.2 hne]

/-- New annotations that say the same under the keys of the template. -/
theorem Contract.withAnnotations (h : Contract opts cache template claim)
    {annotations : Annotations} (hsame : ∀ entry ∈ template.annotations,
      annotations.get entry.1 = claim.body.annotations.get entry.1) :
    Contract opts cache template (withAnnotations claim annotations) :=
  ⟨h.key, h.labels, fun entry hentry =>
    ⟨(h.annotations entry hentry).1,
      (hsame entry hentry).trans (h.annotations entry hentry).2⟩,
    h.owners, h.accessModes, h.volumeMode, h.storageClassName, h.storageRequest, h.otherRequests,
    h.limits, h.selected, h.attributes⟩

/-- **A change keeps the contract.** -/
theorem Contract.change (h : Contract opts cache template claim)
    (hchange : ClaimChange opts cache template claim claim') :
    Contract opts cache template claim' := by
  have hunreserved : ∀ {key}, key.isReserved = true → ∀ entry ∈ template.annotations,
      entry.1 ≠ key := by
    rintro key hkey entry hentry rfl
    rw [(h.annotations entry hentry).1] at hkey
    cases hkey
  cases hchange with
  | storageClass name hunset hname =>
    refine { h with storageClassName := ?_ }
    have hclass := h.storageClassName
    rw [hunset] at hclass
    cases hwanted : template.storageClassName with
    | some wanted =>
      rw [hwanted] at hclass
      cases hclass
    | none => exact if_neg fun hempty => hname (Option.some.inj hempty)
  | bind volume modes capacity => exact { h with }
  | finalizers added => exact { h with }
  | label key value htemplate hreserved =>
    refine { h with labels := fun entry hentry => ?_ }
    have hne : entry.1 ≠ key := by
      rintro rfl
      rcases mem_addUnreserved hentry with hmem | ⟨hmem, -⟩
      · exact hreserved (List.mem_map_of_mem hmem)
      · exact htemplate (List.mem_map_of_mem hmem)
    exact (get_set_of_ne hne value _).trans (h.labels entry hentry)
  | annotation key value htemplate hreserved =>
    refine h.withAnnotations fun entry hentry => get_annotate_of_ne ?_ value _
    rintro rfl
    exact htemplate (List.mem_map_of_mem hentry)
  | grow current request hcurrent hle =>
    refine { h with storageRequest := ?_ }
    obtain ⟨got, wanted, hgot, hwanted, hle'⟩ := validateStorageRequest_eq_ok.1 h.storageRequest
    rw [hcurrent] at hgot
    cases hgot
    exact validateStorageRequest_eq_ok.2 ⟨request, wanted, rfl, hwanted, Nat.le_trans hle' hle⟩
  | guard guardedAt =>
    refine h.withAnnotations fun entry hentry => ?_
    rw [get_annotate_of_ne (hunreserved rfl entry hentry),
      get_annotate_of_ne (hunreserved rfl entry hentry)]
  | unguard key hreserved =>
    exact h.withAnnotations fun entry hentry =>
      get_filter_of_ne (hunreserved hreserved entry hentry) _
  | version version => exact { h with }

theorem Contract.changes (h : Contract opts cache template claim)
    (hchanges : Relation.ReflTransGen (ClaimChange opts cache template) claim claim') :
    Contract opts cache template claim' := by
  induction hchanges with
  | refl => exact h
  | tail _ hchange ih => exact ih.change hchange

end Change

/-- With a template that has no reserved annotation, `ensureClaim` creates the claim and does
nothing else. -/
theorem ensureClaim_eq {opts : CacheOptions} (hexisting : cache.body.spec.existingClaim = none)
    (htemplate : cache.body.spec.claimTemplate = some template)
    (h : ∀ entry ∈ template.annotations, entry.1.isReserved = false) :
    ∃ next, (∀ r, Calls (fun _ => False) (next r)) ∧
      ensureClaim opts cache = createAs claims (cacheClaimName opts.toOptions cache)
        (templateClaim opts cache template) >>= next := by
  have hfind : (template.annotations.find? fun (key, _) => key.isReserved) = none :=
    List.find?_eq_none.2 fun entry hentry => by simp [h entry hentry]
  unfold ensureClaim
  rw [hexisting, htemplate]
  dsimp only
  rw [hfind]
  refine ⟨_, fun r => ?_, rfl⟩
  rcases r with err | _
  · cases err <;> trivial
  · trivial

/-- **A claim that was created from an admitted template stays valid.** The webhook has admitted the
cache; then `ensureClaim` creates a claim, and whatever sequence of changes happens to the claim, it
passes `validateManagedCacheClaim`. -/
theorem managedClaim_stays_valid {rules : NameRules} {opts : CacheOptions}
    {cache : Object Bytes ModelCache} {submitted : SubmittedCache} {template : SubmittedTemplate}
    (hspec : cache.body.spec = submitted.decode)
    (htemplate : submitted.storage.claimTemplate = some template)
    (hadmitted : validateModelCache rules submitted = []) :
    (∃ next, (∀ r, Calls (fun _ => False) (next r)) ∧
      ensureClaim opts cache = createAs claims (cacheClaimName opts.toOptions cache)
        (templateClaim opts cache template.decode) >>= next) ∧
    ∀ created claim : Object Bytes Claim,
      created.key = cacheClaimName opts.toOptions cache →
      created.body = templateClaim opts cache template.decode →
      Relation.ReflTransGen (ClaimChange opts cache template.decode) created claim →
      validateManagedCacheClaim opts cache claim = .ok () := by
  obtain ⟨hdecode, hexisting⟩ := admitted_of_validateModelCache htemplate hadmitted
  have hwanted : cache.body.spec.claimTemplate = some template.decode := by
    rw [hspec, SubmittedCache.decode, htemplate]
    rfl
  refine ⟨ensureClaim_eq (by rw [hspec, hexisting]) hwanted hdecode.unreserved, ?_⟩
  intro created claim hkey hbody hchanges
  rw [validateManagedCacheClaim, hwanted]
  exact validateClaimContract_eq_ok.2
    ((contract_templateClaim hdecode hkey hbody).changes hchanges)

/-- A cache with a template, as it is submitted. -/
def submittedCache : SubmittedCache where
  storage :=
    { existingClaim := none
      claimTemplate := some
        { labels := ⟨[(ascii "team", ascii "ml")], by simp⟩
          annotations := ⟨[(ascii "note", ascii "models")], by simp⟩
          storageClassName := none
          accessModes := [AccessMode.readWriteOnce.text]
          volumeMode := []
          requests := ⟨[(resourceStorage, 10)], by simp⟩ } }
  retentionPolicy := []

def managedCache : Object Bytes ModelCache :=
  { newCache with body := { newCache.body with spec := submittedCache.decode } }

/-- The claim of that cache. -/
def managedClaim : Object Bytes Claim :=
  ⟨cacheClaimName sampleCacheOptions.toOptions managedCache, 2, 2, false, [],
    templateClaim sampleCacheOptions managedCache
      (managedCache.body.spec.claimTemplate.getD ⟨[], [], none, [], none, none, []⟩)⟩

theorem managedClaim_stays_valid_sample :
    validateManagedCacheClaim sampleCacheOptions managedCache
      (guardClaim sampleCacheOptions managedCache
        { managedClaim with body := { managedClaim.body with storageRequest := some 20 } } 7) =
      .ok () := by
  have hadmitted : validateModelCache sampleRules submittedCache = [] := by
    decide +kernel
  have hspec : managedCache.body.spec = submittedCache.decode := rfl
  refine (managedClaim_stays_valid hspec rfl hadmitted).2 managedClaim _ rfl rfl ?_
  exact .tail (.tail .refl (.grow _ 10 20 rfl (by decide))) (.guard _ 7)

end Kama.Controller
