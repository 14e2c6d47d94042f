import Kama.Controller.Admission

/-!
# Importing what has been admitted

The controller turns an admitted `ModelArtifact` into a spec for an importer and mounts it as a
file. The importer reads and checks the file again.

* `validateSpec_importerSpec` and `checkHub_of_admitted`: what is admitted passes the checks of
  the importer;
* `length_encode_importerSpec`: the length of the spec, by the lengths of the strings of the
  artifact (`importerSpecBytes`);
* `decodeSpec_importerSpec_iff`: the importer reads back the spec that the controller wrote exactly
  when it is not longer than the importer reads and the revision is text. Admission does not bound
  the length of a spec as a whole, so there are artifacts that are admitted and that no importer can
  read (`admitted_unreadable`).

`Produced` is the assumption on the status: what is verified in it was taken from a result.
-/

namespace Kama.Controller

open Bytes Json Artifact Reader

/-! ## Operation identifiers -/

/-- A UID in the form of RFC 4122. -/
def isUUID (s : Bytes) : Bool :=
  s.length == 36 && (List.range 36).all fun i =>
    if i = 8 ∨ i = 13 ∨ i = 18 ∨ i = 23 then s[i]? == some 45 else s[i]?.any isHex

theorem isUUID_spec {s : Bytes} (h : isUUID s = true) :
    s.length = 36 ∧ s.head?.any isHex = true ∧ ∀ b ∈ s, b = 45 ∨ isHex b = true := by
  simp only [isUUID, Bool.and_eq_true, beq_iff_eq, List.all_eq_true, List.mem_range] at h
  obtain ⟨hlen, hall⟩ := h
  refine ⟨hlen, ?_, fun b hb => ?_⟩
  · simpa [List.head?_eq_getElem?] using hall 0 (by decide)
  · obtain ⟨i, hi, rfl⟩ := List.mem_iff_getElem.1 hb
    have := hall i (by omega)
    rw [List.getElem?_eq_getElem hi] at this
    split at this
    · exact .inl (by simpa using this)
    · exact .inr (by simpa using this)

theorem isAlphanumeric_of_isHex {b : UInt8} (h : isHex b = true) : isAlphanumeric b = true := by
  simp only [isHex, isHexLower, isAlphanumeric, isDigit, isLower, isUpper, Bool.or_eq_true,
    decide_eq_true_eq, UInt8.le_iff_toNat_le, UInt8.reduceToNat] at h ⊢
  omega

theorem isOperationByte_of_isHex {b : UInt8} (h : isHex b = true) : isOperationByte b = true := by
  simp [isOperationByte, isAlphanumeric_of_isHex h]

theorem lt_of_isHex {b : UInt8} (h : isHex b = true) : b < 0x80 := by
  simp only [isHex, isHexLower, isDigit, Bool.or_eq_true, decide_eq_true_eq,
    UInt8.le_iff_toNat_le, UInt8.lt_iff_toNat_lt, UInt8.reduceToNat] at h ⊢
  omega

theorem isHexLower_toLower {b : UInt8} (h : isHex b = true) : isHexLower (toLower b) = true := by
  unfold toLower
  split
  case isTrue hupper =>
    simp only [isHex, isHexLower, isDigit, isUpper, Bool.or_eq_true, decide_eq_true_eq,
      UInt8.le_iff_toNat_le, UInt8.toNat_add, UInt8.reduceToNat] at h hupper ⊢
    omega
  case isFalse hupper =>
    simp only [isHex, isUpper, Bool.or_eq_true, decide_eq_true_eq, UInt8.le_iff_toNat_le,
      UInt8.reduceToNat] at h hupper ⊢
    exact h.resolve_right (by omega)

theorem isHex_of_isHexLower {b : UInt8} (h : isHexLower b = true) : isHex b = true := by
  simp [isHex, h]

/-- A fingerprint is made of twenty hexadecimal digits. -/
theorem operationID_spec (value : Json) (additional : List Bytes) :
    (operationID value additional).length = 20 ∧
      ∀ b ∈ operationID value additional, isHex b = true := by
  refine ⟨?_, fun b hb => isHex_of_isHexLower ?_⟩
  · rw [operationID, List.length_take, hexSHA256, length_hexEncode, Sha256.length_sha256]
    rfl
  · exact isHexLower_of_mem_hexEncode (List.mem_of_mem_take hb)

/-- The bytes of the name of an operation. -/
theorem artifactOperationID_bytes {a : ModelArtifact} {storage : ArtifactStorage}
    (huid : isUUID a.uid = true) {b : UInt8} (hb : b ∈ artifactOperationID a storage) :
    b = 45 ∨ isHex b = true := by
  simp only [artifactOperationID, List.mem_append] at hb
  rcases hb with (hb | hb) | hb
  · exact (isUUID_spec huid).2.2 b hb
  · exact .inl (List.mem_singleton.1 (show b ∈ [45] from hb))
  · exact .inr ((operationID_spec _ _).2 b hb)

theorem length_artifactOperationID {a : ModelArtifact} {storage : ArtifactStorage}
    (huid : isUUID a.uid = true) : (artifactOperationID a storage).length = 57 := by
  rw [artifactOperationID, List.length_append, List.length_append, (isUUID_spec huid).1,
    (operationID_spec _ _).1]
  rfl

theorem operationIDPattern_artifactOperationID {a : ModelArtifact} {storage : ArtifactStorage}
    (huid : isUUID a.uid = true) : operationIDPattern (artifactOperationID a storage) = true := by
  obtain ⟨hlen, hhead, -⟩ := isUUID_spec huid
  have hbytes := @artifactOperationID_bytes a storage huid
  have hlength : (artifactOperationID a storage).length = 57 := length_artifactOperationID huid
  obtain ⟨first, rest, huid⟩ : ∃ first rest, a.uid = first :: rest :=
    List.exists_cons_of_length_pos (by omega)
  have hcons : ∃ more, artifactOperationID a storage = first :: more := by
    simp [artifactOperationID, huid]
  obtain ⟨more, hmore⟩ := hcons
  rw [hmore] at hbytes hlength ⊢
  simp only [operationIDPattern, Bool.and_eq_true, decide_eq_true_eq, List.all_eq_true]
  refine ⟨⟨isAlphanumeric_of_isHex (by simpa [huid] using hhead), ?_⟩, fun b hb => ?_⟩
  · simp only [List.length_cons] at hlength
    omega
  · rcases hbytes (List.mem_cons_of_mem _ hb) with rfl | hhex
    · rfl
    · exact isOperationByte_of_isHex hhex

theorem utf8_artifactOperationID {a : ModelArtifact} {storage : ArtifactStorage}
    (huid : isUUID a.uid = true) : Utf8.Valid (artifactOperationID a storage) := by
  refine Utf8.valid_of_ascii fun b hb => ?_
  rcases artifactOperationID_bytes huid hb with rfl | hhex
  · decide
  · exact lt_of_isHex hhex

/-! ## What is admitted can be imported -/

/-- The verified part of the status was taken from a result that the controller believed. -/
def Produced (hubEndpoint : Bytes) (a : ModelArtifact) : Prop :=
  a.status.validated = true → ∃ before operation result manifest,
    validateSuccessfulResult (importerSpec hubEndpoint { a with status := before } operation)
      operation result = .ok () ∧ result.manifest = some manifest ∧
    a.status.identity = resultIdentity result manifest

theorem Produced.digest {hubEndpoint : Bytes} {a : ModelArtifact} (h : Produced hubEndpoint a)
    (hvalidated : a.status.validated = true) : validSHA256 a.status.artifactDigest = true := by
  obtain ⟨before, operation, result, manifest, hok, -, hidentity⟩ := h hvalidated
  obtain ⟨manifest', hbelieved⟩ := validateSuccessfulResult_ok hok
  rw [show a.status.artifactDigest = result.artifactDigest from congrArg Identity.artifactDigest
    hidentity, hbelieved.digest]
  exact validSHA256_artifact (validateManifest_ok hbelieved.valid)

theorem Produced.revision {hubEndpoint : Bytes} {a : ModelArtifact} (h : Produced hubEndpoint a)
    (hvalidated : a.status.validated = true) (hhub : importerMode a.spec.source = modeHub) :
    validHubCommit a.status.resolvedRevision = true := by
  obtain ⟨before, operation, result, manifest, hok, -, hidentity⟩ := h hvalidated
  obtain ⟨manifest', hbelieved⟩ := validateSuccessfulResult_ok hok
  rw [show a.status.resolvedRevision = result.resolvedRevision from
    congrArg Identity.resolvedRevision hidentity]
  exact hbelieved.revision hhub

section Import

variable {hubEndpoint : Bytes} {a : ModelArtifact}

theorem importerMode_hub {source : ModelArtifactSource} {hub : HuggingFaceSource}
    (hhub : source.huggingFace = some hub)
    (hone : source.huggingFace.isSome ≠ source.persistentVolumeClaim.isSome) :
    source.persistentVolumeClaim = none ∧ importerMode source = modeHub := by
  have hnone : source.persistentVolumeClaim = none := by
    rw [hhub] at hone
    simpa using hone
  exact ⟨hnone, by simp [importerMode, hnone, hhub]⟩

theorem importerMode_pvc {source : ModelArtifactSource} {pvc : PersistentVolumeClaimSource}
    (hpvc : source.persistentVolumeClaim = some pvc)
    (hone : source.huggingFace.isSome ≠ source.persistentVolumeClaim.isSome) :
    source.huggingFace = none ∧
      importerMode source = if pvc.isDirect then modeDirect else modeCopy := by
  refine ⟨?_, by simp [importerMode, hpvc]⟩
  rw [hpvc] at hone
  simpa using hone

/-- The digest that an importer is asked for is one. -/
theorem expectedSHA256_importerSpec (hadmitted : Admitted a.spec)
    (hproduced : Produced hubEndpoint a) (operation : Bytes) :
    (importerSpec hubEndpoint a operation).expectedSHA256 = [] ∨
      validSHA256 (importerSpec hubEndpoint a operation).expectedSHA256 = true := by
  cases hvalidated : a.status.validated with
  | true => exact .inr (by simpa [importerSpec, hvalidated] using hproduced.digest hvalidated)
  | false =>
    have heq : (importerSpec hubEndpoint a operation).expectedSHA256 =
        a.spec.verification.expectedSHA256.map toLower := by simp [importerSpec, hvalidated]
    rw [heq]
    rcases hadmitted.sha256 with hnil | ⟨hlen, hhex⟩
    · exact .inl (by rw [hnil]; rfl)
    · refine .inr ?_
      simp only [validSHA256, List.length_map, hlen, List.all_map, Bool.and_eq_true,
        beq_self_eq_true, List.all_eq_true, true_and] at hhex ⊢
      exact fun b hb => isHexLower_toLower (hhex b hb)

theorem expectedSize_importerSpec (hadmitted : Admitted a.spec) (operation : Bytes) :
    ¬(importerSpec hubEndpoint a operation).expectedSize.any (· ≤ 0) = true := by
  have hpos : ∀ size, (importerSpec hubEndpoint a operation).expectedSize = some size →
      0 < size := by
    intro size hsize
    simp only [importerSpec] at hsize
    split at hsize
    · rename_i hvalidated
      obtain rfl := Option.some.inj hsize
      simpa using (Bool.and_eq_true_iff.1 hvalidated).2
    · exact hadmitted.size size hsize
  cases hsize : (importerSpec hubEndpoint a operation).expectedSize with
  | none => simp
  | some size => simpa using hpos size hsize

/-- The revision that an importer is asked for. -/
theorem importerRevision_spec {source : HuggingFaceSource} (hsource : AdmittedHub source)
    (hproduced : Produced hubEndpoint a) (hmode : importerMode a.spec.source = modeHub) :
    importerRevision a source ≠ [] ∧ (importerRevision a source).length ≤ 255 ∧
      (0 : UInt8) ∉ importerRevision a source := by
  unfold importerRevision
  split
  case isFalse =>
    exact ⟨hsource.revision_ne, hsource.revision_le, hsource.revision_nul⟩
  case isTrue h =>
    simp only [Bool.and_eq_true] at h
    have hcommit := hproduced.revision h.1 hmode
    simp only [validHubCommit, Bool.and_eq_true, Bool.or_eq_true, beq_iff_eq,
      List.all_eq_true] at hcommit
    obtain ⟨hlen, hhex⟩ := hcommit
    have hbytes : ∀ b ∈ a.status.resolvedRevision, isHex b = true :=
      fun b hb => isHex_of_isHexLower (hhex b hb)
    refine ⟨?_, by omega, fun hnul => ?_⟩
    · rintro hnil
      rw [hnil] at hlen
      simp at hlen
    · exact absurd (hbytes 0 hnul) (by decide)

/-- What the modes with an artifact check of the spec of an artifact. -/
theorem validateArtifactSpec_importerSpec (hadmitted : Admitted a.spec) {operation : Bytes}
    (hoperation : operationIDPattern operation = true) :
    validateArtifactSpec (importerSpec hubEndpoint a operation) = .ok () := by
  have hentry : validateRelativePath (importerSpec hubEndpoint a operation).entrypoint = .ok () :=
    hadmitted.entrypoint
  have hformat : equalsGGUF (importerSpec hubEndpoint a operation).format = true := by
    rw [show (importerSpec hubEndpoint a operation).format = formatGGUF from hadmitted.format]
    decide
  have hid : validateOperationID (importerSpec hubEndpoint a operation).operationID = .ok () := by
    rw [validateOperationID, show (importerSpec hubEndpoint a operation).operationID = operation
      from rfl, if_pos hoperation]
  unfold validateArtifactSpec
  simp only [hformat, hentry, hid, Except.mapError, bind, Except.bind, pure, Except.pure,
    Bool.true_eq_false, if_false]
  rw [ite_self]
  cases hpvc : a.spec.source.persistentVolumeClaim with
  | none => simp [importerSpec, hpvc]
  | some pvc =>
    obtain ⟨hne, -, hroot⟩ := hadmitted.pvc pvc hpvc
    have hspec : (importerSpec hubEndpoint a operation).pvc = some (importerPVC a pvc) := by
      simp [importerSpec, hpvc]
    rw [hspec]
    have hcount : ¬maxSelectedFiles < (importerPVC a pvc).selectedFiles.length := by
      simp [importerPVC, maxSelectedFiles]
    simp only [if_neg hcount]
    split
    case isFalse => rfl
    case isTrue h =>
      have hvalid : validateRelativePath (importerPVC a pvc).rootPath = .ok () :=
        hroot.resolve_left h.2
      rw [hvalid]

/-- **What is admitted passes the checks of the importer on its input.** -/
theorem validateSpec_importerSpec (hadmitted : Admitted a.spec) (hproduced : Produced hubEndpoint a)
    {operation : Bytes} (hoperation : operationIDPattern operation = true) :
    validateSpec (importerSpec hubEndpoint a operation) = .ok () := by
  have hartifact := @validateArtifactSpec_importerSpec hubEndpoint a hadmitted operation hoperation
  have hsize := @expectedSize_importerSpec hubEndpoint a hadmitted operation
  have hsha : ¬((importerSpec hubEndpoint a operation).expectedSHA256 ≠ [] ∧
      validSHA256 (importerSpec hubEndpoint a operation).expectedSHA256 = false) := by
    rintro ⟨hne, hfalse⟩
    rcases expectedSHA256_importerSpec hadmitted hproduced operation with hnil | hvalid
    · exact hne hnil
    · rw [hfalse] at hvalid
      cases hvalid
  have hop : operation ≠ [] := by
    rintro rfl
    cases hoperation
  unfold validateSpec
  rw [if_neg (by simp [importerSpec]), if_neg hsize, if_neg hsha]
  cases hhub : a.spec.source.huggingFace with
  | some source =>
    obtain ⟨hpvc, hmode⟩ := importerMode_hub hhub hadmitted.one
    have hsource := hadmitted.hub source hhub
    have hrevision := (importerRevision_spec hsource hproduced hmode).1
    have hrepository : source.repository ≠ [] := by
      intro hnil
      have := hsource.repository
      rw [hnil] at this
      exact absurd this (by decide)
    rw [if_pos (show (importerSpec hubEndpoint a operation).mode = modeHub from hmode),
      show (importerSpec hubEndpoint a operation).hub = some (importerHub a source) by
        simp [importerSpec, hhub]]
    simp only
    rw [if_neg (by simp [importerSpec, hpvc]),
      if_neg (by simp [importerSpec, hpvc, hop, show cacheMountPath ≠ [] by decide]),
      if_neg (by simp [importerHub, hrepository, hrevision, hsource.files_ne])]
    exact hartifact
  | none =>
    obtain ⟨pvc, hpvc⟩ : ∃ pvc, a.spec.source.persistentVolumeClaim = some pvc := by
      refine Option.ne_none_iff_exists'.1 fun hnone => hadmitted.one ?_
      simp [hhub, hnone]
    obtain ⟨-, hmode⟩ := importerMode_pvc hpvc hadmitted.one
    have hspec : (importerSpec hubEndpoint a operation).pvc = some (importerPVC a pvc) := by
      simp [importerSpec, hpvc]
    have hmount : (importerPVC a pvc).mountRoot ≠ [] := show sourceMountPath ≠ [] by decide
    rw [if_neg (show (importerSpec hubEndpoint a operation).mode ≠ modeHub by
      rw [show (importerSpec hubEndpoint a operation).mode = _ from hmode]; split <;> decide)]
    cases hdirect : pvc.isDirect with
    | false =>
      rw [if_pos (show (importerSpec hubEndpoint a operation).mode = modeCopy by
        rw [show (importerSpec hubEndpoint a operation).mode = _ from hmode, hdirect]; rfl), hspec]
      simp only
      rw [if_neg (by simp [importerSpec, hhub]),
        if_neg (by simp [importerSpec, hpvc, hdirect, hop, hmount,
          show cacheMountPath ≠ [] by decide])]
      exact hartifact
    | true =>
      have hmode : (importerSpec hubEndpoint a operation).mode = modeDirect := by
        rw [show (importerSpec hubEndpoint a operation).mode = _ from hmode, hdirect]
        rfl
      rw [if_neg (by rw [hmode]; decide), if_pos hmode, hspec]
      simp only
      rw [if_neg (by simp [importerSpec, hhub]),
        if_neg (by simp [importerSpec, hpvc, hdirect, hmount])]
      exact hartifact

theorem utf8_of_validateRepository {repository : Bytes}
    (h : validateRepository repository = .ok ()) : Utf8.Valid repository := by
  have hbyte : ∀ b : UInt8, (isRepositoryByte b || b == 46 || b == 45) = true → b < 0x80 := by
    intro b h
    simp only [isRepositoryByte, isAlphanumeric, isDigit, isUpper, isLower, Bool.or_eq_true,
      beq_iff_eq, decide_eq_true_eq, UInt8.le_iff_toNat_le, UInt8.lt_iff_toNat_lt,
      UInt8.reduceToNat, ← UInt8.toNat_inj] at h ⊢
    omega
  refine Utf8.valid_of_ascii fun b hb => ?_
  by_cases hslash : b = 47
  · rw [hslash]
    decide
  · obtain ⟨part, hpart, hmem⟩ := (mem_iff_splitSlash hslash).1 hb
    simp only [validateRepository] at h
    split at h
    · cases h
    rename_i hall
    simp only [not_or, List.any_eq_true, decide_eq_true_eq, not_exists, not_and] at hall
    have hvalid := eq_true_of_ne_false (hall.2.2.2.2.2.2 part hpart)
    simp only [repositoryPart, Bool.and_eq_true, List.all_eq_true] at hvalid
    exact hbyte b (by simpa using hvalid.1.1 b hmem)

/-- The strings of an importer's spec are those of the artifact and names of the controller. -/
theorem utf8_importerSpec (hadmitted : Admitted a.spec) (hproduced : Produced hubEndpoint a)
    (hendpoint : Utf8.Valid hubEndpoint)
    (hrevision : ∀ source, a.spec.source.huggingFace = some source →
      Utf8.Valid (importerRevision a source))
    {operation : Bytes} (hoperation : Utf8.Valid operation) :
    (importerSpec hubEndpoint a operation).Utf8 := by
  have hmode : Utf8.Valid (importerMode a.spec.source) := by
    unfold importerMode
    split
    · split <;> exact Utf8.valid_of_all (by decide)
    · split <;> exact Utf8.valid_of_all (by decide)
  have hsha : Utf8.Valid (importerSpec hubEndpoint a operation).expectedSHA256 := by
    rcases expectedSHA256_importerSpec hadmitted hproduced operation with hnil | hvalid
    · rw [hnil]
      exact Utf8.valid_of_all rfl
    · exact utf8_of_validSHA256 hvalid
  have hcache : Utf8.Valid (importerSpec hubEndpoint a operation).cacheRoot := by
    simp only [importerSpec]
    split <;> exact Utf8.valid_of_all (by decide)
  intro b hb
  simp only [Spec.texts, List.mem_append, List.mem_cons, List.not_mem_nil, or_false] at hb
  obtain ((((rfl | rfl | rfl | rfl | rfl | rfl | rfl | rfl) | hhub) | hpvc) | hprobe) |
    hcleanup := hb
  · exact hmode
  · exact hoperation
  · rw [show (importerSpec hubEndpoint a operation).format = _ from hadmitted.format]
    exact Utf8.valid_of_all (by decide)
  · exact hadmitted.entrypoint_utf8
  · exact hsha
  · exact hcache
  · exact hendpoint
  · exact Utf8.valid_of_all (s := ascii "kama-importer") (by decide)
  · cases heq : a.spec.source.huggingFace with
    | none => simp [importerSpec, heq] at hhub
    | some source =>
      have hsource := hadmitted.hub source heq
      simp only [importerSpec, heq, Option.map_some, List.mem_append, List.mem_cons,
        List.not_mem_nil, or_false] at hhub
      obtain (rfl | rfl | rfl) | hfile := hhub
      · exact utf8_of_validateRepository hsource.repository
      · exact hrevision source heq
      · simp only [importerHub]
        split <;> exact Utf8.valid_of_all (by decide)
      · exact (hsource.files b hfile).2
  · cases heq : a.spec.source.persistentVolumeClaim with
    | none => simp [importerSpec, heq] at hpvc
    | some source =>
      simp only [importerSpec, heq, Option.map_some, importerPVC, List.mem_append, List.mem_cons,
        List.not_mem_nil, or_false] at hpvc
      obtain (rfl | rfl) | rfl := hpvc
      · exact Utf8.valid_of_all (by decide)
      · exact (hadmitted.pvc source heq).utf8
      · exact hadmitted.entrypoint_utf8
  · simp [importerSpec] at hprobe
  · simp [importerSpec] at hcleanup

theorem validateSelectors_of_forall {selectors : List Bytes}
    (h : ∀ selector ∈ selectors, validateSelector selector = .ok ()) :
    validateSelectors selectors = .ok () := by
  induction selectors with
  | nil => rfl
  | cons selector selectors ih =>
    rw [validateSelectors, h selector (List.mem_cons_self ..)]
    exact ih fun s hs => h s (List.mem_cons_of_mem _ hs)

/-- **What is admitted passes the checks of the importer on a Hub source.** -/
theorem checkHub_of_admitted (hadmitted : Admitted a.spec) (hproduced : Produced hubEndpoint a)
    {source : HuggingFaceSource} (hsource : a.spec.source.huggingFace = some source) :
    checkHub source.repository (importerRevision a source) a.spec.entrypoint source.files =
      .ok () := by
  have hadmittedHub := hadmitted.hub source hsource
  obtain ⟨-, hmode⟩ := importerMode_hub hsource hadmitted.one
  obtain ⟨hne, hle, hnul⟩ := importerRevision_spec hadmittedHub hproduced hmode
  unfold checkHub
  refine except_bind_eq_ok.2 ⟨(), hadmittedHub.repository, except_refuse_eq_ok.2 ⟨?_,
    except_bind_eq_ok.2 ⟨(), mapError_eq_ok.2 hadmitted.entrypoint, except_refuse_eq_ok.2
      ⟨hadmittedHub.files_ne, except_refuse_eq_ok.2 ⟨Nat.not_lt.2 hadmittedHub.files_le,
        validateSelectors_of_forall fun s hs => (hadmittedHub.files s hs).1⟩⟩⟩⟩⟩
  simp [hne, hnul, Nat.not_lt.2 hle]

/-! ### The length of a spec -/

/-- The length of a string between quotes. -/
def textBytes (s : Bytes) : Nat := (quote s).length

def hubBytes (a : ModelArtifact) (source : HuggingFaceSource) : Nat :=
  objectBytes ([(ascii "repository", textBytes source.repository)] ++
    [(ascii "revision", textBytes (importerRevision a source))] ++
    [(ascii "fileSelectors", arrayBytes (source.files.map textBytes))] ++
    if source.tokenSecretRef.isSome then [(ascii "tokenFile", 29)] else [])

def pvcBytes (a : ModelArtifact) (source : PersistentVolumeClaimSource) : Nat :=
  objectBytes ([(ascii "mountRoot", 9)] ++
    (if source.rootPath = [] then [] else [(ascii "rootPath", textBytes source.rootPath)]) ++
    [(ascii "selectedFiles", arrayBytes [textBytes a.spec.entrypoint])])

/-- The length of the importer's spec, by what the artifact asks for: the name of the operation has
57 bytes, a digest 64. -/
def importerSpecBytes (hubEndpoint : Bytes) (a : ModelArtifact) : Nat :=
  objectBytes ([(ascii "schemaVersion", 1)] ++
    [(ascii "mode", textBytes (importerMode a.spec.source))] ++ [(ascii "operationID", 59)] ++
    [(ascii "format", 6)] ++ [(ascii "entrypoint", textBytes a.spec.entrypoint)] ++
    (if a.status.validated = false ∧ a.spec.verification.expectedSHA256 = [] then []
      else [(ascii "expectedSHA256", 66)]) ++
    ((if a.status.validated && decide (0 < a.status.size) then some a.status.size
        else a.spec.verification.expectedSize).map fun size =>
      (ascii "expectedSize", (decimal size.toInt).length)).toList ++
    (if a.spec.source.persistentVolumeClaim.any PersistentVolumeClaimSource.isDirect then []
      else [(ascii "cacheRoot", 8)]) ++
    (if hubEndpoint = [] then [] else [(ascii "hubEndpoint", textBytes hubEndpoint)]) ++
    (a.spec.source.huggingFace.map fun source => (ascii "hub", hubBytes a source)).toList ++
    (a.spec.source.persistentVolumeClaim.map fun source =>
      (ascii "pvc", pvcBytes a source)).toList ++
    [(ascii "http", objectBytes
      ((if ascii "http://" <+: hubEndpoint then [(ascii "allowHTTP", 4)] else []) ++
        [(ascii "userAgent", 15)]))])

theorem lengths_omitString (name : String) (b : Bytes) :
    lengths (omitString name b) = if b = [] then [] else [(ascii name, textBytes b)] :=
  lengths_omitempty _ _ _

theorem length_encode_strings {l : List Bytes} (h : l ≠ []) :
    (encode (strings l)).length = arrayBytes (l.map textBytes) := by
  rw [strings, if_neg h, length_encode_arr (by simpa using h), List.map_map]
  rfl

theorem length_encode_hub {source : HuggingFaceSource} (h : source.files ≠ []) :
    (encode (.obj (importerHub a source).members)).length = hubBytes a source := by
  have htoken : lengths (omitString "tokenFile" (importerHub a source).tokenFile) =
      if source.tokenSecretRef.isSome then [(ascii "tokenFile", 29)] else [] := by
    rw [lengths_omitString]
    by_cases htoken : source.tokenSecretRef.isSome = true
    · simp only [importerHub, if_pos htoken]
      decide
    · simp only [importerHub, if_neg htoken]
      decide
  have hfiles : (encode (strings (importerHub a source).fileSelectors)).length =
      arrayBytes (source.files.map textBytes) := length_encode_strings h
  rw [length_encode_obj (by simp [HubSpec.members]), HubSpec.members]
  simp only [lengths_append, lengths_single, htoken, hfiles]
  rfl

theorem length_encode_pvc (source : PersistentVolumeClaimSource) :
    (encode (.obj (importerPVC a source).members)).length = pvcBytes a source := by
  have hfiles : (encode (strings (importerPVC a source).selectedFiles)).length =
      arrayBytes [textBytes a.spec.entrypoint] := length_encode_strings (List.cons_ne_nil _ _)
  have hmount : (encode (.str (importerPVC a source).mountRoot)).length = 9 :=
    show textBytes sourceMountPath = 9 by decide
  rw [length_encode_obj (by simp [PVCSpec.members]), PVCSpec.members]
  simp only [lengths_append, lengths_single, lengths_omitempty, lengths_omitString, hfiles, hmount,
    if_neg (show (importerPVC a source).selectedFiles ≠ [] from List.cons_ne_nil _ _)]
  rfl

/-- A digest is quoted as it is. -/
theorem textBytes_of_validSHA256 {digest : Bytes} (h : validSHA256 digest = true) :
    textBytes digest = 66 := by
  simp only [validSHA256, Bool.and_eq_true, beq_iff_eq, List.all_eq_true] at h
  rw [textBytes, length_quote_plain fun b hb =>
    .inr (isAlphanumeric_of_isHex (isHex_of_isHexLower (h.2 b hb))), h.1]

theorem lengths_expectedSHA256 (hadmitted : Admitted a.spec) (hproduced : Produced hubEndpoint a)
    (operation : Bytes) :
    lengths (omitString "expectedSHA256" (importerSpec hubEndpoint a operation).expectedSHA256) =
      if a.status.validated = false ∧ a.spec.verification.expectedSHA256 = [] then []
      else [(ascii "expectedSHA256", 66)] := by
  have hnil : (importerSpec hubEndpoint a operation).expectedSHA256 = [] ↔
      a.status.validated = false ∧ a.spec.verification.expectedSHA256 = [] := by
    cases hvalidated : a.status.validated with
    | false => simp [importerSpec, hvalidated]
    | true =>
      have hdigest : a.status.artifactDigest ≠ [] := by
        intro hnil
        have := hproduced.digest hvalidated
        rw [hnil] at this
        cases this
      simp [importerSpec, hvalidated, hdigest]
  rw [lengths_omitString]
  split
  case isTrue h => rw [if_pos (hnil.1 h)]
  case isFalse h =>
    rw [if_neg (mt hnil.2 h), textBytes_of_validSHA256
      ((expectedSHA256_importerSpec hadmitted hproduced operation).resolve_left h)]

theorem length_encode_http (hubEndpoint : Bytes) (a : ModelArtifact) (operation : Bytes) :
    (encode (.obj (importerSpec hubEndpoint a operation).http.members)).length =
      objectBytes ((if ascii "http://" <+: hubEndpoint then [(ascii "allowHTTP", 4)] else []) ++
        [(ascii "userAgent", 15)]) := by
  simp only [importerSpec]
  by_cases h : ascii "http://" <+: hubEndpoint
  · rw [if_pos h, decide_eq_true h]
    decide
  · rw [if_neg h, decide_eq_false h]
    decide

/-- **The length of an importer's spec.** -/
theorem length_encode_importerSpec (hadmitted : Admitted a.spec)
    (hproduced : Produced hubEndpoint a) (huid : isUUID a.uid = true) (storage : ArtifactStorage) :
    (importerSpec hubEndpoint a (artifactOperationID a storage)).encode.length =
      importerSpecBytes hubEndpoint a := by
  have hoperation : lengths (omitString "operationID" (artifactOperationID a storage)) =
      [(ascii "operationID", 59)] := by
    have hlen : (artifactOperationID a storage).length = 57 := length_artifactOperationID huid
    rw [lengths_omitString, if_neg (List.ne_nil_of_length_pos (by omega)), textBytes,
      length_quote_plain fun b hb => (artifactOperationID_bytes huid hb).imp_right
        isAlphanumeric_of_isHex, hlen]
  have hformat : lengths (omitString "format" a.spec.format) = [(ascii "format", 6)] := by
    rw [hadmitted.format]
    decide
  have hentrypoint : lengths (omitString "entrypoint" a.spec.entrypoint) =
      [(ascii "entrypoint", textBytes a.spec.entrypoint)] := by
    rw [lengths_omitString, if_neg]
    intro hnil
    have := hadmitted.entrypoint
    rw [hnil] at this
    cases this
  have hcache : lengths (omitString "cacheRoot"
      (importerSpec hubEndpoint a (artifactOperationID a storage)).cacheRoot) =
      if a.spec.source.persistentVolumeClaim.any PersistentVolumeClaimSource.isDirect then []
      else [(ascii "cacheRoot", 8)] := by
    simp only [importerSpec]
    split <;> decide
  have hhub : lengths (optional (ascii "hub") (fun h => .obj h.members)
      (a.spec.source.huggingFace.map (importerHub a))) =
      (a.spec.source.huggingFace.map fun source => (ascii "hub", hubBytes a source)).toList := by
    rw [lengths_optional, Option.map_map]
    cases hsource : a.spec.source.huggingFace with
    | none => rfl
    | some source =>
      have hlen := length_encode_hub (a := a) (hadmitted.hub source hsource).files_ne
      simp [hlen]
  have hpvc : lengths (optional (ascii "pvc") (fun p => .obj p.members)
      (a.spec.source.persistentVolumeClaim.map (importerPVC a))) =
      (a.spec.source.persistentVolumeClaim.map fun source =>
        (ascii "pvc", pvcBytes a source)).toList := by
    rw [lengths_optional, Option.map_map]
    exact congrArg (fun f => (Option.map f _).toList) (funext fun source => by
      simp [length_encode_pvc])
  have hversion : (encode (intJson schemaVersion)).length = 1 := by decide
  have hmode : (encode (.str (importerMode a.spec.source))).length =
      textBytes (importerMode a.spec.source) := rfl
  have hsize : ∀ size : Int64, (encode (intJson size)).length = (decimal size.toInt).length :=
    fun _ => rfl
  rw [Spec.encode, length_encode_obj (by simp [Spec.members]), Spec.members]
  simp only [lengths_append, lengths_single, lengths_expectedSHA256 hadmitted hproduced, hcache,
    length_encode_http]
  simp only [importerSpec, hversion, hmode, hoperation, hformat, hentrypoint, hhub, hpvc]
  simp only [lengths_optional, lengths_omitString, hsize, Option.map_none, Option.toList_none,
    List.append_nil]
  rw [importerSpecBytes]

end Import

/-- **What is admitted can be imported, as long as the importer reads all of its spec** and the
revision that is asked for is text. -/
theorem decodeSpec_importerSpec_iff (rules : NameRules) (hubEndpoint : Bytes)
    (a : ModelArtifact) (old : Option ModelArtifact) (storage : ArtifactStorage)
    (hnil : validateModelArtifact rules a old = []) (huid : isUUID a.uid = true)
    (hproduced : Produced hubEndpoint a) (hendpoint : Utf8.Valid hubEndpoint) :
    (decodeSpec (importerSpec hubEndpoint a (artifactOperationID a storage)).encode =
        .ok (importerSpec hubEndpoint a (artifactOperationID a storage)) ∧
      ∀ hub, (importerSpec hubEndpoint a (artifactOperationID a storage)).hub = some hub →
        checkHub hub.repository hub.revision a.spec.entrypoint hub.fileSelectors = .ok ()) ↔
    importerSpecBytes hubEndpoint a ≤ maxSpecBytes + 1 ∧
      ∀ source, a.spec.source.huggingFace = some source →
        Utf8.Valid (importerRevision a source) := by
  have hadmitted := admitted_of_nil hnil
  have hhub : ∀ hub, (importerSpec hubEndpoint a (artifactOperationID a storage)).hub = some hub →
      checkHub hub.repository hub.revision a.spec.entrypoint hub.fileSelectors = .ok () := by
    intro hub hhub
    obtain ⟨source, hsource, rfl⟩ := Option.map_eq_some_iff.1 hhub
    exact checkHub_of_admitted hadmitted hproduced hsource
  rw [and_iff_left hhub, decodeSpec_encode (validateSpec_importerSpec hadmitted hproduced
    (operationIDPattern_artifactOperationID huid)),
    length_encode_importerSpec hadmitted hproduced huid]
  refine and_congr_right fun _ => ⟨fun hutf8 source hsource => hutf8 _ ?_, fun hrevision => ?_⟩
  · simp [Spec.texts, importerSpec, hsource, importerHub]
  · exact utf8_importerSpec hadmitted hproduced hendpoint hrevision (utf8_artifactOperationID huid)

/-! ### Samples -/

/-- A fresh artifact in a Hub repository with these selectors. -/
def hubArtifact (files : List Bytes) : ModelArtifact where
  name := ascii "model"
  uid := ascii "01234567-89ab-4cde-8f01-23456789abcd"
  generation := 1
  deleting := false
  finalizers := []
  spec :=
    { format := formatGGUF
      entrypoint := ascii "model.gguf"
      source := ⟨some ⟨ascii "owner/model", ascii "main", files, none⟩, none⟩
      cacheRef := some (ascii "cache")
      verification := ⟨[], none⟩ }
  status := ⟨0, [], [], [], 0, [], [], 0, none, none, none, [], []⟩

theorem produced_hubArtifact (hubEndpoint : Bytes) (files : List Bytes) :
    Produced hubEndpoint (hubArtifact files) := by
  intro h
  cases h

theorem decodeSpec_importerSpec_iff_sample :
    decodeSpec (importerSpec (ascii "https://huggingface.co") (hubArtifact [ascii "*.gguf"])
        (artifactOperationID (hubArtifact [ascii "*.gguf"]) .zero)).encode =
      .ok (importerSpec (ascii "https://huggingface.co") (hubArtifact [ascii "*.gguf"])
        (artifactOperationID (hubArtifact [ascii "*.gguf"]) .zero)) :=
  ((decodeSpec_importerSpec_iff sampleRules _ (hubArtifact [ascii "*.gguf"]) none .zero
    (by decide +kernel) (by decide +kernel) (produced_hubArtifact _ _)
    (Utf8.valid_of_all (by decide))).2
    ⟨by decide +kernel, fun source hsource => by
      cases hsource
      exact Utf8.valid_of_all (by decide)⟩).1

/-- A selector is a clean path when it is a row of letters that is not too long. -/
theorem validateCleanRelativePath_letters {value : Bytes} (hne : value ≠ [])
    (hlen : value.length ≤ maxArtifactPathLength) (hlower : value.all isLower = true)
    (path : FieldPath) : validateCleanRelativePath value path false true = none := by
  have hmem : ∀ b : UInt8, isLower b = false → b ∉ value := by
    intro b hb h
    rw [List.all_eq_true.1 hlower b h] at hb
    cases hb
  have hdot : ∀ text : Bytes, text.all isLower = false → value ≠ text := by
    rintro text htext rfl
    rw [hlower] at htext
    cases htext
  have hsplit : splitSlash value = [value] := splitSlash_of_not_mem (hmem 47 rfl)
  have hhead : value.head? ≠ some 47 := fun h => hmem 47 rfl (List.mem_of_head? h)
  have hcomponent : validComponent value = true := by
    simp only [validComponent, decide_eq_true_eq]
    exact ⟨hne, hdot _ (by decide), hdot _ (by decide), hmem 0 rfl, hmem 92 rfl, hmem 47 rfl⟩
  have hclean : clean value = value :=
    clean_of_valid (by rw [hsplit]; simpa using hcomponent) hne hhead
  have hutf8 : Utf8.validString value = true := by
    refine Utf8.valid_iff.1 (Utf8.valid_of_ascii fun b hb => ?_)
    have hb := List.all_eq_true.1 hlower b hb
    simp only [isLower, decide_eq_true_eq] at hb
    exact UInt8.lt_of_le_of_lt hb.2 (by decide)
  have hplain : value.all PathMatch.isPlain = true := by
    refine List.all_eq_true.2 fun b hb => ?_
    have hne : ∀ c : UInt8, isLower c = false → b ≠ c := by
      rintro c hc rfl
      exact hmem b hc hb
    simp [PathMatch.isPlain, hne 42 rfl, hne 63 rfl, hne 91 rfl, hne 92 rfl]
  unfold validateCleanRelativePath
  rw [if_neg hne, if_neg (Nat.not_lt.2 hlen), if_neg (by simp [hutf8]),
    if_neg (by simp [hmem 0 rfl, hmem 92 rfl]), if_neg hhead, if_neg (hdot _ (by decide)),
    validateSegments, if_neg (by simp [hclean]), hsplit,
    if_neg (by simpa using ⟨hne, hdot _ (by decide), hdot _ (by decide)⟩), if_pos rfl,
    if_neg (Option.isSome_iff_ne_none.1 (PathMatch.isSome_pathMatch_of_plain hplain value))]

theorem validateHuggingFaceFiles_of_nodup {path : FieldPath} {files : List Bytes}
    (hfiles : ∀ file ∈ files, ∀ path, validateCleanRelativePath file path false true = none)
    (index : Nat) (seen : List Bytes) (hnodup : files.Nodup) (hseen : ∀ file ∈ files, file ∉ seen) :
    validateHuggingFaceFiles path index seen files = [] := by
  induction files generalizing index seen with
  | nil => rfl
  | cons file files ih =>
    obtain ⟨hnew, hnodup⟩ := List.nodup_cons.1 hnodup
    simp only [validateHuggingFaceFiles, hfiles file (List.mem_cons_self ..), Option.toList_none,
      if_neg (hseen file (List.mem_cons_self ..)), List.nil_append]
    refine ih (fun f hf => hfiles f (List.mem_cons_of_mem _ hf)) _ _ hnodup fun f hf => ?_
    rw [List.mem_cons, not_or]
    exact ⟨fun h => hnew (h ▸ hf), hseen f (List.mem_cons_of_mem _ hf)⟩

/-- The `i`-th of many selectors of the greatest length. -/
def longSelector (i : Nat) : Bytes :=
  [UInt8.ofNat (97 + i / 16), UInt8.ofNat (97 + i % 16)] ++ List.replicate 1022 97

def longSelectors : List Bytes := (List.range 128).map longSelector

theorem nodup_longSelectors : longSelectors.Nodup := by
  refine List.Nodup.map_on (fun i hi j hj h => ?_) List.nodup_range
  rw [List.mem_range] at hi hj
  obtain ⟨hdiv, h⟩ := List.cons.inj h
  have hmod := (List.cons.inj h).1
  have hdiv := congrArg UInt8.toNat hdiv
  have hmod := congrArg UInt8.toNat hmod
  simp only [UInt8.toNat_ofNat'] at hdiv hmod
  omega

theorem length_longSelectors : longSelectors.length = 128 := by
  rw [longSelectors, List.length_map, List.length_range]

theorem longSelectors_ne_nil : longSelectors ≠ [] :=
  List.ne_nil_of_length_pos (by rw [length_longSelectors]; decide)

theorem longSelector_spec {file : Bytes} (h : file ∈ longSelectors) :
    file.length = 1024 ∧ file.all isLower = true := by
  obtain ⟨i, hi, rfl⟩ := List.mem_map.1 h
  refine ⟨by rw [longSelector, List.length_append, List.length_replicate]; rfl, ?_⟩
  rw [List.mem_range] at hi
  have hletter : ∀ n < 16, isLower (UInt8.ofNat (97 + n)) = true := by decide
  rw [longSelector, List.all_append, List.all_replicate]
  simp only [List.all_cons, List.all_nil, hletter _ (show i / 16 < 16 by omega),
    hletter _ (show i % 16 < 16 by omega)]
  decide

theorem admitted_longSelectors :
    validateModelArtifact sampleRules (hubArtifact longSelectors) none = [] := by
  have hfiles : validateHuggingFaceFiles
      (((specPath.child "source").child "huggingFace").child "files") 0 [] longSelectors = [] := by
    refine validateHuggingFaceFiles_of_nodup (fun file hfile path => ?_) 0 [] nodup_longSelectors
      fun _ _ => List.not_mem_nil
    obtain ⟨hlen, hlower⟩ := longSelector_spec hfile
    refine validateCleanRelativePath_letters ?_ (Nat.le_of_eq hlen) hlower path
    rintro rfl
    cases hlen
  have hhub : validateHuggingFaceSource sampleRules
      ⟨ascii "owner/model", ascii "main", longSelectors, none⟩
      ((specPath.child "source").child "huggingFace") = [] := by
    simp only [validateHuggingFaceSource, List.append_eq_nil_iff]
    refine ⟨⟨⟨⟨⟨rfl, rfl⟩, if_neg longSelectors_ne_nil⟩, if_neg ?_⟩,
      hfiles⟩, trivial⟩
    rw [length_longSelectors]
    exact Nat.lt_irrefl 128
  simp only [validateModelArtifact, List.append_eq_nil_iff]
  refine ⟨⟨⟨⟨rfl, rfl⟩, ?_⟩, rfl⟩, rfl⟩
  simp only [validateSource, hubArtifact, List.append_eq_nil_iff]
  exact ⟨⟨⟨rfl, rfl⟩, hhub, rfl⟩, trivial⟩

/-- Its importer spec is longer than an importer reads. -/
theorem lt_importerSpecBytes_longSelectors (hubEndpoint : Bytes) :
    maxSpecBytes + 1 < importerSpecBytes hubEndpoint (hubArtifact longSelectors) := by
  have hquoted : ∀ file ∈ longSelectors, textBytes file = 1026 := by
    intro file hfile
    obtain ⟨hlen, hlower⟩ := longSelector_spec hfile
    rw [textBytes, length_quote_plain fun b hb => .inr ?_, hlen]
    simp [isAlphanumeric, List.all_eq_true.1 hlower b hb]
  have hfiles : 128 * 1027 ≤ arrayBytes (longSelectors.map textBytes) := by
    have hsum := List.card_nsmul_le_sum ((longSelectors.map textBytes).map (· + 1)) 1027 (by
      simp only [List.map_map, List.mem_map, forall_exists_index, and_imp]
      rintro _ file hfile rfl
      simp [hquoted file hfile])
    rw [List.length_map, List.length_map, length_longSelectors, nsmul_eq_mul, Nat.cast_id] at hsum
    rw [arrayBytes]
    omega
  have hhub : arrayBytes (longSelectors.map textBytes) ≤
      hubBytes (hubArtifact longSelectors)
        ⟨ascii "owner/model", ascii "main", longSelectors, none⟩ :=
    le_objectBytes (ascii "fileSelectors") (by simp)
  have hspec : hubBytes (hubArtifact longSelectors)
      ⟨ascii "owner/model", ascii "main", longSelectors, none⟩ ≤
      importerSpecBytes hubEndpoint (hubArtifact longSelectors) :=
    le_objectBytes (ascii "hub") (by simp [hubArtifact])
  have hbytes : maxSpecBytes = 131072 := rfl
  omega

/-- Admission does not bound the length of a spec: 128 selectors of 1024 bytes are admitted, and
the importer cannot read the spec that is written for them. -/
theorem admitted_unreadable :
    validateModelArtifact sampleRules (hubArtifact longSelectors) none = [] ∧
      isUUID (hubArtifact longSelectors).uid = true ∧
      Produced (ascii "https://huggingface.co") (hubArtifact longSelectors) ∧
      decodeSpec (importerSpec (ascii "https://huggingface.co") (hubArtifact longSelectors)
          (artifactOperationID (hubArtifact longSelectors) .zero)).encode ≠
        .ok (importerSpec (ascii "https://huggingface.co") (hubArtifact longSelectors)
          (artifactOperationID (hubArtifact longSelectors) .zero)) := by
  have huid : isUUID (hubArtifact longSelectors).uid = true := rfl
  have hproduced := produced_hubArtifact (ascii "https://huggingface.co") longSelectors
  have hadmitted := admitted_of_nil admitted_longSelectors
  refine ⟨admitted_longSelectors, huid, hproduced, fun h => ?_⟩
  have hlen := ((decodeSpec_encode (validateSpec_importerSpec hadmitted hproduced
    (operationIDPattern_artifactOperationID huid))).1 h).1
  rw [length_encode_importerSpec hadmitted hproduced huid] at hlen
  exact Nat.not_le.2 (lt_importerSpecBytes_longSelectors _) hlen

end Kama.Controller
