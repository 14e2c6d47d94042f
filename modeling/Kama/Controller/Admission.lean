import Kama.Controller.ArtifactStatus

/-!
# Admission of model artifacts

The webhook of `modelartifact_webhook.go`: `validateModelArtifact` lists what is wrong with a
`ModelArtifact`, each error with the field it is about, and the artifact is admitted when the list
is empty.

`Admitted` is what admission says about a spec, in the terms of the importer, which checks its
input with rules of its own (`validateRelativePath`, `validateRepository`, `validateSelector`):
`admitted_of_nil`.
-/

namespace Kama.Controller

open Bytes Json Artifact Reader

variable (rules : NameRules) {path : FieldPath}

/-! ## Field errors -/

inductive PathStep
  | child (name : String)
  | index (n : Nat)
  | key (name : Bytes)
  deriving DecidableEq, Repr

abbrev FieldPath := List PathStep

def FieldPath.child (path : FieldPath) (name : String) : FieldPath := path ++ [.child name]

/-- A `map[string]α`: its entries in some order, no key twice. -/
structure StringMap (α : Type) where
  entries : List (Bytes × α)
  nodup : (entries.map Prod.fst).Nodup
  deriving DecidableEq, Repr

/-- The template of a claim as it is submitted. A quantity is its value. -/
structure SubmittedTemplate where
  labels : StringMap Bytes
  annotations : StringMap Bytes
  storageClassName : Option Bytes
  accessModes : List Bytes
  volumeMode : Bytes
  requests : StringMap Int
  deriving DecidableEq, Repr

/-- The storage of a `ModelCache` as it is submitted. -/
structure SubmittedStorage where
  /-- the name of the claim -/
  existingClaim : Option Bytes
  claimTemplate : Option SubmittedTemplate
  deriving DecidableEq, Repr

inductive BadValue
  | text (value : Bytes)
  | number (value : Int64)
  | source (value : ModelArtifactSource)
  | storage (value : SubmittedStorage)
  | modes (value : List Bytes)
  | quantity (value : Int)
  deriving DecidableEq, Repr

/-- A `field.Error`. -/
inductive FieldErr
  | required (path : FieldPath) (detail : String)
  | invalid (path : FieldPath) (value : BadValue) (detail : String)
  | notSupported (path : FieldPath) (value : Bytes) (supported : List Bytes)
  | tooLong (path : FieldPath) (value : Bytes) (maxLength : Nat)
  | tooMany (path : FieldPath) (actual maxQuantity : Nat)
  | duplicate (path : FieldPath) (value : Bytes)
  | forbidden (path : FieldPath) (detail : String)
  deriving DecidableEq, Repr

/-! ## Names and paths -/

def joinMessages (messages : List String) : String := "; ".intercalate messages

def validateLocalObjectName (name : Bytes) (path : FieldPath) : Option FieldErr :=
  if name = [] then some (.required path "name is required")
  else
    match rules.isDNS1123Subdomain name with
    | [] => none
    | messages => some (.invalid path (.text name) (joinMessages messages))

def maxArtifactPathLength : Nat := 1024

/-- The checks on a path that is not `.`. -/
def validateSegments (value : Bytes) (path : FieldPath) (allowGlob : Bool) : Option FieldErr :=
  if clean value ≠ value then
    some (.invalid path (.text value)
      "must be a clean relative path without '.', '..', empty, or trailing segments")
  else if (splitSlash value).any fun segment =>
      segment = [] ∨ segment = ascii "." ∨ segment = ascii ".." then
    some (.invalid path (.text value) "must not contain empty, '.' or '..' segments")
  else if allowGlob then
    if PathMatch.pathMatch value value = none then
      some (.invalid path (.text value) "invalid POSIX file selector: syntax error in pattern")
    else none
  else if value.any fun b => b == 42 || b == 63 || b == 91 then
    some (.invalid path (.text value) "wildcards are not permitted")
  else none

def validateCleanRelativePath (value : Bytes) (path : FieldPath) (allowDot allowGlob : Bool) :
    Option FieldErr :=
  if value = [] then some (.required path "a relative path is required")
  else if maxArtifactPathLength < value.length then
    some (.tooLong path value maxArtifactPathLength)
  else if Utf8.validString value = false then
    some (.invalid path (.text value) "must be valid UTF-8")
  else if 0 ∈ value ∨ 92 ∈ value then
    some (.invalid path (.text value) "must use POSIX separators and contain no NUL bytes")
  else if value.head? = some 47 then some (.invalid path (.text value) "must be relative")
  else if value = ascii "." then
    if allowDot then none
    else some (.invalid path (.text value) "must name a file below the content root")
  else validateSegments value path allowGlob

/-- The first number of `^.*-(\d{5})-of-(\d{5})\.gguf$`. A dot matches no line feed. -/
def standardShardNumber (base : Bytes) : Option Bytes :=
  let front := base.take (base.length - 20)
  let tail := base.drop (base.length - 20)
  let number := (tail.drop 1).take 5
  if tail.length = 20 ∧ 10 ∉ front ∧ tail.head? = some 45 ∧ number.all isDigit ∧
      (tail.drop 6).take 4 = ascii "-of-" ∧ ((tail.drop 10).take 5).all isDigit ∧
      tail.drop 15 = ascii ".gguf" then some number
  else none

/-! ## Sources -/

def maxHuggingFaceRepositoryLength : Nat := 96

def validateHuggingFaceRepository (repository : Bytes) (path : FieldPath) : List FieldErr :=
  if repository = [] then [.required path "repository is required"]
  else if maxHuggingFaceRepositoryLength < repository.length then
    [.tooLong path repository maxHuggingFaceRepositoryLength]
  else
    let parts := splitSlash repository
    if 2 < parts.length ∨ endsWithGit repository = true ∨ parts.any (fun part =>
        repositoryPart part = false ∨ ascii "--" <:+: part ∨ ascii ".." <:+: part) then
      [.invalid path (.text repository)
        "must be repo_name or namespace/repo_name using Hugging Face repo_id syntax, not a URL"]
    else []

def validateHuggingFaceRevision (revision : Bytes) (path : FieldPath) : List FieldErr :=
  if revision = [] then [.required path "revision is required"]
  else if 255 < revision.length ∨ Utf8.trimSpace revision ≠ revision ∨ 92 ∈ revision ∨
      (Utf8.pieces revision).any (fun p => Utf8.isControl p.rune || p.isSpace) then
    [.invalid path (.text revision)
      ("must be at most 255 characters and contain no whitespace, " ++
        "control characters, or backslashes")]
  else []

/-- The selectors from `index` on; `seen` are those before. -/
def validateHuggingFaceFiles (path : FieldPath) : Nat → List Bytes → List Bytes → List FieldErr
  | _, _, [] => []
  | index, seen, selector :: selectors =>
    let selectorPath := path ++ [.index index]
    (if selector ∈ seen then [.duplicate selectorPath selector] else []) ++
    (validateCleanRelativePath selector selectorPath false true).toList ++
    validateHuggingFaceFiles path (index + 1) (selector :: seen) selectors

def validateTokenSecret (ref : SecretKeyReference) (path : FieldPath) : List FieldErr :=
  (validateLocalObjectName rules ref.name (path.child "name")).toList ++
  (if ref.key = [] then [.required (path.child "key") "key is required"]
    else
      match rules.isConfigMapKey ref.key with
      | [] => []
      | messages => [.invalid (path.child "key") (.text ref.key) (joinMessages messages)])

def validateHuggingFaceSource (source : HuggingFaceSource) (path : FieldPath) : List FieldErr :=
  let filesPath := path.child "files"
  validateHuggingFaceRepository source.repository (path.child "repository") ++
  validateHuggingFaceRevision source.revision (path.child "revision") ++
  (if source.files = [] then [.required filesPath "at least one file selector is required"]
    else []) ++
  (if 128 < source.files.length then [.tooMany filesPath source.files.length 128] else []) ++
  validateHuggingFaceFiles filesPath 0 [] source.files ++
  (match source.tokenSecretRef with
    | none => []
    | some ref => validateTokenSecret rules ref (path.child "tokenSecretRef"))

/-- The policy of a source; `Copy` where none is given. -/
def PersistentVolumeClaimSource.policy (source : PersistentVolumeClaimSource) : Bytes :=
  if source.importPolicy = [] then pvcImportPolicyCopy else source.importPolicy

def validatePVCSource (source : PersistentVolumeClaimSource) (path : FieldPath) : List FieldErr :=
  (validateLocalObjectName rules source.claimName (path.child "claimName")).toList ++
  (validateCleanRelativePath source.rootPath (path.child "rootPath") true false).toList ++
  (if source.policy ≠ pvcImportPolicyCopy ∧ source.policy ≠ pvcImportPolicyDirect then
    [.notSupported (path.child "importPolicy") source.policy
      [pvcImportPolicyCopy, pvcImportPolicyDirect]]
    else [])

/-! ## The artifact -/

def specPath : FieldPath := [.child "spec"]

def validateEntrypoint (entrypoint : Bytes) (path : FieldPath) : List FieldErr :=
  match validateCleanRelativePath entrypoint path false false with
  | some err => [err]
  | none =>
    if isGGUF entrypoint = false then
      [.invalid path (.text entrypoint) "GGUF entrypoints must use the .gguf extension"]
    else if (standardShardNumber ((splitSlash entrypoint).getLastD [])).any
        (· ≠ ascii "00001") then
      [.invalid path (.text entrypoint) "a standard sharded entrypoint must identify shard 00001"]
    else []

/-- The cache that a claim source needs or must not have. -/
def validateCachePolicy (policy : Bytes) (hasCache : Bool) (path : FieldPath) : List FieldErr :=
  if policy = pvcImportPolicyCopy then
    if hasCache then [] else [.required path "cacheRef is required for Copy import policy"]
  else if policy = pvcImportPolicyDirect then
    if hasCache then [.forbidden path "cacheRef is forbidden for Direct import policy"] else []
  else []

def validateSource (spec : ModelArtifactSpec) : List FieldErr :=
  let path := specPath.child "source"
  let cachePath := specPath.child "cacheRef"
  (if spec.source.huggingFace.isSome = spec.source.persistentVolumeClaim.isSome then
    [.invalid path (.source spec.source)
      "exactly one of huggingFace or persistentVolumeClaim must be set"] else []) ++
  (match spec.cacheRef with
    | none => []
    | some name => (validateLocalObjectName rules name (cachePath.child "name")).toList) ++
  (match spec.source.huggingFace with
    | none => []
    | some source => validateHuggingFaceSource rules source (path.child "huggingFace") ++
        (if spec.cacheRef.isSome then []
          else [.required cachePath "cacheRef is required for a Hugging Face source"])) ++
  (match spec.source.persistentVolumeClaim with
    | none => []
    | some source => validatePVCSource rules source (path.child "persistentVolumeClaim") ++
        validateCachePolicy source.policy spec.cacheRef.isSome cachePath)

def validateVerification (v : ModelArtifactVerificationSpec) : List FieldErr :=
  let path := specPath.child "verification"
  (if v.expectedSHA256 ≠ [] ∧ (v.expectedSHA256.length ≠ 64 ∨ v.expectedSHA256.all isHex = false)
    then [.invalid (path.child "expectedSHA256") (.text v.expectedSHA256)
      "must contain exactly 64 hexadecimal characters"] else []) ++
  (match v.expectedSize.filter (· ≤ 0) with
    | none => []
    | some size => [.invalid (path.child "expectedSize") (.number size)
        "must be greater than zero"])

def artifactReconciliationStarted (a : ModelArtifact) : Bool :=
  decide (modelArtifactFinalizer ∈ a.finalizers) || a.status.isReady ||
    a.status.validatedAt.isSome || a.status.artifactDigest != []

def validateModelArtifact (a : ModelArtifact) (old : Option ModelArtifact) : List FieldErr :=
  (if a.spec.format ≠ formatGGUF then
    [.notSupported (specPath.child "format") a.spec.format [formatGGUF]] else []) ++
  validateEntrypoint a.spec.entrypoint (specPath.child "entrypoint") ++
  validateSource rules a.spec ++
  validateVerification a.spec.verification ++
  (if old.any fun o => artifactReconciliationStarted o && o.spec != a.spec then
    [.forbidden specPath ("artifact source, storage, and content fields are immutable after " ++
      "reconciliation starts; create a new ModelArtifact")] else [])

/-! ## What admission says -/

/-- The path checks of the webhook and of the importer agree on what the webhook accepts. -/
theorem validateSegments_none {value : Bytes} {allowGlob : Bool}
    (h : validateSegments value path allowGlob = none) :
    clean value = value ∧
      (splitSlash value).any (fun segment =>
        segment = [] ∨ segment = ascii "." ∨ segment = ascii "..") = false ∧
      (allowGlob = true → PathMatch.pathMatch value value ≠ none) := by
  unfold validateSegments at h
  split at h
  · cases h
  rename_i hclean
  split at h
  · cases h
  rename_i hsegments
  refine ⟨not_not.1 hclean, eq_false_of_ne_true hsegments, ?_⟩
  rintro rfl
  rw [if_pos rfl] at h
  split at h
  · cases h
  · assumption

/-- What the webhook accepts as a path. -/
structure CleanPath (value : Bytes) : Prop where
  ne_nil : value ≠ []
  utf8 : Utf8.Valid value
  noNul : (0 : UInt8) ∉ value
  noBackslash : (92 : UInt8) ∉ value
  relative : value.head? ≠ some 47

theorem validateCleanRelativePath_none {value : Bytes} {allowDot allowGlob : Bool}
    (h : validateCleanRelativePath value path allowDot allowGlob = none) :
    CleanPath value ∧ (value = ascii "." ∧ allowDot = true ∨
      value ≠ ascii "." ∧ validateSegments value path allowGlob = none) := by
  unfold validateCleanRelativePath at h
  split at h
  · cases h
  rename_i hne
  split at h
  · cases h
  split at h
  · cases h
  rename_i hutf8
  split at h
  · cases h
  rename_i hbytes
  split at h
  · cases h
  rename_i hhead
  push Not at hbytes
  refine ⟨⟨hne, Utf8.valid_iff.2 (by simpa using hutf8), hbytes.1, hbytes.2, hhead⟩, ?_⟩
  split at h
  case isTrue hdot =>
    split at h
    case isTrue hallow => exact .inl ⟨hdot, hallow⟩
    case isFalse => cases h
  case isFalse hdot => exact .inr ⟨hdot, h⟩

theorem validateRelativePath_of_segments {value : Bytes} {allowGlob : Bool} (h : CleanPath value)
    (hdot : value ≠ ascii ".") (hsegments : validateSegments value path allowGlob = none) :
    validateRelativePath value = .ok () := by
  obtain ⟨hclean, hany, -⟩ := validateSegments_none hsegments
  unfold validateRelativePath
  rw [if_neg h.ne_nil, if_neg h.noNul, if_neg h.noBackslash, if_neg h.relative,
    if_neg (by simpa [hclean] using hdot), if_neg (by simpa using hany)]

theorem validateSelector_of_segments {value : Bytes} (h : CleanPath value)
    (hsegments : validateSegments value path true = none) : validateSelector value = .ok () := by
  obtain ⟨-, hany, hmatch⟩ := validateSegments_none hsegments
  unfold validateSelector
  rw [if_neg (by simp [h.ne_nil, h.relative, h.noBackslash, h.noNul]),
    if_neg (by simpa using hany)]
  -- whether a pattern is readable does not depend on the name it is matched with
  have hsome : (PathMatch.pathMatch value (ascii "probe")).isSome = true := by
    rw [PathMatch.isSome_pathMatch value (ascii "probe") value]
    exact Option.isSome_iff_ne_none.2 (hmatch rfl)
  obtain ⟨matched, hmatched⟩ := Option.isSome_iff_exists.1 hsome
  rw [hmatched]

/-- What admission says about a source on the Hub. -/
structure AdmittedHub (source : HuggingFaceSource) : Prop where
  repository : validateRepository source.repository = .ok ()
  revision_ne : source.revision ≠ []
  revision_le : source.revision.length ≤ 255
  revision_nul : (0 : UInt8) ∉ source.revision
  files_ne : source.files ≠ []
  files_le : source.files.length ≤ 128
  files : ∀ selector ∈ source.files, validateSelector selector = .ok () ∧ Utf8.Valid selector

theorem validateRepository_of_webhook {repository : Bytes}
    (h : validateHuggingFaceRepository repository path = []) :
    validateRepository repository = .ok () := by
  unfold validateHuggingFaceRepository at h
  split at h
  · cases h
  rename_i hne
  split at h
  · cases h
  rename_i hlen
  simp only at h
  split at h
  · cases h
  rename_i hparts
  simp only [not_or, List.any_eq_true, decide_eq_true_eq, not_exists, not_and] at hparts
  obtain ⟨hcount, hgit, hpart⟩ := hparts
  -- a part is checked on its own, and neither text contains the separator
  have hinfix : ∀ text : Bytes, (47 : UInt8) ∉ text →
      (∀ part ∈ splitSlash repository, ¬text <:+: part) → ¬text <:+: repository := by
    intro text htext hall hin
    obtain ⟨part, hmem, hpart⟩ := exists_infix_of_splitSlash htext hin
    exact hall part hmem hpart
  unfold validateRepository
  simp only
  rw [if_neg]
  simp only [not_or, List.any_eq_true, decide_eq_true_eq, not_exists, not_and]
  exact ⟨hne, hlen, hcount, hinfix _ (by decide) fun part hmem => (hpart part hmem).2.1,
    hinfix _ (by decide) fun part hmem => (hpart part hmem).2.2, hgit,
    fun part hmem => (hpart part hmem).1⟩

theorem validateHuggingFaceRevision_nil {revision : Bytes}
    (h : validateHuggingFaceRevision revision path = []) :
    revision ≠ [] ∧ revision.length ≤ 255 ∧ (0 : UInt8) ∉ revision := by
  unfold validateHuggingFaceRevision at h
  split at h
  · cases h
  rename_i hne
  split at h
  · cases h
  rename_i hbad
  simp only [not_or, Nat.not_lt] at hbad
  refine ⟨hne, hbad.1, fun hnul => hbad.2.2.2 ?_⟩
  rw [List.any_eq_true]
  exact ⟨.char [0], Utf8.mem_pieces_of_ascii (by decide) hnul, rfl⟩

theorem validateHuggingFaceFiles_nil {index : Nat} {seen files : List Bytes}
    (h : validateHuggingFaceFiles path index seen files = []) :
    ∀ selector ∈ files, validateSelector selector = .ok () ∧ Utf8.Valid selector := by
  induction files generalizing index seen with
  | nil => simp
  | cons file files ih =>
    simp only [validateHuggingFaceFiles, List.append_eq_nil_iff, Option.toList_eq_nil_iff] at h
    obtain ⟨⟨-, hfile⟩, hrest⟩ := h
    rintro selector (_ | ⟨_, hmem⟩)
    · obtain ⟨hclean, ⟨-, hfalse⟩ | ⟨-, hsegments⟩⟩ := validateCleanRelativePath_none hfile
      · cases hfalse
      · exact ⟨validateSelector_of_segments hclean hsegments, hclean.utf8⟩
    · exact ih hrest selector hmem

theorem admittedHub_of_nil {rules : NameRules} {source : HuggingFaceSource}
    (h : validateHuggingFaceSource rules source path = []) : AdmittedHub source := by
  simp only [validateHuggingFaceSource, List.append_eq_nil_iff] at h
  obtain ⟨⟨⟨⟨⟨hrepository, hrevision⟩, hne⟩, hlen⟩, hfiles⟩, -⟩ := h
  obtain ⟨hrevision_ne, hrevision_le, hrevision_nul⟩ := validateHuggingFaceRevision_nil hrevision
  refine ⟨validateRepository_of_webhook hrepository, hrevision_ne, hrevision_le, hrevision_nul, ?_,
    ?_, validateHuggingFaceFiles_nil hfiles⟩
  · intro hnil
    rw [if_pos hnil] at hne
    cases hne
  · by_contra hlong
    rw [if_pos (Nat.lt_of_not_le hlong)] at hlen
    cases hlen

/-- What admission says about a source on a claim. -/
structure AdmittedPVC (source : PersistentVolumeClaimSource) : Prop where
  rootPath_ne : source.rootPath ≠ []
  utf8 : Utf8.Valid source.rootPath
  rootPath : source.rootPath = ascii "." ∨ validateRelativePath source.rootPath = .ok ()

theorem admittedPVC_of_nil {rules : NameRules} {source : PersistentVolumeClaimSource}
    (h : validatePVCSource rules source path = []) : AdmittedPVC source := by
  simp only [validatePVCSource, List.append_eq_nil_iff, Option.toList_eq_nil_iff] at h
  obtain ⟨hclean, ⟨hdot, -⟩ | ⟨hdot, hsegments⟩⟩ := validateCleanRelativePath_none h.1.2
  · exact ⟨hclean.ne_nil, hclean.utf8, .inl hdot⟩
  · exact ⟨hclean.ne_nil, hclean.utf8,
      .inr (validateRelativePath_of_segments hclean hdot hsegments)⟩

/-- What admission says about a spec. -/
structure Admitted (spec : ModelArtifactSpec) : Prop where
  format : spec.format = formatGGUF
  entrypoint : validateRelativePath spec.entrypoint = .ok ()
  entrypoint_utf8 : Utf8.Valid spec.entrypoint
  one : spec.source.huggingFace.isSome ≠ spec.source.persistentVolumeClaim.isSome
  hub : ∀ source, spec.source.huggingFace = some source → AdmittedHub source
  pvc : ∀ source, spec.source.persistentVolumeClaim = some source → AdmittedPVC source
  sha256 : spec.verification.expectedSHA256 = [] ∨
    spec.verification.expectedSHA256.length = 64 ∧ spec.verification.expectedSHA256.all isHex = true
  size : ∀ size, spec.verification.expectedSize = some size → 0 < size

theorem validateEntrypoint_nil {entrypoint : Bytes} (h : validateEntrypoint entrypoint path = []) :
    validateRelativePath entrypoint = .ok () ∧ Utf8.Valid entrypoint := by
  unfold validateEntrypoint at h
  split at h
  · cases h
  · rename_i hpath
    obtain ⟨hclean, ⟨-, hfalse⟩ | ⟨hdot, hsegments⟩⟩ := validateCleanRelativePath_none hpath
    · cases hfalse
    · exact ⟨validateRelativePath_of_segments hclean hdot hsegments, hclean.utf8⟩

theorem validateVerification_nil {v : ModelArtifactVerificationSpec}
    (h : validateVerification v = []) :
    (v.expectedSHA256 = [] ∨ v.expectedSHA256.length = 64 ∧ v.expectedSHA256.all isHex = true) ∧
      ∀ size, v.expectedSize = some size → 0 < size := by
  simp only [validateVerification, List.append_eq_nil_iff] at h
  obtain ⟨hsha, hsize⟩ := h
  constructor
  · by_contra hbad
    rw [if_pos (by simp only [not_or, not_and, Bool.not_eq_true] at hbad; exact ⟨hbad.1,
      by tauto⟩)] at hsha
    cases hsha
  · intro size heq
    by_contra hle
    rw [heq, Option.filter_some, if_pos (by simpa using hle)] at hsize
    cases hsize

/-- **An artifact without errors is admitted.** -/
theorem admitted_of_nil {rules : NameRules} {a : ModelArtifact} {old : Option ModelArtifact}
    (h : validateModelArtifact rules a old = []) : Admitted a.spec := by
  simp only [validateModelArtifact, List.append_eq_nil_iff] at h
  obtain ⟨⟨⟨⟨hformat, hentry⟩, hsource⟩, hverification⟩, -⟩ := h
  simp only [validateSource, List.append_eq_nil_iff] at hsource
  obtain ⟨⟨⟨hone, -⟩, hhub⟩, hpvc⟩ := hsource
  obtain ⟨hpath, hutf8⟩ := validateEntrypoint_nil hentry
  obtain ⟨hsha, hsize⟩ := validateVerification_nil hverification
  refine ⟨?_, hpath, hutf8, ?_, fun source heq => ?_, fun source heq => ?_, hsha, hsize⟩
  · by_contra hne
    rw [if_pos hne] at hformat
    cases hformat
  · intro heq
    rw [if_pos heq] at hone
    cases hone
  · rw [heq] at hhub
    exact admittedHub_of_nil (List.append_eq_nil_iff.1 hhub).1
  · rw [heq] at hpvc
    exact admittedPVC_of_nil (List.append_eq_nil_iff.1 hpvc).1

end Kama.Controller
