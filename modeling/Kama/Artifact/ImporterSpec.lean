import Kama.Foundations.PathMatch
import Kama.Foundations.JsonStable
import Kama.Foundations.Reader
import Kama.Artifact.Selection

/-!
# Importer specs

The `Spec` of `types.go` is the input of an importer Job: one JSON value that the controller writes
into a ConfigMap and `DecodeSpec` of `importer.go` reads.

* `Spec.encode` is `json.Marshal`, `decodeSpec` reads at most `maxSpecBytes + 1` bytes of it and
  checks the mode union with `validateSpec`.
* `decodeSpec_encode`: a valid spec is read back exactly when its encoding fits and its strings are
  valid UTF-8.
* `checkHub` are the checks that `Resolve` of `hub.go` makes before it asks the Hub.
-/

namespace Kama.Artifact

open Bytes Json Reader

def modeUnknown : Bytes := ascii "unknown"
def modeHub : Bytes := ascii "hub"
def modeCopy : Bytes := ascii "copy"
def modeDirect : Bytes := ascii "direct"
def modeProbe : Bytes := ascii "probe"
def modeCleanup : Bytes := ascii "cleanup"

def maxSpecBytes : Nat := 128 * 1024

structure HubSpec where
  repository : Bytes
  revision : Bytes
  fileSelectors : List Bytes
  tokenFile : Bytes
  deriving DecidableEq

structure PVCSpec where
  mountRoot : Bytes
  rootPath : Bytes
  selectedFiles : List Bytes
  deriving DecidableEq

structure ProbeSpec where
  root : Bytes
  deriving DecidableEq

structure CleanupSpec where
  operationPrefix : Bytes
  deriving DecidableEq

structure HTTPClientOptions where
  timeout : Int64
  maxRedirects : Int64
  allowHTTP : Bool
  userAgent : Bytes
  maxResponseBytes : Int64
  deriving DecidableEq

structure Spec where
  schemaVersion : Int64
  mode : Bytes
  operationID : Bytes
  format : Bytes
  entrypoint : Bytes
  expectedSHA256 : Bytes
  expectedSize : Option Int64
  cacheRoot : Bytes
  hubEndpoint : Bytes
  hub : Option HubSpec
  pvc : Option PVCSpec
  probe : Option ProbeSpec
  cleanup : Option CleanupSpec
  http : HTTPClientOptions
  deriving DecidableEq

/-! ## Encoding -/

def HubSpec.members (h : HubSpec) : List (Bytes × Json) :=
  [(ascii "repository", .str h.repository)] ++ [(ascii "revision", .str h.revision)] ++
    [(ascii "fileSelectors", strings h.fileSelectors)] ++ omitString "tokenFile" h.tokenFile

def PVCSpec.members (p : PVCSpec) : List (Bytes × Json) :=
  [(ascii "mountRoot", .str p.mountRoot)] ++ omitString "rootPath" p.rootPath ++
    omitempty (p.selectedFiles = []) (ascii "selectedFiles") (strings p.selectedFiles)

def ProbeSpec.members (p : ProbeSpec) : List (Bytes × Json) := [(ascii "root", .str p.root)]

def CleanupSpec.members (c : CleanupSpec) : List (Bytes × Json) :=
  [(ascii "operationPrefix", .str c.operationPrefix)]

def HTTPClientOptions.members (h : HTTPClientOptions) : List (Bytes × Json) :=
  omitInt "timeout" h.timeout ++ omitInt "maxRedirects" h.maxRedirects ++
    omitempty (h.allowHTTP = false) (ascii "allowHTTP") (.bool h.allowHTTP) ++
    omitString "userAgent" h.userAgent ++ omitInt "maxResponseBytes" h.maxResponseBytes

def Spec.members (s : Spec) : List (Bytes × Json) :=
  [(ascii "schemaVersion", intJson s.schemaVersion)] ++ [(ascii "mode", .str s.mode)] ++
    omitString "operationID" s.operationID ++ omitString "format" s.format ++
    omitString "entrypoint" s.entrypoint ++ omitString "expectedSHA256" s.expectedSHA256 ++
    optional (ascii "expectedSize") intJson s.expectedSize ++
    omitString "cacheRoot" s.cacheRoot ++ omitString "hubEndpoint" s.hubEndpoint ++
    optional (ascii "hub") (fun h => .obj h.members) s.hub ++
    optional (ascii "pvc") (fun p => .obj p.members) s.pvc ++
    optional (ascii "probe") (fun p => .obj p.members) s.probe ++
    optional (ascii "cleanup") (fun c => .obj c.members) s.cleanup ++
    -- `omitempty` says nothing for a structure
    [(ascii "http", .obj s.http.members)]

/-- `json.Marshal(spec)`. -/
def Spec.encode (s : Spec) : Bytes := Json.encode (.obj s.members)

def HubSpec.zero : HubSpec := ⟨[], [], [], []⟩

def HubSpec.fields : Fields HubSpec :=
  [(ascii "repository", setString fun b h => { h with repository := b }),
    (ascii "revision", setString fun b h => { h with revision := b }),
    (ascii "fileSelectors", setSlice decodeString fun l h => { h with fileSelectors := l }),
    (ascii "tokenFile", setString fun b h => { h with tokenFile := b })]

def PVCSpec.zero : PVCSpec := ⟨[], [], []⟩

def PVCSpec.fields : Fields PVCSpec :=
  [(ascii "mountRoot", setString fun b p => { p with mountRoot := b }),
    (ascii "rootPath", setString fun b p => { p with rootPath := b }),
    (ascii "selectedFiles", setSlice decodeString fun l p => { p with selectedFiles := l })]

def ProbeSpec.fields : Fields ProbeSpec := [(ascii "root", setString fun b _ => ⟨b⟩)]

def CleanupSpec.fields : Fields CleanupSpec :=
  [(ascii "operationPrefix", setString fun b _ => ⟨b⟩)]

def HTTPClientOptions.zero : HTTPClientOptions := ⟨0, 0, false, [], 0⟩

def HTTPClientOptions.fields : Fields HTTPClientOptions :=
  [(ascii "timeout", setInt fun i h => { h with timeout := Int64.ofInt i }),
    (ascii "maxRedirects", setInt fun i h => { h with maxRedirects := Int64.ofInt i }),
    (ascii "allowHTTP", setBool fun b h => { h with allowHTTP := b }),
    (ascii "userAgent", setString fun b h => { h with userAgent := b }),
    (ascii "maxResponseBytes", setInt fun i h => { h with maxResponseBytes := Int64.ofInt i })]

def Spec.zero : Spec :=
  ⟨0, [], [], [], [], [], none, [], [], none, none, none, none, HTTPClientOptions.zero⟩

def Spec.fields : Fields Spec :=
  [(ascii "schemaVersion", setInt fun i s => { s with schemaVersion := Int64.ofInt i }),
    (ascii "mode", setString fun b s => { s with mode := b }),
    (ascii "operationID", setString fun b s => { s with operationID := b }),
    (ascii "format", setString fun b s => { s with format := b }),
    (ascii "entrypoint", setString fun b s => { s with entrypoint := b }),
    (ascii "expectedSHA256", setString fun b s => { s with expectedSHA256 := b }),
    (ascii "expectedSize",
      setIntPointer fun i s => { s with expectedSize := i.map Int64.ofInt }),
    (ascii "cacheRoot", setString fun b s => { s with cacheRoot := b }),
    (ascii "hubEndpoint", setString fun b s => { s with hubEndpoint := b }),
    (ascii "hub", setPointer HubSpec.fields HubSpec.zero Spec.hub fun h s => { s with hub := h }),
    (ascii "pvc", setPointer PVCSpec.fields PVCSpec.zero Spec.pvc fun p s => { s with pvc := p }),
    (ascii "probe", setPointer ProbeSpec.fields ⟨[]⟩ Spec.probe fun p s => { s with probe := p }),
    (ascii "cleanup",
      setPointer CleanupSpec.fields ⟨[]⟩ Spec.cleanup fun c s => { s with cleanup := c }),
    (ascii "http",
      setStruct HTTPClientOptions.fields Spec.http fun h s => { s with http := h })]

/-! ## The encoding is read back -/

theorem HubSpec.assigns (h : HubSpec) : Assigns fields h.members zero h :=
  (((assigns_string rfl rfl).append (assigns_string rfl rfl)).append
    (assigns_strings rfl rfl)).append (assigns_omitString rfl rfl rfl)

theorem PVCSpec.assigns (p : PVCSpec) : Assigns fields p.members zero p :=
  ((assigns_string rfl rfl).append (assigns_omitString rfl rfl rfl)).append
    (assigns_omitStrings rfl rfl rfl)

theorem HTTPClientOptions.assigns (h : HTTPClientOptions) : Assigns fields h.members zero h := by
  have hallow : Assigns fields
      (omitempty (h.allowHTTP = false) (ascii "allowHTTP") (.bool h.allowHTTP))
      ⟨h.timeout, h.maxRedirects, false, [], 0⟩ ⟨h.timeout, h.maxRedirects, h.allowHTTP, [], 0⟩ :=
    Assigns.omitempty rfl rfl fun hfalse => by rw [hfalse]
  exact ((((assigns_omitInt (fun i h => { h with timeout := i }) rfl rfl rfl).append
    (assigns_omitInt (fun i h => { h with maxRedirects := i }) rfl rfl rfl)).append
    hallow).append (assigns_omitString rfl rfl rfl)).append
    (assigns_omitInt (fun i h => { h with maxResponseBytes := i }) rfl rfl rfl)

/-- **The encoding of a spec has all of it.** -/
theorem Spec.assigns (s : Spec) : Assigns fields s.members zero s := by
  have hsize : Assigns fields (optional (ascii "expectedSize") intJson s.expectedSize)
      ⟨s.schemaVersion, s.mode, s.operationID, s.format, s.entrypoint, s.expectedSHA256, none, [],
        [], none, none, none, none, HTTPClientOptions.zero⟩
      ⟨s.schemaVersion, s.mode, s.operationID, s.format, s.entrypoint, s.expectedSHA256,
        s.expectedSize, [], [], none, none, none, none, HTTPClientOptions.zero⟩ :=
    Assigns.optional rfl (fun h => by rw [h]) fun i hi => by
      simp [setIntPointer, intJson, parseInt64_toInt, hi]
  have hhttp : Assigns fields [(ascii "http", .obj s.http.members)]
      { s with http := HTTPClientOptions.zero } s :=
    Assigns.single rfl (congrArg (Option.map fun h => { s with http := h }) s.http.assigns)
  exact (((((((((((((assigns_int (fun i s => { s with schemaVersion := i }) rfl rfl).append
    (assigns_string rfl rfl)).append (assigns_omitString rfl rfl rfl)).append
    (assigns_omitString rfl rfl rfl)).append (assigns_omitString rfl rfl rfl)).append
    (assigns_omitString rfl rfl rfl)).append hsize).append
    (assigns_omitString rfl rfl rfl)).append (assigns_omitString rfl rfl rfl)).append
    (assigns_pointer rfl rfl rfl HubSpec.assigns rfl)).append
    (assigns_pointer rfl rfl rfl PVCSpec.assigns rfl)).append
    (assigns_pointer rfl rfl rfl (fun p => assigns_string rfl rfl) rfl)).append
    (assigns_pointer rfl rfl rfl (fun c => assigns_string rfl rfl) rfl)).append hhttp

/-! ## Validation -/

def invalidSpec (op message : String) : Err := .failure .invalidSpec op (.new message)

/-- `strings.EqualFold(format, FormatGGUF)`. No letter outside ASCII folds to one of these. -/
def equalsGGUF (format : Bytes) : Bool := format.map toLower == formatGGUF.map toLower

/-- The part of `ValidateSpec` that the modes with an artifact share. -/
def validateArtifactSpec (spec : Spec) : Except Err Unit := do
  if equalsGGUF spec.format = false then
    throw (invalidSpec "validate artifact format" "format must be GGUF")
  (validateRelativePath spec.entrypoint).mapError
    (.failure .unsafePath "validate artifact entrypoint")
  if spec.operationID ≠ [] then validateOperationID spec.operationID
  match spec.pvc with
  | none => pure ()
  | some pvc =>
    if pvc.rootPath ≠ [] ∧ pvc.rootPath ≠ ascii "." then
      (validateRelativePath pvc.rootPath).mapError (.failure .unsafePath "validate PVC rootPath")
    if maxSelectedFiles < pvc.selectedFiles.length then
      throw (.failure .invalidSpec "validate PVC selected files"
        (.text "selected %d files, maximum is %d"
          [natDigits pvc.selectedFiles.length, natDigits maxSelectedFiles]))

/-- The artifact fields are not for probes and cleanups. -/
def hasArtifactFields (spec : Spec) : Bool :=
  decide (spec.format ≠ [] ∨ spec.entrypoint ≠ [] ∨ spec.expectedSHA256 ≠ [] ∨
    spec.expectedSize ≠ none)

def validateSpec (spec : Spec) : Except Err Unit := do
  if spec.schemaVersion ≠ schemaVersion then
    throw (.failure .invalidSpec "validate importer spec"
      (.text "unsupported schemaVersion %d" [decimal spec.schemaVersion.toInt]))
  if spec.expectedSize.any (· ≤ 0) then
    throw (invalidSpec "validate expected size" "expectedSize must be greater than zero")
  if spec.expectedSHA256 ≠ [] ∧ validSHA256 spec.expectedSHA256 = false then
    throw (invalidSpec "validate expected digest"
      "expectedSHA256 must be 64 lowercase hexadecimal characters")
  if spec.mode = modeHub then
    match spec.hub with
    | none => throw (invalidSpec "validate source union" "hub mode requires only hub configuration")
    | some hub =>
      if spec.pvc ≠ none ∨ spec.probe ≠ none ∨ spec.cleanup ≠ none then
        throw (invalidSpec "validate source union" "hub mode requires only hub configuration")
      if spec.cacheRoot = [] ∨ spec.operationID = [] then
        throw (invalidSpec "validate Hub import" "cacheRoot and operationID are required")
      if hub.repository = [] ∨ hub.revision = [] ∨ hub.fileSelectors = [] then
        throw (invalidSpec "validate Hub import"
          "repository, revision, and fileSelectors are required")
      validateArtifactSpec spec
  else if spec.mode = modeCopy then
    match spec.pvc with
    | none =>
      throw (invalidSpec "validate source union" "copy mode requires only PVC configuration")
    | some pvc =>
      if spec.hub ≠ none ∨ spec.probe ≠ none ∨ spec.cleanup ≠ none then
        throw (invalidSpec "validate source union" "copy mode requires only PVC configuration")
      if spec.cacheRoot = [] ∨ spec.operationID = [] ∨ pvc.mountRoot = [] then
        throw (invalidSpec "validate PVC copy"
          "cacheRoot, operationID, and PVC mountRoot are required")
      validateArtifactSpec spec
  else if spec.mode = modeDirect then
    match spec.pvc with
    | none =>
      throw (invalidSpec "validate source union" "direct mode requires only PVC configuration")
    | some pvc =>
      if spec.hub ≠ none ∨ spec.probe ≠ none ∨ spec.cleanup ≠ none then
        throw (invalidSpec "validate source union" "direct mode requires only PVC configuration")
      if spec.cacheRoot ≠ [] ∨ pvc.mountRoot = [] then
        throw (invalidSpec "validate direct PVC"
          "PVC mountRoot is required and cacheRoot is forbidden")
      validateArtifactSpec spec
  else if spec.mode = modeProbe then
    match spec.probe with
    | none =>
      throw (invalidSpec "validate source union" "probe mode requires only probe configuration")
    | some probe =>
      if spec.hub ≠ none ∨ spec.pvc ≠ none ∨ spec.cleanup ≠ none then
        throw (invalidSpec "validate source union" "probe mode requires only probe configuration")
      if probe.root = [] ∨ spec.cacheRoot ≠ [] then
        throw (invalidSpec "validate filesystem probe"
          "probe root is required and cacheRoot is forbidden")
      if hasArtifactFields spec then
        throw (invalidSpec "validate filesystem probe"
          "artifact fields are forbidden in probe mode")
  else if spec.mode = modeCleanup then
    match spec.cleanup with
    | none =>
      throw (invalidSpec "validate source union" "cleanup mode requires only cleanup configuration")
    | some cleanup =>
      if spec.hub ≠ none ∨ spec.pvc ≠ none ∨ spec.probe ≠ none then
        throw (invalidSpec "validate source union"
          "cleanup mode requires only cleanup configuration")
      if spec.cacheRoot = [] ∨ cleanup.operationPrefix = [] then
        throw (invalidSpec "validate artifact cleanup" "cacheRoot and operationPrefix are required")
      if hasArtifactFields spec then
        throw (invalidSpec "validate artifact cleanup"
          "artifact fields are forbidden in cleanup mode")
      validateOperationPrefix cleanup.operationPrefix
  else
    throw (.failure .invalidSpec "validate importer mode" (.text "unsupported mode %q" [spec.mode]))

/-- `DecodeSpec`, on the content of the file. -/
def decodeSpec (payload : Bytes) : Except Err Spec :=
  match decodeDocument Spec.fields Spec.zero (payload.take (maxSpecBytes + 1)) with
  | .error .decode => .error (invalidSpec "decode importer spec" "invalid JSON")
  | .error .trailing =>
    .error (invalidSpec "decode importer spec" "spec contains multiple JSON values")
  | .ok spec => do
    validateSpec spec
    pure spec

/-- The strings of a spec. -/
def Spec.texts (s : Spec) : List Bytes :=
  [s.mode, s.operationID, s.format, s.entrypoint, s.expectedSHA256, s.cacheRoot, s.hubEndpoint,
    s.http.userAgent] ++
    (match s.hub with
      | none => []
      | some h => [h.repository, h.revision, h.tokenFile] ++ h.fileSelectors) ++
    (match s.pvc with
      | none => []
      | some p => [p.mountRoot, p.rootPath] ++ p.selectedFiles) ++
    (s.probe.map ProbeSpec.root).toList ++ (s.cleanup.map CleanupSpec.operationPrefix).toList

/-- The strings of the spec are valid UTF-8. -/
def Spec.Utf8 (s : Spec) : Prop := ∀ b ∈ s.texts, Utf8.Valid b

theorem sound_omitString {name : String} {b : Bytes} (hname : Utf8.Valid (ascii name))
    (hb : Utf8.Valid b) : SoundMembers (omitString name b) :=
  soundMembers_omitempty hname hb

theorem sound_omitInt {name : String} (hname : Utf8.Valid (ascii name)) (i : Int64) :
    SoundMembers (omitInt name i) :=
  soundMembers_omitempty hname ⟨_, rfl⟩

theorem HubSpec.sound {h : HubSpec} (hrepository : Utf8.Valid h.repository)
    (hrevision : Utf8.Valid h.revision) (hselectors : ∀ b ∈ h.fileSelectors, Utf8.Valid b)
    (htoken : Utf8.Valid h.tokenFile) : Sound (.obj h.members) :=
  soundMembers_append (soundMembers_append (soundMembers_append
    ⟨by decide, hrepository, trivial⟩ ⟨by decide, hrevision, trivial⟩)
    ⟨by decide, sound_strings hselectors, trivial⟩) (sound_omitString (by decide) htoken)

theorem PVCSpec.sound {p : PVCSpec} (hmount : Utf8.Valid p.mountRoot)
    (hroot : Utf8.Valid p.rootPath) (hfiles : ∀ b ∈ p.selectedFiles, Utf8.Valid b) :
    Sound (.obj p.members) :=
  soundMembers_append (soundMembers_append ⟨by decide, hmount, trivial⟩
    (sound_omitString (by decide) hroot))
    (soundMembers_omitempty (by decide) (sound_strings hfiles))

theorem HTTPClientOptions.sound {h : HTTPClientOptions} (huser : Utf8.Valid h.userAgent) :
    Sound (.obj h.members) :=
  soundMembers_append (soundMembers_append (soundMembers_append (soundMembers_append
    (sound_omitInt (by decide) _) (sound_omitInt (by decide) _))
    (soundMembers_omitempty (by decide) trivial)) (sound_omitString (by decide) huser))
    (sound_omitInt (by decide) _)

theorem Spec.sound {s : Spec} (h : s.Utf8) : Sound (.obj s.members) := by
  obtain ⟨schemaVersion, mode, operationID, format, entrypoint, expectedSHA256, expectedSize,
    cacheRoot, hubEndpoint, hub, pvc, probe, cleanup, http⟩ := s
  simp only [Utf8, texts, List.mem_append, List.mem_cons, List.not_mem_nil, or_false,
    Option.mem_toList, Option.map_eq_some_iff] at h
  have hhub : ∀ a, hub = some a → Sound (.obj a.members) := by
    rintro a rfl
    exact HubSpec.sound (h _ (by simp)) (h _ (by simp)) (fun b hb => h _ (by simp [hb]))
      (h _ (by simp))
  have hpvc : ∀ a, pvc = some a → Sound (.obj a.members) := by
    rintro a rfl
    exact PVCSpec.sound (h _ (by simp)) (h _ (by simp)) fun b hb => h _ (by simp [hb])
  have hprobe : ∀ a, probe = some a → Sound (.obj a.members) := by
    rintro a rfl
    exact ⟨by decide, h _ (by simp), trivial⟩
  have hcleanup : ∀ a, cleanup = some a → Sound (.obj a.members) := by
    rintro a rfl
    exact ⟨by decide, h _ (by simp), trivial⟩
  have hhttp : Sound (.obj http.members) := HTTPClientOptions.sound (h _ (by simp))
  unfold members
  refine soundMembers_append (soundMembers_append (soundMembers_append (soundMembers_append
    (soundMembers_append (soundMembers_append (soundMembers_append (soundMembers_append
    (soundMembers_append (soundMembers_append (soundMembers_append (soundMembers_append
    (soundMembers_append ⟨by decide, ⟨_, rfl⟩, trivial⟩ ⟨by decide, h _ (by simp), trivial⟩)
    ?_) ?_) ?_) ?_) ?_) ?_) ?_) (soundMembers_optional (by decide) hhub))
    (soundMembers_optional (by decide) hpvc)) (soundMembers_optional (by decide) hprobe))
    (soundMembers_optional (by decide) hcleanup)) ⟨by decide, hhttp, trivial⟩
  case refine_5 => exact soundMembers_optional (by decide) fun i _ => ⟨_, rfl⟩
  all_goals exact sound_omitString (by decide) (h _ (by simp))

/-! ### Invalid bytes -/

def HubSpec.replaced (h : HubSpec) : HubSpec :=
  ⟨Utf8.toValid h.repository, Utf8.toValid h.revision, h.fileSelectors.map Utf8.toValid,
    Utf8.toValid h.tokenFile⟩

def PVCSpec.replaced (p : PVCSpec) : PVCSpec :=
  ⟨Utf8.toValid p.mountRoot, Utf8.toValid p.rootPath, p.selectedFiles.map Utf8.toValid⟩

/-- The spec with the invalid bytes of its strings replaced. -/
def Spec.replaced (s : Spec) : Spec where
  schemaVersion := s.schemaVersion
  mode := Utf8.toValid s.mode
  operationID := Utf8.toValid s.operationID
  format := Utf8.toValid s.format
  entrypoint := Utf8.toValid s.entrypoint
  expectedSHA256 := Utf8.toValid s.expectedSHA256
  expectedSize := s.expectedSize
  cacheRoot := Utf8.toValid s.cacheRoot
  hubEndpoint := Utf8.toValid s.hubEndpoint
  hub := s.hub.map HubSpec.replaced
  pvc := s.pvc.map PVCSpec.replaced
  probe := s.probe.map fun p => ⟨Utf8.toValid p.root⟩
  cleanup := s.cleanup.map fun c => ⟨Utf8.toValid c.operationPrefix⟩
  http := { s.http with userAgent := Utf8.toValid s.http.userAgent }

theorem cleanMembers_omitString {name : String} (hname : Utf8.Valid (ascii name)) (b : Bytes) :
    cleanMembers (omitString name b) = omitString name (Utf8.toValid b) :=
  cleanMembers_omitempty hname Utf8.toValid_eq_nil_iff.symm _

theorem cleanMembers_omitInt {name : String} (hname : Utf8.Valid (ascii name)) (i : Int64) :
    cleanMembers (omitInt name i) = omitInt name i :=
  cleanMembers_omitempty hname Iff.rfl _

theorem HubSpec.clean_members (h : HubSpec) : cleanMembers h.members = h.replaced.members := by
  unfold members
  rw [cleanMembers_append, cleanMembers_append, cleanMembers_append,
    cleanMembers_single (by decide), cleanMembers_single (by decide),
    cleanMembers_single (by decide), cleanMembers_omitString (by decide), clean_strings]
  rfl

theorem PVCSpec.clean_members (p : PVCSpec) : cleanMembers p.members = p.replaced.members := by
  have hfiles : p.selectedFiles = [] ↔ p.replaced.selectedFiles = [] := List.map_eq_nil_iff.symm
  unfold members
  rw [cleanMembers_append, cleanMembers_append, cleanMembers_single (by decide),
    cleanMembers_omitString (by decide), cleanMembers_omitempty (by decide) hfiles, clean_strings]
  rfl

theorem HTTPClientOptions.clean_members (h : HTTPClientOptions) :
    cleanMembers h.members = members { h with userAgent := Utf8.toValid h.userAgent } := by
  unfold members
  rw [cleanMembers_append, cleanMembers_append, cleanMembers_append, cleanMembers_append,
    cleanMembers_omitInt (by decide), cleanMembers_omitInt (by decide),
    cleanMembers_omitInt (by decide), cleanMembers_omitString (by decide),
    cleanMembers_omitempty (by decide) Iff.rfl]
  rfl

/-- Replacing in the encoding is replacing in the spec. -/
theorem Spec.clean_members (s : Spec) : cleanMembers s.members = s.replaced.members := by
  have hhub := cleanMembers_optional (fun h : HubSpec => .obj h.members)
    (show Utf8.Valid (ascii "hub") by decide) (fun h => congrArg Json.obj h.clean_members) s.hub
  have hpvc := cleanMembers_optional (fun p : PVCSpec => .obj p.members)
    (show Utf8.Valid (ascii "pvc") by decide) (fun p => congrArg Json.obj p.clean_members) s.pvc
  have hprobe := cleanMembers_optional (fun p : ProbeSpec => .obj p.members)
    (f := fun p => ⟨Utf8.toValid p.root⟩) (show Utf8.Valid (ascii "probe") by decide)
    (fun p => congrArg Json.obj (cleanMembers_single (by decide) _)) s.probe
  have hcleanup := cleanMembers_optional (fun c : CleanupSpec => .obj c.members)
    (f := fun c => ⟨Utf8.toValid c.operationPrefix⟩) (show Utf8.Valid (ascii "cleanup") by decide)
    (fun c => congrArg Json.obj (cleanMembers_single (by decide) _)) s.cleanup
  have hsize := cleanMembers_optional intJson (f := id)
    (show Utf8.Valid (ascii "expectedSize") by decide) (fun _ => rfl) s.expectedSize
  have hhttp : cleanMembers [(ascii "http", .obj s.http.members)] =
      [(ascii "http", .obj s.replaced.http.members)] := by
    rw [cleanMembers_single (by decide), Json.clean, s.http.clean_members]
    rfl
  unfold members
  simp only [cleanMembers_append]
  rw [cleanMembers_single (by decide), cleanMembers_single (by decide),
    cleanMembers_omitString (by decide), cleanMembers_omitString (by decide),
    cleanMembers_omitString (by decide), cleanMembers_omitString (by decide), hsize,
    cleanMembers_omitString (by decide), cleanMembers_omitString (by decide), hhub, hpvc, hprobe,
    hcleanup, hhttp, Option.map_id]
  rfl

theorem Spec.texts_replaced (s : Spec) : s.replaced.texts = s.texts.map Utf8.toValid := by
  have hlist : ∀ o : Option Bytes, o.toList.map Utf8.toValid = (o.map Utf8.toValid).toList := by
    rintro (_ | b) <;> rfl
  cases hhub : s.hub <;> cases hpvc : s.pvc <;>
    simp [texts, replaced, hhub, hpvc, HubSpec.replaced, PVCSpec.replaced, hlist,
      Function.comp_def]

theorem Spec.utf8_replaced (s : Spec) : s.replaced.Utf8 := by
  intro b hb
  rw [texts_replaced] at hb
  obtain ⟨c, -, rfl⟩ := List.mem_map.1 hb
  exact Utf8.valid_toValid c

/-- Nothing is replaced in text. -/
theorem Spec.replaced_eq_iff {s : Spec} : s.replaced = s ↔ s.Utf8 := by
  refine ⟨fun h => h ▸ s.utf8_replaced, fun h => ?_⟩
  have hmembers : s.replaced.members = s.members := by
    rw [← s.clean_members]
    exact Json.obj.inj (Spec.sound h).clean
  have hassigns := s.replaced.assigns
  rw [hmembers] at hassigns
  exact Option.some.inj (hassigns.symm.trans s.assigns)

theorem Spec.literal (s : Spec) : Literal (.obj s.members) := by
  refine literal_of_clean ?_
  rw [Json.clean, s.clean_members]
  exact (Spec.sound s.utf8_replaced).literal

/-- What is read back from an encoding that is read to its end. -/
theorem decodeDocument_encode_spec (s : Spec) :
    decodeDocument Spec.fields Spec.zero s.encode = .ok s.replaced := by
  refine decodeDocument_encode_clean s.literal ?_
  rw [Json.clean, s.clean_members]
  exact s.replaced.assigns

/-- **A valid spec is read back exactly when its encoding fits and its strings are text.** -/
theorem decodeSpec_encode {s : Spec} (hvalid : validateSpec s = .ok ()) :
    decodeSpec s.encode = .ok s ↔ s.encode.length ≤ maxSpecBytes + 1 ∧ s.Utf8 := by
  unfold decodeSpec
  by_cases hlength : s.encode.length ≤ maxSpecBytes + 1
  · rw [List.take_of_length_le hlength, decodeDocument_encode_spec, and_iff_right hlength,
      ← Spec.replaced_eq_iff]
    constructor
    · intro h
      obtain ⟨_, -, h⟩ := except_bind_eq_ok.1 h
      exact Except.ok.inj h
    · intro h
      rw [h]
      exact except_bind_eq_ok.2 ⟨(), hvalid, rfl⟩
  · have hparse : parse (s.encode.take (maxSpecBytes + 1)) = none :=
      parse_truncated s.literal (Nat.lt_of_not_le hlength)
    simp only [decodeDocument, hparse]
    constructor
    · intro h
      cases h
    · intro h
      exact absurd h.1 hlength

/-! ## The checks of `Resolve` -/

def isRepositoryByte (b : UInt8) : Bool := isAlphanumeric b || b == 95

/-- `^[A-Za-z0-9_](?:[A-Za-z0-9._-]*[A-Za-z0-9_])?$`, for repositories in `hub.go` and in the
webhook. -/
def repositoryPart (s : Bytes) : Bool :=
  s.all (fun b => isRepositoryByte b || b == 46 || b == 45) &&
    s.head?.any isRepositoryByte && s.getLast?.any isRepositoryByte

/-- `strings.HasSuffix(strings.ToLower(repository), ".git")`. -/
def endsWithGit (repository : Bytes) : Bool :=
  decide (ascii ".git" <:+ repository.map toLower)

def validateRepository (repository : Bytes) : Except Err Unit :=
  let parts := splitSlash repository
  if repository = [] ∨ 96 < repository.length ∨ 2 < parts.length ∨
      ascii "--" <:+: repository ∨ ascii ".." <:+: repository ∨ endsWithGit repository = true ∨
      parts.any (fun part => repositoryPart part = false) then
    .error (invalidSpec "validate Hub repository"
      "repository must be repo_name or namespace/repo_name using Hugging Face repo_id syntax")
  else .ok ()

def validateSelector (selector : Bytes) : Except Err Unit :=
  if selector = [] ∨ selector.head? = some 47 ∨ 92 ∈ selector ∨ 0 ∈ selector then
    .error (.failure .unsafePath "validate Hub selector"
      (.new "selector must be a relative POSIX pattern"))
  else if (splitSlash selector).any fun part =>
      part = [] ∨ part = ascii "." ∨ part = ascii ".." then
    .error (.failure .unsafePath "validate Hub selector"
      (.new "selector contains an unsafe path component"))
  else
    match PathMatch.pathMatch selector (ascii "probe") with
    | none => .error (invalidSpec "validate Hub selector" "selector syntax is invalid")
    | some _ => .ok ()

def validateSelectors : List Bytes → Except Err Unit
  | [] => .ok ()
  | selector :: selectors => do
    validateSelector selector
    validateSelectors selectors

/-- What `Resolve` checks before it asks the Hub. -/
def checkHub (repository revision entrypoint : Bytes) (selectors : List Bytes) :
    Except Err Unit := do
  validateRepository repository
  if revision = [] ∨ 255 < revision.length ∨ 0 ∈ revision then
    throw (invalidSpec "validate Hub revision" "revision must contain 1-255 characters")
  (validateRelativePath entrypoint).mapError (.failure .unsafePath "validate Hub entrypoint")
  if selectors = [] then
    throw (invalidSpec "validate Hub selectors" "at least one file selector is required")
  if maxSelectedFiles < selectors.length then
    throw (.failure .invalidSpec "validate Hub selectors"
      (.text "selector count exceeds %d" [natDigits maxSelectedFiles]))
  validateSelectors selectors

end Kama.Artifact
