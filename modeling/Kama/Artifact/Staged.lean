import Kama.Artifact.Accepted
import Kama.Artifact.Result
import Kama.Artifact.Visibility

/-!
# Staged files and the digest that identifies them

`validateStaged` of `importer.go` hashes the selected files of a directory into a manifest
(`buildManifest`), parses them, and compares the manifest with what the spec expects. The digest
of such an artifact is the digest of its only file, or the digest of its canonical manifest.

* `hashFiles_ok`, `readDocuments_ok`: what was hashed and parsed is what the directory holds.
* `Accepted t base m`: the manifest and the directory after a successful `validateStaged`
  (`validateStaged_ok`).
* `Accepted.eq_of_artifact_eq`: two such manifests with one digest are equal, and so are the files.
  A file and a canonical manifest are never hashed from the same bytes, as a file starts with the
  magic of GGUF and a manifest with a brace.
-/

namespace Kama.Artifact

open Bytes FileTree Program Json Reader

namespace Storage

/-! ## Building a manifest -/

/-- The directory below the root; both `""` and `"."` are the root itself. -/
def sourceBase (rootPath : Bytes) : Path :=
  if rootPath = [] ∨ rootPath = ascii "." then [] else splitSlash rootPath

def validateRootPath (rootPath : Bytes) : Except Err Unit :=
  if rootPath = [] ∨ rootPath = ascii "." then .ok ()
  else (validateRelativePath rootPath).mapError (.failure .unsafePath "validate source root path")

/-- The loop of `BuildManifest`. -/
def hashFiles (base : Path) : List Bytes → CacheProg (List FileRecord)
  | [] => pure []
  | relativePath :: selected => do
    let content ← readRegular (filePath base relativePath)
    let record ← ofResult (hashFile relativePath content)
    let records ← hashFiles base selected
    pure (record :: records)

def validateFormat (format : Bytes) : Except Err Unit :=
  if equalsGGUF format then .ok ()
  else .error (.failure .invalidSpec "validate format" (.text "unsupported format %q" [format]))

/-- The part of `BuildManifest` after the selection has been normalized. -/
def buildNormalized (rootPath format entrypoint : Bytes) (selected : List Bytes) :
    CacheProg Manifest := do
  ofResult (validateFormat format)
  ofResult (validateRootPath rootPath)
  let files ← hashFiles (sourceBase rootPath) selected
  pure ⟨schemaVersion, formatGGUF, entrypoint, files⟩

/-- `BuildManifest`, with the order in which it goes through its map. -/
def buildManifestIn (order : Iteration) (rootPath format entrypoint : Bytes)
    (selected : List Bytes) : CacheProg Manifest := do
  let selected ← ofResult (normalizeSelectedFilesIn order entrypoint selected)
  buildNormalized rootPath format entrypoint selected

def buildManifest (rootPath format entrypoint : Bytes) (selected : List Bytes) :
    CacheProg Manifest :=
  buildManifestIn .listed rootPath format entrypoint selected

def validateStaged (spec : Spec) (rootPath : Bytes) (selected : List Bytes) :
    CacheProg (Manifest × Gguf.Metadata) := do
  let manifest ← buildManifest rootPath spec.format spec.entrypoint selected
  let metadata ← validateGGUFSet (sourceBase rootPath) manifest
  ofResult (verifyExpectations manifest spec.expectedSHA256 spec.expectedSize)
  pure (manifest, metadata)

/-! ## What was read -/

section Looking

open FsOp

variable {t : Cache} {base : Path}

theorem calls_hashFiles (selected : List Bytes) : Calls FsOp.Reads (hashFiles base selected) := by
  induction selected with
  | nil => exact Calls.pure _
  | cons name selected ih =>
    refine Calls.bind (calls_readRegular (fun _ => id) _) fun _ => Calls.bind trivial fun _ => ?_
    exact Calls.bind ih fun _ => Calls.pure _

theorem calls_buildManifest (rootPath format entrypoint : Bytes) (selected : List Bytes) :
    Calls FsOp.Reads (buildManifest rootPath format entrypoint selected) := by
  refine Calls.bind trivial fun _ => Calls.bind trivial fun _ => Calls.bind trivial fun _ => ?_
  exact Calls.bind (calls_hashFiles _) fun _ => Calls.pure _

theorem readRegular_ok {p : Path} {content : Bytes} (h : look (readRegular p) t = .ok content) :
    t.get p = some (.file content) := by
  unfold readRegular at h
  obtain ⟨_, -, h⟩ := look_bind_ok h trivial
  obtain ⟨answer, hanswer, h⟩ := look_bind_ok h ⟨trivial, fun _ => trivial⟩
  obtain ⟨found, hfound, h⟩ := look_bind_ok h trivial
  have hread : readNode t p = .ok found := by
    rw [← mapError_eq_ok.1 hfound]
    exact Except.ok.inj hanswer
  cases found with
  | none => cases h
  | some content' =>
    obtain rfl : content' = content := Except.ok.inj h
    unfold readNode at hread
    split at hread
    · cases hread
    · cases hread
    · rename_i hget
      rw [hget, Option.some.inj (Except.ok.inj hread)]
    · cases hread

/-- The record of a file below `base`. -/
def Recorded (t : Cache) (base : Path) (r : FileRecord) : Prop :=
  ∃ content, t.get (filePath base r.path) = some (.file content) ∧
    r.size = Int64.ofNat content.length ∧ r.sha256 = hexSHA256 content

theorem hashFiles_ok {selected : List Bytes} {records : List FileRecord}
    (h : look (hashFiles base selected) t = .ok records) :
    records.map FileRecord.path = selected ∧ ∀ r ∈ records, Recorded t base r := by
  induction selected generalizing records with
  | nil =>
    obtain rfl : [] = records := Except.ok.inj h
    simp
  | cons name selected ih =>
    unfold hashFiles at h
    obtain ⟨content, hcontent, h⟩ := look_bind_ok h (calls_readRegular (fun _ => id) _)
    obtain ⟨record, hrecord, h⟩ := look_bind_ok h trivial
    obtain ⟨rest, hrest, h⟩ := look_bind_ok h (calls_hashFiles _)
    obtain rfl : record :: rest = records := Except.ok.inj h
    obtain ⟨_, -, hrecord⟩ := except_bind_eq_ok.1 hrecord
    obtain rfl := Except.ok.inj hrecord
    obtain ⟨hpaths, hall⟩ := ih hrest
    refine ⟨by rw [List.map_cons, hpaths], List.forall_mem_cons.2 ⟨?_, hall⟩⟩
    exact ⟨content, readRegular_ok hcontent, rfl, rfl⟩

theorem readDocuments_ok {records : List FileRecord} {documents : List (Bytes × Gguf.Document)}
    (h : look (readDocuments base records) t = .ok documents) {r : FileRecord} (hr : r ∈ records) :
    ∃ content document, t.get (filePath base r.path) = some (.file content) ∧
      Gguf.parseGGUF content = .ok document := by
  induction records generalizing documents with
  | nil => cases hr
  | cons record records ih =>
    unfold readDocuments at h
    obtain ⟨content, hcontent, h⟩ := look_bind_ok h (calls_readRegular (fun _ => id) _)
    obtain ⟨document, hdocument, h⟩ := look_bind_ok h trivial
    obtain ⟨rest, hrest, -⟩ := look_bind_ok h (calls_readDocuments (fun _ => id) _ _)
    rcases List.mem_cons.1 hr with rfl | hr
    · exact ⟨content, document, readRegular_ok hcontent, mapError_eq_ok.1 hdocument⟩
    · exact ih hrest hr

/-- A directory that `validateStaged` has accepted, with its manifest. -/
structure Accepted (t : Cache) (base : Path) (m : Manifest) : Prop where
  valid : validateManifest m = .ok ()
  recorded : ∀ r ∈ m.files, Recorded t base r
  parsed : ∀ r ∈ m.files, ∃ content document,
    t.get (filePath base r.path) = some (.file content) ∧ Gguf.parseGGUF content = .ok document

theorem validateStaged_ok {spec : Spec} {rootPath : Bytes} {selected : List Bytes} {m : Manifest}
    {metadata : Gguf.Metadata}
    (h : look (validateStaged spec rootPath selected) t = .ok (m, metadata)) :
    m.entrypoint = spec.entrypoint ∧ Accepted t (sourceBase rootPath) m := by
  unfold validateStaged at h
  obtain ⟨manifest, hmanifest, h⟩ := look_bind_ok h (calls_buildManifest _ _ _ _)
  obtain ⟨md, hset, h⟩ := look_bind_ok h (calls_validateGGUFSet (fun _ => id) _ _)
  obtain ⟨_, -, h⟩ := look_bind_ok h trivial
  obtain ⟨rfl, rfl⟩ := Prod.mk.inj (Except.ok.inj h)
  unfold buildManifest buildManifestIn at hmanifest
  obtain ⟨_, -, hmanifest⟩ := look_bind_ok hmanifest trivial
  obtain ⟨_, -, hmanifest⟩ := look_bind_ok hmanifest trivial
  obtain ⟨_, -, hmanifest⟩ := look_bind_ok hmanifest trivial
  obtain ⟨files, hfiles, hmanifest⟩ := look_bind_ok hmanifest (calls_hashFiles _)
  obtain rfl := Except.ok.inj hmanifest
  unfold validateGGUFSet at hset
  obtain ⟨_, hvalid, hset⟩ := look_bind_ok hset trivial
  obtain ⟨_, -, hset⟩ := look_bind_ok hset trivial
  obtain ⟨documents, hdocuments, -⟩ := look_bind_ok hset (calls_readDocuments (fun _ => id) _ _)
  exact ⟨rfl, hvalid, (hashFiles_ok hfiles).2, fun r hr => readDocuments_ok hdocuments hr⟩

end Looking

/-! ## The digest identifies the content -/

theorem magic_of_parseGGUF {content : Bytes} {document : Gguf.Document}
    (h : Gguf.parseGGUF content = .ok document) : content.take 4 = formatGGUF := by
  obtain ⟨⟨⟨_, _⟩, rest⟩, hdocument, -⟩ := except_bind_eq_ok.1 h
  obtain ⟨_, _, hheader, -⟩ := bind_ok hdocument
  obtain ⟨magic, _, hmagic, hheader⟩ := bind_ok hheader
  have hread : magic = content.take 4 := by
    have hmagic := mapError_eq_ok.1 hmagic
    rw [Gguf.readFull_bytes] at hmagic
    split at hmagic
    · exact (Prod.mk.inj (Except.ok.inj hmagic)).1.symm
    · cases hmagic
  rw [← hread]
  by_contra hne
  rw [if_pos hne] at hheader
  cases hheader

/-- A manifest starts with a brace, so no GGUF file is a canonical manifest. -/
theorem encode_ne_of_parseGGUF (m : Manifest) {content : Bytes} {document : Gguf.Document}
    (h : Gguf.parseGGUF content = .ok document) : content ≠ m.encode := by
  rintro rfl
  have hbrace := congrArg List.head? (magic_of_parseGGUF h)
  rw [List.head?_take, if_neg (by decide)] at hbrace
  cases hbrace

/-- The inputs of SHA-256 for the artifact below `base`: its files, and the canonical manifest when
there are several. -/
def hashed (t : Cache) (base : Path) (m : Manifest) : Set Bytes :=
  {payload | (∃ r ∈ m.files, t.get (filePath base r.path) = some (.file payload)) ∨
    m.files.length ≠ 1 ∧ payload = m.encode}

theorem hexSHA256_injOn {S : Set Bytes} (hS : Set.InjOn Sha256.sha256 S) : Set.InjOn hexSHA256 S :=
  fun _ ha _ hb h => hS ha hb (hexEncode_injective h)

/-- What an artifact digest is the digest of. -/
theorem artifact_cases {m : Manifest} (h : m.Valid) :
    (∃ r, m.files = [r] ∧ r.path = m.entrypoint ∧ m.artifact = r.sha256) ∨
      m.files.length ≠ 1 ∧ m.artifact = hexSHA256 m.encode := by
  obtain ⟨entry, hentry, hpath⟩ := h.entrypoint
  unfold Manifest.artifact
  split
  · rename_i r hfiles
    rw [hfiles, List.mem_singleton] at hentry
    exact .inl ⟨r, hfiles, hentry ▸ hpath, rfl⟩
  · rename_i hfiles
    refine .inr ⟨fun hlength => ?_, rfl⟩
    obtain ⟨r, hr⟩ := List.length_eq_one_iff.1 hlength
    exact hfiles r hr

section Identity

variable {t₁ t₂ : Cache} {base₁ base₂ : Path} {m₁ m₂ : Manifest}

/-- The files of two artifacts are the same below their directories. -/
def SameFiles (t₁ t₂ : Cache) (base₁ base₂ : Path) (m : Manifest) : Prop :=
  ∀ r ∈ m.files, ∃ content, t₁.get (filePath base₁ r.path) = some (.file content) ∧
    t₂.get (filePath base₂ r.path) = some (.file content)

theorem Accepted.sameFiles {m : Manifest} (h₁ : Accepted t₁ base₁ m) (h₂ : Accepted t₂ base₂ m)
    (hinj : Set.InjOn hexSHA256 (hashed t₁ base₁ m ∪ hashed t₂ base₂ m)) :
    SameFiles t₁ t₂ base₁ base₂ m := by
  intro r hr
  obtain ⟨content₁, hget₁, -, hsha₁⟩ := h₁.recorded r hr
  obtain ⟨content₂, hget₂, -, hsha₂⟩ := h₂.recorded r hr
  have hcontent : content₁ = content₂ :=
    hinj (.inl (.inl ⟨r, hr, hget₁⟩)) (.inr (.inl ⟨r, hr, hget₂⟩)) (hsha₁.symm.trans hsha₂)
  exact ⟨content₁, hget₁, hcontent ▸ hget₂⟩

/-- The digest of a file is not the digest of the manifest of another artifact. -/
theorem Accepted.sha256_ne (h₁ : Accepted t₁ base₁ m₁) {r : FileRecord} (hr : r ∈ m₁.files)
    (hseveral : m₂.files.length ≠ 1)
    (hinj : Set.InjOn hexSHA256 (hashed t₁ base₁ m₁ ∪ hashed t₂ base₂ m₂)) :
    r.sha256 ≠ hexSHA256 m₂.encode := by
  intro hsha
  obtain ⟨content, document, hget, hparse⟩ := h₁.parsed r hr
  obtain ⟨content', hget', -, hsha'⟩ := h₁.recorded r hr
  obtain rfl : content = content' := Node.file.inj (Option.some.inj (hget.symm.trans hget'))
  refine encode_ne_of_parseGGUF m₂ hparse ?_
  exact hinj (.inl (.inl ⟨r, hr, hget⟩)) (.inr (.inr ⟨hseveral, rfl⟩)) (hsha'.symm.trans hsha)

theorem Accepted.eq_of_single (h₁ : Accepted t₁ base₁ m₁) (h₂ : Accepted t₂ base₂ m₂)
    {r₁ r₂ : FileRecord} (hfiles₁ : m₁.files = [r₁]) (hfiles₂ : m₂.files = [r₂])
    (hpath : r₁.path = r₂.path) (hentry : m₁.entrypoint = m₂.entrypoint)
    (hinj : Set.InjOn hexSHA256 (hashed t₁ base₁ m₁ ∪ hashed t₂ base₂ m₂))
    (hsha : r₁.sha256 = r₂.sha256) : m₁ = m₂ := by
  have hr₁ : r₁ ∈ m₁.files := by simp [hfiles₁]
  have hr₂ : r₂ ∈ m₂.files := by simp [hfiles₂]
  obtain ⟨content₁, hget₁, hsize₁, hsha₁⟩ := h₁.recorded r₁ hr₁
  obtain ⟨content₂, hget₂, hsize₂, hsha₂⟩ := h₂.recorded r₂ hr₂
  have hcontent : content₁ = content₂ := by
    refine hinj (.inl (.inl ⟨r₁, hr₁, hget₁⟩)) (.inr (.inl ⟨r₂, hr₂, hget₂⟩)) ?_
    rw [← hsha₁, ← hsha₂, hsha]
  have hsize : r₁.size = r₂.size := by rw [hsize₁, hsize₂, hcontent]
  have hrecord : r₁ = r₂ := by
    cases r₁
    cases r₂
    exact FileRecord.mk.injEq .. ▸ ⟨hpath, hsize, hsha⟩
  have hvalid₁ := validateManifest_ok h₁.valid
  have hvalid₂ := validateManifest_ok h₂.valid
  have hversion := hvalid₁.version.trans hvalid₂.version.symm
  have hformat := hvalid₁.format.trans hvalid₂.format.symm
  have hfiles : m₁.files = m₂.files := by rw [hfiles₁, hfiles₂, hrecord]
  cases m₁
  cases m₂
  exact Manifest.mk.injEq .. ▸ ⟨hversion, hformat, hentry, hfiles⟩

/-- **One digest, one artifact.** -/
theorem Accepted.eq_of_artifact_eq (h₁ : Accepted t₁ base₁ m₁) (h₂ : Accepted t₂ base₂ m₂)
    (hentry : m₁.entrypoint = m₂.entrypoint) (hutf8₁ : m₁.Utf8) (hutf8₂ : m₂.Utf8)
    (hinj : Set.InjOn hexSHA256 (hashed t₁ base₁ m₁ ∪ hashed t₂ base₂ m₂))
    (hdigest : m₁.artifact = m₂.artifact) : m₁ = m₂ := by
  have hvalid₁ := validateManifest_ok h₁.valid
  have hvalid₂ := validateManifest_ok h₂.valid
  rcases artifact_cases hvalid₁ with ⟨r₁, hfiles₁, hpath₁, hart₁⟩ | ⟨hseveral₁, hart₁⟩
  · rcases artifact_cases hvalid₂ with ⟨r₂, hfiles₂, hpath₂, hart₂⟩ | ⟨hseveral₂, hart₂⟩
    · refine h₁.eq_of_single h₂ hfiles₁ hfiles₂ ?_ hentry hinj (hart₁ ▸ hart₂ ▸ hdigest)
      rw [hpath₁, hpath₂, hentry]
    · refine (h₁.sha256_ne (r := r₁) (by simp [hfiles₁]) hseveral₂ hinj ?_).elim
      rw [← hart₁, hdigest, hart₂]
  · rcases artifact_cases hvalid₂ with ⟨r₂, hfiles₂, -, hart₂⟩ | ⟨hseveral₂, hart₂⟩
    · rw [Set.union_comm] at hinj
      refine (h₂.sha256_ne (r := r₂) (by simp [hfiles₂]) hseveral₁ hinj ?_).elim
      rw [← hart₂, ← hdigest, hart₁]
    · refine Manifest.encode_injective hvalid₁ hvalid₂ hutf8₁ hutf8₂ ?_
      exact hinj (.inl (.inr ⟨hseveral₁, rfl⟩)) (.inr (.inr ⟨hseveral₂, rfl⟩))
        (hart₁.symm.trans (hdigest.trans hart₂))

end Identity

/-- **The artifact digest identifies content.** Two file sets pass `validateStaged`, in any
directories of any trees and under specs with one entrypoint. When their artifact digests are
equal, so are their manifests and, file by file, their contents: where SHA-256 does not collide on
what was hashed for the two, which is the files and the canonical manifest of several files. -/
theorem staged_eq_of_artifactDigest_eq {spec₁ spec₂ : Spec} {t₁ t₂ : Cache}
    {rootPath₁ rootPath₂ : Bytes} {selected₁ selected₂ : List Bytes} {m₁ m₂ : Manifest}
    {metadata₁ metadata₂ : Gguf.Metadata}
    (h₁ : FsOp.look (validateStaged spec₁ rootPath₁ selected₁) t₁ = .ok (m₁, metadata₁))
    (h₂ : FsOp.look (validateStaged spec₂ rootPath₂ selected₂) t₂ = .ok (m₂, metadata₂))
    (hutf8₁ : m₁.Utf8) (hutf8₂ : m₂.Utf8) (hentry : spec₁.entrypoint = spec₂.entrypoint)
    (hinj : Set.InjOn Sha256.sha256
      (hashed t₁ (sourceBase rootPath₁) m₁ ∪ hashed t₂ (sourceBase rootPath₂) m₂))
    (hdigest : artifactDigest m₁ = artifactDigest m₂) :
    m₁ = m₂ ∧ SameFiles t₁ t₂ (sourceBase rootPath₁) (sourceBase rootPath₂) m₁ := by
  obtain ⟨hentry₁, haccepted₁⟩ := validateStaged_ok h₁
  obtain ⟨hentry₂, haccepted₂⟩ := validateStaged_ok h₂
  rw [artifactDigest_of_ok haccepted₁.valid, artifactDigest_of_ok haccepted₂.valid] at hdigest
  have hinj := hexSHA256_injOn hinj
  have heq : m₁ = m₂ := haccepted₁.eq_of_artifact_eq haccepted₂
    (hentry₁.trans (hentry.trans hentry₂.symm)) hutf8₁ hutf8₂ hinj (Except.ok.inj hdigest)
  subst heq
  exact ⟨rfl, haccepted₁.sameFiles haccepted₂ hinj⟩

/-! ### A file and a set of two -/

/-- A spec of an import with this entrypoint that expects nothing. -/
def smallSpec (name : Bytes) : Spec :=
  { Spec.zero with format := formatGGUF, entrypoint := name }

/-- The file of the small cache, in the root of another volume. -/
def smallVolume (name : Bytes) : Cache := ⟨[([name], .file smallGGUF)]⟩

/-- The metadata of the small file. -/
def smallMetadata : Gguf.Metadata := ⟨3, ascii "a", [], 1, 0⟩

open Gguf (uintBytes) in
/-- A string of a GGUF file. -/
def sampleString (s : String) : Bytes := uintBytes 8 s.length ++ ascii s

open Gguf (uintBytes) in
/-- A shard of a set of two, with one tensor of one number. -/
def sampleShard (no : Nat) : Bytes :=
  formatGGUF ++ uintBytes 4 3 ++ uintBytes 8 1 ++ uintBytes 8 3 ++
    sampleString "general.architecture" ++ uintBytes 4 8 ++ sampleString "llama" ++
    sampleString "split.no" ++ uintBytes 4 2 ++ uintBytes 2 no ++
    sampleString "split.count" ++ uintBytes 4 2 ++ uintBytes 2 2 ++
    sampleString "t" ++ uintBytes 4 1 ++ uintBytes 8 1 ++ uintBytes 4 0 ++ uintBytes 8 0 ++
    List.replicate 15 0

def shardName (no : Nat) : Bytes :=
  ascii "m-0000" ++ [UInt8.ofNat (49 + no)] ++ ascii "-of-00002.gguf"

/-- The two shards in the root of a volume. -/
def shardVolume : Cache :=
  ⟨[([shardName 0], .file (sampleShard 0)), ([shardName 1], .file (sampleShard 1))]⟩

/-- The two shards in the staging directory of the operation `op`. -/
def shardCache : Cache :=
  ⟨[([Descriptors.kamaDir], .dir), (stagingDir, .dir), (stagingPath (ascii "op"), .dir),
    (stagingPath (ascii "op") ++ [shardName 0], .file (sampleShard 0)),
    (stagingPath (ascii "op") ++ [shardName 1], .file (sampleShard 1))]⟩

def shardManifest : Manifest :=
  ⟨schemaVersion, formatGGUF, shardName 0,
    [0, 1].map fun no => ⟨shardName no, 164, hexSHA256 (sampleShard no)⟩⟩

def shardMetadata : Gguf.Metadata := ⟨3, ascii "llama", [], 2, 2⟩

theorem staged_small :
    FsOp.look (validateStaged (smallSpec (ascii "m.gguf")) [] []) (smallVolume (ascii "m.gguf")) =
      .ok (smallManifest (ascii "m.gguf"), smallMetadata) ∧
    FsOp.look (validateStaged (smallSpec (ascii "m.gguf")) (ascii ".kama/staging/op") [])
      (smallCache (ascii "m.gguf")) = .ok (smallManifest (ascii "m.gguf"), smallMetadata) := by
  decide +kernel

theorem staged_shards :
    FsOp.look (validateStaged (smallSpec (shardName 0)) [] [shardName 0, shardName 1])
      shardVolume = .ok (shardManifest, shardMetadata) ∧
    FsOp.look (validateStaged (smallSpec (shardName 0)) (ascii ".kama/staging/op")
      [shardName 0, shardName 1]) shardCache = .ok (shardManifest, shardMetadata) := by
  decide +kernel

theorem hashed_subset {t : Cache} {base : Path} {m : Manifest} (contents : List Bytes)
    (h : ∀ r ∈ m.files, ∃ content ∈ contents,
      t.get (filePath base r.path) = some (.file content)) :
    hashed t base m ⊆ {payload | payload ∈ m.encode :: contents} := by
  rintro payload (⟨r, hr, hget⟩ | ⟨-, rfl⟩)
  · obtain ⟨content, hcontent, hget'⟩ := h r hr
    cases hget.symm.trans hget'
    exact List.mem_cons_of_mem _ hcontent
  · exact List.mem_cons_self

theorem injOn_sha256 {payloads : List Bytes}
    (h : ∀ a ∈ payloads, ∀ b ∈ payloads, Sha256.sha256 a = Sha256.sha256 b → a = b)
    {S T : Set Bytes} (hS : S ⊆ {a | a ∈ payloads}) (hT : T ⊆ {a | a ∈ payloads}) :
    Set.InjOn Sha256.sha256 (S ∪ T) :=
  fun a ha b hb => h a (Set.union_subset hS hT ha) b (Set.union_subset hS hT hb)

/-- The small file, and the two shards, in a staging directory and in the root of a volume. -/
theorem staged_eq_small :
    SameFiles (smallVolume (ascii "m.gguf")) (smallCache (ascii "m.gguf"))
      (sourceBase []) (sourceBase (ascii ".kama/staging/op")) (smallManifest (ascii "m.gguf")) ∧
    SameFiles shardVolume shardCache (sourceBase []) (sourceBase (ascii ".kama/staging/op"))
      shardManifest := by
  have hsmall : (smallManifest (ascii "m.gguf")).Utf8 := by
    simpa [Manifest.Utf8, smallManifest] using by decide
  have hshard : shardManifest.Utf8 := by
    simpa [Manifest.Utf8, shardManifest] using by decide
  constructor
  · refine (staged_eq_of_artifactDigest_eq staged_small.1 staged_small.2 hsmall hsmall rfl
      (injOn_sha256 ?_ (hashed_subset [smallGGUF] ?_) (hashed_subset _ ?_)) rfl).2
    · decide +kernel
    · decide
    · decide
  · refine (staged_eq_of_artifactDigest_eq staged_shards.1 staged_shards.2 hshard hshard rfl
      (injOn_sha256 ?_ (hashed_subset [sampleShard 0, sampleShard 1] ?_) (hashed_subset _ ?_))
      rfl).2
    · decide +kernel
    · decide +kernel
    · decide +kernel

end Storage

end Kama.Artifact
