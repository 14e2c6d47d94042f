import Kama.Artifact.Staged

/-!
# Manifests are canonical

`BuildManifest` collects the selected names in a Go map, whose keys come in any order, and sorts
them. The manifest of a directory therefore depends on the set of the names that were selected and
on nothing else.

* `buildManifestIn_eq`: the order in which the map is gone through does not matter.
* `normalizeSelectedFiles_eq_ok_iff`: what the selection has to satisfy, and what comes out.
* `validateManifest_of_valid`: the converse of `validateManifest_ok`.
* `buildManifest_canonical`: the order and the repetitions of the selection do not matter, and what
  is built is a valid manifest of exactly the selected files.
-/

namespace Kama.Artifact

open Bytes Reader

/-! ## The selection -/

theorem validateSelectedFiles_eq_ok_iff {names : List Bytes} :
    validateSelectedFiles names = .ok () ↔ ∀ p ∈ names, validateSelectedFile p = .ok () := by
  induction names with
  | nil => simp [validateSelectedFiles]
  | cons name names ih =>
    rw [validateSelectedFiles, except_bind_eq_ok, List.forall_mem_cons, ih]
    exact ⟨fun ⟨_, hname, hrest⟩ => ⟨hname, hrest⟩, fun ⟨hname, hrest⟩ => ⟨(), hname, hrest⟩⟩

theorem validateRelativePath_of_selected {name : Bytes} (h : validateSelectedFile name = .ok ()) :
    validateRelativePath name = .ok () := by
  obtain ⟨_, hpath, -⟩ := except_bind_eq_ok.1 h
  exact mapError_eq_ok.1 hpath

/-- What a selection has to satisfy, and what is made of it. -/
theorem normalizeSelectedFiles_eq_ok_iff {entrypoint : Bytes} {selected files : List Bytes} :
    normalizeSelectedFiles entrypoint selected = .ok files ↔
      validateRelativePath entrypoint = .ok () ∧
      (requested entrypoint selected).length ≤ maxSelectedFiles ∧
      (∀ p ∈ requested entrypoint selected, validateSelectedFile p = .ok ()) ∧
      entrypoint ∈ requested entrypoint selected ∧
      files = (requested entrypoint selected).dedup.insertionSort (· ≤ ·) := by
  have hdedup : (requested entrypoint selected).dedup.length ≤
      (requested entrypoint selected).length := (List.dedup_sublist _).length_le
  unfold normalizeSelectedFiles normalizeSelectedFilesIn Iteration.listed
  rw [except_bind_eq_ok]
  constructor
  · rintro ⟨_, hentry, h⟩
    obtain ⟨hcount, h⟩ := except_refuse_eq_ok.1 h
    obtain ⟨_, hvalid, h⟩ := except_bind_eq_ok.1 h
    obtain ⟨hmem, h⟩ := except_refuse_eq_ok.1 h
    obtain ⟨-, h⟩ := except_refuse_eq_ok.1 h
    exact ⟨mapError_eq_ok.1 hentry, Nat.not_lt.1 hcount, validateSelectedFiles_eq_ok_iff.1 hvalid,
      List.mem_dedup.1 (not_not.1 hmem), (Except.ok.inj h).symm⟩
  · rintro ⟨hentry, hcount, hvalid, hmem, rfl⟩
    refine ⟨(), mapError_eq_ok.2 hentry, except_refuse_eq_ok.2 ⟨Nat.not_lt.2 hcount, ?_⟩⟩
    refine except_bind_eq_ok.2 ⟨(), validateSelectedFiles_eq_ok_iff.2 hvalid, ?_⟩
    refine except_refuse_eq_ok.2 ⟨not_not.2 (List.mem_dedup.2 hmem), ?_⟩
    exact except_refuse_eq_ok.2 ⟨Nat.not_lt.2 (hdedup.trans hcount), rfl⟩

theorem mem_requested_congr {entrypoint : Bytes} {selected selected' : List Bytes}
    (hset : ∀ p, p ∈ selected ↔ p ∈ selected') (p : Bytes) :
    p ∈ requested entrypoint selected ↔ p ∈ requested entrypoint selected' := by
  have hnil : selected = [] ↔ selected' = [] := by
    simp only [List.eq_nil_iff_forall_not_mem, hset]
  by_cases h : selected = []
  · rw [requested, requested, if_pos h, if_pos (hnil.1 h)]
  · rw [requested, requested, if_neg h, if_neg fun h' => h (hnil.2 h')]
    exact hset p

theorem length_requested_le {entrypoint : Bytes} {selected : List Bytes}
    (h : selected.length ≤ maxSelectedFiles) :
    (requested entrypoint selected).length ≤ maxSelectedFiles := by
  unfold requested
  split
  · exact (by decide : 1 ≤ maxSelectedFiles)
  · exact h

/-- The same names in another order, or more often, are the same selection. -/
theorem normalizeSelectedFiles_congr {entrypoint : Bytes} {selected selected' files : List Bytes}
    (hset : ∀ p, p ∈ selected ↔ p ∈ selected') (hcount : selected'.length ≤ maxSelectedFiles)
    (h : normalizeSelectedFiles entrypoint selected = .ok files) :
    normalizeSelectedFiles entrypoint selected' = .ok files := by
  have hmem : ∀ p, p ∈ requested entrypoint selected ↔ p ∈ requested entrypoint selected' :=
    mem_requested_congr hset
  rw [normalizeSelectedFiles_eq_ok_iff] at h ⊢
  obtain ⟨hentry, -, hvalid, hentrypoint, rfl⟩ := h
  refine ⟨hentry, length_requested_le hcount, fun p hp => hvalid p ((hmem p).2 hp),
    (hmem entrypoint).1 hentrypoint, insertionSort_eq_of_perm ?_⟩
  refine (List.perm_ext_iff_of_nodup (List.nodup_dedup _) (List.nodup_dedup _)).2 fun p => ?_
  rw [List.mem_dedup, List.mem_dedup, hmem]

/-! ## Valid manifests -/

theorem validateRecord_of {previous : Option Bytes} {r : FileRecord}
    (hpath : validateRelativePath r.path = .ok ()) (hprevious : ∀ p, previous = some p → p < r.path)
    (hsize : 0 ≤ r.size) (hsha : validSHA256 r.sha256 = true) :
    validateRecord previous r = .ok () := by
  refine except_bind_eq_ok.2 ⟨(), mapError_eq_ok.2 hpath, except_refuse_eq_ok.2 ⟨?_, ?_⟩⟩
  · cases previous with
    | none => simp
    | some p => simpa using hprevious p rfl
  · refine except_refuse_eq_ok.2 ⟨Int64.not_lt.2 hsize, ?_⟩
    rw [if_neg (by simp [hsha])]
    rfl

theorem validateRecords_of {previous : Option Bytes} {rs : List FileRecord}
    (hrecord : ∀ r ∈ rs, validateRelativePath r.path = .ok () ∧ 0 ≤ r.size ∧
      validSHA256 r.sha256 = true)
    (hsorted : (rs.map FileRecord.path).Pairwise (· < ·))
    (hprevious : ∀ p, previous = some p → ∀ r ∈ rs, p < r.path) :
    validateRecords previous rs = .ok () := by
  induction rs generalizing previous with
  | nil => rfl
  | cons r rs ih =>
    obtain ⟨hpath, hsize, hsha⟩ := hrecord r List.mem_cons_self
    rw [List.map_cons, List.pairwise_cons] at hsorted
    refine except_bind_eq_ok.2 ⟨(), ?_, ?_⟩
    · exact validateRecord_of hpath (fun p hp => hprevious p hp r List.mem_cons_self) hsize hsha
    · refine ih (fun r' hr' => hrecord r' (List.mem_cons_of_mem _ hr')) hsorted.2 ?_
      rintro p hp r' hr'
      obtain rfl := Option.some.inj hp
      exact hsorted.1 _ (List.mem_map_of_mem hr')

/-- A manifest that satisfies `Manifest.Valid` and is not too long is accepted. -/
theorem validateManifest_of_valid {m : Manifest} (h : m.Valid)
    (hcount : m.files.length ≤ maxSelectedFiles) : validateManifest m = .ok () := by
  obtain ⟨entry, hentry, hpath⟩ := h.entrypoint
  refine except_refuse_eq_ok.2 ⟨not_not.2 h.version, except_refuse_eq_ok.2 ⟨not_not.2 h.format, ?_⟩⟩
  refine except_bind_eq_ok.2 ⟨(), mapError_eq_ok.2 (hpath ▸ (h.record entry hentry).1), ?_⟩
  refine except_refuse_eq_ok.2 ⟨not_or.2 ⟨h.nonempty, Nat.not_lt.2 hcount⟩, ?_⟩
  refine except_bind_eq_ok.2 ⟨(), validateRecords_of h.record h.sorted ?_, ?_⟩
  · intro p hp
    cases hp
  rw [if_neg]
  · rfl
  · simpa using ⟨entry, hentry, hpath⟩

/-! ## Building a manifest -/

namespace Storage

open FileTree Program FsOp

theorem buildManifestIn_eq (order : Iteration) (rootPath format entrypoint : Bytes)
    (selected : List Bytes) :
    buildManifestIn order rootPath format entrypoint selected =
      buildManifest rootPath format entrypoint selected := by
  rw [buildManifest, buildManifestIn, buildManifestIn, normalizeSelectedFilesIn_eq,
    normalizeSelectedFilesIn_eq]

variable {t : Cache} {rootPath format entrypoint : Bytes} {selected : List Bytes}

theorem look_buildManifest (t : Cache) (rootPath format entrypoint : Bytes)
    (selected : List Bytes) :
    look (buildManifest rootPath format entrypoint selected) t =
      (normalizeSelectedFiles entrypoint selected).bind fun files =>
        look (buildNormalized rootPath format entrypoint files) t := by
  unfold buildManifest buildManifestIn buildNormalized
  rw [normalizeSelectedFilesIn_eq]
  cases normalizeSelectedFiles entrypoint selected with
  | error e => rfl
  | ok files => rfl

/-- The files of the directory have sizes that an `int64` holds. -/
def Sized (t : Cache) : Prop :=
  ∀ p content, t.get p = some (.file content) → content.length < 2 ^ 63

/-- What a manifest says about the directory that it was built from. -/
structure Describes (t : Cache) (rootPath entrypoint : Bytes) (selected : List Bytes)
    (m : Manifest) : Prop where
  valid : validateManifest m = .ok ()
  paths : ∀ p, p ∈ m.files.map FileRecord.path ↔ p ∈ requested entrypoint selected
  entry : m.entrypoint = entrypoint
  files : ∀ r ∈ m.files, ∃ content, t.get (filePath (sourceBase rootPath) r.path) =
    some (.file content) ∧ r.size.toInt = content.length ∧ r.sha256 = hexSHA256 content

theorem toInt_ofNat_length {content : Bytes} (h : content.length < 2 ^ 63) :
    (Int64.ofNat content.length).toInt = content.length := by
  rw [Int64.toInt_ofNat_of_lt (by simpa using h)]

theorem pairwise_lt_insertionSort {names : List Bytes} (h : names.Nodup) :
    (names.insertionSort (· ≤ ·)).Pairwise (· < ·) := by
  have hle := names.pairwise_insertionSort (· ≤ ·)
  have hne := (names.perm_insertionSort (· ≤ ·)).nodup_iff.2 h
  refine (hle.and hne).imp fun {a b} h => ?_
  by_contra hlt
  exact h.2 (List.le_antisymm h.1 (List.not_lt.1 hlt))

/-- What is built describes the directory. -/
theorem describes_of_buildManifest {m : Manifest} (hsized : Sized t)
    (h : look (buildManifest rootPath format entrypoint selected) t = .ok m) :
    Describes t rootPath entrypoint selected m := by
  unfold buildManifest buildManifestIn at h
  obtain ⟨files, hfiles, h⟩ := look_bind_ok h trivial
  obtain ⟨_, -, h⟩ := look_bind_ok h trivial
  obtain ⟨_, -, h⟩ := look_bind_ok h trivial
  obtain ⟨records, hrecords, h⟩ := look_bind_ok h (calls_hashFiles _)
  obtain rfl := Except.ok.inj h
  obtain ⟨hpaths, hrecorded⟩ := hashFiles_ok hrecords
  obtain ⟨-, hcount, hvalid, hentry, rfl⟩ := normalizeSelectedFiles_eq_ok_iff.1 hfiles
  have hperm := (requested entrypoint selected).dedup.perm_insertionSort (· ≤ ·)
  have hmem : ∀ p, p ∈ records.map FileRecord.path ↔ p ∈ requested entrypoint selected := by
    intro p
    rw [hpaths, hperm.mem_iff, List.mem_dedup]
  have htrue : ∀ r ∈ records, ∃ content, t.get (filePath (sourceBase rootPath) r.path) =
      some (.file content) ∧ r.size.toInt = content.length ∧ r.sha256 = hexSHA256 content := by
    intro r hr
    obtain ⟨content, hget, hsize, hsha⟩ := hrecorded r hr
    exact ⟨content, hget, hsize ▸ toInt_ofNat_length (hsized _ _ hget), hsha⟩
  refine ⟨validateManifest_of_valid ⟨rfl, rfl, ?_, ?_, ?_, ?_⟩ ?_, hmem, rfl, htrue⟩
  · rintro hnil
    have := (hmem entrypoint).2 hentry
    rw [show records = [] from hnil] at this
    cases this
  · intro r hr
    obtain ⟨content, -, hsize, hsha⟩ := htrue r hr
    have hselected := hvalid r.path ((hmem _).1 (List.mem_map_of_mem hr))
    refine ⟨validateRelativePath_of_selected hselected, ?_, hsha ▸ validSHA256_hexSHA256 content⟩
    rw [Int64.le_iff_toInt_le, hsize]
    exact Int.natCast_nonneg _
  · show (records.map FileRecord.path).Pairwise (· < ·)
    rw [hpaths]
    exact pairwise_lt_insertionSort (List.nodup_dedup _)
  · simpa using (hmem entrypoint).2 hentry
  · show records.length ≤ maxSelectedFiles
    rw [← List.length_map FileRecord.path, hpaths, hperm.length_eq]
    exact ((List.dedup_sublist _).length_le).trans hcount

/-- **Building a manifest is canonical.** Two selections of at most 128 entries with the same
elements, whatever the order in which the maps are gone through: either both fail or both give the
same manifest, which describes the directory. -/
theorem buildManifest_canonical (hsized : Sized t) (order₁ order₂ : Iteration)
    (rootPath format entrypoint : Bytes) {selected₁ selected₂ : List Bytes}
    (hcount₁ : selected₁.length ≤ maxSelectedFiles) (hcount₂ : selected₂.length ≤ maxSelectedFiles)
    (hset : ∀ p, p ∈ selected₁ ↔ p ∈ selected₂) :
    (∃ e₁ e₂, look (buildManifestIn order₁ rootPath format entrypoint selected₁) t = .error e₁ ∧
      look (buildManifestIn order₂ rootPath format entrypoint selected₂) t = .error e₂) ∨
    ∃ m, look (buildManifestIn order₁ rootPath format entrypoint selected₁) t = .ok m ∧
      look (buildManifestIn order₂ rootPath format entrypoint selected₂) t = .ok m ∧
      Describes t rootPath entrypoint selected₁ m ∧
      Describes t rootPath entrypoint selected₂ m := by
  rw [buildManifestIn_eq, buildManifestIn_eq]
  have hlook₁ := look_buildManifest t rootPath format entrypoint selected₁
  have hlook₂ := look_buildManifest t rootPath format entrypoint selected₂
  cases hnormal₁ : normalizeSelectedFiles entrypoint selected₁ with
  | error e₁ =>
    -- the other selection cannot be accepted either, though the first error may be another one
    rw [hnormal₁] at hlook₁
    cases hnormal₂ : normalizeSelectedFiles entrypoint selected₂ with
    | error e₂ =>
      rw [hnormal₂] at hlook₂
      exact .inl ⟨e₁, e₂, hlook₁, hlook₂⟩
    | ok files =>
      have h := normalizeSelectedFiles_congr (fun p => (hset p).symm) hcount₁ hnormal₂
      rw [hnormal₁] at h
      cases h
  | ok files =>
    rw [hnormal₁] at hlook₁
    rw [normalizeSelectedFiles_congr hset hcount₂ hnormal₁, ← hlook₁] at hlook₂
    cases hresult : look (buildManifest rootPath format entrypoint selected₁) t with
    | error e => exact .inl ⟨e, e, rfl, hlook₂.trans hresult⟩
    | ok m =>
      have hresult₂ := hlook₂.trans hresult
      exact .inr ⟨m, rfl, hresult₂, describes_of_buildManifest hsized hresult,
        describes_of_buildManifest hsized hresult₂⟩

/-- The keys in the reverse order. -/
def backwards : Iteration := ⟨fun names => names.dedup.reverse, fun _ => List.reverse_perm _⟩

/-- A directory of two files. -/
def twoFiles : Cache :=
  ⟨[([ascii "b.gguf"], .file (ascii "b")), ([ascii "a.gguf"], .file (ascii "aa"))]⟩

theorem sized_twoFiles : Sized twoFiles := by
  intro p content h
  unfold FileTree.Tree.get twoFiles at h
  split at h
  · cases h
  · simp only [List.lookup_cons] at h
    split at h
    · cases h
      decide
    · split at h
      · cases h
        decide
      · cases h

theorem buildManifest_twoFiles :
    ∃ m, look (buildManifestIn .listed [] formatGGUF (ascii "a.gguf")
        [ascii "a.gguf", ascii "b.gguf"]) twoFiles = .ok m ∧
      look (buildManifestIn backwards [] formatGGUF (ascii "a.gguf")
        [ascii "b.gguf", ascii "a.gguf", ascii "b.gguf"]) twoFiles = .ok m ∧
      m.files.map FileRecord.path = [ascii "a.gguf", ascii "b.gguf"] := by
  have hset : ∀ p, p ∈ [ascii "a.gguf", ascii "b.gguf"] ↔
      p ∈ [ascii "b.gguf", ascii "a.gguf", ascii "b.gguf"] := by
    intro p
    simp only [List.mem_cons, List.not_mem_nil, or_false]
    tauto
  have hpaths : (look (buildManifestIn .listed [] formatGGUF (ascii "a.gguf")
      [ascii "a.gguf", ascii "b.gguf"]) twoFiles).toOption.map
        (fun m => m.files.map FileRecord.path) = some [ascii "a.gguf", ascii "b.gguf"] := by
    decide +kernel
  rcases buildManifest_canonical sized_twoFiles .listed backwards [] formatGGUF (ascii "a.gguf")
    (by decide) (by decide) hset with ⟨_, _, h, -⟩ | ⟨m, h₁, h₂, -⟩
  · rw [h] at hpaths
    cases hpaths
  · rw [h₁] at hpaths
    exact ⟨m, h₁, h₂, Option.some.inj hpaths⟩

end Storage

end Kama.Artifact
