import Kama.Artifact.Basic
import Kama.Foundations.Json
import Kama.Foundations.Sha256

/-!
# Manifests

The content description of `manifest.go`: its validation, its canonical encoding and the two
digests made from it. A manifest is written as JSON and read back strictly: unknown members, more
than one value and any other encoding of the same content are refused.

`decodeManifest_encode` is the round trip. It needs the names to be valid UTF-8: the encoder
replaces bytes that are not part of a character, so the canonical form of another name is not the
encoding of what is read back from it.
-/

namespace Kama.Artifact

open Bytes Json

def maxSelectedFiles : Nat := 128

def maxResultBytes : Nat := 256 * 1024

def manifestFilename : Bytes := ascii "manifest.json"

def readyFilename : Bytes := ascii "READY"

def formatGGUF : Bytes := ascii "GGUF"

def schemaVersion : Int64 := 1

structure FileRecord where
  path : Bytes
  size : Int64
  sha256 : Bytes
  deriving DecidableEq, Repr

structure Manifest where
  schemaVersion : Int64
  format : Bytes
  entrypoint : Bytes
  files : List FileRecord
  deriving DecidableEq, Repr

/-! ## Validation -/

def validSHA256 (value : Bytes) : Bool := value.length == 64 && value.all isHexLower

/-- `fullCommitPattern`: `^(?:[a-f0-9]{40}|[a-f0-9]{64})$`. -/
def validHubCommit (value : Bytes) : Bool :=
  (value.length == 40 || value.length == 64) && value.all isHexLower

/-- The checks on one record; `previous` is the path of the record before it. -/
def validateRecord (previous : Option Bytes) (record : FileRecord) : Except Err Unit := do
  (validateRelativePath record.path).mapError (.failure .unsafePath "validate manifest file")
  if previous.any (fun p => decide (record.path ≤ p)) then
    throw (.failure .invalidSpec "validate manifest"
      (.new "manifest files are not strictly sorted"))
  if record.size < 0 then
    throw (.failure .invalidSpec "validate manifest" (.text "negative size for %q" [record.path]))
  if validSHA256 record.sha256 = false then
    throw (.failure .invalidSpec "validate manifest" (.text "invalid SHA-256 for %q" [record.path]))

def validateRecords : Option Bytes → List FileRecord → Except Err Unit
  | _, [] => .ok ()
  | previous, record :: records => do
    validateRecord previous record
    validateRecords (some record.path) records

def validateManifest (m : Manifest) : Except Err Unit := do
  if m.schemaVersion ≠ Artifact.schemaVersion then
    throw (.failure .invalidSpec "validate manifest"
      (.text "unsupported schemaVersion %d" [decimal m.schemaVersion.toInt]))
  if m.format ≠ formatGGUF then
    throw (.failure .invalidSpec "validate manifest" (.text "unsupported format %q" [m.format]))
  (validateRelativePath m.entrypoint).mapError (.failure .unsafePath "validate manifest entrypoint")
  if m.files = [] ∨ maxSelectedFiles < m.files.length then
    throw (.failure .invalidSpec "validate manifest"
      (.text "manifest file count %d is outside 1..%d"
        [natDigits m.files.length, natDigits maxSelectedFiles]))
  validateRecords none m.files
  if m.files.all (fun record => decide (record.path ≠ m.entrypoint)) then
    throw (.failure .invalidSpec "validate manifest"
      (.new "manifest does not contain its entrypoint"))

/-! ## Encoding -/

def FileRecord.toJson (r : FileRecord) : Json :=
  .obj [(ascii "path", .str r.path), (ascii "size", .num (decimal r.size.toInt)),
    (ascii "sha256", .str r.sha256)]

def Manifest.toJson (m : Manifest) : Json :=
  .obj [(ascii "schemaVersion", .num (decimal m.schemaVersion.toInt)),
    (ascii "format", .str m.format), (ascii "entrypoint", .str m.entrypoint),
    (ascii "files", .arr (m.files.map FileRecord.toJson))]

def FileRecord.fields : Fields FileRecord :=
  [(ascii "path", setString fun b r => { r with path := b }),
    (ascii "size", setInt fun i r => { r with size := Int64.ofInt i }),
    (ascii "sha256", setString fun b r => { r with sha256 := b })]

def FileRecord.ofJson : Json → Option FileRecord := decodeStruct FileRecord.fields ⟨[], 0, []⟩

def Manifest.fields : Fields Manifest :=
  [(ascii "schemaVersion", setInt fun i m => { m with schemaVersion := Int64.ofInt i }),
    (ascii "format", setString fun b m => { m with format := b }),
    (ascii "entrypoint", setString fun b m => { m with entrypoint := b }),
    (ascii "files", setSlice FileRecord.ofJson fun rs m => { m with files := rs })]

def Manifest.zero : Manifest := ⟨0, [], [], []⟩

/-- `json.Marshal(manifest)`. -/
def Manifest.encode (m : Manifest) : Bytes := Json.encode m.toJson

def canonicalManifest (m : Manifest) : Except Err Bytes := do
  validateManifest m
  pure m.encode

def hexSHA256 (payload : Bytes) : Bytes := hexEncode (Sha256.sha256 payload)

def manifestDigest (m : Manifest) : Except Err Bytes := do
  let payload ← canonicalManifest m
  pure (hexSHA256 payload)

def artifactDigest (m : Manifest) : Except Err Bytes := do
  validateManifest m
  match m.files with
  | [record] => pure record.sha256
  | _ => manifestDigest m

/-- `readManifest`, on the content of the file. -/
def decodeManifest (payload : Bytes) : Except Err Manifest :=
  if maxResultBytes < payload.length then
    .error (.failure .publicationConflict "validate artifact manifest"
      (.new "manifest exceeds size limit"))
  else
    match decodeDocument Manifest.fields Manifest.zero payload with
    | .error .decode =>
      .error (.failure .ioFailure "decode artifact manifest" (.new "invalid JSON"))
    | .error .trailing =>
      .error (.failure .publicationConflict "validate artifact manifest"
        (.new "manifest contains multiple JSON values"))
    | .ok m => do
      validateManifest m
      let canonical ← canonicalManifest m
      if payload = canonical then pure m
      else throw (.failure .publicationConflict "validate artifact manifest"
        (.new "manifest encoding is not canonical"))

/-! ## What validation says -/

theorem validateRecord_ok {previous : Option Bytes} {r : FileRecord}
    (h : validateRecord previous r = .ok ()) :
    validateRelativePath r.path = .ok () ∧ (∀ p, previous = some p → p < r.path) ∧ 0 ≤ r.size ∧
      validSHA256 r.sha256 = true := by
  unfold validateRecord at h
  cases hpath : validateRelativePath r.path with
  | error e => simp [hpath, Except.mapError, bind, Except.bind] at h
  | ok u =>
    simp only [hpath, Except.mapError, bind, Except.bind, pure, Except.pure, throw, throwThe,
      MonadExceptOf.throw] at h
    split at h
    · simp at h
    rename_i hsorted
    split at h
    · simp at h
    rename_i hsize
    split at h
    · simp at h
    rename_i hsha
    refine ⟨rfl, ?_, by simpa using hsize, by simpa using hsha⟩
    rintro p rfl
    simpa using hsorted

theorem validateRecords_ok {previous : Option Bytes} {rs : List FileRecord}
    (h : validateRecords previous rs = .ok ()) :
    (∀ r ∈ rs, validateRelativePath r.path = .ok () ∧ 0 ≤ r.size ∧ validSHA256 r.sha256 = true) ∧
      (rs.map FileRecord.path).Pairwise (· < ·) ∧
      ∀ p, previous = some p → ∀ r ∈ rs, p < r.path := by
  induction rs generalizing previous with
  | nil => simp
  | cons r rs ih =>
    simp only [validateRecords, bind, Except.bind] at h
    cases hr : validateRecord previous r with
    | error e => simp [hr] at h
    | ok u =>
      rw [hr] at h
      obtain ⟨hpath, hprev, hsize, hsha⟩ := validateRecord_ok hr
      obtain ⟨hall, hsorted, hafter⟩ := ih h
      refine ⟨?_, ?_, ?_⟩
      · rintro r' (_ | ⟨_, hr'⟩)
        · exact ⟨hpath, hsize, hsha⟩
        · exact hall r' hr'
      · rw [List.map_cons, List.pairwise_cons]
        refine ⟨fun q hq => ?_, hsorted⟩
        obtain ⟨r', hr', rfl⟩ := List.mem_map.1 hq
        exact hafter _ rfl r' hr'
      · rintro p rfl r' (_ | ⟨_, hr'⟩)
        · exact hprev p rfl
        · exact List.lt_trans (hprev p rfl) (hafter _ rfl r' hr')

/-- What a manifest satisfies that `ValidateManifest` accepts. -/
structure Manifest.Valid (m : Manifest) : Prop where
  version : m.schemaVersion = Artifact.schemaVersion
  format : m.format = formatGGUF
  nonempty : m.files ≠ []
  record : ∀ r ∈ m.files, validateRelativePath r.path = .ok () ∧ 0 ≤ r.size ∧
    validSHA256 r.sha256 = true
  sorted : (m.files.map FileRecord.path).Pairwise (· < ·)
  entrypoint : ∃ r ∈ m.files, r.path = m.entrypoint

theorem validateManifest_ok {m : Manifest} (h : validateManifest m = .ok ()) : m.Valid := by
  unfold validateManifest at h
  simp only [bind, Except.bind, pure, Except.pure, throw, throwThe, MonadExceptOf.throw] at h
  split at h
  · simp at h
  rename_i hversion
  split at h
  · simp at h
  rename_i hformat
  cases hentry : validateRelativePath m.entrypoint with
  | error e => simp [hentry, Except.mapError] at h
  | ok u =>
    simp only [hentry, Except.mapError] at h
    split at h
    · simp at h
    rename_i hcount
    push Not at hcount
    cases hrecords : validateRecords none m.files with
    | error e => simp [hrecords] at h
    | ok u =>
      simp only [hrecords] at h
      split at h
      · simp at h
      rename_i hfound
      obtain ⟨hall, hsorted, -⟩ := validateRecords_ok hrecords
      refine ⟨not_not.1 hversion, not_not.1 hformat, hcount.1, hall, hsorted, ?_⟩
      simpa using hfound

theorem canonicalManifest_of_ok {m : Manifest} (h : validateManifest m = .ok ()) :
    canonicalManifest m = .ok m.encode := by
  simp [canonicalManifest, h, bind, Except.bind, pure, Except.pure]

theorem manifestDigest_of_ok {m : Manifest} (h : validateManifest m = .ok ()) :
    manifestDigest m = .ok (hexSHA256 m.encode) := by
  simp [manifestDigest, canonicalManifest_of_ok h, bind, Except.bind, pure, Except.pure]

theorem validSHA256_hexSHA256 (payload : Bytes) : validSHA256 (hexSHA256 payload) = true := by
  simp only [validSHA256, hexSHA256, length_hexEncode, Sha256.length_sha256, Bool.and_eq_true,
    List.all_eq_true]
  exact ⟨rfl, fun b hb => isHexLower_of_mem_hexEncode hb⟩

/-- The digest of a manifest, on its own or of its only file. -/
def Manifest.artifact (m : Manifest) : Bytes :=
  match m.files with
  | [record] => record.sha256
  | _ => hexSHA256 m.encode

theorem artifactDigest_of_ok {m : Manifest} (h : validateManifest m = .ok ()) :
    artifactDigest m = .ok m.artifact := by
  unfold artifactDigest Manifest.artifact
  rw [h]
  simp only [bind, Except.bind]
  split
  · rfl
  · exact manifestDigest_of_ok h

theorem validSHA256_artifact {m : Manifest} (h : m.Valid) : validSHA256 m.artifact = true := by
  unfold Manifest.artifact
  split
  · rename_i record hfiles
    exact (h.record record (by simp [hfiles])).2.2
  · exact validSHA256_hexSHA256 _

/-! ## The round trip -/

theorem utf8_of_hexLower {s : Bytes} (h : s.all isHexLower = true) : Utf8.Valid s := by
  refine Utf8.valid_of_ascii fun b hb => ?_
  have hhex := List.all_eq_true.1 h b hb
  simp only [isHexLower, isDigit, Bool.or_eq_true, decide_eq_true_eq, UInt8.le_iff_toNat_le,
    UInt8.lt_iff_toNat_lt, UInt8.reduceToNat] at hhex ⊢
  omega

theorem utf8_of_validSHA256 {s : Bytes} (h : validSHA256 s = true) : Utf8.Valid s := by
  simp only [validSHA256, Bool.and_eq_true] at h
  exact utf8_of_hexLower h.2

theorem FileRecord.ofJson_toJson (r : FileRecord) : FileRecord.ofJson r.toJson = some r :=
  Assigns.cons (assigns_string rfl rfl)
    (.cons (assigns_int (fun i r => { r with size := i }) rfl rfl) (assigns_string rfl rfl))

theorem Manifest.assigns (m : Manifest) :
    Assigns fields [(ascii "schemaVersion", intJson m.schemaVersion),
      (ascii "format", .str m.format), (ascii "entrypoint", .str m.entrypoint),
      (ascii "files", .arr (m.files.map FileRecord.toJson))] zero m := by
  have hfiles : setSlice FileRecord.ofJson (fun rs m => { m with files := rs })
      (.arr (m.files.map FileRecord.toJson)) { m with files := [] } = some m := by
    simp only [setSlice, decodeItems_map fun r _ => FileRecord.ofJson_toJson r, Option.map_some]
  exact .cons (assigns_int (fun i m => { m with schemaVersion := i }) rfl rfl)
    (.cons (assigns_string rfl rfl) (.cons (assigns_string rfl rfl) (.single rfl hfiles)))

theorem Manifest.ofJson_toJson (m : Manifest) :
    decodeStruct Manifest.fields Manifest.zero m.toJson = some m :=
  m.assigns

/-- Every path of the manifest is valid UTF-8. -/
def Manifest.Utf8 (m : Manifest) : Prop := ∀ r ∈ m.files, Utf8.Valid r.path

theorem FileRecord.sound_toJson {r : FileRecord} (hpath : Utf8.Valid r.path)
    (hsha : validSHA256 r.sha256 = true) : Sound r.toJson := by
  refine ⟨?_, hpath, ?_, ⟨_, rfl⟩, ?_, utf8_of_validSHA256 hsha, trivial⟩ <;> decide

theorem soundItems_map {α : Type} {f : α → Json} {l : List α} (h : ∀ a ∈ l, Sound (f a)) :
    SoundItems (l.map f) := by
  induction l with
  | nil => trivial
  | cons a l ih =>
    exact ⟨h a List.mem_cons_self, ih fun b hb => h b (List.mem_cons_of_mem _ hb)⟩

theorem Manifest.sound_toJson {m : Manifest} (h : m.Valid) (hutf8 : m.Utf8) :
    Sound m.toJson := by
  obtain ⟨r, hr, hentry⟩ := h.entrypoint
  have hfiles : SoundItems (m.files.map FileRecord.toJson) := soundItems_map fun r hr =>
    FileRecord.sound_toJson (hutf8 r hr) (h.record r hr).2.2
  refine ⟨by decide, ⟨_, rfl⟩, by decide, ?_, by decide, hentry ▸ hutf8 r hr, by decide, hfiles,
    trivial⟩
  rw [Sound, h.format]
  decide

theorem Manifest.encode_injective {m₁ m₂ : Manifest} (h₁ : m₁.Valid) (h₂ : m₂.Valid)
    (hutf8₁ : m₁.Utf8) (hutf8₂ : m₂.Utf8) (h : m₁.encode = m₂.encode) : m₁ = m₂ := by
  have hread₁ : decodeDocument Manifest.fields Manifest.zero m₁.encode = .ok m₁ :=
    decodeDocument_encode (m₁.sound_toJson h₁ hutf8₁) m₁.ofJson_toJson
  have hread₂ : decodeDocument Manifest.fields Manifest.zero m₂.encode = .ok m₂ :=
    decodeDocument_encode (m₂.sound_toJson h₂ hutf8₂) m₂.ofJson_toJson
  rw [h, hread₂] at hread₁
  exact (Except.ok.inj hread₁).symm

/-- **A canonical manifest is read back.** -/
theorem decodeManifest_encode {m : Manifest} (h : validateManifest m = .ok ()) (hutf8 : m.Utf8)
    (hsize : m.encode.length ≤ maxResultBytes) : decodeManifest m.encode = .ok m := by
  have hdoc : decodeDocument Manifest.fields Manifest.zero m.encode = .ok m :=
    decodeDocument_encode (m.sound_toJson (validateManifest_ok h) hutf8) m.ofJson_toJson
  unfold decodeManifest
  rw [if_neg (Nat.not_lt.2 hsize), hdoc]
  simp [h, canonicalManifest_of_ok h, bind, Except.bind, pure, Except.pure]

end Kama.Artifact
