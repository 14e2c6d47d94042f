import Kama.Artifact.Storage

/-!
# Content that matches its manifest

What the validation of `storage_linux.go` accepts, said without the code that reads it:

* `Matches m f`: the contents `f` of the files of the manifest `m` have the sizes and digests that
  it lists and are a valid GGUF set. `Content t base m`: the directory `base` holds such files.
* `safe_validateManifestContent`, `safe_validatePublished`: reading such a directory succeeds and
  gives back the manifest, whatever other processes do that keep the files.
* `sound_marker`, `sound_intent`: what is written about an operation is JSON that is read back.
-/

namespace Kama.Artifact

open Bytes FileTree Program Json

/-- The digest under which the content of a manifest is published. -/
def Manifest.digest (m : Manifest) : Bytes := hexSHA256 m.encode

theorem manifestDigest_eq_digest {m : Manifest} (h : validateManifest m = .ok ()) :
    manifestDigest m = .ok m.digest :=
  manifestDigest_of_ok h

namespace Storage

/-! ## Matching content -/

/-- The documents of the files of the records, when `f` gives their contents. -/
def parseFiles (f : Bytes → Bytes) :
    List FileRecord → Except Err (List (Bytes × Gguf.Document))
  | [] => .ok []
  | record :: records => do
    let document ← (Gguf.parseGGUF (f record.path)).mapError fun e =>
      .failure .invalidGGUF "parse GGUF" (.wrap "%s: %w" [record.path] e)
    let documents ← parseFiles f records
    pure ((record.path, document) :: documents)

/-- `ValidateGGUFSet` on these contents. -/
def setMetadata (m : Manifest) (f : Bytes → Bytes) : Except Err Gguf.Metadata := do
  let documents ← parseFiles f m.files
  Gguf.checkSet m documents

/-- `f` gives the content of every file of the manifest, and they are a valid GGUF set. -/
structure Matches (m : Manifest) (f : Bytes → Bytes) (metadata : Gguf.Metadata) : Prop where
  valid : validateManifest m = .ok ()
  size : ∀ r ∈ m.files, Int64.ofNat (f r.path).length = r.size
  sha256 : ∀ r ∈ m.files, hexSHA256 (f r.path) = r.sha256
  entrypoint : Gguf.validateShardEntrypoint m.entrypoint = .ok ()
  set : setMetadata m f = .ok metadata

theorem Matches.documents {m : Manifest} {f : Bytes → Bytes} {metadata : Gguf.Metadata}
    (h : Matches m f metadata) : ∃ documents, parseFiles f m.files = .ok documents ∧
      Gguf.checkSet m documents = .ok metadata := by
  have hset := h.set
  unfold setMetadata at hset
  cases hdocs : parseFiles f m.files with
  | error e => simp [hdocs, bind, Except.bind] at hset
  | ok documents => exact ⟨documents, rfl, by simpa [hdocs, bind, Except.bind] using hset⟩

/-- The files of the manifest are below `base`, with the contents `f`. -/
def Holds (t : Cache) (base : Path) (m : Manifest) (f : Bytes → Bytes) : Prop :=
  ∀ r ∈ m.files, t.get (filePath base r.path) = some (.file (f r.path))

/-- The files below `base` are those of the manifest. -/
def Content (t : Cache) (base : Path) (m : Manifest) : Prop :=
  ∃ f metadata, Matches m f metadata ∧ Holds t base m f

theorem Holds.frame {t t' : Cache} {base : Path} {m : Manifest} {f : Bytes → Bytes}
    (h : Holds t base m f)
    (hframe : ∀ r ∈ m.files, t'.get (filePath base r.path) = t.get (filePath base r.path)) :
    Holds t' base m f := by
  intro r hr
  rw [hframe r hr]
  exact h r hr

theorem Content.frame {t t' : Cache} {base : Path} {m : Manifest} (h : Content t base m)
    (hframe : ∀ r ∈ m.files, t'.get (filePath base r.path) = t.get (filePath base r.path)) :
    Content t' base m := by
  obtain ⟨f, metadata, hm, hf⟩ := h
  exact ⟨f, metadata, hm, hf.frame hframe⟩

theorem map_fst_parseFiles {f : Bytes → Bytes} {rs : List FileRecord}
    {documents : List (Bytes × Gguf.Document)} (h : parseFiles f rs = .ok documents) :
    documents.map Prod.fst = rs.map FileRecord.path := by
  induction rs generalizing documents with
  | nil =>
    obtain rfl := Except.ok.inj h
    rfl
  | cons r rs ih =>
    simp only [parseFiles, bind, Except.bind] at h
    split at h
    · simp at h
    split at h
    · simp at h
    rename_i rest hrest
    obtain rfl := Except.ok.inj h
    simp [ih hrest]

theorem getLast?_joinSlash (l : List Bytes) (c : Bytes) {suffix : Bytes} (hsuffix : suffix ≠ []) :
    (joinSlash (l ++ [c ++ suffix])).getLast? = suffix.getLast? := by
  induction l with
  | nil => exact List.getLast?_append_of_ne_nil c hsuffix
  | cons d l ih =>
    have hne : joinSlash (l ++ [c ++ suffix]) ≠ [] := by
      cases l with
      | nil => simp [joinSlash, hsuffix]
      | cons e l => simp [joinSlash_cons]
    rw [List.cons_append, joinSlash_cons (by simp), List.getLast?_append_of_ne_nil _ (by simp),
      List.getLast?_cons_of_ne_nil hne, ih]

/-- The checkpoint of a file of a valid set is not itself a file of the set. -/
theorem Matches.resumePath_ne {m : Manifest} {f : Bytes → Bytes} {metadata : Gguf.Metadata}
    (h : Matches m f metadata) (base : Path) {r r' : FileRecord} (hr : r ∈ m.files)
    (hr' : r' ∈ m.files) : resumePath base r.path ≠ filePath base r'.path := by
  have hsplit : ∀ path : Bytes, ∃ dir name, splitSlash path = dir ++ [name] := fun path => by
    rcases List.eq_nil_or_concat (splitSlash path) with h | ⟨dir, name, h⟩
    · exact absurd h (splitSlash_ne_nil path)
    · exact ⟨dir, name, by simpa using h⟩
  obtain ⟨dir, name, hname⟩ := hsplit r.path
  obtain ⟨dir', name', hname'⟩ := hsplit r'.path
  intro heq
  have hlast : name ++ ascii ".resume.json" = name' := by
    have := congrArg List.getLast? heq
    simpa [resumePath, checkpointPath, filePath, hname, hname', ← List.append_assoc] using this
  obtain ⟨documents, hdocs, hset⟩ := h.documents
  have hpaths := map_fst_parseFiles hdocs
  rcases Gguf.checkSet_ok hset with hone | hshards
  · -- the only file is not its own checkpoint
    have hlen : m.files.length = 1 := by
      rw [← hone, ← List.length_map (f := Prod.fst), hpaths, List.length_map]
    obtain ⟨r'', hfiles⟩ := List.length_eq_one_iff.1 hlen
    obtain rfl : r = r'' := by simpa [hfiles] using hr
    obtain rfl : r' = r := by simpa [hfiles] using hr'
    have hsame : dir ++ [name] = dir' ++ [name'] := hname.symm.trans hname'
    obtain rfl : name = name' := by simpa using congrArg List.getLast? hsame
    have hnil : ascii ".resume.json" = [] := List.append_right_eq_self.1 hlast
    exact absurd hnil (by decide)
  · -- a shard ends in `f`, a checkpoint in `n`
    have hmem : r'.path ∈ documents.map Prod.fst := by
      rw [hpaths]
      exact List.mem_map_of_mem hr'
    obtain ⟨d, hd, hdpath⟩ := List.mem_map.1 hmem
    obtain ⟨stem, index, count, hshard⟩ := hshards d hd
    have hf : r'.path.getLast? = some 102 := by
      rw [← hdpath, hshard, Gguf.siblingName, Gguf.shardName, getLast?_joinSlash _ _ (by decide)]
      decide
    have hn : r'.path.getLast? = some 110 := by
      rw [← joinSlash_splitSlash r'.path, hname', ← hlast,
        getLast?_joinSlash _ _ (by decide)]
      decide
    rw [hf] at hn
    exact absurd hn (by decide)

/-! ## Valid paths -/

theorem validComponent_of_bytes {c : Bytes} (hdots : ascii "." ≠ c ∧ ascii ".." ≠ c)
    (hne : c ≠ []) (h : ∀ b ∈ c, isOperationByte b = true) : validComponent c = true := by
  simp only [validComponent, decide_eq_true_eq]
  refine ⟨hne, hdots.1.symm, hdots.2.symm, ?_, ?_, ?_⟩ <;>
    exact fun hb => absurd (h _ hb) (by decide)

theorem isOperationByte_of_isHexLower {b : UInt8} (h : isHexLower b = true) :
    isOperationByte b = true := by
  simp only [isHexLower, Bool.or_eq_true, decide_eq_true_eq] at h
  rcases h with h | ⟨hlow, hhigh⟩
  · simp [isOperationByte, isAlphanumeric, h]
  · have hlower : isLower b = true := decide_eq_true ⟨hlow, UInt8.le_trans hhigh (by decide)⟩
    simp [isOperationByte, isAlphanumeric, hlower]

theorem validComponent_digest {digest : Bytes} (h : validSHA256 digest = true) :
    validComponent digest = true := by
  simp only [validSHA256, Bool.and_eq_true, beq_iff_eq, List.all_eq_true] at h
  refine validComponent_of_bytes ⟨?_, ?_⟩ ?_ fun b hb => isOperationByte_of_isHexLower (h.2 b hb)
  · rintro rfl
    exact absurd h.1 (by decide)
  · rintro rfl
    exact absurd h.1 (by decide)
  · rintro rfl
    exact absurd h.1 (by decide)

/-- Every component of the path can be a file name. -/
def ValidComponents (p : Path) : Prop := ∀ c ∈ p, validComponent c = true

theorem ValidComponents.append {p q : Path} (hp : ValidComponents p) (hq : ValidComponents q) :
    ValidComponents (p ++ q) := by
  intro c hc
  rcases List.mem_append.1 hc with hc | hc
  · exact hp c hc
  · exact hq c hc

theorem validComponents_published {digest : Bytes} (h : validSHA256 digest = true) :
    ValidComponents (publishedRelative digest) := by
  intro c hc
  simp only [publishedRelative, blobsDir, List.mem_append, List.mem_cons, List.not_mem_nil,
    or_false] at hc
  rcases hc with (rfl | rfl) | rfl
  · decide
  · decide
  · exact validComponent_digest h

theorem validSHA256_digest (m : Manifest) : validSHA256 m.digest = true :=
  validSHA256_hexSHA256 _

theorem ValidComponents.filePath {base : Path} {path : Bytes} (hbase : ValidComponents base)
    (hpath : validateRelativePath path = .ok ()) : ValidComponents (filePath base path) :=
  hbase.append ((validateRelativePath_eq_ok_iff path).1 hpath)

theorem validatePath_filePath {base : Path} {path : Bytes} (hbase : ValidComponents base)
    (hpath : validateRelativePath path = .ok ()) : validatePath (filePath base path) = .ok () :=
  validatePath_eq_ok (by simp [Storage.filePath, splitSlash_ne_nil]) (hbase.filePath hpath)

theorem validatePath_child {base : Path} {name : Bytes} (hbase : ValidComponents base)
    (hname : validComponent name = true) : validatePath (base ++ [name]) = .ok () :=
  validatePath_eq_ok (by simp) (hbase.append (by simpa [ValidComponents] using hname))

theorem validatePath_manifest (m : Manifest) :
    validatePath (publishedRelative m.digest ++ [manifestFilename]) = .ok () := by
  have hname : validComponent manifestFilename = true := by decide
  exact validatePath_child (validComponents_published (validSHA256_digest m)) hname

theorem validatePath_ready (m : Manifest) : validatePath (readyPath m.digest) = .ok () := by
  have hname : validComponent readyFilename = true := by decide
  exact validatePath_child (validComponents_published (validSHA256_digest m)) hname

/-! ## Reading -/

theorem readNode_file {t : Cache} {p : Path} {content : Bytes} (hwf : t.Wf)
    (h : t.get p = some (.file content)) : FsOp.readNode t p = .ok (some content) := by
  have hp : p ≠ [] := by
    rintro rfl
    simp at h
  have hparent : t.get p.dropLast = some .dir := by
    refine hwf _ (p.getLast hp) ?_
    simp [List.dropLast_append_getLast hp, h]
  simp [FsOp.readNode, hwf.checkDir hparent, h]

section Reading

variable {C : Contract CacheOp Cache} {L : Cache → Prop} {i : Pid} {E : Err → Cache → Prop}
  {s : Cache}

theorem safe_validate {op : String} {p : Path} {Q : Unit → Cache → Prop}
    (hp : validatePath p = .ok ()) (hs : Q () s) :
    SafeEx FsOp.kernel i C (validate op p) Q E s := by
  unfold validate
  rw [hp]
  exact SafeEx.ofExcept hs

theorem safe_readRegular {p : Path} {content : Bytes} (hp : validatePath p = .ok ())
    (hL : FsOp.Steady C L) (hs : L s)
    (hget : ∀ t, C.inv t → L t → t.get p = some (.file content)) :
    SafeEx FsOp.kernel i C (readRegular p) (fun c t => c = content ∧ L t) E s := by
  refine SafeEx.bind (safe_validate hp (SafeEx.bind ?_))
  refine FsOp.safe_look trivial hL hs fun t hinv ht => ?_
  have hread : (FsOp.run t (.readFile p)).1 = (.ok (some content) : Except Errno (Option Bytes)) :=
    readNode_file (hL.wf hinv) (hget t hinv ht)
  rw [hread]
  exact SafeEx.bind (SafeEx.ofExcept (SafeEx.pure ⟨rfl, ht⟩))

theorem hashFile_eq_ok {path content : Bytes} (h : validateRelativePath path = .ok ()) :
    hashFile path content = .ok ⟨path, Int64.ofNat content.length, hexSHA256 content⟩ := by
  simp [hashFile, h, Except.mapError, bind, Except.bind, pure, Except.pure]

variable {base : Path} {m : Manifest} {f : Bytes → Bytes} {metadata : Gguf.Metadata}

theorem safe_validateFiles (hbase : ValidComponents base) (hL : FsOp.Steady C L)
    (hm : Matches m f metadata) (hholds : ∀ t, C.inv t → L t → Holds t base m f)
    {rs : List FileRecord} (hrs : ∀ r ∈ rs, r ∈ m.files) (hs : L s) :
    SafeEx FsOp.kernel i C (validateFiles base rs) (fun _ => L) E s := by
  induction rs generalizing s with
  | nil => exact SafeEx.pure hs
  | cons r rs ih =>
    have hr : r ∈ m.files := hrs r List.mem_cons_self
    have hpath := ((validateManifest_ok hm.valid).record r hr).1
    refine SafeEx.bind (SafeEx.mono ?_ (fun _ _ h => h)
      (safe_readRegular (validatePath_filePath hbase hpath) hL hs
        fun t hinv ht => hholds t hinv ht r hr))
    rintro c t ⟨rfl, ht⟩
    refine SafeEx.bind ?_
    rw [hashFile_eq_ok hpath]
    refine SafeEx.ofExcept ?_
    have hsame : ¬ (Int64.ofNat (f r.path).length ≠ r.size ∨ hexSHA256 (f r.path) ≠ r.sha256) := by
      simp [hm.size r hr, hm.sha256 r hr]
    show SafeEx _ _ _ (if _ then _ else _) _ _ _
    rw [if_neg hsame]
    exact ih (fun r' hr' => hrs r' (List.mem_cons_of_mem r hr')) ht

theorem safe_readDocuments (hbase : ValidComponents base) (hL : FsOp.Steady C L)
    (hvalid : m.Valid) (hholds : ∀ t, C.inv t → L t → Holds t base m f)
    {rs : List FileRecord} (hrs : ∀ r ∈ rs, r ∈ m.files) {documents : List (Bytes × Gguf.Document)}
    (hdocs : parseFiles f rs = .ok documents) (hs : L s) :
    SafeEx FsOp.kernel i C (readDocuments base rs) (fun ds t => ds = documents ∧ L t) E s := by
  induction rs generalizing s documents with
  | nil => exact SafeEx.pure ⟨Except.ok.inj hdocs, hs⟩
  | cons r rs ih =>
    have hr : r ∈ m.files := hrs r List.mem_cons_self
    have hpath := (hvalid.record r hr).1
    refine SafeEx.bind (SafeEx.mono ?_ (fun _ _ h => h)
      (safe_readRegular (validatePath_filePath hbase hpath) hL hs
        fun t hinv ht => hholds t hinv ht r hr))
    rintro c t ⟨rfl, ht⟩
    simp only [parseFiles, bind, Except.bind] at hdocs
    split at hdocs
    · simp at hdocs
    rename_i document hdocument
    split at hdocs
    · simp at hdocs
    rename_i rest hrest
    obtain rfl := Except.ok.inj hdocs
    refine SafeEx.bind ?_
    rw [hdocument]
    refine SafeEx.ofExcept (SafeEx.bind (SafeEx.mono ?_ (fun _ _ h => h)
      (ih (fun r' hr' => hrs r' (List.mem_cons_of_mem r hr')) hrest ht)))
    rintro ds u ⟨rfl, hu⟩
    exact SafeEx.pure ⟨rfl, hu⟩

theorem safe_validateGGUFSet (hbase : ValidComponents base) (hL : FsOp.Steady C L)
    (hm : Matches m f metadata) (hholds : ∀ t, C.inv t → L t → Holds t base m f) (hs : L s) :
    SafeEx FsOp.kernel i C (validateGGUFSet base m) (fun md t => md = metadata ∧ L t) E s := by
  obtain ⟨documents, hdocs, hset⟩ := hm.documents
  unfold validateGGUFSet
  rw [hm.valid, hm.entrypoint]
  refine SafeEx.bind (SafeEx.ofExcept (SafeEx.bind (SafeEx.ofExcept (SafeEx.bind ?_))))
  refine SafeEx.mono ?_ (fun _ _ h => h) (safe_readDocuments hbase hL (validateManifest_ok hm.valid)
    hholds (fun _ hr => hr) hdocs hs)
  rintro ds t ⟨rfl, ht⟩
  rw [hset]
  exact SafeEx.ofExcept ⟨rfl, ht⟩

/-- **Content that matches its manifest is accepted.** -/
theorem safe_validateManifestContent (hbase : ValidComponents base) (hL : FsOp.Steady C L)
    (hm : Matches m f metadata) (hholds : ∀ t, C.inv t → L t → Holds t base m f) (hs : L s) :
    SafeEx FsOp.kernel i C (validateManifestContent base m)
      (fun md t => md = metadata ∧ L t) E s := by
  unfold validateManifestContent
  rw [hm.valid]
  refine SafeEx.bind (SafeEx.ofExcept (SafeEx.bind ?_))
  refine SafeEx.mono (fun _ t ht => ?_) (fun _ _ h => h)
    (safe_validateFiles hbase hL hm hholds (fun _ hr => hr) hs)
  exact safe_validateGGUFSet hbase hL hm hholds ht

/-- Once its manifest has been read, the rest of a publication is accepted. -/
theorem safe_validatePublishedContent_of_read (hutf8 : m.Utf8)
    (hsize : m.encode.length ≤ maxResultBytes) (hL : FsOp.Steady C L)
    (hm : Matches m f metadata)
    (hholds : ∀ t, C.inv t → L t → Holds t (publishedRelative m.digest) m f)
    (hread : SafeEx FsOp.kernel i C (readRegular (publishedRelative m.digest ++ [manifestFilename]))
      (fun c t => c = m.encode ∧ L t) E s) :
    SafeEx FsOp.kernel i C (validatePublishedContent m.digest)
      (fun r t => r = (m, metadata) ∧ L t) E s := by
  unfold validatePublishedContent readManifest
  rw [if_neg (by simp [validSHA256_digest])]
  refine SafeEx.bind (SafeEx.bind (SafeEx.mono ?_ (fun _ _ h => h) hread))
  rintro c t ⟨rfl, ht⟩
  rw [decodeManifest_encode hm.valid hutf8 hsize]
  refine SafeEx.ofExcept (SafeEx.bind ?_)
  rw [manifestDigest_of_ok hm.valid]
  refine SafeEx.ofExcept ?_
  show SafeEx _ _ _ (if _ then _ else _) _ _ _
  rw [if_neg (by simp [Manifest.digest])]
  refine SafeEx.bind (SafeEx.mono ?_ (fun _ _ h => h)
    (safe_validateManifestContent (validComponents_published (validSHA256_digest m)) hL hm hholds
      ht))
  rintro md u ⟨rfl, hu⟩
  exact SafeEx.pure ⟨rfl, hu⟩

/-- **A publication whose files match is accepted.** -/
theorem safe_validatePublishedContent (hutf8 : m.Utf8)
    (hsize : m.encode.length ≤ maxResultBytes) (hL : FsOp.Steady C L)
    (hm : Matches m f metadata)
    (hmanifest : ∀ t, C.inv t → L t →
      t.get (publishedRelative m.digest ++ [manifestFilename]) = some (.file m.encode))
    (hholds : ∀ t, C.inv t → L t → Holds t (publishedRelative m.digest) m f) (hs : L s) :
    SafeEx FsOp.kernel i C (validatePublishedContent m.digest)
      (fun r t => r = (m, metadata) ∧ L t) E s :=
  safe_validatePublishedContent_of_read hutf8 hsize hL hm hholds
    (safe_readRegular (validatePath_manifest m) hL hs hmanifest)

theorem safe_validatePublished (hutf8 : m.Utf8)
    (hsize : m.encode.length ≤ maxResultBytes) (hL : FsOp.Steady C L)
    (hm : Matches m f metadata)
    (hmanifest : ∀ t, C.inv t → L t →
      t.get (publishedRelative m.digest ++ [manifestFilename]) = some (.file m.encode))
    (hholds : ∀ t, C.inv t → L t → Holds t (publishedRelative m.digest) m f)
    (hready : ∀ t, C.inv t → L t →
      t.get (readyPath m.digest) = some (.file (readyLine m.digest))) (hs : L s) :
    SafeEx FsOp.kernel i C (validatePublished m.digest)
      (fun r t => r = (m, metadata) ∧ L t) E s := by
  unfold validatePublished
  refine SafeEx.bind (SafeEx.mono ?_ (fun _ _ h => h)
    (safe_validatePublishedContent hutf8 hsize hL hm hmanifest hholds hs))
  rintro r t ⟨rfl, ht⟩
  refine SafeEx.bind (SafeEx.attempt (SafeEx.mono ?_ (fun _ _ h => h.elim)
    (safe_readRegular (E := fun _ _ => False) (validatePath_ready m) hL ht hready)))
  rintro c u ⟨rfl, hu⟩
  show SafeEx _ _ _ (if _ then _ else _) _ _ _
  rw [if_neg (by simp)]
  exact SafeEx.pure ⟨rfl, hu⟩

end Reading

/-! ## Operation metadata -/

theorem all_isHexLower_of_validRevision {revision : Bytes} (h : validRevision revision = true) :
    revision.all isHexLower = true ∧ revision.length ≤ 64 := by
  simp only [validRevision, validHubCommit, Bool.or_eq_true, Bool.and_eq_true, beq_iff_eq,
    List.isEmpty_iff] at h
  rcases h with rfl | ⟨h | h, hall⟩
  · simp
  · exact ⟨hall, by omega⟩
  · exact ⟨hall, by omega⟩

theorem Marker.ofJson_toJson (marker : Marker) :
    decodeStruct Marker.fields Marker.zero marker.toJson = some marker := by
  have hidentity : Assigns fields [(ascii "schemaVersion", intJson marker.schemaVersion),
      (ascii "artifactDigest", .str marker.artifactDigest),
      (ascii "publicationDigest", .str marker.publicationDigest)] zero
      { marker with resolvedRevision := [] } :=
    .cons (assigns_int (fun i m => { m with schemaVersion := i }) rfl rfl)
      (.cons (assigns_string rfl rfl) (assigns_string rfl rfl))
  exact hidentity.append (assigns_omitString rfl rfl rfl)

theorem Intent.ofJson_toJson (intent : Intent) :
    decodeStruct Intent.fields Intent.zero intent.toJson = some intent := by
  have hidentity : Assigns fields [(ascii "schemaVersion", intJson intent.schemaVersion),
      (ascii "artifactDigest", .str intent.artifactDigest),
      (ascii "publicationDigest", .str intent.publicationDigest)] zero
      { intent with resolvedRevision := [], manifest := Manifest.zero } :=
    .cons (assigns_int (fun i m => { m with schemaVersion := i }) rfl rfl)
      (.cons (assigns_string rfl rfl) (assigns_string rfl rfl))
  have hmanifest : setManifest intent.manifest.toJson { intent with manifest := Manifest.zero } =
      some intent := by
    rw [setManifest, Manifest.ofJson_toJson, Option.map_some]
  exact (hidentity.append (assigns_omitString rfl rfl rfl)).append (.single rfl hmanifest)

/-- The marker of an operation. -/
def markerFor (m : Manifest) (revision : Bytes) : Marker :=
  ⟨schemaVersion, m.artifact, m.digest, revision⟩

/-- The intent of an operation. -/
def intentFor (m : Manifest) (revision : Bytes) : Intent :=
  ⟨schemaVersion, m.artifact, m.digest, revision, m⟩

section Canonical

variable {m : Manifest} {revision : Bytes} (hm : m.Valid)
  (hrevision : validRevision revision = true)
include hm hrevision

theorem sound_marker : Sound (markerFor m revision).toJson := by
  have hrev := utf8_of_hexLower (all_isHexLower_of_validRevision hrevision).1
  refine ⟨by decide, ⟨_, rfl⟩, by decide, utf8_of_validSHA256 (validSHA256_artifact hm), by decide,
    utf8_of_validSHA256 (validSHA256_digest m), ?_⟩
  exact soundMembers_omitempty (by decide) hrev

theorem sound_intent (hutf8 : m.Utf8) : Sound (intentFor m revision).toJson := by
  have hrev := utf8_of_hexLower (all_isHexLower_of_validRevision hrevision).1
  refine ⟨by decide, ⟨_, rfl⟩, by decide, utf8_of_validSHA256 (validSHA256_artifact hm), by decide,
    utf8_of_validSHA256 (validSHA256_digest m), ?_⟩
  exact soundMembers_append (soundMembers_omitempty (by decide) hrev)
    ⟨by decide, m.sound_toJson hm hutf8, trivial⟩

end Canonical

/-- Only what was written can be read back. -/
theorem eq_of_decodeCanonical {σ : Type} {fields : Fields σ} {zero v v' : σ} {toJson : σ → Json}
    {limit : Nat} (hsound : Sound (toJson v)) (hv : decodeStruct fields zero (toJson v) = some v)
    (h : decodeCanonical fields zero toJson limit (Json.encode (toJson v)) = .ok v') : v' = v := by
  unfold decodeCanonical at h
  rw [decodeDocument_encode hsound hv] at h
  split at h
  · simp at h
  · simpa using h.symm

end Storage

end Kama.Artifact
