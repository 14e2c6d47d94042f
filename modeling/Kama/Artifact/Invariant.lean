import Kama.Artifact.Content

/-!
# What holds in the cache between two calls

Several processes publish and recover operations in one cache, and each may stop at any point.
`Inv` is what holds between any two of their calls:

* everything published is complete, and its READY, if it is there, is the right one;
* an operation has either been published or has its files in staging;
* what is recorded about an operation (its intent and its marker) is what was decided, and a
  marker names something that is ready.

`Rely` is what no call takes back. `Keeps` collects, for each call that the code makes, why the
invariant holds afterwards; the fact that the process knows at that point is a parameter.

A `Scope` says for which operations, digests and manifests this is claimed.
-/

namespace Kama.Artifact.Storage

open Bytes FileTree Program Json

/-! ## Scopes -/

/-- The manifests that can be published: their names are text, they are within the limit of their
readers, and none of their files takes the place of READY or of the manifest. -/
structure Admissible (m : Manifest) : Prop where
  valid : validateManifest m = .ok ()
  utf8 : m.Utf8
  size : m.encode.length ≤ maxResultBytes
  ready : ∀ r ∈ m.files, r.path ≠ readyFilename
  manifest : ∀ r ∈ m.files, r.path ≠ manifestFilename

/-- What the processes are responsible for. -/
structure Scope where
  /-- nobody else works on these operations -/
  ops : Bytes → Prop
  /-- nobody else publishes under these digests -/
  digests : Bytes → Prop
  /-- the manifests under these digests -/
  named : Manifest → Prop
  /-- the manifest of the files in the staging directory of an operation -/
  manifest : Bytes → Option Manifest
  /-- the revisions that an operation may have been resolved to -/
  revision : Bytes → Bytes → Prop
  ops_of_manifest : ∀ {op m}, manifest op = some m → ops op
  digest_of_manifest : ∀ {op m}, manifest op = some m → digests m.digest
  named_of_manifest : ∀ {op m}, manifest op = some m → named m
  admissible : ∀ {op m}, manifest op = some m → Admissible m
  revision_valid : ∀ {op rev}, revision op rev → validRevision rev = true

/-! ## The layout of the cache -/

theorem ne_of_take_two {p q : Path} (h : p.take 2 ≠ q.take 2) : p ≠ q := by
  rintro rfl
  exact h rfl

theorem published_ne_staging (d op : Bytes) (q r : Path) :
    publishedRelative d ++ q ≠ stagingPath op ++ r :=
  ne_of_take_two (show blobsDir ≠ stagingDir by decide)

theorem published_ne_intent (d op : Bytes) (q : Path) : publishedRelative d ++ q ≠ intentPath op :=
  ne_of_take_two (show blobsDir ≠ intentsDir by decide)

theorem published_ne_marker (d op : Bytes) (q : Path) : publishedRelative d ++ q ≠ markerPath op :=
  ne_of_take_two (show blobsDir ≠ operationsDir by decide)

theorem staging_ne_intent (op op' : Bytes) (q : Path) : stagingPath op ++ q ≠ intentPath op' :=
  ne_of_take_two (show stagingDir ≠ intentsDir by decide)

theorem staging_ne_marker (op op' : Bytes) (q : Path) : stagingPath op ++ q ≠ markerPath op' :=
  ne_of_take_two (show stagingDir ≠ operationsDir by decide)

theorem intent_ne_marker (op op' : Bytes) : intentPath op ≠ markerPath op' :=
  ne_of_take_two (show intentsDir ≠ operationsDir by decide)

theorem staging_append_inj {op op' : Bytes} {q q' : Path}
    (h : stagingPath op ++ q = stagingPath op' ++ q') : op = op' ∧ q = q' := by
  simpa [stagingPath] using h

theorem published_append_inj {d d' : Bytes} {q q' : Path}
    (h : publishedRelative d ++ q = publishedRelative d' ++ q') : d = d' ∧ q = q' := by
  simpa [publishedRelative] using h

theorem intentPath_inj {op op' : Bytes} (h : intentPath op = intentPath op') : op = op' := by
  simpa [intentPath] using h

theorem markerPath_inj {op op' : Bytes} (h : markerPath op = markerPath op') : op = op' := by
  simpa [markerPath] using h

theorem splitSlash_eq_singleton {path name : Bytes} (h : splitSlash path = [name]) :
    path = name := by
  rw [← joinSlash_splitSlash path, h]
  rfl

/-- Paths on which nothing depends: the directories down to those of an operation. -/
structure Neutral (p : Path) : Prop where
  published : ∀ d q, publishedRelative d ++ q ≠ p
  staging : ∀ op q, q ≠ [] → stagingPath op ++ q ≠ p
  intent : ∀ op, intentPath op ≠ p
  marker : ∀ op, markerPath op ≠ p

theorem neutral_of_length {p : Path} (h : p.length ≤ 2) : Neutral p where
  published d q := by
    rintro rfl
    simp [publishedRelative, blobsDir] at h
  staging op q hq := by
    rintro rfl
    simp [stagingPath, stagingDir] at h
  intent op := by
    rintro rfl
    simp [intentPath, intentsDir] at h
  marker op := by
    rintro rfl
    simp [markerPath, operationsDir] at h

theorem neutral_stagingPath (op : Bytes) : Neutral (stagingPath op) where
  published d q := by
    rw [← List.append_nil (stagingPath op)]
    exact published_ne_staging d op q []
  staging op' q hq heq := by
    rw [← List.append_nil (stagingPath op)] at heq
    exact hq (staging_append_inj heq).2
  intent op' heq := by
    have := staging_ne_intent op op' []
    rw [List.append_nil] at this
    exact this heq.symm
  marker op' heq := by
    have := staging_ne_marker op op' []
    rw [List.append_nil] at this
    exact this heq.symm

/-! ## The invariant -/

def PublishedAt (d : Bytes) (s : Cache) : Prop := s.get (publishedRelative d) ≠ none

def ReadyAt (d : Bytes) (s : Cache) : Prop := s.get (readyPath d) = some (.file (readyLine d))

/-- The staging directory has its manifest, or has already been published. -/
def WrittenAt (op : Bytes) (m : Manifest) (s : Cache) : Prop :=
  s.get (stagingPath op ++ [manifestFilename]) = some (.file m.encode) ∨ PublishedAt m.digest s

/-- What is under the digest `d` is complete. -/
structure Publication (s : Cache) (d : Bytes) (m : Manifest) : Prop where
  digest : m.digest = d
  admissible : Admissible m
  manifest : s.get (publishedRelative d ++ [manifestFilename]) = some (.file m.encode)
  content : Content s (publishedRelative d) m
  ready : ∀ {node}, s.get (readyPath d) = some node → node = .file (readyLine d)

/-- The files of the operation are in staging. -/
structure Staged (s : Cache) (op : Bytes) (m : Manifest) : Prop where
  content : Content s (stagingPath op) m
  ready : s.get (stagingPath op ++ [readyFilename]) = none

/-- What holds between any two calls. -/
structure Inv (S : Scope) (s : Cache) : Prop where
  wf : s.Wf
  publications : ∀ {d}, S.digests d → PublishedAt d s → ∃ m, S.named m ∧ Publication s d m
  stages : ∀ {op m}, S.manifest op = some m → PublishedAt m.digest s ∨ Staged s op m
  intents : ∀ {op node}, S.ops op → s.get (intentPath op) = some node →
    ∃ m rev, S.manifest op = some m ∧ S.revision op rev ∧
      node = .file (Json.encode (intentFor m rev).toJson)
  markers : ∀ {op node}, S.ops op → s.get (markerPath op) = some node →
    ∃ m rev, S.manifest op = some m ∧ S.revision op rev ∧
      node = .file (Json.encode (markerFor m rev).toJson) ∧ ReadyAt m.digest s

/-- What no call takes back. -/
structure Rely (S : Scope) (s t : Cache) : Prop where
  published : ∀ {d}, S.digests d → PublishedAt d s → PublishedAt d t
  ready : ∀ {d}, S.digests d → ReadyAt d s → ReadyAt d t
  written : ∀ {op m}, S.manifest op = some m → WrittenAt op m s → WrittenAt op m t

theorem Rely.refl (S : Scope) (s : Cache) : Rely S s s := ⟨fun _ h => h, fun _ h => h, fun _ h => h⟩

theorem Rely.trans {S : Scope} {s t u : Cache} (h : Rely S s t) (h' : Rely S t u) : Rely S s u :=
  ⟨fun hd hs => h'.published hd (h.published hd hs), fun hd hs => h'.ready hd (h.ready hd hs),
    fun hm hs => h'.written hm (h.written hm hs)⟩

theorem Publication.published {s : Cache} {d : Bytes} {m : Manifest} (h : Publication s d m)
    (hwf : s.Wf) : s.get (publishedRelative d) = some .dir :=
  hwf _ manifestFilename (by simp [h.manifest])

section Frames

variable {S : Scope} {s t : Cache} {d op : Bytes} {m : Manifest}

theorem Publication.frame (h : Publication s d m)
    (hframe : ∀ q, t.get (publishedRelative d ++ q) = s.get (publishedRelative d ++ q)) :
    Publication t d m where
  digest := h.digest
  admissible := h.admissible
  manifest := by rw [hframe, h.manifest]
  content := h.content.frame fun r _ => hframe (splitSlash r.path)
  ready hnode := h.ready (by rwa [readyPath, hframe] at hnode)

theorem Staged.frame (h : Staged s op m)
    (hfiles : ∀ r ∈ m.files, t.get (filePath (stagingPath op) r.path) =
      s.get (filePath (stagingPath op) r.path))
    (hready : t.get (stagingPath op ++ [readyFilename]) =
      s.get (stagingPath op ++ [readyFilename])) : Staged t op m :=
  ⟨h.content.frame hfiles, by rw [hready, h.ready]⟩

end Frames

/-! ### Changes at one path -/

section OnePath

variable {S : Scope} {s t : Cache} {p : Path} (h : Inv S s)
  (hsame : ∀ q, q ≠ p → t.get q = s.get q)
include hsame

theorem publishedAt_of_same (hp : ∀ d q, publishedRelative d ++ q ≠ p) (d : Bytes) :
    PublishedAt d t ↔ PublishedAt d s := by
  have hget := hsame (publishedRelative d) (by simpa using hp d [])
  rw [PublishedAt, PublishedAt, hget]

theorem readyAt_of_same (hp : ∀ d q, publishedRelative d ++ q ≠ p) (d : Bytes) :
    ReadyAt d t ↔ ReadyAt d s := by
  rw [ReadyAt, ReadyAt, hsame (readyPath d) (hp d _)]

include h

theorem Inv.publications_of_same (hp : ∀ d q, publishedRelative d ++ q ≠ p) {d : Bytes}
    (hd : S.digests d) (hpub : PublishedAt d t) : ∃ m, S.named m ∧ Publication t d m := by
  obtain ⟨m, hm, hpublication⟩ := h.publications hd ((publishedAt_of_same hsame hp d).1 hpub)
  exact ⟨m, hm, hpublication.frame fun q => hsame _ (hp d q)⟩

theorem Inv.stages_of_same (hp : ∀ op q, q ≠ [] → stagingPath op ++ q ≠ p)
    (hpub : ∀ {d}, PublishedAt d s → PublishedAt d t) {op : Bytes} {m : Manifest}
    (hm : S.manifest op = some m) : PublishedAt m.digest t ∨ Staged t op m := by
  refine (h.stages hm).imp hpub fun hstaged => ?_
  exact hstaged.frame (fun r _ => hsame _ (hp op _ (splitSlash_ne_nil r.path)))
    (hsame _ (hp op _ (by simp)))

theorem Inv.intents_of_same (hp : ∀ op, intentPath op ≠ p) {op : Bytes} {node : Node Bytes}
    (hop : S.ops op) (hnode : t.get (intentPath op) = some node) :
    ∃ m rev, S.manifest op = some m ∧ S.revision op rev ∧
      node = .file (Json.encode (intentFor m rev).toJson) :=
  h.intents hop (by rwa [hsame _ (hp op)] at hnode)

theorem Inv.markers_of_same (hp : ∀ op, markerPath op ≠ p)
    (hready : ∀ {d}, S.digests d → ReadyAt d s → ReadyAt d t) {op : Bytes} {node : Node Bytes}
    (hop : S.ops op) (hnode : t.get (markerPath op) = some node) :
    ∃ m rev, S.manifest op = some m ∧ S.revision op rev ∧
      node = .file (Json.encode (markerFor m rev).toJson) ∧ ReadyAt m.digest t := by
  obtain ⟨m, rev, hm, hrev, hfile, hr⟩ := h.markers hop (by rwa [hsame _ (hp op)] at hnode)
  exact ⟨m, rev, hm, hrev, hfile, hready (S.digest_of_manifest hm) hr⟩

/-- A change outside of everything the invariant speaks about. -/
theorem Inv.of_neutral (hp : Neutral p) (hwf : t.Wf) : Inv S t ∧ Rely S s t := by
  have hpub : ∀ {d}, PublishedAt d s → PublishedAt d t :=
    fun {d} => (publishedAt_of_same hsame hp.published d).2
  have hready : ∀ {d}, ReadyAt d s → ReadyAt d t :=
    fun {d} => (readyAt_of_same hsame hp.published d).2
  refine ⟨⟨hwf, h.publications_of_same hsame hp.published,
    h.stages_of_same hsame hp.staging hpub, h.intents_of_same hsame hp.intent,
    h.markers_of_same hsame hp.marker fun _ => hready⟩, fun _ => hpub, fun _ => hready, ?_⟩
  intro op m _ hwritten
  refine hwritten.imp (fun hfile => ?_) hpub
  rwa [hsame _ (hp.staging op _ (by simp))]

/-- A change below the staging directory of an operation. -/
theorem Inv.of_staging {op : Bytes} {q : Path} (hp : p = stagingPath op ++ q) (hwf : t.Wf)
    (hstaged : ∀ {m}, S.manifest op = some m → PublishedAt m.digest s ∨
      Staged t op m ∧ (WrittenAt op m s → WrittenAt op m t)) : Inv S t ∧ Rely S s t := by
  have hpublished : ∀ d q, publishedRelative d ++ q ≠ p := fun d q' => by
    rw [hp]
    exact published_ne_staging d op q' q
  have hother : ∀ {op'}, op' ≠ op → ∀ q', stagingPath op' ++ q' ≠ p := fun hne q' heq =>
    hne (staging_append_inj (heq.trans hp)).1
  have hpub : ∀ {d}, PublishedAt d s → PublishedAt d t :=
    fun {d} => (publishedAt_of_same hsame hpublished d).2
  have hready : ∀ {d}, ReadyAt d s → ReadyAt d t :=
    fun {d} => (readyAt_of_same hsame hpublished d).2
  refine ⟨⟨hwf, h.publications_of_same hsame hpublished, fun {op' m} hm => ?_,
    h.intents_of_same hsame ?_, h.markers_of_same hsame ?_ fun _ => hready⟩, fun _ => hpub,
    fun _ => hready, fun {op' m} hm hwritten => ?_⟩
  · by_cases hop : op' = op
    · subst hop
      exact (hstaged hm).imp hpub And.left
    · refine (h.stages hm).imp hpub fun hst => ?_
      exact hst.frame (fun r _ => hsame _ (hother hop _)) (hsame _ (hother hop _))
  · intro op' heq
    exact staging_ne_intent op op' q (hp.symm.trans heq.symm)
  · intro op' heq
    exact staging_ne_marker op op' q (hp.symm.trans heq.symm)
  · by_cases hop : op' = op
    · subst hop
      rcases hstaged hm with hpubd | hst
      · exact .inr (hpub hpubd)
      · exact hst.2 hwritten
    · refine hwritten.imp (fun hfile => ?_) hpub
      rwa [hsame _ (hother hop _)]

end OnePath

/-! ## The calls -/

/-- A call that keeps the invariant and takes nothing back, in a state where `L` holds. -/
def Keeps (S : Scope) (L : Cache → Prop) (op : CacheOp) : Prop :=
  ∀ ⦃s t⦄, Inv S s → L s → FsOp.Effect s op t → Inv S t ∧ Rely S s t

section Keeps

variable {S : Scope} {L : Cache → Prop} {op : Bytes} {m : Manifest}

theorem keeps_reads {o : CacheOp} (ho : o.Reads) : Keeps S L o := by
  intro s t h _ he
  obtain rfl := he.eq_of_reads ho
  exact ⟨h, Rely.refl S _⟩

theorem keeps_mkdir {p : Path} (hp : Neutral p) : Keeps S L (.mkdir p) :=
  fun _ _ h _ he => h.of_neutral (fun _ hq => he.get_of_not_touches hq) hp (he.wf h.wf)

theorem keeps_mkdir_published {d : Bytes} :
    Keeps S (PublishedAt d) (.mkdir (publishedRelative d)) := by
  intro s t h hpub he
  cases he with
  | same => exact ⟨h, Rely.refl S s⟩
  | mkdir hp hparent => exact absurd hp hpub

theorem keeps_intent {rev : Bytes} (hm : S.manifest op = some m) (hrev : S.revision op rev) :
    Keeps S L (.replace (intentPath op) (Json.encode (intentFor m rev).toJson)) := by
  intro s t h _ he
  have hsame : ∀ q, q ≠ intentPath op → t.get q = s.get q :=
    fun q hq => he.get_of_not_touches hq
  have hwf := he.wf h.wf
  have hpublished : ∀ d q, publishedRelative d ++ q ≠ intentPath op :=
    fun d q => published_ne_intent d op q
  have hpub : ∀ {d}, PublishedAt d s → PublishedAt d t :=
    fun {d} => (publishedAt_of_same hsame hpublished d).2
  have hready : ∀ {d}, ReadyAt d s → ReadyAt d t :=
    fun {d} => (readyAt_of_same hsame hpublished d).2
  refine ⟨⟨hwf, h.publications_of_same hsame hpublished,
    h.stages_of_same hsame (fun op' q _ => staging_ne_intent op' op q) hpub, ?_,
    h.markers_of_same hsame (fun op' => (intent_ne_marker op op').symm) fun _ => hready⟩,
    fun _ => hpub, fun _ => hready, fun _ hw => hw.imp (fun hfile => ?_) hpub⟩
  · intro op' node hop' hnode
    by_cases hop : op' = op
    · subst hop
      cases he with
      | same => exact h.intents hop' hnode
      | replace content hp hparent =>
        rw [Tree.get_put s (by simp [intentPath]), if_pos rfl] at hnode
        exact ⟨m, rev, hm, hrev, (Option.some.inj hnode).symm⟩
    · rw [hsame _ fun heq => hop (intentPath_inj heq)] at hnode
      exact h.intents hop' hnode
  · rwa [hsame _ (staging_ne_intent _ op _)]

theorem keeps_marker {rev : Bytes} (hm : S.manifest op = some m) (hrev : S.revision op rev) :
    Keeps S (ReadyAt m.digest)
      (.replace (markerPath op) (Json.encode (markerFor m rev).toJson)) := by
  intro s t h hreadyAt he
  have hsame : ∀ q, q ≠ markerPath op → t.get q = s.get q :=
    fun q hq => he.get_of_not_touches hq
  have hwf := he.wf h.wf
  have hpublished : ∀ d q, publishedRelative d ++ q ≠ markerPath op :=
    fun d q => published_ne_marker d op q
  have hpub : ∀ {d}, PublishedAt d s → PublishedAt d t :=
    fun {d} => (publishedAt_of_same hsame hpublished d).2
  have hready : ∀ {d}, ReadyAt d s → ReadyAt d t :=
    fun {d} => (readyAt_of_same hsame hpublished d).2
  refine ⟨⟨hwf, h.publications_of_same hsame hpublished,
    h.stages_of_same hsame (fun op' q _ => staging_ne_marker op' op q) hpub,
    h.intents_of_same hsame (fun op' => intent_ne_marker op' op), ?_⟩,
    fun _ => hpub, fun _ => hready, fun _ hw => hw.imp (fun hfile => ?_) hpub⟩
  · intro op' node hop' hnode
    have hold : s.get (markerPath op') = some node →
        ∃ m rev, S.manifest op' = some m ∧ S.revision op' rev ∧
          node = .file (Json.encode (markerFor m rev).toJson) ∧ ReadyAt m.digest t := by
      intro hnode
      obtain ⟨m', rev', hm', hrev', hfile, hr⟩ := h.markers hop' hnode
      exact ⟨m', rev', hm', hrev', hfile, hready hr⟩
    by_cases hop : op' = op
    · subst hop
      cases he with
      | same => exact hold hnode
      | replace content hp hparent =>
        rw [Tree.get_put s (by simp [markerPath]), if_pos rfl] at hnode
        exact ⟨m, rev, hm, hrev, (Option.some.inj hnode).symm, hready hreadyAt⟩
    · rw [hsame _ fun heq => hop (markerPath_inj heq)] at hnode
      exact hold hnode
  · rwa [hsame _ (staging_ne_marker _ op _)]

theorem keeps_remove {o : CacheOp} {q : Path} (hm : S.manifest op = some m)
    (hq : stagingPath op <+: q) (ho : o = .unlink q ∨ o = .rmdir q) :
    Keeps S (PublishedAt m.digest) o := by
  intro s t h hpub he
  obtain ⟨r, rfl⟩ := hq
  have hsame : ∀ q', q' ≠ stagingPath op ++ r → t.get q' = s.get q' := by
    rcases ho with rfl | rfl <;> exact fun q' hq' => he.get_of_not_touches hq'
  refine h.of_staging hsame rfl (he.wf h.wf) fun {m'} hm' => .inl ?_
  obtain rfl : m = m' := Option.some.inj (hm.symm.trans hm')
  exact hpub

theorem resumePath_eq (base : Path) (path : Bytes) :
    resumePath base path = base ++ ((splitSlash path).dropLast ++
      [(splitSlash path).getLastD [] ++ ascii ".resume.json"]) := by
  have hne := splitSlash_ne_nil path
  simp only [resumePath, checkpointPath, filePath, List.getLastD_eq_getLast?]
  rw [List.dropLast_append_of_ne_nil hne, List.getLast?_append_of_ne_nil _ hne, List.append_assoc]

/-- A checkpoint is neither READY nor the manifest. -/
theorem resumePath_ne {name : Bytes} (hname : ¬ ascii ".resume.json" <:+ name) (base : Path)
    (path : Bytes) : resumePath base path ≠ base ++ [name] := by
  rw [resumePath_eq]
  intro heq
  have hlast := congrArg List.getLast? (List.append_cancel_left heq)
  rw [List.getLast?_append_of_ne_nil _ (by simp)] at hlast
  obtain rfl : _ = name := by simpa using hlast
  exact hname (List.suffix_append _ _)

theorem keeps_checkpoint {r : FileRecord} (hm : S.manifest op = some m) (hr : r ∈ m.files) :
    Keeps S L (.unlink (resumePath (stagingPath op) r.path)) := by
  intro s t h _ he
  have hsame : ∀ q, q ≠ resumePath (stagingPath op) r.path → t.get q = s.get q :=
    fun q hq => he.get_of_not_touches hq
  refine h.of_staging hsame (resumePath_eq _ _) (he.wf h.wf) fun {m'} hm' => ?_
  obtain rfl : m = m' := Option.some.inj (hm.symm.trans hm')
  have hpublished : ∀ d q, publishedRelative d ++ q ≠ resumePath (stagingPath op) r.path := by
    intro d q
    rw [resumePath_eq]
    exact published_ne_staging d op q _
  have hready := hsame (stagingPath op ++ [readyFilename]) (resumePath_ne (by decide) _ _).symm
  have hmanifest :=
    hsame (stagingPath op ++ [manifestFilename]) (resumePath_ne (by decide) _ _).symm
  refine (h.stages hm).imp_right fun hstaged => ?_
  obtain ⟨f, metadata, hmatches, -⟩ := hstaged.content
  have hfiles : ∀ r' ∈ m.files, t.get (filePath (stagingPath op) r'.path) =
      s.get (filePath (stagingPath op) r'.path) :=
    fun r' hr' => hsame _ (hmatches.resumePath_ne _ hr hr').symm
  refine ⟨hstaged.frame hfiles hready, fun hwritten => ?_⟩
  refine hwritten.imp (fun hfile => ?_) (publishedAt_of_same hsame hpublished _).2
  rwa [hmanifest]

theorem Admissible.filePath_ne_ready (hm : Admissible m) {r : FileRecord} (hr : r ∈ m.files)
    (base : Path) : filePath base r.path ≠ base ++ [readyFilename] := fun heq =>
  hm.ready r hr (splitSlash_eq_singleton (List.append_cancel_left heq))

theorem Admissible.filePath_ne_manifest (hm : Admissible m) {r : FileRecord} (hr : r ∈ m.files)
    (base : Path) : filePath base r.path ≠ base ++ [manifestFilename] := fun heq =>
  hm.manifest r hr (splitSlash_eq_singleton (List.append_cancel_left heq))

theorem keeps_manifest (hm : S.manifest op = some m) :
    Keeps S L (.replace (stagingPath op ++ [manifestFilename]) m.encode) := by
  intro s t h _ he
  cases he with
  | same => exact ⟨h, Rely.refl S s⟩
  | replace content hp hparent =>
    have hget := Tree.get_put s (p := stagingPath op ++ [manifestFilename]) (by simp)
      (.file m.encode)
    have hsame : ∀ q, q ≠ stagingPath op ++ [manifestFilename] →
        (s.put (stagingPath op ++ [manifestFilename]) (.file m.encode)).get q = s.get q :=
      fun q hq => by rw [hget, if_neg hq]
    have hwf := (FsOp.Effect.replace m.encode hp hparent).wf h.wf
    refine h.of_staging hsame rfl hwf fun {m'} hm' => ?_
    obtain rfl : m = m' := Option.some.inj (hm.symm.trans hm')
    have hadm := S.admissible hm
    have hready := hsame (stagingPath op ++ [readyFilename])
      (by simp [readyFilename, manifestFilename, ascii])
    refine (h.stages hm).imp_right fun hstaged => ⟨?_, fun _ => .inl (by rw [hget, if_pos rfl])⟩
    exact hstaged.frame (fun r hr => hsame _ (hadm.filePath_ne_manifest hr _)) hready

theorem keeps_ready {d : Bytes} :
    Keeps S (PublishedAt d) (.replace (readyPath d) (readyLine d)) := by
  intro s t h hpubd he
  cases he with
  | same => exact ⟨h, Rely.refl S s⟩
  | replace content hp hparent =>
    have hget := Tree.get_put s (p := readyPath d) (by simp [readyPath]) (.file (readyLine d))
    have hwf := (FsOp.Effect.replace (readyLine d) hp hparent).wf h.wf
    generalize s.put (readyPath d) (.file (readyLine d)) = t at hget hwf
    have hsame : ∀ q, q ≠ readyPath d → t.get q = s.get q := fun q hq => by rw [hget, if_neg hq]
    have hpub : ∀ {d'}, PublishedAt d' t ↔ PublishedAt d' s := fun {d'} => by
      rw [PublishedAt, PublishedAt, hsame]
      intro heq
      rw [← List.append_nil (publishedRelative d')] at heq
      exact absurd (published_append_inj heq).2 (by simp)
    have hready : ∀ {d'}, ReadyAt d' s → ReadyAt d' t := fun {d'} hr => by
      by_cases hd' : d' = d
      · subst hd'
        rw [ReadyAt, hget, if_pos rfl]
      · rwa [ReadyAt, hsame (readyPath d') fun heq => hd' (published_append_inj heq).1]
    refine ⟨⟨hwf, fun {d'} hd' hpub' => ?_,
      h.stages_of_same hsame (fun op' q _ => (published_ne_staging d op' _ q).symm) hpub.2,
      h.intents_of_same hsame fun op' => (published_ne_intent d op' _).symm,
      h.markers_of_same hsame (fun op' => (published_ne_marker d op' _).symm) fun _ => hready⟩,
      fun _ => hpub.2, fun _ => hready, fun _ hw => hw.imp (fun hfile => ?_) hpub.2⟩
    · obtain ⟨m', hm', hpublication⟩ := h.publications hd' (hpub.1 hpub')
      refine ⟨m', hm', ?_⟩
      by_cases hdd : d' = d
      · subst hdd
        refine ⟨hpublication.digest, hpublication.admissible, ?_,
          hpublication.content.frame fun r hr => ?_, fun {node} hnode => ?_⟩
        · rw [hsame _ (by simp [readyPath, readyFilename, manifestFilename, ascii])]
          exact hpublication.manifest
        · exact hsame _ (hpublication.admissible.filePath_ne_ready hr _)
        · rw [hget, if_pos rfl] at hnode
          exact (Option.some.inj hnode).symm
      · exact hpublication.frame fun q => hsame _ fun heq => hdd (published_append_inj heq).1
    · rwa [hsame _ (published_ne_staging d _ _ _).symm]

theorem ReadyAt.published {s : Cache} {d : Bytes} (hwf : s.Wf) (h : ReadyAt d s) :
    PublishedAt d s := by
  have hdir := hwf (publishedRelative d) readyFilename (by rw [← readyPath, h]; simp)
  rw [PublishedAt, hdir]
  simp

/-- Nothing is renamed onto a publication: it is a directory that is not empty. -/
theorem Inv.not_published_of_rename {s : Cache} {d : Bytes} {node : Node Bytes} (h : Inv S s)
    (hd : S.digests d) (htarget : FsOp.renameTarget s node (publishedRelative d) = .ok ()) :
    ¬ PublishedAt d s := by
  intro hpub
  obtain ⟨m', -, hpublication⟩ := h.publications hd hpub
  have hdir := hpublication.published h.wf
  have hchild : s.children (publishedRelative d) ≠ [] := fun hnil => by
    simpa [hpublication.manifest] using Tree.get_eq_none_of_children_nil hnil manifestFilename
  cases node <;> simp [FsOp.renameTarget, hdir, hchild] at htarget

/-- **Publishing.** The staging directory takes its place under the digest of its manifest. -/
theorem keeps_rename (hm : S.manifest op = some m) :
    Keeps S (WrittenAt op m) (.rename (stagingPath op) (publishedRelative m.digest)) := by
  intro s t h hwritten he
  cases he with
  | same => exact ⟨h, Rely.refl S s⟩
  | @rename _ _ node hp hpq hqp hparent htarget =>
    have hnot := h.not_published_of_rename (S.digest_of_manifest hm) htarget
    have hmanifest := hwritten.resolve_right hnot
    have hstaged := (h.stages hm).resolve_left hnot
    have hwf := (FsOp.Effect.rename hp hpq hqp hparent htarget).wf h.wf
    have hget := Tree.get_move s hpq hqp
    generalize s.move (stagingPath op) (publishedRelative m.digest) = t at hget hwf
    -- what was in staging is under the digest, and everything else is where it was
    have hmoved : ∀ r, t.get (publishedRelative m.digest ++ r) = s.get (stagingPath op ++ r) :=
      fun r => by rw [hget, if_pos (List.prefix_append _ _), List.drop_left]
    have hsame : ∀ q, ¬ publishedRelative m.digest <+: q → ¬ stagingPath op <+: q →
        t.get q = s.get q := fun q hq hq' => by rw [hget, if_neg hq, if_neg hq']
    have hpublished : ∀ {d} q, d ≠ m.digest →
        t.get (publishedRelative d ++ q) = s.get (publishedRelative d ++ q) := by
      intro d q hne
      refine hsame _ ?_ ?_
      · rintro ⟨r, hr⟩
        exact hne (published_append_inj hr).1.symm
      · rintro ⟨r, hr⟩
        exact published_ne_staging d op q r hr.symm
    have hstaging : ∀ {op'} q, op' ≠ op →
        t.get (stagingPath op' ++ q) = s.get (stagingPath op' ++ q) := by
      intro op' q hne
      refine hsame _ ?_ ?_
      · rintro ⟨r, hr⟩
        exact published_ne_staging m.digest op' r q hr
      · rintro ⟨r, hr⟩
        exact hne (staging_append_inj hr).1.symm
    have hintent : ∀ op', t.get (intentPath op') = s.get (intentPath op') := by
      intro op'
      refine hsame _ ?_ ?_
      · rintro ⟨r, hr⟩
        exact published_ne_intent _ op' r hr
      · rintro ⟨r, hr⟩
        exact staging_ne_intent op op' r hr
    have hmarker : ∀ op', t.get (markerPath op') = s.get (markerPath op') := by
      intro op'
      refine hsame _ ?_ ?_
      · rintro ⟨r, hr⟩
        exact published_ne_marker _ op' r hr
      · rintro ⟨r, hr⟩
        exact staging_ne_marker op op' r hr
    have hnew : PublishedAt m.digest t := by
      have := hmoved []
      rw [List.append_nil, List.append_nil, hp] at this
      simp [PublishedAt, this]
    have hpub : ∀ {d}, PublishedAt d s → PublishedAt d t := fun {d} hd => by
      by_cases hdd : d = m.digest
      · rwa [hdd]
      · have := hpublished [] hdd
        rw [List.append_nil] at this
        rwa [PublishedAt, this]
    have hready : ∀ {d}, ReadyAt d s → ReadyAt d t := fun {d} hr => by
      have hdd : d ≠ m.digest := by
        rintro rfl
        exact hnot (hr.published h.wf)
      rwa [ReadyAt, readyPath, hpublished _ hdd]
    refine ⟨⟨hwf, fun {d} hd hpubd => ?_, fun {op' m'} hm' => ?_,
      fun hop hnode => h.intents hop (by rwa [hintent] at hnode), fun hop hnode => ?_⟩,
      fun _ => hpub, fun _ => hready, fun {op' m'} hm' hw => ?_⟩
    · by_cases hdd : d = m.digest
      · subst hdd
        obtain ⟨f, metadata, hmatches, hholds⟩ := hstaged.content
        refine ⟨m, S.named_of_manifest hm, rfl, S.admissible hm, ?_, ?_, fun {node} hnode => ?_⟩
        · rw [hmoved, hmanifest]
        · exact ⟨f, metadata, hmatches, fun r hr => (hmoved _).trans (hholds r hr)⟩
        · rw [readyPath, hmoved, hstaged.ready] at hnode
          exact absurd hnode (by simp)
      · have hd0 := hpublished [] hdd
        rw [List.append_nil] at hd0
        obtain ⟨m', hm', hpublication⟩ := h.publications hd (by rwa [PublishedAt, hd0] at hpubd)
        exact ⟨m', hm', hpublication.frame fun q => hpublished q hdd⟩
    · by_cases hop : op' = op
      · subst hop
        obtain rfl : m = m' := Option.some.inj (hm.symm.trans hm')
        exact .inl hnew
      · exact (h.stages hm').imp hpub fun hst =>
          hst.frame (fun r _ => hstaging _ hop) (hstaging _ hop)
    · obtain ⟨m', rev, hm', hrev, hfile, hr⟩ := h.markers hop (by rwa [hmarker] at hnode)
      exact ⟨m', rev, hm', hrev, hfile, hready hr⟩
    · by_cases hop : op' = op
      · subst hop
        obtain rfl : m = m' := Option.some.inj (hm.symm.trans hm')
        exact .inr hnew
      · refine hw.imp (fun hfile => ?_) hpub
        rwa [hstaging _ hop]

end Keeps

end Kama.Artifact.Storage
