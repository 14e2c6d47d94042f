import Kama.Artifact.Invariant

/-!
# READY means complete

Importer processes call `Publish` and `RecoverPublished` for any operations of one cache, and any
of them may stop after any of its calls. The staging directory of an operation holds the files of
one manifest.

`published_visible`: in every state that they can reach, a publication with a READY file passes
`ValidatePublished`, and a marker names a publication with a READY file. This needs that no file
of a manifest is called READY or manifest.json and that the paths are valid UTF-8;
`ready_before_publication` is a run of a manifest with a file called READY.

The proof follows `Publish` through four facts about the cache, none of which is ever taken back:
nothing yet, the manifest is in staging (`WrittenAt`), the content is published (`PublishedAt`),
it is ready (`ReadyAt`). Each call is one of those in `Kama.Artifact.Invariant`.
-/

namespace Kama.Artifact.Storage

open Bytes FileTree Program Json

/-! ## The calls of the code -/

section Calls

variable {P : CacheOp → Prop}

/-- A call whose answer is only checked. -/
theorem calls_checked {α : Type} {o : CacheOp} (h : P o) (f : o.Res → CacheProg α)
    (hf : ∀ r, Calls P (f r)) : Calls P (call o >>= f) :=
  Calls.bind (Calls.call h) hf

variable (hP : ∀ o : CacheOp, o.Reads → P o)
include hP

theorem calls_readRegular (p : Path) : Calls P (readRegular p) := by
  refine Calls.bind (Calls.ofResult _) fun _ => ?_
  refine calls_checked (hP _ (by exact trivial)) _ fun _ => ?_
  refine Calls.bind (Calls.check _ _) fun content => ?_
  cases content
  · exact Calls.throw _
  · exact Calls.pure _

theorem calls_syncRegular (p : Path) : Calls P (syncRegular p) := by
  refine Calls.bind (Calls.ofResult _) fun _ => ?_
  refine calls_checked (hP _ (by exact trivial)) _ fun _ => ?_
  refine Calls.bind (Calls.check _ _) fun content => Calls.bind ?_ fun _ => Calls.pure _
  cases content
  · exact Calls.throw _
  · exact Calls.pure _

omit hP in
theorem calls_validateDirectory (p : Path) : Calls P (validateDirectory p) :=
  Calls.ite (Calls.pure _) (Calls.ofResult _)

theorem calls_openDirectory (p : Path) : Calls P (openDirectory p) :=
  Calls.bind (calls_validateDirectory p) fun _ =>
    calls_checked (hP _ (by exact trivial)) _ fun _ => Calls.check _ _

theorem calls_syncDirectory (p : Path) : Calls P (syncDirectory p) :=
  Calls.bind (calls_validateDirectory p) fun _ =>
    calls_checked (hP _ (by exact trivial)) _ fun _ => Calls.check _ _

theorem calls_openParent (p : Path) : Calls P (openParent p) :=
  Calls.bind (Calls.ofResult _) fun _ => calls_openDirectory hP _

theorem calls_mkdirAllFrom {base rest : Path}
    (h : ∀ q, q <+: rest → q ≠ [] → P (.mkdir (base ++ q))) :
    Calls P (mkdirAllFrom base rest) := by
  induction rest generalizing base with
  | nil => exact Calls.pure _
  | cons name rest ih =>
    refine calls_checked (h [name] (by simp) (by simp)) _ fun r => ?_
    refine Calls.bind ?_ fun _ => calls_checked (hP _ (by exact trivial)) _ fun _ => ?_
    · unfold created
      split
      · exact Calls.pure _
      · exact Calls.pure _
      · exact Calls.throw _
    · refine Calls.bind (Calls.check _ _) fun _ => ih fun q hq hne => ?_
      rw [List.append_assoc]
      exact h _ (by simpa using hq) (by simp)

theorem calls_mkdirAll {p : Path} (h : ∀ q, q <+: p → q ≠ [] → P (.mkdir q)) :
    Calls P (mkdirAll p) :=
  Calls.bind (Calls.ofResult _) fun _ => calls_mkdirAllFrom hP (by simpa using h)

theorem calls_validateFiles (base : Path) (rs : List FileRecord) :
    Calls P (validateFiles base rs) := by
  induction rs with
  | nil => exact Calls.pure _
  | cons r rs ih =>
    refine Calls.bind (calls_readRegular hP _) fun _ => Calls.bind (Calls.ofResult _) fun _ => ?_
    exact Calls.ite (Calls.throw _) ih

theorem calls_readDocuments (base : Path) (rs : List FileRecord) :
    Calls P (readDocuments base rs) := by
  induction rs with
  | nil => exact Calls.pure _
  | cons r rs ih =>
    refine Calls.bind (calls_readRegular hP _) fun _ => Calls.bind (Calls.ofResult _) fun _ => ?_
    exact Calls.bind ih fun _ => Calls.pure _

theorem calls_validateGGUFSet (base : Path) (m : Manifest) :
    Calls P (validateGGUFSet base m) := by
  refine Calls.bind (Calls.ofResult _) fun _ => Calls.bind (Calls.ofResult _) fun _ => ?_
  exact Calls.bind (calls_readDocuments hP _ _) fun _ => Calls.ofResult _

theorem calls_validateManifestContent (base : Path) (m : Manifest) :
    Calls P (validateManifestContent base m) := by
  refine Calls.bind (Calls.ofResult _) fun _ => Calls.bind (calls_validateFiles hP _ _) fun _ => ?_
  exact calls_validateGGUFSet hP _ _

/-- Everything of a validation after the manifest has been read. -/
theorem calls_afterManifest (digest : Bytes) (m : Manifest) : Calls P (do
    let actual ← ofResult (manifestDigest m)
    if actual ≠ digest then
      throw (.failure .publicationConflict "validate published manifest"
        (.new "canonical manifest digest does not match publication directory"))
    else
      let metadata ← validateManifestContent (publishedRelative digest) m
      pure (m, metadata)) := by
  refine Calls.bind (Calls.ofResult _) fun _ => Calls.ite (Calls.throw _) ?_
  exact Calls.bind (calls_validateManifestContent hP _ _) fun _ => Calls.pure _

theorem calls_validatePublishedContent (digest : Bytes) :
    Calls P (validatePublishedContent digest) := by
  refine Calls.ite (Calls.throw _) (Calls.bind ?_ fun m => calls_afterManifest hP digest m)
  exact Calls.bind (calls_readRegular hP _) fun _ => Calls.ofResult _

theorem calls_validatePublished (digest : Bytes) : Calls P (validatePublished digest) := by
  refine Calls.bind (calls_validatePublishedContent hP _) fun _ => ?_
  refine Calls.bind (Calls.attempt (calls_readRegular hP _)) fun r => ?_
  cases r with
  | error e => exact Calls.throw _
  | ok payload => exact Calls.ite (Calls.throw _) (Calls.pure _)

theorem calls_syncArtifactTree (base : Path) (m : Manifest) :
    Calls P (syncArtifactTree base m) := by
  have hfiles : ∀ rs, Calls P (syncFiles base rs) := by
    intro rs
    induction rs with
    | nil => exact Calls.pure _
    | cons r rs ih => exact Calls.bind (calls_syncRegular hP _) fun _ => ih
  have hdirs : ∀ ps, Calls P (syncDirs ps) := by
    intro ps
    induction ps with
    | nil => exact Calls.pure _
    | cons p ps ih => exact Calls.bind (calls_syncDirectory hP _) fun _ => ih
  exact Calls.bind (hfiles _) fun _ => hdirs _

theorem calls_makeParent {p : Path} (h : ∀ q, q <+: p.dropLast → q ≠ [] → P (.mkdir q)) :
    Calls P (makeParent p) :=
  Calls.ite (Calls.pure _) (calls_mkdirAll hP h)

omit hP in
theorem calls_unlessNotExist {p : CacheProg Unit} (h : Calls P p) :
    Calls P (unlessNotExist p) := by
  refine Calls.bind (Calls.attempt h) fun r => ?_
  cases r with
  | error e => exact Calls.ite (Calls.pure _) (Calls.throw _)
  | ok u => exact Calls.pure _

theorem calls_removeCheckpoints {staging : Path} {rs : List FileRecord}
    (h : ∀ r ∈ rs, P (.unlink (resumePath staging r.path))) :
    Calls P (removeCheckpoints staging rs) := by
  induction rs with
  | nil => exact Calls.pure _
  | cons r rs ih =>
    refine Calls.bind (calls_unlessNotExist (Calls.bind (calls_openParent hP _) fun _ => ?_))
      fun _ => ih fun r' hr' => h r' (List.mem_cons_of_mem r hr')
    exact calls_checked (h r List.mem_cons_self) _ fun _ => Calls.check _ _

section Removal

variable {base : Path} (h : ∀ q, base <+: q → P (.unlink q) ∧ P (.rmdir q))
include h

theorem calls_removeEntry {recurse : Path → CacheProg Unit} {dir : Path} (hdir : base <+: dir)
    (name : Bytes) (hrecurse : ∀ p, base <+: p → Calls P (recurse p)) :
    Calls P (removeEntry recurse dir name) := by
  have hname : base <+: dir ++ [name] := hdir.trans (List.prefix_append dir [name])
  refine Calls.ite (Calls.throw _) (calls_checked (hP _ (by exact trivial)) _ fun _ => ?_)
  refine Calls.bind (Calls.check _ _) fun isDir => Calls.ite ?_ ?_
  · refine calls_checked (hP _ (by exact trivial)) _ fun _ => Calls.bind (Calls.check _ _) fun _ =>
      Calls.bind (hrecurse _ hname) fun _ => ?_
    exact calls_checked (h _ hname).2 _ fun _ => Calls.check _ _
  · exact calls_checked (h _ hname).1 _ fun _ => Calls.check _ _

theorem calls_removeEntries {recurse : Path → CacheProg Unit} {dir : Path} (hdir : base <+: dir)
    (names : List Bytes) (hrecurse : ∀ p, base <+: p → Calls P (recurse p)) :
    Calls P (removeEntries recurse dir names) := by
  induction names with
  | nil => exact Calls.pure _
  | cons name names ih =>
    exact Calls.bind (calls_removeEntry hP h hdir name hrecurse) fun _ => ih

theorem calls_removeDirectoryContents (fuel : Nat) {dir : Path} (hdir : base <+: dir) :
    Calls P (removeDirectoryContents fuel dir) := by
  induction fuel generalizing dir with
  | zero => exact Calls.throw _
  | succ fuel ih =>
    refine calls_checked (hP _ (by exact trivial)) _ fun r => ?_
    split
    · exact ih hdir
    · exact Calls.throw _
    · exact Calls.pure _
    · exact Calls.bind (calls_removeEntries hP h hdir _ fun p hp => ih hp) fun _ => ih hdir

theorem calls_removeTreeNoFollow (fuel : Nat) : Calls P (removeTreeNoFollow fuel base) := by
  refine Calls.bind (calls_openParent hP _) fun _ =>
    calls_checked (hP _ (by exact trivial)) _ fun _ => Calls.bind (Calls.check _ _) fun _ => ?_
  refine Calls.bind (calls_removeDirectoryContents hP h fuel List.prefix_rfl) fun _ => ?_
  exact calls_checked (h base List.prefix_rfl).2 _ fun _ => Calls.check _ _

end Removal

end Calls

/-! ## The contract -/

/-- Every process keeps the invariant and takes nothing back. -/
def contract (S : Scope) : Contract CacheOp Cache where
  inv := Inv S
  rely _ := Rely S
  guar s _ t := Rely S s t
  rely_refl _ := Rely.refl S
  rely_trans := Rely.trans

/-- A fact that is never taken back. -/
def Stable (S : Scope) (L : Cache → Prop) : Prop := ∀ ⦃s t⦄, Rely S s t → L s → L t

section Triples

variable {S : Scope} {L L' : Cache → Prop} {i : Pid} {s : Cache} {op : Bytes} {m : Manifest}

theorem stable_true : Stable S fun _ => True := fun _ _ _ _ => trivial

theorem stable_written (hm : S.manifest op = some m) : Stable S (WrittenAt op m) :=
  fun _ _ h => h.written hm

theorem stable_published {d : Bytes} (hd : S.digests d) : Stable S (PublishedAt d) :=
  fun _ _ h => h.published hd

theorem stable_ready {d : Bytes} (hd : S.digests d) : Stable S (ReadyAt d) :=
  fun _ _ h => h.ready hd

theorem Stable.steady (hL : Stable S L) : FsOp.Steady (contract S) L :=
  ⟨fun h => h.wf, fun _ => Rely.refl S _, fun h _ => hL h⟩

/-- A call that keeps the invariant while `L` holds, and what it answers. -/
theorem safe_call {o : CacheOp} {Q : o.Res → Cache → Prop} {E : Err → Cache → Prop}
    (hL : Stable S L) (ho : Keeps S L o) (hs : L s)
    (hQ : ∀ t, Inv S t → L t → Inv S (o.run t).2 → L (o.run t).2 → Q (o.run t).1 (o.run t).2) :
    SafeEx FsOp.kernel i (contract S) (call o) Q E s := by
  refine SafeEx.lift fun t ht hinv _ r u hexec => ?_
  have hrun : o.run t = (r, u) := Option.some.inj hexec
  have hlt := hL ht hs
  obtain ⟨hinv', hrely⟩ := ho hinv hlt (FsOp.run_effect o)
  have hq := hQ t hinv hlt hinv' (hL hrely hlt)
  rw [hrun] at hinv' hrely hq
  exact ⟨hinv', hrely, hq⟩

/-- Code all of whose calls keep the invariant while `L` holds. -/
theorem safe_calls {α : Type} {p : CacheProg α} (hL : Stable S L) (hp : Calls (Keeps S L) p)
    (hs : L s) : SafeEx FsOp.kernel i (contract S) p (fun _ => L) (fun _ => L) s := by
  refine SafeEx.ofSafe (Safe.mono (fun a t ha => ?_) (Safe.ofAll hp ?_ hs))
  · cases a <;> exact ha
  · intro t t' o choice r u ho ht hrely hinv hexec
    have hrun : o.run t' = (r, u) := Option.some.inj hexec
    have heffect := FsOp.run_effect (t := t') o
    rw [hrun] at heffect
    obtain ⟨hinv', hrely'⟩ := ho hinv (hL hrely ht) heffect
    exact ⟨hinv', hrely', hL hrely' (hL hrely ht)⟩

theorem safe_reads {α : Type} {p : CacheProg α} (hL : Stable S L)
    (hp : (∀ o : CacheOp, o.Reads → Keeps S L o) → Calls (Keeps S L) p) (hs : L s) :
    SafeEx FsOp.kernel i (contract S) p (fun _ => L) (fun _ => L) s :=
  safe_calls hL (hp fun _ => keeps_reads) hs

/-- Writing a file establishes what follows from its being there. -/
theorem safe_writeAtomic {p : Path} {payload : Bytes} (hL : Stable S L) (hL' : Stable S L')
    (hparent : Calls (Keeps S L) (makeParent p)) (hwrite : Keeps S L (.replace p payload))
    (hfile : ∀ t, Inv S t → L t → t.get p = some (.file payload) → L' t) (hs : L s) :
    SafeOk FsOp.kernel i (contract S) (writeAtomic p payload) (fun _ => L') s := by
  refine SafeOk.seq (safe_calls hL hparent hs) fun _ t ht => ?_
  refine SafeEx.bind (safe_call hL hwrite ht fun u _ hu hinv hlu => ?_)
  rcases FsOp.run_replace (t := u) p payload with ⟨e, hrun⟩ | ⟨hrun, hp, -⟩
  · rw [hrun]
    exact SafeEx.bind (SafeEx.ofExcept trivial)
  · rw [hrun] at hinv hlu ⊢
    have hget := Tree.get_put u (FsOp.ne_nil_of_get hp) (.file payload) p
    rw [if_pos rfl] at hget
    refine SafeEx.bind (SafeEx.ofExcept (SafeEx.mono (fun _ _ h => h) (fun _ _ _ => trivial)
      (safe_reads hL' (fun hP => calls_syncDirectory hP _) ?_)))
    exact hfile _ hinv hlu hget

/-- What was read is what was there. -/
theorem safe_readRegular_get (p : Path) (hL : Stable S L) (hs : L s) :
    SafeEx FsOp.kernel i (contract S) (readRegular p)
      (fun content t => Inv S t ∧ L t ∧ t.get p = some (.file content)) (fun _ => L) s := by
  refine SafeEx.seq (safe_calls (p := validate "validate path" p) hL (Calls.ofResult _) hs)
    fun _ t ht => ?_
  refine SafeEx.bind (FsOp.safe_look (by exact trivial) hL.steady ht fun u hinv hu => ?_)
  show SafeEx _ _ _ (check _ (FsOp.readNode u p) >>= _) _ _ _
  unfold FsOp.readNode
  split
  · exact SafeEx.bind (SafeEx.ofExcept hu)
  · exact SafeEx.bind (SafeEx.ofExcept hu)
  · rename_i content _ hget
    exact SafeEx.bind (SafeEx.ofExcept (SafeEx.pure ⟨hinv, hu, hget⟩))
  · exact SafeEx.bind (SafeEx.ofExcept (SafeEx.throw hu))

/-- A publication that can be validated is there. -/
theorem safe_validatePublishedContent_published {d : Bytes} (hd : S.digests d) (hL : Stable S L)
    (hs : L s) : SafeEx FsOp.kernel i (contract S) (validatePublishedContent d)
      (fun _ => PublishedAt d) (fun _ => L) s := by
  unfold validatePublishedContent
  split
  · exact SafeEx.throw hs
  refine SafeEx.bind (SafeEx.seq (safe_readRegular_get _ hL hs) ?_)
  rintro content t ⟨hinv, ht, hget⟩
  have hpub : PublishedAt d t := by
    have hdir := hinv.wf (publishedRelative d) manifestFilename (by simp [hget])
    simp [PublishedAt, hdir]
  refine SafeEx.ofExcept ?_
  cases decodeManifest content with
  | error e => exact ht
  | ok m' =>
    have hboth : Stable S fun t => L t ∧ PublishedAt d t :=
      fun _ _ hrely h => ⟨hL hrely h.1, hrely.published hd h.2⟩
    exact SafeEx.mono (fun _ _ h => h.2) (fun _ _ h => h.1)
      (safe_reads hboth (fun hP => calls_afterManifest hP d m') ⟨ht, hpub⟩)

theorem safe_requireSame {op message : String} {existing : Manifest} (hs : L s) :
    SafeOk FsOp.kernel i (contract S) (requireSame op message existing m) (fun _ => L) s := by
  unfold requireSame
  split
  · exact SafeEx.pure hs
  · exact SafeEx.throw trivial

/-- **Putting the staging directory in place**: whoever did it, the content is published. -/
theorem safe_place (hm : S.manifest op = some m) (hs : WrittenAt op m s) :
    SafeOk FsOp.kernel i (contract S) (place (stagingPath op) m.digest m)
      (fun _ => PublishedAt m.digest) s := by
  have hd := S.digest_of_manifest hm
  have hL := stable_written hm
  have hL' := stable_published hd
  -- a cache hit
  have hhit : ∀ {op' message : String} {existing : Manifest} {t : Cache},
      PublishedAt m.digest t → SafeOk FsOp.kernel i (contract S) (do
        requireSame op' message existing m
        pure true) (fun _ => PublishedAt m.digest) t := fun ht =>
    SafeEx.seq (safe_requireSame ht) fun _ _ h => SafeEx.pure h
  unfold place
  refine SafeEx.bind (SafeEx.attempt (SafeEx.mono (fun r t ht => hhit ht) (fun e t ht => ?_)
    (safe_validatePublishedContent_published hd hL hs)))
  refine SafeEx.bind (SafeEx.attempt (SafeEx.mono (fun _ t _ => SafeEx.throw trivial)
    (fun e t ht => ?_) (safe_reads hL (fun hP => calls_openDirectory hP _) ht)))
  dsimp only
  split
  · exact SafeEx.throw trivial
  -- the rename
  have hrename : SafeEx FsOp.kernel i (contract S)
      (renameNoFollow (stagingPath op) (publishedRelative m.digest))
      (fun _ => PublishedAt m.digest) (fun _ => WrittenAt op m) t := by
    refine SafeEx.seq (safe_reads hL (fun hP => calls_openParent hP _) ht) fun _ t ht => ?_
    refine SafeEx.seq (safe_reads hL (fun hP => calls_openParent hP _) ht) fun _ t ht => ?_
    refine SafeEx.bind (safe_call hL (keeps_rename hm) ht fun u _ _ hinv hu => ?_)
    have hne : stagingPath op ≠ publishedRelative m.digest := by
      simpa using (published_ne_staging m.digest op [] []).symm
    rcases FsOp.run_rename (t := u) hne with ⟨e, hrun⟩ | ⟨hrun, hpq, hqp, -, node, hp, -⟩
    · rw [hrun] at hu ⊢
      exact SafeEx.ofExcept hu
    · rw [hrun]
      have hget := Tree.get_move u hpq hqp (publishedRelative m.digest)
      rw [if_pos List.prefix_rfl, List.drop_length, List.append_nil, hp] at hget
      exact SafeEx.ofExcept (by simp [Ends, Except.mapError, PublishedAt, hget])
  refine SafeEx.bind (SafeEx.attempt (SafeEx.mono (fun _ t ht => ?_) (fun e t ht => ?_) hrename))
  · exact SafeOk.seq (safe_reads hL' (fun hP => calls_syncDirectory hP _) ht)
      fun _ _ h => SafeEx.pure h
  · dsimp only
    split
    · exact SafeEx.throw trivial
    · refine SafeEx.bind (SafeEx.attempt (SafeEx.mono (fun r t ht => hhit ht)
        (fun e t _ => SafeEx.throw trivial) (safe_validatePublishedContent_published hd hL ht)))

theorem prefix_published {d : Bytes} {q : Path} (h : q <+: publishedRelative d) :
    q.length ≤ 2 ∨ q = publishedRelative d := by
  rcases Nat.lt_or_ge q.length 3 with hlt | hge
  · exact .inl (Nat.le_of_lt_succ hlt)
  · exact .inr (h.eq_of_length (Nat.le_antisymm h.length_le (by simpa [publishedRelative, blobsDir]
      using hge)))

theorem prefix_staging {q : Path} (h : q <+: stagingPath op) :
    q.length ≤ 2 ∨ q = stagingPath op := by
  rcases Nat.lt_or_ge q.length 3 with hlt | hge
  · exact .inl (Nat.le_of_lt_succ hlt)
  · exact .inr (h.eq_of_length (Nat.le_antisymm h.length_le (by simpa [stagingPath, stagingDir]
      using hge)))

theorem keeps_mkdir_of_prefix {p q : Path} (hq : q <+: p) (hp : p.length ≤ 2) :
    Keeps S L (.mkdir q) :=
  keeps_mkdir (neutral_of_length (hq.length_le.trans hp))

theorem calls_makeParent_of_length {p : Path} (hp : p.dropLast.length ≤ 2) :
    Calls (Keeps S L) (makeParent p) :=
  calls_makeParent (fun _ => keeps_reads) fun _ hq _ => keeps_mkdir_of_prefix hq hp

theorem safe_mkdirAll {p : Path} (hL : Stable S L) (hp : p.length ≤ 2) (hs : L s) :
    SafeEx FsOp.kernel i (contract S) (mkdirAll p) (fun _ => L) (fun _ => L) s :=
  safe_calls hL (calls_mkdirAll (fun _ => keeps_reads) fun _ hq _ => keeps_mkdir_of_prefix hq hp) hs

/-- READY is written when the content is published, and the marker when READY is there. -/
theorem safe_finalizePublication {rev : Bytes} (hm : S.manifest op = some m)
    (hrev : S.revision op rev) (hs : PublishedAt m.digest s) :
    SafeOk FsOp.kernel i (contract S) (finalizePublication op m.artifact m.digest rev)
      (fun _ => ReadyAt m.digest) s := by
  have hd := S.digest_of_manifest hm
  have hL := stable_published hd
  have hL' := stable_ready hd
  have hparent : Calls (Keeps S (PublishedAt m.digest)) (makeParent (readyPath m.digest)) := by
    refine calls_makeParent (fun _ => keeps_reads) fun q hq _ => ?_
    rw [readyPath, List.dropLast_concat] at hq
    rcases prefix_published hq with hlen | rfl
    · exact keeps_mkdir (neutral_of_length hlen)
    · exact keeps_mkdir_published
  refine SafeOk.seq (safe_reads hL (fun hP => calls_syncDirectory hP _) hs) fun _ t ht => ?_
  refine SafeOk.seq (safe_writeAtomic hL hL' hparent keeps_ready (fun _ _ _ hget => hget) ht)
    fun _ t ht => ?_
  refine SafeOk.seq (safe_reads hL' (fun hP => calls_syncDirectory hP _) ht) fun _ t ht => ?_
  refine SafeOk.seq (safe_mkdirAll hL' (by decide) ht) fun _ t ht => ?_
  exact safe_writeAtomic hL' hL' (calls_makeParent_of_length (by simp [markerPath, operationsDir]))
    (keeps_marker hm hrev) (fun _ _ h _ => h) ht

theorem keeps_remove_of_ready {o : CacheOp} {q : Path} (hm : S.manifest op = some m)
    (hq : stagingPath op <+: q) (ho : o = .unlink q ∨ o = .rmdir q) :
    Keeps S (ReadyAt m.digest) o :=
  fun _ _ h hready he => keeps_remove hm hq ho h (hready.published h.wf) he

/-- **`Publish` keeps the invariant at every call.** -/
theorem safe_publish {rev : Bytes} (fuel : Nat) (hm : S.manifest op = some m)
    (hrev : validRevision rev = true → S.revision op rev) :
    SafeOk FsOp.kernel i (contract S) (publish fuel (stagingPath op) op rev m)
      (fun _ _ => True) s := by
  have hadm := S.admissible hm
  have hd := S.digest_of_manifest hm
  have hreads : ∀ {L : Cache → Prop} (o : CacheOp), o.Reads → Keeps S L o := fun _ => keeps_reads
  unfold publish
  rw [artifactDigest_of_ok hadm.valid, manifestDigest_eq_digest hadm.valid]
  refine SafeEx.bind (SafeOk.ofExcept fun _ _ => SafeEx.ite (fun _ => SafeEx.throw trivial)
    fun _ => SafeEx.bind (SafeEx.ofExcept (SafeEx.bind (SafeEx.ofExcept
      (SafeEx.ite (fun _ => SafeEx.throw trivial) fun hvalid => ?_)))))
  have hrev' : S.revision op rev := hrev (by simpa using hvalid)
  refine SafeOk.seq (safe_mkdirAll stable_true (by decide) trivial) fun _ t _ => ?_
  refine SafeOk.seq (safe_writeAtomic stable_true stable_true
    (calls_makeParent_of_length (by simp [intentPath, intentsDir])) (keeps_intent hm hrev')
    (fun _ _ _ _ => trivial) trivial) fun _ t _ => ?_
  refine SafeOk.seq (safe_calls stable_true (calls_removeCheckpoints hreads fun r hr =>
    keeps_checkpoint hm hr) trivial) fun _ t _ => ?_
  refine SafeOk.seq (safe_writeAtomic stable_true (stable_written hm) ?_ (keeps_manifest hm)
    (fun _ _ _ hget => .inl hget) trivial) fun _ t ht => ?_
  · refine calls_makeParent hreads fun q hq _ => ?_
    rw [List.dropLast_concat] at hq
    rcases prefix_staging hq with hlen | rfl
    · exact keeps_mkdir (neutral_of_length hlen)
    · exact keeps_mkdir (neutral_stagingPath op)
  refine SafeOk.seq (safe_reads (stable_written hm) (fun hP => calls_syncArtifactTree hP _ _) ht)
    fun _ t ht => ?_
  refine SafeOk.seq (safe_mkdirAll (stable_written hm) (by decide) ht) fun _ t ht => ?_
  refine SafeOk.seq (safe_place hm ht) fun hit t ht => ?_
  refine SafeOk.seq (safe_finalizePublication hm hrev' ht) fun _ t ht => ?_
  refine SafeEx.bind (SafeEx.ite (fun _ => ?_) fun _ => SafeEx.pure (SafeEx.pure trivial))
  refine SafeEx.mono (fun _ _ _ => SafeEx.pure trivial) (fun _ _ _ => trivial)
    (safe_calls (stable_ready hd) (calls_unlessNotExist (calls_removeTreeNoFollow hreads
      (fun q hq => ⟨?_, ?_⟩) fuel)) ht)
  · exact keeps_remove_of_ready hm hq (.inl rfl)
  · exact keeps_remove_of_ready hm hq (.inr rfl)

theorem safe_readCanonicalMetadata {τ : Type} (fields : Fields τ) (zero : τ) (toJson : τ → Json)
    (limit : Nat) (p : Path) (hL : Stable S L) (hs : L s) :
    SafeOk FsOp.kernel i (contract S) (readCanonicalMetadata fields zero toJson limit p)
      (fun o t => L t ∧ ∀ v, o = some v → ∃ payload, Inv S t ∧ t.get p = some (.file payload) ∧
        decodeCanonical fields zero toJson limit payload = .ok v) s := by
  refine SafeEx.bind (SafeEx.attempt (SafeEx.mono ?_ (fun e t ht => ?_)
    (safe_readRegular_get p hL hs)))
  · rintro payload t ⟨hinv, ht, hget⟩
    refine SafeEx.bind (SafeOk.ofExcept fun v hv => SafeEx.pure ⟨ht, fun v' hv' => ?_⟩)
    obtain rfl := Option.some.inj hv'
    exact ⟨payload, hinv, hget, hv⟩
  · exact SafeEx.ite (fun _ => SafeEx.pure ⟨ht, by simp⟩) fun _ => SafeEx.throw trivial

theorem calls_recoverMarker {P : CacheOp → Prop} (hP : ∀ o : CacheOp, o.Reads → P o)
    (marker : Marker) : Calls P (recoverMarker marker) := by
  refine Calls.bind (Calls.ofResult _) fun _ => ?_
  refine Calls.bind (calls_validatePublished hP _) fun _ => ?_
  exact Calls.ite (Calls.pure _) (Calls.throw _)

theorem safe_recoverIntent {rev : Bytes} (fuel : Nat) (hm : S.manifest op = some m)
    (hrev : S.revision op rev) :
    SafeOk FsOp.kernel i (contract S) (recoverIntent fuel op (intentFor m rev))
      (fun _ _ => True) s := by
  have hd := S.digest_of_manifest hm
  have hL : Stable S fun _ => True := stable_true
  unfold recoverIntent
  refine SafeEx.bind (SafeOk.ofExcept fun _ _ => ?_)
  refine SafeEx.bind (SafeEx.attempt (SafeEx.mono (fun r t ht => ?_) (fun e t _ => ?_)
    (safe_validatePublishedContent_published hd hL trivial)))
  · refine SafeEx.ite (fun _ => ?_) fun _ => SafeEx.throw trivial
    exact SafeOk.seq (safe_finalizePublication hm hrev ht) fun _ _ _ => SafeEx.pure trivial
  · refine SafeEx.bind (SafeEx.attempt (SafeEx.mono (fun _ t _ => SafeEx.throw trivial)
      (fun e t _ => SafeEx.ite (fun _ => SafeEx.throw trivial) fun _ => ?_)
      (safe_reads hL (fun hP => calls_openDirectory hP _) trivial)))
    refine SafeEx.bind (SafeEx.attempt (SafeEx.mono (fun md t _ => ?_)
      (fun e t _ => SafeEx.throw trivial)
      (safe_reads hL (fun hP => calls_validateManifestContent hP _ _) trivial)))
    exact SafeOk.seq (safe_publish fuel hm fun _ => hrev) fun _ _ _ => SafeEx.pure trivial

/-- **`RecoverPublished` keeps the invariant at every call.** -/
theorem safe_recoverPublished (fuel : Nat) (hop : S.ops op) :
    SafeOk FsOp.kernel i (contract S) (recoverPublished fuel op) (fun _ _ => True) s := by
  refine SafeEx.bind (SafeOk.ofExcept fun _ _ => ?_)
  refine SafeOk.seq (safe_readCanonicalMetadata _ _ _ _ _ stable_true trivial) fun marker t _ => ?_
  cases marker with
  | some marker =>
    exact SafeOk.seq (safe_reads stable_true (fun hP => calls_recoverMarker hP marker) trivial)
      fun _ _ _ => SafeEx.pure trivial
  | none =>
    refine SafeOk.seq (safe_readCanonicalMetadata _ _ _ _ _ stable_true trivial)
      fun intent t h => ?_
    cases intent with
    | none => exact SafeEx.pure trivial
    | some intent =>
      obtain ⟨payload, hinv, hget, hdecode⟩ := h.2 intent rfl
      obtain ⟨m, rev, hm, hrev, hnode⟩ := hinv.intents hop hget
      obtain rfl := Node.file.inj hnode
      have hadm := S.admissible hm
      obtain rfl := eq_of_decodeCanonical
        (sound_intent (validateManifest_ok hadm.valid) (S.revision_valid hrev) hadm.utf8)
        (Intent.ofJson_toJson _) hdecode
      exact SafeOk.seq (safe_recoverIntent fuel hm hrev) fun _ _ _ => SafeEx.pure trivial

end Triples

/-! ## The system -/

/-- What a call of a process has returned. -/
inductive Outcome
  | published (r : Except Err Published)
  | recovered (r : Except Err (Option Recovered))

abbrev CacheSys := Sys CacheOp FsOp.Res Outcome Cache

def publishing (fuel : Nat) (operationID revision : Bytes) (m : Manifest) :
    Prog CacheOp FsOp.Res Outcome := do
  let r ← (publish fuel (stagingPath operationID) operationID revision m).run
  pure (.published r)

def recovering (fuel : Nat) (operationID : Bytes) : Prog CacheOp FsOp.Res Outcome := do
  let r ← (recoverPublished fuel operationID).run
  pure (.recovered r)

inductive ImportEvent
  /-- a new process calls `Publish` on the staging directory of the operation -/
  | publish (operationID revision : Bytes) (fuel : Nat)
  /-- a new process calls `RecoverPublished` -/
  | recover (operationID : Bytes) (fuel : Nat)
  | step (pid : Pid)
  | crash (pid : Pid)

namespace CacheSys

/-- The event as one of the system of processes; `M` gives the manifest of each staging
directory. -/
def event (M : Bytes → Option Manifest) :
    ImportEvent → Option (SysEvent CacheOp FsOp.Res Outcome Unit)
  | .publish operationID revision fuel =>
    (M operationID).map fun m => .spawn (publishing fuel operationID revision m)
  | .recover operationID fuel => some (.spawn (recovering fuel operationID))
  | .step pid => some (.step pid ())
  | .crash pid => some (.crash pid)

def step (M : Bytes → Option Manifest) (s : CacheSys) (e : ImportEvent) : Option CacheSys :=
  (event M e).bind (Sys.step FsOp.kernel s)

/-- A cache with nobody at work. -/
def start (t : Cache) : CacheSys := ⟨t, []⟩

end CacheSys

/-- A cache in which nothing has been published and the files of `M` are staged. -/
structure Fresh (M : Bytes → Option Manifest) (t : Cache) : Prop where
  wf : t.Wf
  published : ∀ d, t.get (publishedRelative d) = none
  intent : ∀ operationID, t.get (intentPath operationID) = none
  marker : ∀ operationID, t.get (markerPath operationID) = none
  staged : ∀ {operationID m}, M operationID = some m → Staged t operationID m

/-- The scope of processes that have the cache for themselves. -/
def wholeCache (M : Bytes → Option Manifest)
    (hM : ∀ operationID m, M operationID = some m → Admissible m) : Scope where
  ops _ := True
  digests _ := True
  named m := ∃ operationID, M operationID = some m
  manifest := M
  revision _ rev := validRevision rev = true
  ops_of_manifest _ := trivial
  digest_of_manifest _ := trivial
  named_of_manifest h := ⟨_, h⟩
  admissible h := hM _ _ h
  revision_valid h := h

theorem Fresh.inv {M : Bytes → Option Manifest} {t : Cache} (h : Fresh M t)
    (hM : ∀ operationID m, M operationID = some m → Admissible m) : Inv (wholeCache M hM) t where
  wf := h.wf
  publications _ hpub := absurd (h.published _) hpub
  stages hm := .inr (h.staged hm)
  intents _ hnode := by simp [h.intent] at hnode
  markers _ hnode := by simp [h.marker] at hnode

theorem compatible (S : Scope) :
    Compatible FsOp.kernel (Inv S) (fun _ => contract S) fun _ _ _ => True where
  inv_eq _ := rfl
  guar_rely _ _ h _ := h
  reap_inv h := h
  reap_rely _ _ := Rely.refl S _

abbrev Sound (S : Scope) (s : CacheSys) : Prop :=
  Sys.Sound FsOp.kernel (Inv S) (fun _ => contract S) (fun _ _ _ => True) s

theorem safe_outcome {S : Scope} {i : Pid} {α : Type} {s : Cache} {p : CacheProg α}
    (outcome : Except Err α → Outcome)
    (h : SafeOk FsOp.kernel i (contract S) p (fun _ _ => True) s) :
    Safe FsOp.kernel i (contract S) (p.run >>= fun r => pure (outcome r)) (fun _ _ => True) s :=
  Safe.bind (Safe.mono (fun _ _ _ => Safe.ret.2 trivial) h.run)

/-- One event keeps the invariant, and every process in its contract. -/
theorem step_sound {M : Bytes → Option Manifest}
    {hM : ∀ operationID m, M operationID = some m → Admissible m} {s s' : CacheSys}
    {e : ImportEvent} (hs : Sound (wholeCache M hM) s) (hstep : s.step M e = some s') :
    Sound (wholeCache M hM) s' := by
  obtain ⟨ev, hev, hstep⟩ := Option.bind_eq_some_iff.1 hstep
  refine Sys.Sound.step (compatible _) (fun _ _ _ _ _ _ => trivial) hs ?_ ?_ ?_ hstep
  · cases ev <;> simp [Sys.Meets]
  · rintro p rfl
    cases e with
    | publish operationID revision fuel =>
      obtain ⟨m, hm, heq⟩ := Option.map_eq_some_iff.1 hev
      obtain rfl := SysEvent.spawn.inj heq
      exact safe_outcome .published (safe_publish fuel hm id)
    | recover operationID fuel =>
      obtain rfl := SysEvent.spawn.inj (Option.some.inj hev)
      exact safe_outcome .recovered (safe_recoverPublished fuel trivial)
    | step pid => simp [CacheSys.event] at hev
    | crash pid => simp [CacheSys.event] at hev
  · rintro pid p a rfl
    cases e with
    | publish operationID revision fuel =>
      obtain ⟨m, -, heq⟩ := Option.map_eq_some_iff.1 hev
      simp at heq
    | recover operationID fuel => simp [CacheSys.event] at hev
    | step pid => simp [CacheSys.event] at hev
    | crash pid => simp [CacheSys.event] at hev

/-! ## Visibility -/

/-- `ValidatePublished(d)` in this cache. -/
def validates (t : Cache) (d : Bytes) : Except Err (Manifest × Gguf.Metadata) :=
  ((validatePublished d).run.eval FsOp.run t).1

theorem Inv.validates {S : Scope} {t : Cache} {d : Bytes} (h : Inv S t) (hd : S.digests d)
    (hready : ReadyAt d t) : ∃ r, validates t d = .ok r := by
  obtain ⟨m, -, hpublication⟩ := h.publications hd (hready.published h.wf)
  obtain ⟨rfl, hadm, hmanifest, ⟨f, metadata, hmatches, hholds⟩, -⟩ := hpublication
  have hsafe : SafeEx FsOp.kernel 0 (FsOp.still t) (validatePublished m.digest)
      (fun r u => r = (m, metadata) ∧ True) (fun _ _ => False) t :=
    safe_validatePublished hadm.utf8 hadm.size (FsOp.still_steady h.wf) hmatches
      (fun _ heq _ => heq ▸ hmanifest) (fun _ heq _ => heq ▸ hholds) (fun _ heq _ => heq ▸ hready)
      trivial
  obtain ⟨r, hr, -⟩ := FsOp.eval_still hsafe
  exact ⟨r, hr⟩

/-- **READY means complete.** Any number of processes publish and recover any operations, each
with one manifest for its staging directory, and any of them may crash after any call. In every
state, a publication with a READY file passes `ValidatePublished`, and a marker names a
publication with a READY file. -/
theorem published_visible {M : Bytes → Option Manifest}
    (hM : ∀ operationID m, M operationID = some m → Admissible m) {t : Cache} (hfresh : Fresh M t)
    {events : List ImportEvent} {s : CacheSys}
    (hrun : Machine.run (CacheSys.step M) (CacheSys.start t) events = some s) :
    (∀ d content, s.shared.get (readyPath d) = some (.file content) →
      ∃ r, validates s.shared d = .ok r) ∧
    ∀ operationID node, s.shared.get (markerPath operationID) = some node →
      ∃ payload marker content, node = .file payload ∧
        decodeDocument Marker.fields Marker.zero payload = .ok marker ∧
        s.shared.get (readyPath marker.publicationDigest) = some (.file content) := by
  have hstart : Sound (wholeCache M hM) (CacheSys.start t) :=
    ⟨hfresh.inv hM, fun hp => by simp [CacheSys.start] at hp⟩
  have hsound : Sound (wholeCache M hM) s :=
    Machine.run_invariant_all (fun _ _ _ hs hstep => step_sound hs hstep) hstart hrun
  have hinv := hsound.inv
  refine ⟨fun d content hget => ?_, fun operationID node hnode => ?_⟩
  · have hdir := hinv.wf (publishedRelative d) readyFilename (by rw [← readyPath, hget]; simp)
    obtain ⟨m, -, hpublication⟩ := hinv.publications (d := d) trivial (by simp [PublishedAt, hdir])
    have hready : ReadyAt d s.shared := by rw [ReadyAt, hget, hpublication.ready hget]
    exact hinv.validates trivial hready
  · obtain ⟨m, rev, hm, hrev, rfl, hready⟩ := hinv.markers trivial hnode
    have hsoundJson := sound_marker (validateManifest_ok (hM _ _ hm).valid) hrev
    exact ⟨_, markerFor m rev, _, rfl,
      decodeDocument_encode hsoundJson (Marker.ofJson_toJson _), hready⟩

/-! ### A small cache -/

/-- A GGUF file without tensors: its architecture is `a`. -/
def smallGGUF : Bytes :=
  ascii "GGUF" ++ [3, 0, 0, 0] ++ [0, 0, 0, 0, 0, 0, 0, 0] ++ [1, 0, 0, 0, 0, 0, 0, 0] ++
    [20, 0, 0, 0, 0, 0, 0, 0] ++ ascii "general.architecture" ++ [8, 0, 0, 0] ++
    [1, 0, 0, 0, 0, 0, 0, 0] ++ ascii "a"

/-- Its digest, `5380b705…` -/
def smallSHA256 : Bytes :=
  [53, 51, 56, 48, 98, 55, 48, 53, 51, 99, 54, 102, 97, 53, 51, 51, 102, 53, 54, 102, 102, 51,
    100, 49, 97, 54, 50, 102, 50, 56, 51, 101, 98, 55, 51, 56, 101, 55, 57, 49, 56, 53, 97, 50,
    98, 48, 51, 54, 55, 51, 57, 97, 52, 57, 102, 49, 97, 97, 55, 98, 101, 49, 97, 57]

/-- The manifest of this file under the given name. -/
def smallManifest (name : Bytes) : Manifest := ⟨1, formatGGUF, name, [⟨name, 65, smallSHA256⟩]⟩

/-- A cache with this file in the staging directory of the operation `op`. -/
def smallCache (name : Bytes) : Cache :=
  ⟨[([Descriptors.kamaDir], .dir), (stagingDir, .dir), (stagingPath (ascii "op"), .dir),
    (stagingPath (ascii "op") ++ [name], .file smallGGUF)]⟩

def smallManifests (name operationID : Bytes) : Option Manifest :=
  if operationID = ascii "op" then some (smallManifest name) else none

/-- One `Publish` of the operation, stopped after `n` calls. -/
def smallRun (n : Nat) : List ImportEvent :=
  .publish (ascii "op") [] 3 :: List.replicate n (.step 0)

def smallState (name : Bytes) (n : Nat) : Option CacheSys :=
  Machine.run (CacheSys.step (smallManifests name)) (CacheSys.start (smallCache name)) (smallRun n)

theorem small_content {name : Bytes} (hvalid : validateManifest (smallManifest name) = .ok ())
    (hentry : Gguf.validateShardEntrypoint name = .ok ())
    (hset : (setMetadata (smallManifest name) fun _ => smallGGUF) = .ok ⟨3, ascii "a", [], 1, 0⟩)
    (hget : (smallCache name).get (filePath (stagingPath (ascii "op")) name) =
      some (.file smallGGUF)) :
    Content (smallCache name) (stagingPath (ascii "op")) (smallManifest name) := by
  have hsize : Int64.ofNat smallGGUF.length = 65 := by decide
  have hsha : hexSHA256 smallGGUF = smallSHA256 := by decide +kernel
  refine ⟨fun _ => smallGGUF, ⟨3, ascii "a", [], 1, 0⟩, ⟨hvalid, ?_, ?_, hentry, hset⟩, ?_⟩
  · simpa [smallManifest] using hsize
  · simpa [smallManifest] using hsha
  · simpa [Holds, smallManifest] using hget

theorem admissible_small : Admissible (smallManifest (ascii "m.gguf")) where
  valid := by decide +kernel
  utf8 := by simpa [Manifest.Utf8, smallManifest] using by decide
  size := by decide +kernel
  ready := by simpa [smallManifest] using by decide
  manifest := by simpa [smallManifest] using by decide

theorem fresh_small : Fresh (smallManifests (ascii "m.gguf")) (smallCache (ascii "m.gguf")) where
  wf := Tree.wf_of_items (by decide)
  published d := Tree.get_eq_none_of_keys (by simp [publishedRelative])
    fun e he => ne_of_take_two (show e.1.take 2 ≠ blobsDir by revert e; decide)
  intent op := Tree.get_eq_none_of_keys (by simp [intentPath])
    fun e he => ne_of_take_two (show e.1.take 2 ≠ intentsDir by revert e; decide)
  marker op := Tree.get_eq_none_of_keys (by simp [markerPath])
    fun e he => ne_of_take_two (show e.1.take 2 ≠ operationsDir by revert e; decide)
  staged {op m} hm := by
    unfold smallManifests at hm
    split at hm
    · rename_i hop
      obtain rfl := Option.some.inj hm
      subst hop
      exact ⟨small_content admissible_small.valid (by decide) (by decide +kernel) (by decide),
        by decide⟩
    · simp at hm

/-- The run of one `Publish` to its end. -/
theorem published_visible_small : ∃ s, smallState (ascii "m.gguf") 52 = some s ∧
    ReadyAt (smallManifest (ascii "m.gguf")).digest s.shared ∧
    (∃ r, validates s.shared (smallManifest (ascii "m.gguf")).digest = .ok r) ∧
    s.shared.get (markerPath (ascii "op")) =
      some (.file (Json.encode (markerFor (smallManifest (ascii "m.gguf")) []).toJson)) := by
  have heval : (smallState (ascii "m.gguf") 52).map (fun s =>
      (s.shared.get (readyPath (smallManifest (ascii "m.gguf")).digest),
        s.shared.get (markerPath (ascii "op")))) =
      some (some (.file (readyLine (smallManifest (ascii "m.gguf")).digest)),
        some (.file (Json.encode (markerFor (smallManifest (ascii "m.gguf")) []).toJson))) := by
    decide +kernel
  obtain ⟨s, hs, heq⟩ := Option.map_eq_some_iff.1 heval
  obtain ⟨hready, hmarker⟩ := Prod.mk.inj heq
  have hM : ∀ op m, smallManifests (ascii "m.gguf") op = some m → Admissible m := by
    intro op m hm
    unfold smallManifests at hm
    split at hm
    · obtain rfl := Option.some.inj hm
      exact admissible_small
    · simp at hm
  have hvisible := published_visible hM fresh_small hs
  exact ⟨s, hs, hready, hvisible.1 _ _ hready, hmarker⟩

/-- A manifest with a file called READY: the rename publishes it together with what looks like
the mark of a complete publication and is not. -/
theorem ready_before_publication :
    Content (smallCache readyFilename) (stagingPath (ascii "op")) (smallManifest readyFilename) ∧
    (smallManifest readyFilename).encode.length ≤ maxResultBytes ∧
    (Json.encode (intentFor (smallManifest readyFilename) []).toJson).length ≤ maxResultBytes ∧
    ∃ s, smallState readyFilename 31 = some s ∧
      s.shared.get (readyPath (smallManifest readyFilename).digest) = some (.file smallGGUF) ∧
      ∃ e, validates s.shared (smallManifest readyFilename).digest = .error e := by
  refine ⟨small_content (by decide +kernel) (by decide) (by decide +kernel) (by decide),
    by decide +kernel, by decide +kernel, ?_⟩
  have heval : (smallState readyFilename 31).map (fun s =>
      (s.shared.get (readyPath (smallManifest readyFilename).digest),
        (validates s.shared (smallManifest readyFilename).digest).toBool)) =
      some (some (.file smallGGUF), false) := by
    decide +kernel
  obtain ⟨s, hs, heq⟩ := Option.map_eq_some_iff.1 heval
  obtain ⟨hready, hfails⟩ := Prod.mk.inj heq
  refine ⟨s, hs, hready, ?_⟩
  cases hv : validates s.shared (smallManifest readyFilename).digest with
  | error e => exact ⟨e, rfl⟩
  | ok r => simp [hv, Except.toBool] at hfails

end Kama.Artifact.Storage
