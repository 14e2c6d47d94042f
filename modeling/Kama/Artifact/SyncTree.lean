import Kama.Artifact.DiskFiles
import Kama.Artifact.Manifest

/-!
# Syncing a publication

`syncArtifactTree` of `storage_linux.go` on the strings of the source: it collects the directories
to sync by taking `path.Dir` again and again, as long as a string has the prefix.

* `pathDir_joinSlash`, `joinPath_joinSlash`: on clean paths, `path.Dir` drops the last component and
  `path.Join` puts the components together.
* `collect_eq`: the loop ends, and collects what is between the prefix and the file.
* `syncArtifactTree_exact`: when it returns without an error, the files have been synced and after
  them exactly these directories.
-/

namespace Kama.Artifact.OnDisk

open Bytes FileTree Inode Program Disk Descriptors

/-! ## Strings -/

/-- `path.Dir`. -/
def pathDir (s : Bytes) : Bytes := clean (s.reverse.dropWhile (· ≠ 47)).reverse

/-- The loop of `syncArtifactTree` over the directories above a file; `none` when it has not ended
after so many rounds. -/
def collect (prefix_ : Bytes) : Nat → Bytes → List Bytes → Option (List Bytes)
  | 0, _, _ => none
  | fuel + 1, directory, directories =>
    if prefix_ <+: directory then
      if directory = prefix_ then some (directories.insert directory)
      else collect prefix_ fuel (pathDir directory) (directories.insert directory)
    else some directories

section Strings

variable {p q : Path}

theorem slash_not_mem (h : ∀ c ∈ p, validComponent c = true) : ∀ c ∈ p, (47 : UInt8) ∉ c := by
  intro c hc
  have hvalid := h c hc
  simp only [validComponent, decide_eq_true_eq] at hvalid
  exact hvalid.2.2.2.2.2

theorem joinSlash_ne_nil (hp : p ≠ []) (h : ∀ c ∈ p, validComponent c = true) :
    joinSlash p ≠ [] := by
  intro hnil
  have hsplit := splitSlash_joinSlash hp (slash_not_mem h)
  rw [hnil] at hsplit
  have hmem : ([] : Bytes) ∈ p := by
    rw [← hsplit]
    exact List.mem_singleton_self _
  exact absurd (h [] hmem) (by decide)

theorem head_joinSlash (hp : p ≠ []) (h : ∀ c ∈ p, validComponent c = true) :
    (joinSlash p).head? ≠ some 47 := by
  cases p with
  | nil => exact absurd rfl hp
  | cons c cs =>
    have hc := h c List.mem_cons_self
    have hslash := slash_not_mem h c List.mem_cons_self
    obtain ⟨b, bs, rfl⟩ : ∃ b bs, c = b :: bs := by
      cases c with
      | nil => exact absurd hc (by decide)
      | cons b bs => exact ⟨b, bs, rfl⟩
    have hb : b ≠ 47 := fun hb => hslash (hb ▸ List.mem_cons_self)
    rcases eq_or_ne cs [] with rfl | hcs
    · simpa [joinSlash] using hb
    · simpa [joinSlash_cons hcs] using hb

theorem clean_joinSlash (hp : p ≠ []) (h : ∀ c ∈ p, validComponent c = true) :
    clean (joinSlash p) = joinSlash p := by
  refine clean_of_valid ?_ (joinSlash_ne_nil hp h) (head_joinSlash hp h)
  rwa [splitSlash_joinSlash hp (slash_not_mem h)]

theorem clean_joinSlash_slash (hp : p ≠ []) (h : ∀ c ∈ p, validComponent c = true) :
    clean (joinSlash p ++ [47]) = joinSlash p := by
  have hjoin : joinSlash p ++ [47] = joinSlash (p ++ [[]]) := by
    rw [joinSlash_append hp (List.cons_ne_nil [] [])]
    rfl
  have hslash : ∀ c ∈ p ++ [[]], (47 : UInt8) ∉ c := by
    intro c hc
    rcases List.mem_append.1 hc with hc | hc
    · exact slash_not_mem h c hc
    · simp [List.mem_singleton.1 hc]
  have hhead : (joinSlash p ++ [47]).head? ≠ some 47 := by
    rw [List.head?_append_of_ne_nil _ (joinSlash_ne_nil hp h)]
    exact head_joinSlash hp h
  have hfold : (splitSlash (joinSlash p ++ [47])).foldl (cleanStep false) [] = p.reverse := by
    rw [hjoin, splitSlash_joinSlash (by simp) hslash, List.foldl_append,
      foldl_cleanStep_of_proper fun c hc => proper_of_validComponent (h c hc)]
    simp [cleanStep]
  unfold clean
  simp only [decide_eq_false hhead, hfold, List.reverse_reverse, joinSlash_ne_nil hp h,
    Bool.false_eq_true, if_false]

/-- On clean paths `path.Join` puts the components together. -/
theorem joinPath_joinSlash (hp : p ≠ []) (hq : q ≠ []) (h : ∀ c ∈ p ++ q, validComponent c = true) :
    joinPath (joinSlash p) (joinSlash q) = joinSlash (p ++ q) := by
  have hpne := joinSlash_ne_nil hp fun c hc => h c (List.mem_append_left q hc)
  have hqne := joinSlash_ne_nil hq fun c hc => h c (List.mem_append_right p hc)
  unfold joinPath
  rw [if_neg fun hnil => hpne hnil.1, if_neg hpne, if_neg hqne, ← joinSlash_append hp hq,
    clean_joinSlash (by simp [hp]) h]

/-- On clean paths `path.Dir` drops the last component. -/
theorem pathDir_joinSlash {c : Bytes} (hp : p ≠ []) (h : ∀ d ∈ p ++ [c], validComponent d = true) :
    pathDir (joinSlash (p ++ [c])) = joinSlash p := by
  have hc : ∀ b ∈ c.reverse, (b ≠ 47 : Bool) = true := by
    intro b hb
    have hslash := slash_not_mem h c (by simp)
    simp only [ne_eq, decide_eq_true_eq]
    exact fun heq => hslash (heq ▸ List.mem_reverse.1 hb)
  unfold pathDir
  rw [joinSlash_append hp (List.cons_ne_nil _ _), List.reverse_append, joinSlash,
    List.reverse_cons, List.append_assoc, List.dropWhile_append_of_pos hc, List.singleton_append,
    List.dropWhile_cons_of_neg (by simp), List.reverse_cons, List.reverse_reverse]
  exact clean_joinSlash_slash hp fun d hd => h d (List.mem_append_left [c] hd)

/-- **The loop collects what is between the prefix and the file.** -/
theorem collect_eq {fuel : Nat} (hp : p ≠ []) (h : ∀ c ∈ p ++ q, validComponent c = true)
    (hfuel : q.length < fuel) (directories : List Bytes) :
    ∃ found, collect (joinSlash p) fuel (joinSlash (p ++ q)) directories = some found ∧
      (∀ d, d ∈ found ↔ d ∈ directories ∨ ∃ r, r <+: q ∧ d = joinSlash (p ++ r)) ∧
      (directories.Nodup → found.Nodup) := by
  -- from the file up: each round drops the last component
  induction q using List.reverseRecOn generalizing fuel directories with
  | nil =>
    obtain ⟨fuel, rfl⟩ := Nat.exists_eq_succ_of_ne_zero (Nat.ne_of_gt hfuel)
    refine ⟨directories.insert (joinSlash p), by simp [collect], fun d => ?_, List.Nodup.insert⟩
    simp [List.mem_insert_iff, or_comm]
  | append_singleton q c ih =>
    obtain ⟨fuel, rfl⟩ := Nat.exists_eq_succ_of_ne_zero (Nat.ne_of_gt (Nat.zero_lt_of_lt hfuel))
    rw [List.length_append, List.length_singleton, Nat.succ_lt_succ_iff] at hfuel
    rw [← List.append_assoc] at h ⊢
    have hdir := pathDir_joinSlash (by simp [hp]) h
    have hpre : joinSlash p <+: joinSlash (p ++ q ++ [c]) := by
      rw [List.append_assoc, joinSlash_append hp (by simp)]
      exact List.prefix_append _ _
    have hne : joinSlash (p ++ q ++ [c]) ≠ joinSlash p := by
      rw [List.append_assoc, joinSlash_append hp (by simp)]
      simp
    obtain ⟨found, hfound, hmem, hnodup⟩ :=
      ih (fun d hd => h d (List.mem_append_left [c] hd)) hfuel
        (directories.insert (joinSlash (p ++ q ++ [c])))
    refine ⟨found, ?_, fun d => ?_, fun hd => hnodup hd.insert⟩
    · rw [collect, if_pos hpre, if_neg hne, hdir, hfound]
    · rw [hmem, List.mem_insert_iff, or_comm (a := d = _), or_assoc]
      refine or_congr_right ?_
      constructor
      · rintro (rfl | ⟨r, hr, rfl⟩)
        · exact ⟨q ++ [c], List.prefix_rfl, by rw [List.append_assoc]⟩
        · exact ⟨r, hr.trans (List.prefix_append q [c]), rfl⟩
      · rintro ⟨r, hr, rfl⟩
        rcases List.prefix_concat_iff.1 hr with rfl | hr
        · exact .inl (by rw [List.append_assoc])
        · exact .inr ⟨r, hr, rfl⟩

/-- The path of a file of a manifest, and the directories that the loop finds above it. -/
theorem collect_file {fuel : Nat} {path : Bytes} (hp : p ≠ [])
    (h : ∀ c ∈ p, validComponent c = true) (hpath : validateRelativePath path = .ok ())
    (hfuel : (splitSlash path).length ≤ fuel) (directories : List Bytes) :
    splitSlash (joinPath (joinSlash p) path) = p ++ splitSlash path ∧
      ∃ found, collect (joinSlash p) fuel (pathDir (joinPath (joinSlash p) path)) directories =
          some found ∧
        (∀ d, d ∈ found ↔ d ∈ directories ∨
          ∃ r, r <+: (splitSlash path).dropLast ∧ d = joinSlash (p ++ r)) ∧
        (directories.Nodup → found.Nodup) := by
  have hsplit := splitSlash_ne_nil path
  have hvalid : ∀ c ∈ p ++ splitSlash path, validComponent c = true := by
    intro c hc
    rcases List.mem_append.1 hc with hc | hc
    · exact h c hc
    · exact (validateRelativePath_eq_ok_iff _).1 hpath c hc
  have hjoin : joinPath (joinSlash p) path = joinSlash (p ++ splitSlash path) := by
    rw [← joinPath_joinSlash hp hsplit hvalid, joinSlash_splitSlash]
  have hdrop : p ++ splitSlash path =
      p ++ (splitSlash path).dropLast ++ [(splitSlash path).getLast hsplit] := by
    rw [List.append_assoc, List.dropLast_append_getLast]
  have hdir : pathDir (joinPath (joinSlash p) path) =
      joinSlash (p ++ (splitSlash path).dropLast) := by
    rw [hjoin, hdrop]
    exact pathDir_joinSlash (by simp [hp]) (hdrop ▸ hvalid)
  have hlength : (splitSlash path).dropLast.length < fuel := by
    have hpos := List.length_pos_of_ne_nil hsplit
    rw [List.length_dropLast]
    omega
  refine ⟨?_, ?_⟩
  · rw [hjoin, splitSlash_joinSlash (by simp [hp]) (slash_not_mem hvalid)]
  · rw [hdir]
    refine collect_eq hp (fun c hc => hvalid c ?_) hlength directories
    rw [hdrop]
    exact List.mem_append_left _ hc

end Strings

/-! ## The program -/

section Program

variable {ι : Type} {Ans : ι → Type}

/-- Open a file, sync and close it. -/
def syncRegular (p : Path) : DiskProg ι Ans Unit := do
  let file ← openRegular p
  match (← onFd (call (FdOp.sync file)) : Except Errno Unit) with
  | .error e => do
    onFd (closeQuietly file)
    throw (storageError "fsync artifact file" e)
  | .ok () => onFd do
    check (storageError "close artifact file") (← call (FdOp.close file))

/-- The loop of `syncArtifactTree` over the files. -/
def syncFiles (fuel : Nat) (prefix_ : Bytes) : List FileRecord → List Bytes →
    DiskProg ι Ans (List Bytes)
  | [], directories => pure directories
  | record :: records, directories => do
    syncRegular (splitSlash (joinPath prefix_ record.path))
    match collect prefix_ fuel (pathDir (joinPath prefix_ record.path)) directories with
    | none => throw (.new "out of fuel")
    | some directories => syncFiles fuel prefix_ records directories

def syncDirs : List Bytes → DiskProg ι Ans Unit
  | [] => pure ()
  | directory :: directories => do
    onFd (syncDirectory (if directory = ascii "." ∨ directory = [] then []
      else splitSlash directory))
    syncDirs directories

/-- `syncArtifactTree`; the source goes over the directories in an order of its own. -/
def syncArtifactTree (fuel : Nat) (order : List Bytes → List Bytes) (prefix_ : Bytes)
    (m : Manifest) : DiskProg ι Ans Unit := do
  let directories ← syncFiles fuel prefix_ m.files [prefix_]
  syncDirs (order directories)

theorem ensures_syncRegular {p : Path} (hp : p ≠ []) (s : Disk Bytes) :
    Ensures (Answers Ans) (syncRegular p) (fun _ t => t.store = s.store.flush p)
      (fun _ _ => True) s := by
  refine Ensures.seq (ensures_openRegular hp s) (fun _ _ _ => trivial) fun file t hfile => ?_
  refine Ensures.bind (ensures_onFd (Ensures.lift fun r u hr => hr)) ?_
  intro r u hr
  rcases hr.sync hfile.file with ⟨e, rfl, rfl⟩ | ⟨rfl, rfl⟩
  · refine Ensures.bind (ensures_onFd (ensures_closeQuietly file u)) ?_
    exact fun _ _ _ => Ensures.throw trivial
  · refine ensures_onFd (Ensures.calling ?_)
    intro r v hv
    obtain rfl := hv.close
    refine Ensures.ofExcept ?_
    cases r with
    | error e => trivial
    | ok u =>
      rw [← hfile.quiet.store]
      rfl

variable {base : Path} {fuel : Nat}

/-- What the loop over these files adds to the directories. -/
def Above (base : Path) (records : List FileRecord) (d : Bytes) : Prop :=
  ∃ r ∈ records, ∃ q, q <+: (splitSlash r.path).dropLast ∧ d = joinSlash (base ++ q)

theorem ensures_syncFiles (hne : base ≠ []) (hbase : ∀ c ∈ base, validComponent c = true)
    {records : List FileRecord} (hrecords : ∀ r ∈ records, validateRelativePath r.path = .ok ())
    (hfuel : ∀ r ∈ records, (splitSlash r.path).length ≤ fuel) (directories : List Bytes)
    (s : Disk Bytes) :
    Ensures (Answers Ans) (syncFiles fuel (joinSlash base) records directories)
      (fun found t => t.store.synced = s.store.synced ++
          records.map (fun r => base ++ splitSlash r.path) ∧
        (∀ d, d ∈ found ↔ d ∈ directories ∨ Above base records d) ∧
        (directories.Nodup → found.Nodup)) (fun _ _ => True) s := by
  induction records generalizing s directories with
  | nil => exact Ensures.pure ⟨by simp, fun d => by simp [Above], id⟩
  | cons record records ih =>
    obtain ⟨hpath, found, hfound, hmem, hnodup⟩ := collect_file hne hbase
      (hrecords record List.mem_cons_self) (hfuel record List.mem_cons_self) directories
    unfold syncFiles
    rw [hpath, hfound]
    refine Ensures.bind (ensures_syncRegular (by simp [hne]) s) ?_
    intro _ t ht
    refine Ensures.mono (fun all u hu => ⟨?_, fun d => ?_, fun hd => hu.2.2 (hnodup hd)⟩)
      (fun _ _ h => h) (ih (fun r hr => hrecords r (List.mem_cons_of_mem _ hr))
        (fun r hr => hfuel r (List.mem_cons_of_mem _ hr)) found t)
    · rw [hu.1, ht, List.map_cons, ← List.singleton_append, ← List.append_assoc]
      rfl
    · rw [hu.2.1, hmem, or_assoc]
      simp [Above]

theorem ensures_syncDirs {ps : List Path}
    (hps : ∀ p ∈ ps, p ≠ [] ∧ ∀ c ∈ p, validComponent c = true) (s : Disk Bytes) :
    Ensures (Answers Ans) (syncDirs (ps.map joinSlash))
      (fun _ t => t.store.synced = s.store.synced ++ ps) (fun _ _ => True) s := by
  induction ps generalizing s with
  | nil => exact Ensures.pure (by simp)
  | cons p ps ih =>
    obtain ⟨hne, hvalid⟩ := hps p List.mem_cons_self
    have hsplit := splitSlash_joinSlash hne (slash_not_mem hvalid)
    have hdot : ¬(joinSlash p = ascii "." ∨ joinSlash p = []) := by
      rintro (hdot | hnil)
      · rw [hdot] at hsplit
        exact absurd (hvalid (ascii ".") (hsplit ▸ by decide)) (by decide)
      · exact joinSlash_ne_nil hne hvalid hnil
    rw [List.map_cons, syncDirs, if_neg hdot, hsplit]
    refine Ensures.seq (ensures_onFd (ensures_syncDirectory p s)) (fun _ _ _ => trivial) ?_
    intro _ t ht
    refine Ensures.mono (fun _ u hu => ?_) (fun _ _ h => h)
      (ih (fun q hq => hps q (List.mem_cons_of_mem _ hq)) t)
    rw [hu, ht.2.1, ← List.singleton_append, ← List.append_assoc]
    rfl

/-- The prefix, and the directories between it and a file of the manifest. -/
def Between (base : Path) (m : Manifest) (d : Path) : Prop :=
  d = base ∨ ∃ r ∈ m.files, base <+: d ∧ d <+: base ++ splitSlash r.path ∧
    d ≠ base ++ splitSlash r.path

theorem between_iff {m : Manifest} {d : Path} :
    Between base m d ↔ d = base ∨ ∃ r ∈ m.files, ∃ q, q <+: (splitSlash r.path).dropLast ∧
      d = base ++ q := by
  refine or_congr_right (exists_congr fun r => and_congr_right fun _ => ?_)
  have hsplit := splitSlash_ne_nil r.path
  have hdrop : ∀ q : Path, q <+: splitSlash r.path ↔
      q = splitSlash r.path ∨ q <+: (splitSlash r.path).dropLast := by
    intro q
    have h := @List.prefix_concat_iff _ q (splitSlash r.path).dropLast
      ((splitSlash r.path).getLast hsplit)
    rwa [List.dropLast_append_getLast] at h
  constructor
  · rintro ⟨⟨q, rfl⟩, hpre, hne⟩
    refine ⟨q, ?_, rfl⟩
    rcases (hdrop q).1 ((List.prefix_append_right_inj base).1 hpre) with rfl | hq
    · exact absurd rfl hne
    · exact hq
  · rintro ⟨q, hq, rfl⟩
    refine ⟨List.prefix_append _ _, ?_, fun heq => ?_⟩
    · exact (List.prefix_append_right_inj base).2 ((hdrop q).2 (.inr hq))
    · have hlength := hq.length_le
      rw [List.append_cancel_left heq, List.length_dropLast] at hlength
      have hpos := List.length_pos_of_ne_nil hsplit
      omega

theorem ensures_syncArtifactTree (hne : base ≠ []) (hbase : ∀ c ∈ base, validComponent c = true)
    {m : Manifest} (hm : m.Valid) (hfuel : ∀ r ∈ m.files, (splitSlash r.path).length ≤ fuel)
    {order : List Bytes → List Bytes} (horder : ∀ l, (order l).Perm l) (s : Disk Bytes) :
    Ensures (Answers Ans) (syncArtifactTree fuel order (joinSlash base) m)
      (fun _ t => ∃ dirs, t.store.synced = s.store.synced ++
          m.files.map (fun r => base ++ splitSlash r.path) ++ dirs ∧
        dirs.Nodup ∧ ∀ d, d ∈ dirs ↔ Between base m d) (fun _ _ => True) s := by
  have hrecords : ∀ r ∈ m.files, validateRelativePath r.path = .ok () :=
    fun r hr => (hm.record r hr).1
  refine Ensures.bind (ensures_syncFiles hne hbase hrecords hfuel _ s) ?_
  rintro found t ⟨hsynced, hmem, hnodup⟩
  -- the strings are those of the paths between
  have hpaths : ∀ d, d ∈ order found ↔ ∃ q, Between base m q ∧ d = joinSlash q := by
    intro d
    rw [(horder found).mem_iff, hmem, List.mem_singleton, Above]
    simp only [between_iff]
    constructor
    · rintro (rfl | ⟨r, hr, q, hq, rfl⟩)
      · exact ⟨base, .inl rfl, rfl⟩
      · exact ⟨base ++ q, .inr ⟨r, hr, q, hq, rfl⟩, rfl⟩
    · rintro ⟨_, rfl | ⟨r, hr, q, hq, rfl⟩, rfl⟩
      · exact .inl rfl
      · exact .inr ⟨r, hr, q, hq, rfl⟩
  have hvalid : ∀ q, Between base m q → q ≠ [] ∧ ∀ c ∈ q, validComponent c = true := by
    rintro _ (rfl | ⟨r, hr, ⟨q, rfl⟩, hpre, -⟩)
    · exact ⟨hne, hbase⟩
    · refine ⟨by simp [hne], fun c hc => ?_⟩
      rcases List.mem_append.1 (hpre.subset hc) with hc | hc
      · exact hbase c hc
      · exact (validateRelativePath_eq_ok_iff _).1 (hrecords r hr) c hc
  have hsplit : ∀ q, Between base m q → splitSlash (joinSlash q) = q :=
    fun q hq => splitSlash_joinSlash (hvalid q hq).1 (slash_not_mem (hvalid q hq).2)
  have hdirs : ∀ q, q ∈ (order found).map splitSlash ↔ Between base m q := by
    intro q
    rw [List.mem_map]
    constructor
    · rintro ⟨d, hd, rfl⟩
      obtain ⟨q, hq, rfl⟩ := (hpaths d).1 hd
      rwa [hsplit q hq]
    · exact fun hq => ⟨joinSlash q, (hpaths _).2 ⟨q, hq, rfl⟩, hsplit q hq⟩
  have hjoin : ((order found).map splitSlash).map joinSlash = order found := by
    simp [Function.comp_def, joinSlash_splitSlash]
  have hrest := @ensures_syncDirs ι Ans ((order found).map splitSlash)
    (fun q hq => hvalid q ((hdirs q).1 hq)) t
  rw [hjoin] at hrest
  refine Ensures.mono (fun _ u hu => ?_) (fun _ _ h => h) hrest
  refine ⟨_, by rw [hu, hsynced], ?_, hdirs⟩
  refine List.Nodup.of_map joinSlash ?_
  rw [hjoin]
  exact (horder found).nodup_iff.2 (hnodup (List.nodup_singleton _))

end Program

/-- **`syncArtifactTree` syncs the publication, exactly.** Each of its loops over the directories
above a file ends, and when it returns without an error it has synced the files of the manifest and
after them the prefix and every directory between it and a file, each once. -/
theorem syncArtifactTree_exact {ι : Type} {Ans : ι → Type} {prefix_ : Bytes} {m : Manifest}
    (hpre : validateRelativePath prefix_ = .ok ()) (hm : validateManifest m = .ok ()) {fuel : Nat}
    (hfuel : ∀ r ∈ m.files, (splitSlash r.path).length ≤ fuel)
    {order : List Bytes → List Bytes} (horder : ∀ l, (order l).Perm l) :
    (∀ r ∈ m.files, ∀ directories,
      (collect prefix_ fuel (pathDir (joinPath prefix_ r.path)) directories).isSome = true) ∧
    ∀ (s : Disk Bytes) (calls : List (Called (DiskOp Bytes ι) (DiskOp.Res Ans) (Disk Bytes))),
      Reach (syncArtifactTree fuel order prefix_ m).run calls (.ret (.ok ())) →
      Answered (Answers Ans) s calls →
      ∃ dirs, (final s calls).store.synced = s.store.synced ++
          m.files.map (fun r => splitSlash prefix_ ++ splitSlash r.path) ++ dirs ∧
        dirs.Nodup ∧ ∀ d, d ∈ dirs ↔ Between (splitSlash prefix_) m d := by
  have hvalid := validateManifest_ok hm
  have hbase := (validateRelativePath_eq_ok_iff prefix_).1 hpre
  have hne := splitSlash_ne_nil prefix_
  refine ⟨fun r hr directories => ?_, fun s calls hreach hcalls => ?_⟩
  · obtain ⟨-, found, hfound, -⟩ :=
      collect_file hne hbase (hvalid.record r hr).1 (hfuel r hr) directories
    rw [joinSlash_splitSlash] at hfound
    rw [hfound]
    rfl
  · have h := @ensures_syncArtifactTree ι Ans _ _ hne hbase _ hvalid hfuel _ horder s
    rw [joinSlash_splitSlash] at h
    exact h.of_reach hreach hcalls

/-- A manifest with one file. -/
def sampleManifest : Manifest where
  schemaVersion := schemaVersion
  format := formatGGUF
  entrypoint := ascii "d/m.gguf"
  files := [⟨ascii "d/m.gguf", 1, List.replicate 64 97⟩]

/-- A disk with that file, below a directory. -/
def sampleDisk : Disk Bytes where
  files _ := none
  store :=
    { nodes := fun p =>
        if p = [ascii "a"] ∨ p = [ascii "a", ascii "d"] then some .directory
        else if p = [ascii "a", ascii "d", ascii "m.gguf"] then some .regular else none
      durable := fun _ => true
      synced := []
      removed := [] }

/-- The calls of `syncArtifactTree` for it, and the result. -/
def sampleRun : List (Called (DiskOp Bytes Empty) (DiskOp.Res Empty.elim) (Disk Bytes)) ×
    Except Err Unit :=
  (syncArtifactTree 2 id (ascii "a") sampleManifest).run.trace (Disk.exec Empty.rec) sampleDisk

theorem syncArtifactTree_exact_sample :
    ∃ dirs, (final sampleDisk sampleRun.1).store.synced =
        [[ascii "a", ascii "d", ascii "m.gguf"]] ++ dirs ∧ dirs.Nodup ∧
      [ascii "a"] ∈ dirs ∧ [ascii "a", ascii "d"] ∈ dirs := by
  have hret : sampleRun.2 = .ok () := by decide +kernel
  obtain ⟨dirs, hsynced, hnodup, hmem⟩ := (syncArtifactTree_exact (by decide) (by decide +kernel)
    (by decide) (fun l => List.Perm.refl l)).2 sampleDisk sampleRun.1
    (hret ▸ reach_trace _ _ _) (answered_trace (answers_exec _) _ _)
  refine ⟨dirs, hsynced, hnodup, (hmem _).2 (.inl rfl), (hmem _).2 (.inr ?_)⟩
  exact ⟨_, List.mem_singleton_self _, by decide⟩

end Kama.Artifact.OnDisk
