import Kama.Artifact.Cleanup
import Kama.Artifact.OperationLock
import Kama.Controller.ArtifactDeletion
import Mathlib.Tactic.IntervalCases

/-!
# What a cleanup removes

The controller deletes the transient state of an artifact by running `RemoveOperationState` with the
prefix `<UID>-`. This module compares what goes with what the writers have named after the
operations of that artifact, in runs of the cleanup on its own and next to other processes.

* `Belongs` are the names that the writers use; `selects_iff` says that the cleanup recognises
  exactly these.
* `CleanupSys` runs the cleanup among processes of which only the calls are known.
* `removeOperationState_exact`: on its own, a cleanup that succeeds has removed the state of the
  operations with its prefix and has changed nothing else.
* `removeOperationState_clean`: next to others that only remove entries, it leaves nothing of
  these operations behind, provided that nobody takes entries out of a tree that it is emptying.
-/

namespace Kama.Controller

open Bytes FileTree Inode Program Artifact Artifact.Descriptors

/-! ## Names -/

/-- The names of the state of an operation in an area: the staging tree has the name of the
operation, a metadata or lock file the suffix of its kind as well, and `writeAtomic` writes a
metadata file through a temporary one whose name ends in 16 hexadecimal digits. -/
def Belongs (area : TransientArea) (operation name : Bytes) : Prop :=
  name = operation ++ area.suffix ∨ area.suffix ≠ [] ∧ ∃ random : Bytes, random.length = 16 ∧
    random.all isHex = true ∧ name = 46 :: (operation ++ (area.suffix ++ ascii ".tmp-") ++ random)

theorem cutSuffix_append (s suffix : Bytes) : cutSuffix (s ++ suffix) suffix = some s := by
  rw [cutSuffix, if_pos (List.suffix_append s suffix), List.length_append, Nat.add_sub_cancel,
    List.take_left]

theorem eq_append_of_cutSuffix {s suffix operation : Bytes}
    (h : cutSuffix s suffix = some operation) : s = operation ++ suffix := by
  unfold cutSuffix at h
  split at h
  · rename_i hsuffix
    obtain ⟨t, rfl⟩ := hsuffix
    cases h
    rw [List.length_append, Nat.add_sub_cancel, List.take_left]
  · cases h

theorem eq_append_of_cutLast {s sep before after : Bytes}
    (h : cutLast s sep = some (before, after)) : s = before ++ sep ++ after := by
  obtain ⟨i, -, hi⟩ := List.exists_of_findSome?_eq_some h
  split at hi
  · rename_i hsep
    obtain ⟨rfl, rfl⟩ := Prod.mk.inj (Option.some.inj hi)
    obtain ⟨t, ht⟩ := hsep
    rw [← List.drop_drop, ← ht, List.drop_left, List.append_assoc, ht, List.take_append_drop]
  · cases hi

theorem findSome?_range_reverse {α : Type} {f : Nat → Option α} {v : α} {i n : Nat}
    (hi : f i = some v) (hn : i < n) (hlater : ∀ j, i < j → j < n → f j = none) :
    (List.range n).reverse.findSome? f = some v := by
  induction n with
  | zero => exact absurd hn (Nat.not_lt_zero i)
  | succ n ih =>
    rw [List.range_succ, List.reverse_append, List.reverse_singleton, List.singleton_append,
      List.findSome?_cons]
    rcases Nat.lt_or_ge i n with hlt | hge
    · rw [hlater n hlt (Nat.lt_succ_self n)]
      exact ih hlt fun j hj hjn => hlater j hj (Nat.lt_succ_of_lt hjn)
    · obtain rfl : i = n := by omega
      rw [hi]

/-- An occurrence after which there is no other is the one that is found. -/
theorem cutLast_append {before sep after : Bytes}
    (hlast : ∀ k, 0 < k → ¬sep <+: (sep ++ after).drop k) :
    cutLast (before ++ sep ++ after) sep = some (before, after) := by
  have hdrop : ∀ k, (before ++ sep ++ after).drop (before.length + k) = (sep ++ after).drop k := by
    intro k
    rw [List.append_assoc, List.drop_append, List.drop_of_length_le (Nat.le_add_right _ _),
      List.nil_append, Nat.add_sub_cancel_left]
  refine findSome?_range_reverse (i := before.length) ?_ ?_ ?_
  · rw [if_pos]
    · rw [hdrop, List.drop_left, List.append_assoc, List.take_left]
    · have := hdrop 0
      rw [Nat.add_zero, List.drop_zero] at this
      exact this ▸ List.prefix_append sep after
  · simp only [List.length_append]
    omega
  · intro j hj _
    obtain ⟨k, rfl⟩ := Nat.exists_eq_add_of_le hj.le
    rw [hdrop, if_neg (hlast k (by omega))]

theorem dot_not_mem_of_hex {random : Bytes} (hrandom : random.all isHex = true) :
    (46 : UInt8) ∉ random := by
  intro hmem
  cases List.all_eq_true.1 hrandom 46 hmem

/-- The marker of a temporary file does not occur again behind itself. -/
theorem not_marker_later {a b c d : UInt8} {random : Bytes} (ha : a ≠ 116)
    (hdot : 46 ∉ [a, b, c, d]) (hrandom : random.all isHex = true) (k : Nat) (hk : 0 < k) :
    ¬[46, a, b, c, d, 46, 116, 109, 112, 45] <+:
      ([46, a, b, c, d, 46, 116, 109, 112, 45] ++ random).drop k := by
  intro hpre
  have hnodot := dot_not_mem_of_hex hrandom
  rcases Nat.lt_or_ge k 10 with hlt | hge
  · interval_cases k <;> simp_all [List.cons_prefix_cons]
  · refine hnodot ?_
    rw [List.drop_append, List.drop_of_length_le hge, List.nil_append] at hpre
    exact List.mem_of_mem_drop (hpre.subset List.mem_cons_self)

/-- The areas whose entries are files have one of two suffixes. -/
theorem suffix_cases : ∀ area ∈ transientAreas,
    area.suffix = [] ∨ area.suffix = [46, 106, 115, 111, 110] ∨
      area.suffix = [46, 108, 111, 99, 107] := by decide

theorem transientMetadataOperation_temporary {suffix operation random : Bytes}
    (hsuffix : suffix = [46, 106, 115, 111, 110] ∨ suffix = [46, 108, 111, 99, 107])
    (hoperation : operationIDPattern operation = true) (hlength : random.length = 16)
    (hrandom : random.all isHex = true) :
    transientMetadataOperation (46 :: (operation ++ (suffix ++ ascii ".tmp-") ++ random)) suffix =
      some operation := by
  have hcut : cutSuffix (46 :: (operation ++ (suffix ++ ascii ".tmp-") ++ random)) suffix =
      none := by
    refine if_neg fun hends => dot_not_mem_of_hex hrandom ?_
    -- the suffix would be within the digits
    have hdigits : suffix <:+ random := by
      refine List.suffix_of_suffix_length_le hends ⟨46 :: (operation ++ (suffix ++ ascii ".tmp-")),
        rfl⟩ ?_
      rcases hsuffix with rfl | rfl <;> simp [hlength]
    refine hdigits.subset ?_
    rcases hsuffix with rfl | rfl <;> exact List.mem_cons_self
  have hlast : cutLast (operation ++ (suffix ++ ascii ".tmp-") ++ random)
      (suffix ++ ascii ".tmp-") = some (operation, random) := by
    refine cutLast_append ?_
    rcases hsuffix with rfl | rfl
    · exact not_marker_later (by decide) (by decide) hrandom
    · exact not_marker_later (by decide) (by decide) hrandom
  have hne : operation ≠ [] := by
    rintro rfl
    cases hoperation
  simp only [transientMetadataOperation, hcut, hlast]
  rw [if_pos ⟨hne, hoperation, hlength, hrandom⟩]

theorem belongs_of_transientMetadataOperation {area : TransientArea} {operation name : Bytes}
    (hsuffix : area.suffix ≠ [])
    (h : transientMetadataOperation name area.suffix = some operation) :
    Belongs area operation name := by
  unfold transientMetadataOperation at h
  split at h
  · rename_i operation' hcut
    split at h
    · cases h
      exact .inl (eq_append_of_cutSuffix hcut)
    · cases h
  · split at h
    · split at h
      · rename_i operation' random hcut
        split at h
        · rename_i hvalid
          cases h
          refine .inr ⟨hsuffix, random, hvalid.2.2.1, hvalid.2.2.2, ?_⟩
          rw [eq_append_of_cutLast hcut]
        · cases h
      · cases h
    · cases h

/-- **The cleanup recognises the names of the writers, and no others.** -/
theorem selects_iff {area : TransientArea} (harea : area ∈ transientAreas) {prefix_ name : Bytes} :
    Selects prefix_ area name ↔ ∃ operation, operationIDPattern operation = true ∧
      prefix_ <+: operation ∧ Belongs area operation name := by
  constructor
  · rintro ⟨operation, hname, hpre, hpattern⟩
    refine ⟨operation, hpattern, hpre, ?_⟩
    unfold TransientArea.operation at hname
    split at hname
    · rename_i hnil
      cases hname
      exact .inl (by rw [hnil, List.append_nil])
    · exact belongs_of_transientMetadataOperation ‹_› hname
  · rintro ⟨operation, hpattern, hpre, hname⟩
    refine ⟨operation, ?_, hpre, hpattern⟩
    unfold TransientArea.operation
    rcases hname with rfl | ⟨hsuffix, random, hlength, hrandom, rfl⟩
    · split
      · rename_i hnil
        rw [hnil, List.append_nil]
      · simp only [transientMetadataOperation, cutSuffix_append, hpattern, if_true]
    · rw [if_neg hsuffix]
      exact transientMetadataOperation_temporary ((suffix_cases area harea).resolve_left hsuffix)
        hpattern hlength hrandom

/-- The path is at or below state of an operation with the prefix. -/
def OfPrefix (prefix_ : Bytes) (p : Path) : Prop :=
  ∃ area ∈ transientAreas, ∃ operation name, operationIDPattern operation = true ∧
    prefix_ <+: operation ∧ Belongs area operation name ∧ area.directory ++ [name] <+: p

theorem selected_iff {prefix_ : Bytes} {p : Path} : Selected prefix_ p ↔ OfPrefix prefix_ p := by
  constructor
  · rintro ⟨area, harea, name, hname, hp⟩
    obtain ⟨operation, hpattern, hpre, hbelongs⟩ := (selects_iff harea).1 hname
    exact ⟨area, harea, operation, name, hpattern, hpre, hbelongs, hp⟩
  · rintro ⟨area, harea, operation, name, hpattern, hpre, hbelongs, hp⟩
    exact ⟨area, harea, name, (selects_iff harea).2 ⟨operation, hpattern, hpre, hbelongs⟩, hp⟩

/-! ## Runs -/

/-- A cache and the processes that work on it. -/
abbrev CleanupSys := Sys (FdOp Bytes) FdOp.Res (Except Artifact.Err Unit) (Host Bytes Bytes)

abbrev CleanupEvent := SysEvent (FdOp Bytes) FdOp.Res (Except Artifact.Err Unit) (DirAnswer Bytes)

namespace CleanupSys

def step (s : CleanupSys) (e : CleanupEvent) : Option CleanupSys := Sys.step (Host.listing []) s e

/-- The process is at the start of `RemoveOperationState`. -/
def Starts (s : CleanupSys) (i : Pid) (fuel : Nat) (prefix_ : Bytes) : Prop :=
  s.procs[i]? = some (some (removeOperationState fuel prefix_).run)

/-- The process has returned nil. -/
def succeeded (s : CleanupSys) (i : Pid) : Bool :=
  match s.procs[i]? with
  | some (some (.ret (.ok ()))) => true
  | _ => false

theorem procs_of_succeeded {s : CleanupSys} {i : Pid} (h : s.succeeded i = true) :
    s.procs[i]? = some (some (.ret (.ok ()))) := by
  unfold succeeded at h
  split at h
  · assumption
  · cases h

/-! ### Concrete caches -/

/-- The cache that some calls make in an empty one. -/
def made (ops : List (FdOp Bytes)) : Host Bytes Bytes :=
  Host.reap 0 (ops.foldl (fun h op => ((h.exec [] 0 ⟨[], true⟩ op).map Prod.snd).getD h)
    ⟨LockSys.emptyCache, []⟩)

/-- A staging tree `a-1` with the entries, made after the cache root, `.kama` and `staging`. -/
def staged (entries : List Bytes) : Host Bytes Bytes :=
  made ([.openRoot, .mkdir 0 kamaDir, .openDir 0 kamaDir, .mkdir 1 (ascii "staging"),
    .openDir 1 (ascii "staging"), .mkdir 2 (ascii "a-1"), .openDir 2 (ascii "a-1")] ++
    entries.map fun name => .create 3 name true)

theorem made_inv (ops : List (FdOp Bytes)) : (made ops).Inv := by
  refine Host.reap_inv ?_
  have hempty : (⟨LockSys.emptyCache, []⟩ : Host Bytes Bytes).Inv :=
    ⟨LockSys.emptyCache_wf, fun ha => by simp at ha⟩
  generalize (⟨LockSys.emptyCache, []⟩ : Host Bytes Bytes) = h at hempty
  induction ops generalizing h with
  | nil => exact hempty
  | cons op ops ih =>
    refine ih _ ?_
    dsimp only
    cases hexec : h.exec [] 0 ⟨[], true⟩ op with
    | none => exact hempty
    | some r => exact (Host.exec_effect hexec).inv hempty

/-- Calls of a process whose directory reads answer with the names. -/
def calls (i : Pid) (n : Nat) (names : List Bytes) : List CleanupEvent :=
  List.replicate n (.step i ⟨names, true⟩)

/-- The processes clean up `a-` in a cache with the staging tree `a-1`. -/
def cleanups (n : Nat) (entries : List Bytes) : CleanupSys :=
  ⟨staged entries, List.replicate n (some (removeOperationState 5 (ascii "a-")).run)⟩

theorem starts_cleanups {n : Nat} (hn : 0 < n) (entries : List Bytes) :
    (cleanups n entries).Starts 0 5 (ascii "a-") := by
  rw [Starts, cleanups, List.getElem?_replicate, if_pos hn]

theorem inv_cleanups (n : Nat) (entries : List Bytes) : (cleanups n entries).shared.Inv :=
  made_inv _

/-- The state after the events. -/
def after (s : CleanupSys) (events : List CleanupEvent) : CleanupSys :=
  (Machine.run step s events).getD s

theorem run_eq_after {s : CleanupSys} {events : List CleanupEvent}
    (h : (Machine.run step s events).isSome = true) :
    Machine.run step s events = some (s.after events) := by
  obtain ⟨t, ht⟩ := Option.isSome_iff_exists.1 h
  rw [after, ht, Option.getD_some]

/-! ### A cleanup on its own -/

/-- The event is a call of the process. -/
def isCallOf (i : Pid) : CleanupEvent → Bool
  | .step pid _ => pid == i
  | _ => false

/-- Nothing has changed but what is selected. -/
structure Unchanged (sel : Path → Prop) (before after : Fs Bytes Bytes) : Prop where
  walk : ∀ p, ¬sel p → after.walk Fs.root p = before.walk Fs.root p
  node : ∀ ino, before.kind ino ≠ some .directory → after.nodes[ino]? = before.nodes[ino]?

theorem Unchanged.removal {sel : Path → Prop} {fs before after : Fs Bytes Bytes}
    (hsel : ∀ p q, sel p → p <+: q → sel q) (h : Unchanged sel fs before) (hwf : before.Wf)
    (hremoval : Fs.Removal sel before after) : Unchanged sel fs after where
  walk p hp := by
    rw [hremoval.walk hwf fun r hr hrsel => hp (hsel r p hrsel hr), h.walk p hp]
  node ino hkind := by
    have hnode := h.node ino hkind
    rw [← hnode]
    refine hremoval.node fun hdir => hkind ?_
    rwa [Fs.kind, hnode] at hdir

/-- The contract of a cleanup while no other process changes the cache. -/
def undisturbed (prefix_ : Bytes) (i : Pid) : Contract (FdOp Bytes) (Host Bytes Bytes) where
  inv := Host.Inv
  rely _ h h' := Host.Spared shallowPaths i h h' ∧ h'.fs = h.fs
  guar h _ h' := Fs.Removal (Selected prefix_) h.fs h'.fs
  rely_refl _ _ := ⟨.refl, rfl⟩
  rely_trans h h' := ⟨h.1.trans h'.1, h'.2.trans h.2⟩

/-- Nothing is left of the operations with the prefix. -/
def Gone (prefix_ : Bytes) (h : Host Bytes Bytes) : Prop :=
  ∀ area ∈ transientAreas, ∀ name, Selects prefix_ area name →
    Host.Absent (area.directory ++ [name]) h

/-- What a cleanup has achieved when it returns. -/
abbrev Outcome (prefix_ : Bytes) : Except Artifact.Err Unit → Host Bytes Bytes → Prop :=
  Ends (fun _ => Gone prefix_) fun _ _ => True

theorem outcome_spared {prefix_ : Bytes} {i : Pid} {r : Except Artifact.Err Unit}
    {h h' : Host Bytes Bytes} (hr : Outcome prefix_ r h) (hrely : Host.Spared shallowPaths i h h') :
    Outcome prefix_ r h' := by
  cases r with
  | error e => trivial
  | ok => exact fun area harea name hname => (hr area harea name hname).spared hrely

theorem selected_mono {prefix_ : Bytes} (p q : Path) (hp : Selected prefix_ p) (hpq : p <+: q) :
    Selected prefix_ q := by
  obtain ⟨area, harea, name, hname, hbelow⟩ := hp
  exact ⟨area, harea, name, hname, hbelow.trans hpq⟩

theorem safe_undisturbed {i : Pid} {fuel : Nat} {prefix_ : Bytes} (h : Host Bytes Bytes) :
    Safe (Host.listing []) i (undisturbed prefix_ i) (removeOperationState fuel prefix_).run
      (fun r t => Outcome prefix_ r t ∧ Unchanged (Selected prefix_) h.fs t.fs) h := by
  refine Safe.frame ?_ ?_ ⟨fun _ _ => rfl, fun _ _ => rfl⟩ ?_
  · intro pending t u hrely ht
    rwa [hrely.2]
  · exact fun hinv hremoval ht => ht.removal selected_mono hinv.wf hremoval
  · exact Safe.weaken (C := Host.clearing shallowPaths (Selected prefix_) (· < 0) i) rfl
      (fun hrely => hrely.1) (fun hown => hown.removal) cleans_removeOperationState.run

theorem undisturbed_step {i : Pid} {prefix_ : Bytes} {s s' : CleanupSys} {e : CleanupEvent}
    {Q : Except Artifact.Err Unit → Host Bytes Bytes → Prop}
    (hs : Sys.SoundAt (Host.listing []) i (undisturbed prefix_ i) Q s)
    (hQ : ∀ {a t u}, (undisturbed prefix_ i).rely none t u → Q a t → Q a u)
    (he : isCallOf i e = true) (hstep : s.step e = some s') :
    Sys.SoundAt (Host.listing []) i (undisturbed prefix_ i) Q s' := by
  cases e with
  | step pid choice =>
    obtain rfl : pid = i := by simpa [isCallOf] using he
    have hown : s.Admits (fun p _ _ => p == pid) (.step pid choice : CleanupEvent) = true := by
      simp only [Sys.Admits]
      split <;> simp
    refine Sys.SoundAt.step hQ ?_ ?_ hs hown rfl hstep
    · intro p op choice t r u hne _ hok
      exact absurd (by simpa using hok) hne
    · intro p t hinv
      exact ⟨Host.reap_inv hinv, fun hne _ => ⟨Host.spared_reap hne, rfl⟩⟩
  | crash pid => cases he
  | spawn p => cases he
  | resume pid p => cases he

theorem not_prefix_of_uid {a b : ModelArtifact} {storage : ArtifactStorage}
    (hlength : a.uid.length = b.uid.length) (hne : a.uid ≠ b.uid) :
    ¬cleanupPrefixOf a <+: artifactOperationID b storage := by
  intro hpre
  have huid : a.uid <+: b.uid := by
    refine List.prefix_of_prefix_length_le ((List.prefix_append _ _).trans hpre) ?_ hlength.le
    unfold artifactOperationID
    exact (List.prefix_append _ _).trans (List.prefix_append _ _)
  exact hne (huid.eq_of_length hlength)

/-- **Scoped cleanup is exact.** When no other process is at work and `RemoveOperationState`
succeeds, the state of the operations with the prefix is gone and nothing else has changed: every
other path leads where it led, and every file and symbolic link is what it was. The prefix of one
artifact does not reach the operations of another whose UID is as long. -/
theorem removeOperationState_exact {s s' : CleanupSys} {i : Pid} {fuel : Nat} {prefix_ : Bytes}
    {events : List CleanupEvent} (hinv : s.shared.Inv) (hstart : s.Starts i fuel prefix_)
    (halone : Machine.Allowed step (fun _ e => isCallOf i e = true) s events)
    (hrun : Machine.run step s events = some s') (hok : s'.succeeded i = true) :
    (∀ p, OfPrefix prefix_ p → s'.shared.fs.walk Fs.root p = none) ∧
      Unchanged (OfPrefix prefix_) s.shared.fs s'.shared.fs ∧
      ∀ (a b : ModelArtifact) (storage : ArtifactStorage), prefix_ = cleanupPrefixOf a →
        a.uid.length = b.uid.length → a.uid ≠ b.uid →
        ¬prefix_ <+: artifactOperationID b storage := by
  have hstart' : Sys.SoundAt (Host.listing []) i (undisturbed prefix_ i) (fun r t =>
      Outcome prefix_ r t ∧ Unchanged (Selected prefix_) s.shared.fs t.fs) s := by
    refine ⟨(List.getElem?_eq_some_iff.1 hstart).1, hinv, fun hp => ?_⟩
    obtain rfl := Option.some.inj (Option.some.inj (hstart.symm.trans hp))
    exact safe_undisturbed s.shared
  have hsound := Machine.run_invariant (fun _ _ _ hs he hstep =>
    undisturbed_step hs (fun hrely hQ => ⟨outcome_spared hQ.1 hrely.1, by rw [hrely.2]; exact hQ.2⟩)
      he hstep) hstart' halone hrun
  obtain ⟨hgone, hunchanged⟩ := Safe.ret.1 (hsound.safe (procs_of_succeeded hok))
  refine ⟨fun p hp => ?_, ?_, ?_⟩
  · obtain ⟨area, harea, name, hname, r, rfl⟩ := selected_iff.2 hp
    exact (hgone area harea name hname).below
  · exact ⟨fun p hp => hunchanged.walk p fun hsel => hp (selected_iff.1 hsel), hunchanged.node⟩
  · rintro a b storage rfl hlength hne
    exact not_prefix_of_uid hlength hne

/-- The temporary file of a metadata write of the operation `a-1`. -/
def temporaryMetadata : Bytes := ascii ".a-1.json.tmp-0123456789abcdef"

/-- A cleanup of `a-` in a cache with a staging tree of `a-1` and one of `b-1`, and with a temporary
file of `a-1` next to the metadata of `b-1`. -/
def crowded : CleanupSys where
  shared := made [.openRoot, .mkdir 0 kamaDir, .openDir 0 kamaDir, .mkdir 1 (ascii "staging"),
    .openDir 1 (ascii "staging"), .mkdir 2 (ascii "a-1"), .openDir 2 (ascii "a-1"),
    .mkdir 2 (ascii "b-1"), .mkdir 1 (ascii "operations"), .openDir 1 (ascii "operations"),
    .create 3 (ascii "w") true, .create 4 temporaryMetadata true,
    .create 4 (ascii "b-1.json") true]
  procs := [some (removeOperationState 5 (ascii "a-")).run]

def cleaning : List CleanupEvent :=
  calls 0 6 [ascii "a-1", ascii "b-1"] ++ calls 0 25 [ascii "w"] ++
    calls 0 20 [temporaryMetadata, ascii "b-1.json"]

/-- The state of `a-1` goes, that of `b-1` stays. -/
theorem removeOperationState_exact_staged :
    let s' := crowded.after cleaning
    (crowded.shared.fs.walk Fs.root [kamaDir, ascii "operations", temporaryMetadata]).isSome ∧
      (∀ p, OfPrefix (ascii "a-") p → s'.shared.fs.walk Fs.root p = none) ∧
      Unchanged (OfPrefix (ascii "a-")) crowded.shared.fs s'.shared.fs ∧
      (s'.shared.fs.walk Fs.root [kamaDir, ascii "staging", ascii "b-1"]).isSome ∧
      (s'.shared.fs.walk Fs.root [kamaDir, ascii "operations", ascii "b-1.json"]).isSome := by
  have hrun : Machine.run step crowded cleaning = some (crowded.after cleaning) :=
    run_eq_after (by decide +kernel)
  have hstart : crowded.Starts 0 5 (ascii "a-") := rfl
  obtain ⟨hgone, hunchanged, -⟩ := removeOperationState_exact (made_inv _) hstart
    (by decide +kernel) hrun (by decide +kernel)
  exact ⟨by decide +kernel, hgone, hunchanged, by decide +kernel, by decide +kernel⟩

/-! ### A cleanup among others -/

/-- The other processes make no new entries. -/
def othersRemove (i pid : Pid) (op : FdOp Bytes) (_ : Host Bytes Bytes) : Bool :=
  pid == i || Host.onlyRemoves op

/-- The other processes take no entry out of a directory that the cleanup has open, the cache root,
`.kama` and the areas apart. -/
def othersSpare (i pid : Pid) (op : FdOp Bytes) (h : Host Bytes Bytes) : Bool :=
  pid == i || Host.sparesOpenDirs shallowPaths i pid op h

/-- The path of the staging tree, intent, marker, revision pin or lock of an operation. -/
def statePath (area : TransientArea) (operation : Bytes) : Path :=
  area.directory ++ [operation ++ area.suffix]

theorem cleanup_step {i : Pid} {prefix_ : Bytes} {s s' : CleanupSys} {e : CleanupEvent}
    (hs : Sys.SoundAt (Host.listing []) i
      (Host.clearing shallowPaths (Selected prefix_) (· < 0) i) (Outcome prefix_) s)
    (hleaves : e.leaves i = true) (hremoves : s.Admits (othersRemove i) e = true)
    (hspares : s.Admits (othersSpare i) e = true) (hstep : s.step e = some s') :
    Sys.SoundAt (Host.listing []) i
      (Host.clearing shallowPaths (Selected prefix_) (· < 0) i) (Outcome prefix_) s' := by
  have hadmits : s.Admits (fun pid op h => othersRemove i pid op h && othersSpare i pid op h) e =
      true := by
    cases e with
    | step pid choice =>
      simp only [Sys.Admits] at hremoves hspares ⊢
      split
      · rename_i op next hpid
        rw [hpid] at hremoves hspares
        exact Bool.and_eq_true_iff.2 ⟨hremoves, hspares⟩
      · rfl
    | crash pid | spawn p | resume pid p => rfl
  refine Sys.SoundAt.step (fun hrely hr => outcome_spared hr hrely) ?_ ?_ hs hadmits hleaves hstep
  · intro pid op choice t r u hne hinv hok hexec
    obtain ⟨hremoves, hspares⟩ := Bool.and_eq_true_iff.1 hok
    obtain ⟨hexec, -⟩ := Host.exec_of_listing hexec
    have hpid : (pid == i) = false := beq_eq_false_iff_ne.2 hne
    rw [othersRemove, hpid, Bool.false_or] at hremoves
    rw [othersSpare, hpid, Bool.false_or] at hspares
    exact ⟨(Host.exec_effect hexec).inv hinv, fun _ =>
      Host.spared_of_exec hinv hne hremoves hspares hexec⟩
  · intro pid t hinv
    exact ⟨Host.reap_inv hinv, fun hne _ => Host.spared_reap hne⟩

/-- **Successful cleanup means clean**, as long as the other processes take no entries out of the
trees that are being emptied. Whatever programs they run and however the calls interleave, when
they make no new entries and `RemoveOperationState` has returned nil, there is no staging tree,
intent, marker, revision pin or lock of an operation with the prefix. -/
theorem removeOperationState_clean {s s' : CleanupSys} {i : Pid} {fuel : Nat} {prefix_ : Bytes}
    {events : List CleanupEvent} (hinv : s.shared.Inv) (hstart : s.Starts i fuel prefix_)
    (hremove : Machine.Allowed step (fun s e =>
      e.leaves i = true ∧ s.Admits (othersRemove i) e = true) s events)
    (hspare : Machine.Allowed step (fun s e => s.Admits (othersSpare i) e = true) s events)
    (hrun : Machine.run step s events = some s') (hok : s'.succeeded i = true) :
    ∀ area ∈ transientAreas, ∀ operation, operationIDPattern operation = true →
      prefix_ <+: operation → s'.shared.fs.walk Fs.root (statePath area operation) = none := by
  have hstart' : Sys.SoundAt (Host.listing []) i
      (Host.clearing shallowPaths (Selected prefix_) (· < 0) i) (Outcome prefix_) s := by
    refine ⟨(List.getElem?_eq_some_iff.1 hstart).1, hinv, fun hp => ?_⟩
    obtain rfl := Option.some.inj (Option.some.inj (hstart.symm.trans hp))
    exact cleans_removeOperationState.run
  have hsound := Machine.run_invariant (fun _ _ _ hs he hstep =>
    cleanup_step hs he.1.1 he.1.2 he.2 hstep) hstart' (hremove.and hspare) hrun
  intro area harea operation hpattern hpre
  exact Safe.ret.1 (hsound.safe (procs_of_succeeded hok)) area harea _
    ((selects_iff harea).2 ⟨operation, hpattern, hpre, .inl rfl⟩)

/-- A second attempt removes everything after the first has seen the staging tree. -/
def overtaken : List CleanupEvent :=
  calls 0 7 [ascii "a-1"] ++ calls 1 41 [ascii "a-1"] ++ calls 0 27 [ascii "a-1"]

theorem removeOperationState_clean_overtaken :
    let s' := (cleanups 2 [ascii "a-1"]).after overtaken
    s'.succeeded 0 = true ∧ ∀ area ∈ transientAreas, ∀ operation,
      operationIDPattern operation = true → ascii "a-" <+: operation →
      s'.shared.fs.walk Fs.root (statePath area operation) = none := by
  intro s'
  have hok : s'.succeeded 0 = true := by decide +kernel
  exact ⟨hok, removeOperationState_clean (inv_cleanups 2 _) (starts_cleanups Nat.zero_lt_two _)
    (by decide +kernel) (by decide +kernel) (run_eq_after (by decide +kernel)) hok⟩

/-- A second attempt removes one entry of the staging tree that the first is emptying. -/
def interfering : List CleanupEvent :=
  calls 0 10 [ascii "a-1"] ++ calls 0 4 [ascii "a-1", ascii "y"] ++ calls 1 10 [ascii "a-1"] ++
    calls 1 6 [ascii "a-1", ascii "y"] ++ calls 0 23 []

/-- **A cleanup reports success and leaves a staging tree.** The first attempt has read the names in
the tree when the second one unlinks one of them. Then `Fstatat` does not find it, and the first
attempt takes the error for the whole tree being gone. -/
theorem removeOperationState_leaves_tree :
    let s := cleanups 2 [ascii "a-1", ascii "y"]
    Machine.Allowed step (fun s e => e.leaves 0 = true ∧ s.Admits (othersRemove 0) e = true) s
        interfering ∧
      (Machine.run step s interfering).any (fun s' => s'.succeeded 0 &&
        (s'.shared.fs.walk Fs.root (statePath ⟨[kamaDir, ascii "staging"], [], true⟩
          (ascii "a-1"))).isSome) = true := by
  decide +kernel

end CleanupSys

end Kama.Controller
