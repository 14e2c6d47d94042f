import Kama.Artifact.DiskFiles
import Kama.Artifact.Storage

/-!
# From descriptors to paths

The functions of `path_linux.go` stand at two levels: as programs over descriptors, in
`Kama.Artifact.Descriptors` and `Kama.Artifact.DiskFiles`, and as calls on whole paths, over which
`Kama.Artifact.Storage` is written. Here the first refine the second (`Refines`): on a disk with the
entries of a tree, where the function on descriptors ends well, that on paths ends well on the tree,
and the disk has the entries of the tree that it leaves.

A call of the disk can fail for reasons that a tree does not have, so nothing is said of the
failures. Nor is anything said of the functions that go by the answers of `fstat` or of reading a
directory, which the disk leaves open.
-/

namespace Kama.Artifact.OnDisk

open Bytes FileTree Inode Program Disk Descriptors
open Storage (Cache CacheOp CacheProg)

/-- A tree has one answer to each call. -/
def TreeAnswers (t : Cache) (op : CacheOp) (r : op.Res) (t' : Cache) : Prop := op.run t = (r, t')

def kindOf : FileTree.Node Bytes → Kind
  | .file _ => .regular
  | .dir => .directory
  | .special => .special

/-- The disk has the entries of the tree. -/
structure Shows (st : Store Bytes) (t : Cache) : Prop where
  wf : t.Wf
  nodes : ∀ {p}, p ≠ [] → st.nodes p = (t.get p).map kindOf

/-- Where `p` ends well on a disk that shows `t`, there `q` ends well on `t`. -/
def Refines {Op : Type} {Res : Op → Type} {α β : Type}
    (A : Disk Bytes → (op : Op) → Res op → Disk Bytes → Prop) (t : Cache)
    (p : ExceptT Err (Prog Op Res) α) (q : CacheProg β) : Prop :=
  ∀ s : Disk Bytes, Shows s.store t →
    Ensures A p
      (fun _ u => Ensures TreeAnswers q (fun _ t' => Shows u.store t') (fun _ _ => False) t)
      (fun _ _ => True) s

variable {st : Store Bytes} {t t' : Cache} {p q base : Path} {α : Type}

/-! ## The entries -/

theorem map_kindOf_directory {node : Option (FileTree.Node Bytes)} :
    node.map kindOf = some .directory ↔ node = some .dir := by
  rcases node with _ | _ | _ | _ <;> simp [kindOf]

theorem Shows.get_eq_dir (h : Shows st t) (hp : IsDir st p) : t.get p = some .dir := by
  rcases eq_or_ne p [] with rfl | hne
  · exact Tree.get_nil t
  · exact map_kindOf_directory.1 ((h.nodes hne).symm.trans (hp hne))

theorem Shows.checkDir (h : Shows st t) (hp : IsDir st p) : t.checkDir p = .ok () :=
  h.wf.checkDir (h.get_eq_dir hp)

theorem Shows.get_eq_none (h : Shows st t) (hne : p ≠ []) (hp : st.nodes p = none) :
    t.get p = none :=
  Option.map_eq_none_iff.1 ((h.nodes hne).symm.trans hp)

/-- An entry that is a file or special. -/
theorem Shows.get_eq_some (h : Shows st t) (hne : p ≠ [])
    (hp : ¬(st.nodes p = none ∨ st.nodes p = some .directory)) :
    ∃ node, t.get p = some node ∧ node ≠ .dir := by
  rw [h.nodes hne, map_kindOf_directory, Option.map_eq_none_iff] at hp
  cases hnode : t.get p with
  | none => exact absurd (.inl hnode) hp
  | some node =>
    refine ⟨node, rfl, ?_⟩
    rintro rfl
    exact hp (.inr hnode)

theorem Shows.flush (h : Shows st t) (d : Path) : Shows (st.flush d) t := ⟨h.wf, h.nodes⟩

theorem Shows.put (h : Shows st t) (hne : p ≠ []) (hparent : IsDir st p.dropLast) :
    Shows (st.put p .directory) (t.put p .dir) := by
  refine ⟨h.wf.put hne (h.get_eq_dir hparent) (.inl rfl), fun {x} hx => ?_⟩
  rw [Tree.get_put t hne]
  rcases eq_or_ne x p with rfl | hxp
  · simp [Store.put, kindOf]
  · rw [if_neg hxp, ← h.nodes hx]
    exact Function.update_of_ne hxp ..

theorem Shows.take (h : Shows st t) (hne : p ≠ []) {node : FileTree.Node Bytes}
    (hget : t.get p = some node) (hnode : node ≠ .dir) : Shows (st.take p) (t.erase p) := by
  refine ⟨(FsOp.Effect.unlink hget hnode).wf h.wf, fun {x} hx => ?_⟩
  rw [Tree.get_erase t hne]
  rcases eq_or_ne x p with rfl | hxp
  · simp [Store.take]
  · rw [if_neg hxp, ← h.nodes hx]
    exact Function.update_of_ne hxp ..

theorem Shows.move (h : Shows st t) (hpq : ¬p <+: q) (hqp : ¬q <+: p)
    (hparent : IsDir st q.dropLast) : Shows (st.move p q) (t.move p q) := by
  refine ⟨h.wf.move hpq hqp (h.get_eq_dir hparent), fun {x} hx => ?_⟩
  rw [Tree.get_move t hpq hqp]
  simp only [Store.move]
  split
  · refine h.nodes fun hnil => hpq ?_
    rw [(List.append_eq_nil_iff.1 hnil).1]
    exact List.nil_prefix
  · split
    · rfl
    · exact h.nodes hx

/-! ## The functions on paths -/

theorem ensures_treeCall {op : CacheOp} {r : op.Res} {f : op.Res → CacheProg α}
    {Q : α → Cache → Prop} {E : Err → Cache → Prop} (hrun : op.run t = (r, t'))
    (h : Ensures TreeAnswers (f r) Q E t') : Ensures TreeAnswers (call op >>= f) Q E t := by
  refine Ensures.calling fun r' u hr => ?_
  obtain ⟨rfl, rfl⟩ := Prod.mk.inj (hrun.symm.trans hr)
  exact h

theorem ensures_treeValidate (op : String) (hp : validatePath p = .ok ()) :
    Ensures TreeAnswers (validate op p) (fun _ u => u = t) (fun _ _ => False) t := by
  refine Ensures.ofExcept ?_
  rw [hp]
  rfl

theorem ensures_validateDirectory (hp : Openable st p) :
    Ensures TreeAnswers (Storage.validateDirectory p) (fun _ u => u = t) (fun _ _ => False) t := by
  unfold Storage.validateDirectory
  split
  · exact Ensures.pure rfl
  · rename_i hne
    exact ensures_treeValidate _ (hp.valid hne)

/-- Code on paths that changes nothing. -/
theorem Shows.of_still {st' : Store Bytes} {q : CacheProg α} (h : Shows st' t)
    (hq : Ensures TreeAnswers q (fun _ u => u = t) (fun _ _ => False) t) :
    Ensures TreeAnswers q (fun _ u => Shows st' u) (fun _ _ => False) t := by
  refine Ensures.mono ?_ (fun _ _ h => h) hq
  rintro - u rfl
  exact h

theorem Shows.ensures_openDirectory (h : Shows st t) (hp : Openable st p) :
    Ensures TreeAnswers (Storage.openDirectory p) (fun _ u => u = t) (fun _ _ => False) t := by
  refine Ensures.bind (ensures_validateDirectory hp) ?_
  rintro - u rfl
  refine ensures_treeCall (congrArg (·, u) (h.checkDir hp.dir)) ?_
  exact Ensures.pure rfl

theorem Shows.ensures_syncDirectory (h : Shows st t) (hp : Openable st p) :
    Ensures TreeAnswers (Storage.syncDirectory p) (fun _ u => u = t) (fun _ _ => False) t := by
  refine Ensures.bind (ensures_validateDirectory hp) ?_
  rintro - u rfl
  refine ensures_treeCall (congrArg (·, u) (h.checkDir hp.dir)) ?_
  exact Ensures.pure rfl

theorem Shows.ensures_openParent (h : Shows st t) (hp : HasParent st p) :
    Ensures TreeAnswers (Storage.openParent p) (fun _ u => u = t) (fun _ _ => False) t := by
  refine Ensures.bind (ensures_treeValidate _ hp.valid) ?_
  rintro - u rfl
  exact h.ensures_openDirectory hp.parent

/-- One step of the loop of `MkdirAll`: the entry is made, or it is there. -/
theorem Shows.run_mkdir (h : Shows st t) (hbase : IsDir st base) {name : Bytes}
    (hmade : (madeDir st base name).nodes (base ++ [name]) = some .directory) :
    ∃ (r : Except Errno Unit) (u : Cache), FsOp.run t (.mkdir (base ++ [name])) = (r, u) ∧
      Storage.created r = pure () ∧ Shows (madeDir st base name) u := by
  have hne : base ++ [name] ≠ [] := by simp
  have hparent : IsDir st (base ++ [name]).dropLast := by rwa [List.dropLast_concat]
  unfold madeDir at hmade ⊢
  split at hmade
  · rename_i hnode
    refine ⟨.ok (), t.put (base ++ [name]) .dir, ?_, rfl, ?_⟩
    · simp only [FsOp.run, FsOp.runMkdir, h.checkDir hparent, h.get_eq_none hne hnode]
      rfl
    · rw [if_pos hnode]
      exact (h.put hne hparent).flush base
  · rename_i hnode
    refine ⟨.error .EEXIST, t, ?_, rfl, by rwa [if_neg hnode]⟩
    simp only [FsOp.run, FsOp.runMkdir, h.checkDir hparent, h.get_eq_dir fun _ => hmade]
    rfl

theorem Shows.ensures_mkdirAllFrom (h : Shows st t) (hbase : IsDir st base)
    (hmade : Made st base p) :
    Ensures TreeAnswers (Storage.mkdirAllFrom base p) (fun _ u => Shows (madeDirs st base p) u)
      (fun _ _ => False) t := by
  induction p generalizing st t base with
  | nil => exact Ensures.pure h
  | cons name rest ih =>
    obtain ⟨r, u, hrun, hr, hu⟩ := h.run_mkdir hbase hmade.1
    have hdir : IsDir (madeDir st base name) (base ++ [name]) := fun _ => hmade.1
    refine ensures_treeCall hrun ?_
    rw [hr]
    refine ensures_treeCall (congrArg (·, u) (hu.checkDir hdir)) ?_
    exact ih hu hdir hmade.2

/-! ## The refinement -/

theorem refines_openDirectory (t : Cache) (p : Path) :
    Refines FdAnswers t (openDirectory p) (Storage.openDirectory p) := by
  intro s hs
  refine Ensures.mono (fun fd u hu => ?_) (fun _ _ _ => trivial) (ensures_openDirectory p s)
  rw [hu.quiet.store]
  exact hs.of_still (hs.ensures_openDirectory hu.openable)

theorem refines_openParent (t : Cache) (p : Path) :
    Refines FdAnswers t (openParent p) (Storage.openParent p) := by
  intro s hs
  refine Ensures.mono ?_ (fun _ _ _ => trivial) (ensures_openParent p s)
  rintro r u ⟨hu, -, hp⟩
  rw [hu.quiet.store]
  exact hs.of_still (hs.ensures_openParent hp)

theorem refines_syncDirectory (t : Cache) (p : Path) :
    Refines FdAnswers t (syncDirectory p) (Storage.syncDirectory p) := by
  intro s hs
  refine Ensures.mono ?_ (fun _ _ _ => trivial) (ensures_syncDirectory p s)
  rintro - u ⟨-, hu, hp⟩
  rw [hu]
  exact (hs.flush p).of_still (hs.ensures_syncDirectory hp)

/-- **`MkdirAll` on descriptors makes the directories that it makes on paths.** -/
theorem refines_mkdirAll (t : Cache) (p : Path) :
    Refines FdAnswers t (mkdirAll p) (Storage.mkdirAll p) := by
  intro s hs
  refine Ensures.mono ?_ (fun _ _ _ => trivial) (ensures_mkdirAll p s)
  rintro - u ⟨-, hu, hmade, hvalid⟩
  rw [hu]
  refine Ensures.bind (ensures_treeValidate _ hvalid) ?_
  rintro - v rfl
  exact hs.ensures_mkdirAllFrom (isDir_nil _) hmade

/-- **`RemoveNoFollow` on descriptors removes what it removes on paths.** -/
theorem refines_removeNoFollow (t : Cache) (hne : p ≠ []) :
    Refines FdAnswers t (removeNoFollow p) (Storage.removeNoFollow p) := by
  intro s hs
  refine Ensures.mono ?_ (fun _ _ _ => trivial) (ensures_removeNoFollow hne s)
  rintro - u ⟨hp, hnode, hu⟩
  rw [hu]
  refine Ensures.bind (hs.ensures_openParent hp) ?_
  rintro - v rfl
  obtain ⟨node, hget, hdir⟩ := hs.get_eq_some hne hnode
  have hrun : FsOp.run v (.unlink p) = (.ok (), v.erase p) := by
    simp only [FsOp.run, FsOp.runUnlink, hs.checkDir hp.parent.dir, hget]
    cases node with
    | dir => exact absurd rfl hdir
    | file | special => rfl
  refine ensures_treeCall hrun ?_
  exact Ensures.pure ((hs.take hne hget hdir).flush _)

/-- **`RenameNoFollow` on descriptors moves what it moves on paths**, where the target is one that
the kernel admits: the disk does not say of which renames `renameat` reports success. -/
theorem refines_renameNoFollow {ι : Type} {Ans : ι → Type} (t : Cache) (hpq : ¬p <+: q)
    (hqp : ¬q <+: p) (htarget : ∀ node, t.get p = some node → FsOp.renameTarget t node q = .ok ()) :
    Refines (Answers Ans) t (renameNoFollow p q) (Storage.renameNoFollow p q) := by
  have hp : p ≠ [] := fun hnil => hpq (hnil ▸ List.nil_prefix)
  have hq : q ≠ [] := fun hnil => hqp (hnil ▸ List.nil_prefix)
  intro s hs
  refine Ensures.mono ?_ (fun _ _ _ => trivial) (ensures_renameNoFollow hp hq s)
  rintro - u ⟨hnode, hu, hp', hq'⟩
  rw [hu]
  refine Ensures.bind (hs.ensures_openParent hp') ?_
  rintro - v rfl
  refine Ensures.bind (hs.ensures_openParent hq') ?_
  rintro - w rfl
  rw [hs.nodes hp, Ne, Option.map_eq_none_iff] at hnode
  obtain ⟨node, hget⟩ := Option.ne_none_iff_exists'.1 hnode
  have hne : p ≠ q := fun heq => hpq (heq ▸ List.prefix_rfl)
  have hrun : FsOp.run w (.rename p q) = (.ok (), w.move p q) := by
    simp only [FsOp.run, hs.checkDir hp'.parent.dir, hs.checkDir hq'.parent.dir, FsOp.runRename,
      hget, if_neg hne, if_neg hpq, if_neg hqp, htarget node hget]
    rfl
  refine ensures_treeCall hrun ?_
  exact Ensures.pure (hs.move hpq hqp hq'.parent.dir)

end Kama.Artifact.OnDisk
