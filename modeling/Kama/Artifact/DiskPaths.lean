import Kama.Artifact.Descriptors
import Kama.Foundations.Disk

/-!
# The path functions on a disk whose calls can fail

What the functions of `path_linux.go` do, whatever their calls answer.

* `ensures_openDirectory`: it opens the directory at its path, or nothing, and does nothing else.
* `ensures_mkdirAll`: the entries that `MkdirAll` makes it syncs, those that it finds it leaves, and
  all of them are directories (`Made`).
* `mkdirAll_durable_iff`: after `MkdirAll` the whole path is on stable storage if and only if what
  there was of it before already is.
-/

namespace Kama.Artifact.OnDisk

open Bytes FileTree Inode Program Disk Descriptors

/-! ## Opening -/

section Opening

variable {s₀ s : Disk Bytes} {root current : Fd} {base : Path}

theorem ensures_closeQuietly (fd : Fd) (s : Disk Bytes) {E : Err → Disk Bytes → Prop} :
    Ensures FdAnswers (closeQuietly fd) (fun _ t => t = s.shut fd) E s := by
  refine Ensures.seq (Q := fun _ t => t = s.shut fd) (E := E) ?_ (fun _ _ h => h)
    (fun _ t h => Ensures.pure h)
  exact Ensures.lift fun r t h => h.close

theorem ensures_closeUnlessRoot (root current : Fd) (s : Disk Bytes) {E : Err → Disk Bytes → Prop} :
    Ensures FdAnswers (closeUnlessRoot root current)
      (fun _ t => t = if current = root then s else s.shut current) E s := by
  unfold closeUnlessRoot
  split
  · exact Ensures.pure rfl
  · exact ensures_closeQuietly current s

/-- On the way from the root, `current` is the directory at `base`; `s₀` is the disk before. -/
structure Walking (s₀ s : Disk Bytes) (root current : Fd) (base : Path) : Prop where
  keeps : Keeps s₀ s
  root_file : s.files root = some []
  root_new : s₀.files root = none
  file : s.files current = some base
  new : s₀.files current = none

theorem Walking.start {fd : Fd} (h : Opened s₀ fd [] s) : Walking s₀ s fd fd [] :=
  ⟨h.keeps, h.files_self, h.1, h.files_self, h.1⟩

theorem Walking.withStore (h : Walking s₀ s root current base) (st : Store Bytes) :
    Walking s₀ (s.withStore st) root current base :=
  ⟨h.keeps, h.root_file, h.root_new, h.file, h.new⟩

theorem Walking.keeps_left (h : Walking s₀ s root current base) :
    Keeps s₀ (if current = root then s else s.shut current) := by
  split
  · exact h.keeps
  · exact h.keeps.shut h.new

/-- The next directory is open, the one before is closed. -/
theorem Walking.next (h : Walking s₀ s root current base) {next : Fd} {p : Path} {t : Disk Bytes}
    (hopened : Opened s next p t) :
    Walking s₀ (if current = root then t else t.shut current) root next p := by
  have hnext : ∀ {fd q}, s.files fd = some q → fd ≠ next := by
    rintro fd q hfd rfl
    rw [hopened.1] at hfd
    cases hfd
  have hnew : s₀.files next = none := by
    cases hfile : s₀.files next with
    | none => rfl
    | some q => exact absurd rfl (hnext (h.keeps next q hfile))
  have hkeeps : Keeps s₀ t := fun fd q hfd => hopened.keeps fd q (h.keeps fd q hfd)
  have hroot : t.files root = some [] := (hopened.files_ne (hnext h.root_file)).trans h.root_file
  split
  · exact ⟨hkeeps, hroot, h.root_new, hopened.files_self, hnew⟩
  · rename_i hne
    refine ⟨hkeeps.shut h.new, ?_, h.root_new, ?_, hnew⟩
    · rw [files_shut_ne _ (Ne.symm hne), hroot]
    · rw [files_shut_ne _ (Ne.symm (hnext h.file)), hopened.files_self]

omit s₀ root base in
theorem store_left (root current : Fd) (s : Disk Bytes) :
    (if current = root then s else s.shut current).store = s.store := by
  split <;> rfl

/-- The root has no entry and is a directory. -/
def IsDir (st : Store Bytes) (p : Path) : Prop := p ≠ [] → st.nodes p = some .directory

theorem isDir_nil (st : Store Bytes) : IsDir st [] := fun h => absurd rfl h

theorem ensures_walkFrom (op : String) (p : Path) (h : Walking s₀ s root current base)
    (hdir : IsDir s.store base) :
    Ensures FdAnswers (walkFrom op root current p)
      (fun fd t => Walking s₀ t root fd (base ++ p) ∧ t.store = s.store ∧
        IsDir s.store (base ++ p))
      (fun _ t => Keeps s₀ t ∧ t.store = s.store) s := by
  induction p generalizing s current base with
  | nil =>
    rw [List.append_nil]
    exact Ensures.pure ⟨h, rfl, hdir⟩
  | cons name rest ih =>
    refine Ensures.calling fun next t hnext => ?_
    refine Ensures.bind (ensures_closeUnlessRoot root current t) ?_
    rintro - t' rfl
    rcases hnext.openDir h.file with ⟨e, rfl, rfl⟩ | ⟨next, rfl, hnode, hopened⟩
    · refine Ensures.bind (ensures_closeQuietly root _) ?_
      rintro - t' rfl
      exact Ensures.throw ⟨h.keeps_left.shut h.root_new, store_left root current t⟩
    · have hstore : (if current = root then t else t.shut current).store = s.store :=
        (store_left root current t).trans hopened.quiet.store
      have hrest := ih (h.next hopened) fun _ => hstore ▸ hnode
      rw [hstore, List.append_assoc] at hrest
      exact hrest

theorem ensures_openRoot (op : String) (s : Disk Bytes) :
    Ensures FdAnswers (openRoot op) (fun fd t => Opened s fd [] t) (fun _ t => t = s) s := by
  refine Ensures.calling fun r t hr => ?_
  rcases hr.openRoot with ⟨e, rfl, rfl⟩ | ⟨fd, rfl, hopened⟩
  · exact Ensures.ofExcept rfl
  · exact Ensures.ofExcept hopened

theorem ensures_validate (op : String) (p : Path) (s : Disk Bytes) :
    Ensures FdAnswers (validate op p) (fun _ t => t = s ∧ validatePath p = .ok ())
      (fun _ t => t = s) s := by
  refine Ensures.ofExcept ?_
  cases validatePath p with
  | error e => rfl
  | ok u => exact ⟨rfl, rfl⟩

/-- A descriptor of what is at `p` has been opened, and nothing else has happened. -/
structure OpenedAt (s : Disk Bytes) (p : Path) (fd : Fd) (t : Disk Bytes) : Prop where
  quiet : Quiet s t
  file : t.files fd = some p
  new : s.files fd = none

/-- A directory, at a path that `OpenDirectory` admits. -/
structure Openable (st : Store Bytes) (p : Path) : Prop where
  dir : IsDir st p
  valid : p ≠ [] → validatePath p = .ok ()

structure OpenedDir (s : Disk Bytes) (p : Path) (fd : Fd) (t : Disk Bytes) : Prop
    extends OpenedAt s p fd t where
  openable : Openable s.store p

/-- A path that `openParent` admits, with its directory. -/
structure HasParent (st : Store Bytes) (p : Path) : Prop where
  valid : validatePath p = .ok ()
  parent : Openable st p.dropLast

/-- **`OpenDirectory` opens the directory at its path, or nothing.** -/
theorem ensures_openDirectory (p : Path) (s : Disk Bytes) :
    Ensures FdAnswers (openDirectory p) (fun fd t => OpenedDir s p fd t) (fun _ t => Quiet s t)
      s := by
  unfold openDirectory
  split
  · rename_i hp
    subst hp
    refine Ensures.mono (fun fd t h => ?_) (fun _ t h => ?_) (ensures_openRoot _ s)
    · exact ⟨⟨h.quiet, h.files_self, h.1⟩, isDir_nil _, fun hp => absurd rfl hp⟩
    · exact h ▸ .refl s
  · rename_i hp
    refine Ensures.seq (ensures_validate _ p s) (fun _ t h => h ▸ .refl s) ?_
    rintro - t ⟨rfl, hvalid⟩
    refine Ensures.seq (ensures_openRoot _ t) (fun _ _ h => h ▸ .refl t) fun root t' hroot => ?_
    refine Ensures.seq (ensures_walkFrom _ p (.start hroot) (isDir_nil _))
      (fun _ u h => ⟨h.2.trans hroot.quiet.store, h.1⟩) ?_
    rintro fd u ⟨hwalk, hstore, hdir⟩
    refine Ensures.bind (ensures_closeQuietly root u) ?_
    rintro - u' rfl
    have hne : fd ≠ root := by
      rintro rfl
      have heq := hwalk.file.symm.trans hwalk.root_file
      simp [hp] at heq
    refine Ensures.pure ⟨⟨⟨hstore.trans hroot.quiet.store, hwalk.keeps.shut hwalk.root_new⟩,
      (files_shut_ne u hne).trans hwalk.file, hwalk.new⟩, ?_, fun _ => hvalid⟩
    rw [hroot.quiet.store] at hdir
    exact hdir

/-- The directory that `openParent` opens, and the name that it returns. -/
theorem ensures_openParent (p : Path) (s : Disk Bytes) :
    Ensures FdAnswers (openParent p)
      (fun r t => OpenedAt s p.dropLast r.1 t ∧ r.2 = p.getLastD [] ∧ HasParent s.store p)
      (fun _ t => Quiet s t) s := by
  refine Ensures.seq (ensures_validate _ p s) (fun _ t h => h ▸ .refl s) ?_
  rintro - t ⟨rfl, hvalid⟩
  refine Ensures.bind (ensures_openDirectory p.dropLast t) fun fd u h => ?_
  exact Ensures.pure ⟨h.toOpenedAt, rfl, hvalid, h.openable⟩

/-- The rule for code with a deferred `Close`. -/
theorem ensures_closing {α : Type} {fd : Fd} {body : FdProg α} {Q : α → Disk Bytes → Prop}
    {E : Err → Disk Bytes → Prop}
    (h : Ensures FdAnswers body (fun a t => Q a (t.shut fd)) (fun e t => E e (t.shut fd)) s) :
    Ensures FdAnswers (closing fd body) Q E s :=
  Ensures.deferring (fun t => ensures_closeQuietly fd t) h

end Opening

/-! ## `MkdirAll` -/

/-- The store after one step of the loop of `MkdirAll`: what it makes it syncs, what it finds it
leaves. -/
def madeDir (st : Store Bytes) (base : Path) (name : Bytes) : Store Bytes :=
  if st.nodes (base ++ [name]) = none then
    (st.put (base ++ [name]) .directory).flush base
  else st

/-- The store after the loop of `MkdirAll`. -/
def madeDirs (st : Store Bytes) (base : Path) : Path → Store Bytes
  | [] => st
  | name :: rest => madeDirs (madeDir st base name) (base ++ [name]) rest

/-- After each step of the loop the entry is a directory. -/
def Made (st : Store Bytes) (base : Path) : Path → Prop
  | [] => True
  | name :: rest => (madeDir st base name).nodes (base ++ [name]) = some .directory ∧
    Made (madeDir st base name) (base ++ [name]) rest

section Mkdir

variable {s₀ s : Disk Bytes} {root current : Fd} {base : Path}

/-- A step of the loop that fails closes the directory. -/
theorem Walking.fail {α : Type} (h : Walking s₀ s root current base) (err : Err)
    (k : PUnit → FdProg α) {Q : α → Disk Bytes → Prop} :
    Ensures FdAnswers (closeUnlessRoot root current >>= fun _ => throw err >>= k) Q
      (fun _ t => Keeps s₀ t) s := by
  refine Ensures.bind (ensures_closeUnlessRoot root current s) ?_
  rintro - t rfl
  exact Ensures.throw h.keeps_left

theorem ensures_mkdirAllFrom (p : Path) (h : Walking s₀ s root current base) :
    Ensures FdAnswers (mkdirAllFrom root current p)
      (fun _ t => Keeps s₀ t ∧ t.store = madeDirs s.store base p ∧ Made s.store base p)
      (fun _ t => Keeps s₀ t) s := by
  induction p generalizing s current base with
  | nil =>
    unfold mkdirAllFrom
    split
    · refine Ensures.calling fun r t hr => ?_
      obtain rfl := hr.close
      refine Ensures.ofExcept ?_
      cases r with
      | error e => exact h.keeps.shut h.new
      | ok u => exact ⟨h.keeps.shut h.new, rfl, trivial⟩
    · exact Ensures.pure ⟨h.keeps, rfl, trivial⟩
  | cons name rest ih =>
    -- what follows once the entry is there
    have hdown : ∀ u, Walking s₀ u root current base →
        u.store = madeDir s.store base name →
        Ensures FdAnswers (do
          let next ← call (FdOp.openDir current name)
          closeUnlessRoot root current
          let next ← check (unsafePath "open artifact directory") (next : Except Errno Fd)
          mkdirAllFrom root next rest)
          (fun _ t => Keeps s₀ t ∧ t.store = madeDirs s.store base (name :: rest) ∧
            Made s.store base (name :: rest))
          (fun _ t => Keeps s₀ t) u := by
      intro u hu hstore
      refine Ensures.calling fun next t hnext => ?_
      refine Ensures.bind (ensures_closeUnlessRoot root current t) ?_
      rintro - t' rfl
      rcases hnext.openDir hu.file with ⟨e, rfl, rfl⟩ | ⟨next, rfl, hnode, hopened⟩
      · exact Ensures.throw hu.keeps_left
      · have hrest := ih (hu.next hopened)
        rw [(store_left root current t).trans hopened.quiet.store, hstore] at hrest
        exact Ensures.mono (fun _ v h => ⟨h.1, h.2.1, hstore ▸ hnode, h.2.2⟩) (fun _ _ h => h)
          hrest
    refine Ensures.calling fun r t hr => ?_
    rcases hr.mkdir h.file with ⟨e, hne, rfl, rfl⟩ | ⟨rfl, hnode, rfl⟩ | ⟨rfl, hnode, rfl⟩
    · cases e <;> first | exact absurd rfl hne | exact h.fail _ _
    · exact hdown t h (if_neg hnode).symm
    · refine Ensures.calling fun r t hr => ?_
      rcases hr.sync h.file with ⟨e, rfl, rfl⟩ | ⟨rfl, rfl⟩
      · exact (h.withStore _).fail _ _
      · exact hdown _ ((h.withStore _).withStore _) (if_pos hnode).symm

/-- **What `MkdirAll` does to a disk.** -/
theorem ensures_mkdirAll (p : Path) (s : Disk Bytes) :
    Ensures FdAnswers (mkdirAll p)
      (fun _ t => Keeps s t ∧ t.store = madeDirs s.store [] p ∧ Made s.store [] p ∧
        validatePath p = .ok ())
      (fun _ t => Keeps s t) s := by
  refine Ensures.seq (ensures_validate _ p s) (fun _ t h => h ▸ (Quiet.refl s).files) ?_
  rintro - t ⟨rfl, hvalid⟩
  refine Ensures.seq (ensures_openRoot _ t) (fun _ u h => h ▸ (Quiet.refl t).files) ?_
  intro root u hroot
  refine ensures_closing (Ensures.mono (fun _ v hv => ?_) (fun _ v hv => ?_)
    (ensures_mkdirAllFrom p (.start hroot)))
  · rw [hroot.quiet.store] at hv
    exact ⟨hv.1.shut hroot.1, hv.2.1, hv.2.2, hvalid⟩
  · exact hv.shut hroot.1

end Mkdir

/-! ## Durability -/

section Durable

variable {st : Store Bytes} {base : Path}

/-- A step of the loop leaves the entries that are not of its directory. -/
theorem madeDir_of_length {name : Bytes} {q : Path} (h : q.length ≠ base.length + 1) :
    (madeDir st base name).nodes q = st.nodes q ∧
      (madeDir st base name).durable q = st.durable q := by
  unfold madeDir
  split
  · have hne : q ≠ base ++ [name] := by
      rintro rfl
      simp at h
    have hparent : ¬(q ≠ [] ∧ q.dropLast = base ∧
        (st.put (base ++ [name]) .directory).nodes q ≠ none) := by
      rintro ⟨hq, rfl, -⟩
      have := List.length_pos_of_ne_nil hq
      rw [List.length_dropLast] at h
      omega
    refine ⟨Function.update_of_ne hne .., ?_⟩
    simp only [Store.flush, decide_eq_false hparent, Bool.or_false]
    exact Function.update_of_ne hne ..
  · exact ⟨rfl, rfl⟩

theorem removed_madeDir (st : Store Bytes) (base : Path) (name : Bytes) :
    (madeDir st base name).removed = st.removed := by
  unfold madeDir
  split <;> rfl

/-- `MkdirAll` makes entries on its path only, and takes none away. -/
theorem madeDirs_of_not_below {p q : Path} (h : ¬q <+: base ++ p) :
    (madeDirs st base p).nodes q = st.nodes q ∧ (madeDirs st base p).removed = st.removed := by
  induction p generalizing st base with
  | nil => exact ⟨rfl, rfl⟩
  | cons name rest ih =>
    have happend : base ++ name :: rest = base ++ [name] ++ rest := by simp
    rw [happend] at h
    have hne : q ≠ base ++ [name] := fun heq => h (heq ▸ List.prefix_append _ _)
    have hnode : (madeDir st base name).nodes q = st.nodes q := by
      unfold madeDir
      split
      · exact Function.update_of_ne hne ..
      · rfl
    obtain ⟨hnodes, hremoved⟩ := @ih (madeDir st base name) (base ++ [name]) h
    exact ⟨hnodes.trans hnode, hremoved.trans (removed_madeDir st base name)⟩

/-- The entry of a step is durable after it if it was made, or was durable before. -/
theorem durable_madeDir {name : Bytes} :
    (madeDir st base name).durable (base ++ [name]) = true ↔
      (st.nodes (base ++ [name]) ≠ none → st.durable (base ++ [name]) = true) := by
  unfold madeDir
  split
  · rename_i hnode
    simp [Store.flush, Store.put, hnode]
  · rename_i hnode
    simp [hnode]

theorem durable_madeDirs_of_length {p q : Path} (h : q.length ≤ base.length) :
    (madeDirs st base p).durable q = st.durable q := by
  induction p generalizing st base with
  | nil => rfl
  | cons name rest ih =>
    have hlength : (base ++ [name]).length = base.length + 1 := by simp
    rw [madeDirs, ih (by omega), (madeDir_of_length (by omega)).2]

theorem durable_madeDirs_iff {p : Path} :
    (∀ q, q ≠ [] → q <+: p → (madeDirs st base p).durable (base ++ q) = true) ↔
      ∀ q, q ≠ [] → q <+: p → st.nodes (base ++ q) ≠ none → st.durable (base ++ q) = true := by
  induction p generalizing st base with
  | nil =>
    constructor
    · intro _ q hq hpre
      exact absurd (List.prefix_nil.1 hpre) hq
    · intro _ q hq hpre
      exact absurd (List.prefix_nil.1 hpre) hq
  | cons name rest ih =>
    have hcases : ∀ P : Path → Prop, (∀ q, q ≠ [] → q <+: name :: rest → P (base ++ q)) ↔
        P (base ++ [name]) ∧ ∀ q, q ≠ [] → q <+: rest → P ((base ++ [name]) ++ q) := by
      intro P
      constructor
      · intro h
        refine ⟨h [name] (by simp) (by simp), fun q hq hpre => ?_⟩
        rw [List.append_assoc]
        exact h (name :: q) (by simp) (List.cons_prefix_cons.2 ⟨rfl, hpre⟩)
      · rintro ⟨hname, hrest⟩ q hq hpre
        cases q with
        | nil => exact absurd rfl hq
        | cons b q =>
          obtain ⟨rfl, htail⟩ := List.cons_prefix_cons.1 hpre
          rcases eq_or_ne q [] with rfl | hne
          · exact hname
          · have h := hrest q hne htail
            rwa [List.append_assoc] at h
    rw [hcases (fun q => (madeDirs st base (name :: rest)).durable q = true),
      hcases (fun q => st.nodes q ≠ none → st.durable q = true), madeDirs, ih,
      durable_madeDirs_of_length (Nat.le_refl _), durable_madeDir]
    refine and_congr_right fun _ => forall_congr' fun q => forall_congr' fun hq => ?_
    have hpos := List.length_pos_of_ne_nil hq
    have hlength : (base ++ [name] ++ q).length ≠ base.length + 1 := by
      simp only [List.length_append, List.length_singleton]
      omega
    rw [(madeDir_of_length hlength).1, (madeDir_of_length hlength).2]

end Durable

/-- **After `MkdirAll` the whole path is durable if and only if every part of it that there was
before is.** It does not sync an entry that it finds, though whoever made it may not have either. -/
theorem mkdirAll_durable_iff {p : Path} {s : Disk Bytes}
    {calls : List (Called (FdOp Bytes) FdOp.Res (Disk Bytes))}
    (hreach : Reach (mkdirAll p).run calls (.ret (.ok ()))) (hcalls : Answered FdAnswers s calls) :
    (∀ q, q ≠ [] → q <+: p → (final s calls).store.durable q = true) ↔
      ∀ q, q ≠ [] → q <+: p → s.store.nodes q ≠ none → s.store.durable q = true := by
  have hstore : (final s calls).store = madeDirs s.store [] p :=
    ((ensures_mkdirAll p s).of_reach hreach hcalls).2.1
  rw [hstore]
  exact @durable_madeDirs_iff s.store [] p

/-- A disk with a directory that is on stable storage or not. -/
def diskWith (durable : Bool) : Disk Bytes where
  files _ := none
  store :=
    { nodes := fun p => if p = [ascii "a"] then some .directory else none
      durable := fun p => decide (p = [ascii "a"]) && durable
      synced := []
      removed := [] }

/-- The calls of `MkdirAll` for `a/b` on it. -/
def mkdirCalls (durable : Bool) : List (Called (FdOp Bytes) FdOp.Res (Disk Bytes)) :=
  ((mkdirAll [ascii "a", ascii "b"]).run.trace execFd (diskWith durable)).1

theorem reach_mkdirCalls (durable : Bool) :
    Reach (mkdirAll [ascii "a", ascii "b"]).run (mkdirCalls durable) (.ret (.ok ())) := by
  have hret :
      ((mkdirAll [ascii "a", ascii "b"]).run.trace execFd (diskWith durable)).2 = .ok () := by
    cases durable <;> decide +kernel
  exact hret ▸ reach_trace execFd _ _

theorem mkdirAll_durable_sample :
    (final (diskWith true) (mkdirCalls true)).store.durable [ascii "a"] = true ∧
      (final (diskWith true) (mkdirCalls true)).store.durable [ascii "a", ascii "b"] = true := by
  have h := (mkdirAll_durable_iff (reach_mkdirCalls true) (answered_trace answers_execFd _ _)).2
    fun q _ _ hnode => by
      by_cases hq : q = [ascii "a"]
      · simp [diskWith, hq]
      · simp [diskWith, hq] at hnode
  exact ⟨h _ (by simp) (by simp), h _ (by simp) (by simp)⟩

/-- The entry of a directory that was there is left volatile. -/
theorem mkdirAll_volatile : ∃ (s : Disk Bytes) (p : Path)
    (calls : List (Called (FdOp Bytes) FdOp.Res (Disk Bytes))),
    Reach (mkdirAll p).run calls (.ret (.ok ())) ∧ Answered FdAnswers s calls ∧
      ∃ q, q ≠ [] ∧ q <+: p ∧ (final s calls).store.durable q = false := by
  refine ⟨diskWith false, [ascii "a", ascii "b"], mkdirCalls false, reach_mkdirCalls false,
    answered_trace answers_execFd _ _, [ascii "a"], by simp, by simp, ?_⟩
  decide +kernel

end Kama.Artifact.OnDisk
