import Kama.Artifact.DiskPaths

/-!
# Files on a disk whose calls can fail

The functions of the artifact package that make more calls than those of `path_linux.go` on
directories. `onFd` takes a program over descriptor calls to one over all calls, and
`ensures_onFd` its triple.

* `ensures_openRegular`: `OpenRegular` opens the file at its path, or nothing.
* `ensures_syncDirectory`: `syncDirectory` syncs the directory at its path, or nothing.
-/

namespace Kama.Artifact.OnDisk

open Bytes FileTree Inode Program Disk Descriptors

/-- Code over all calls that can fail. -/
abbrev DiskProg (ι : Type) (Ans : ι → Type) (α : Type) :=
  ExceptT Err (Prog (DiskOp Bytes ι) (DiskOp.Res Ans)) α

variable {ι α : Type} {Ans : ι → Type}

def onFd (p : FdProg α) : DiskProg ι Ans α := ExceptT.mk (p.run.translate .fd fun _ r => r)

theorem ensures_onFd {p : FdProg α} {Q : α → Disk Bytes → Prop} {E : Err → Disk Bytes → Prop}
    {s : Disk Bytes} (h : Ensures FdAnswers p Q E s) : Ensures (Answers Ans) (onFd p) Q E s :=
  Prog.ensures_translate (fun _ _ _ _ h => h) h

/-- The checks of `OpenRegular` on what it has opened. -/
def inspectRegular (p : Path) (fd : Fd) : FdProg Fd := do
  match (← call (FdOp.stat fd) : Except Errno (Kind × Nat)) with
  | .error e => do
    closeQuietly fd
    throw (ioFailure "inspect artifact file" e)
  | .ok (kind, _) =>
    if kind ≠ .regular then
      closeQuietly fd
      throw (.failure .unsafePath "inspect artifact file"
        (.text "%q is not a regular file" [joinSlash p]))
    else pure fd

def openRegular (p : Path) : DiskProg ι Ans Fd := do
  validate "validate path" p
  let root ← onFd (openRoot "open validation root")
  -- the last component is opened without `O_DIRECTORY`
  let current ← onFd (walkFrom "open artifact path" root root p.dropLast)
  let opened ← call (DiskOp.openFile current (p.getLastD []))
  onFd (closeUnlessRoot root current)
  onFd (closeQuietly root)
  let fd ← check (unsafePath "open artifact path") (opened : Except Errno Fd)
  onFd (inspectRegular p fd)

/-- `defer func() { _ = fd.Close() }()`, with all calls. -/
def closingFile (fd : Fd) (body : DiskProg ι Ans α) : DiskProg ι Ans α :=
  deferring (onFd (closeQuietly fd)) body

def renameNoFollow (p q : Path) : DiskProg ι Ans Unit := do
  let (parent, base) ← onFd (openParent p)
  closingFile parent do
    let (parent', base') ← onFd (openParent q)
    closingFile parent' do
      let renamed ← call (DiskOp.rename parent base parent' base')
      check (storageError "rename artifact path") (renamed : Except Errno Unit)

def syncDirectory (p : Path) : FdProg Unit := do
  let directory ← openDirectory p
  closing directory do
    check (storageError "fsync artifact directory") (← call (FdOp.sync directory))

/-! ## What they ensure -/

theorem dropLast_append_getLastD {p : Path} (hp : p ≠ []) : p.dropLast ++ [p.getLastD []] = p := by
  rw [List.getLastD_eq_getLast?, List.getLast?_eq_some_getLast hp, Option.getD_some,
    List.dropLast_append_getLast hp]

theorem ensures_inspectRegular {p q : Path} {fd : Fd} {s t : Disk Bytes} (h : OpenedAt s q fd t) :
    Ensures FdAnswers (inspectRegular p fd) (fun fd u => OpenedAt s q fd u) (fun _ u => Quiet s u)
      t := by
  refine Ensures.bind (Q := fun _ u => u = t) (Ensures.lift fun r u hr => ?_) ?_
  · cases r <;> exact (Option.some.inj hr).symm
  · have hfail : ∀ e : Err, Ensures FdAnswers (closeQuietly fd >>= fun _ => (throw e : FdProg Fd))
        (fun fd u => OpenedAt s q fd u) (fun _ u => Quiet s u) t := by
      intro e
      refine Ensures.bind (ensures_closeQuietly fd t) ?_
      rintro - u rfl
      exact Ensures.throw (h.quiet.shut h.new)
    rintro r u rfl
    rcases r with e | ⟨kind, nlink⟩
    · exact hfail _
    · dsimp only
      split
      · exact hfail _
      · exact Ensures.pure h

/-- **`OpenRegular` opens the file at its path, or nothing.** -/
theorem ensures_openRegular {p : Path} (hp : p ≠ []) (s : Disk Bytes) :
    Ensures (Answers Ans) (openRegular p) (fun fd t => OpenedAt s p fd t) (fun _ t => Quiet s t)
      s := by
  refine Ensures.seq (ensures_onFd (ensures_validate _ p s)) (fun _ t h => h ▸ .refl s) ?_
  rintro - t ⟨rfl, -⟩
  refine Ensures.seq (ensures_onFd (ensures_openRoot _ t)) (fun _ _ h => h ▸ .refl t) ?_
  intro root t' hroot
  refine Ensures.seq (ensures_onFd (ensures_walkFrom _ p.dropLast (.start hroot) (isDir_nil _)))
    (fun _ u h => ⟨h.2.trans hroot.quiet.store, h.1⟩) ?_
  rintro current u ⟨hwalk, hstore, -⟩
  refine Ensures.calling fun r v hr => ?_
  refine Ensures.bind (ensures_onFd (ensures_closeUnlessRoot root current v)) ?_
  rintro - v' rfl
  refine Ensures.bind (ensures_onFd (ensures_closeQuietly root _)) ?_
  rintro - v' rfl
  have hstore₁ : u.store = t.store := hstore.trans hroot.quiet.store
  rcases hr.openFile hwalk.file with ⟨e, rfl, rfl⟩ | ⟨fd, rfl, hopened⟩
  · exact Ensures.throw ⟨(store_left root current v).trans hstore₁,
      hwalk.keeps_left.shut hwalk.root_new⟩
  · have hnext := hwalk.next hopened
    have hne : fd ≠ root := by
      rintro rfl
      exact absurd (hnext.file.symm.trans hnext.root_file) (by simp)
    refine ensures_onFd (ensures_inspectRegular
      ⟨⟨?_, hnext.keeps.shut hnext.root_new⟩, ?_, hnext.new⟩)
    · exact ((store_left root current v).trans hopened.quiet.store).trans hstore₁
    · rw [files_shut_ne _ hne, hnext.file, List.nil_append, dropLast_append_getLastD hp]

/-- **`syncDirectory` syncs the directory at its path, or nothing.** -/
theorem ensures_syncDirectory (p : Path) (s : Disk Bytes) :
    Ensures FdAnswers (syncDirectory p)
      (fun _ t => Keeps s t ∧ t.store = s.store.flush p ∧ Openable s.store p)
      (fun _ t => Quiet s t) s := by
  refine Ensures.bind (ensures_openDirectory p s) fun fd t h => ?_
  refine ensures_closing ?_
  refine Ensures.calling fun r u hr => ?_
  rcases hr.sync h.file with ⟨e, rfl, rfl⟩ | ⟨rfl, rfl⟩
  · exact Ensures.throw (h.quiet.shut h.new)
  · refine Ensures.pure ⟨h.quiet.files.shut h.new, ?_, h.openable⟩
    rw [← h.quiet.store]
    rfl

theorem ensures_closingFile {fd : Fd} {body : DiskProg ι Ans α} {Q : α → Disk Bytes → Prop}
    {E : Err → Disk Bytes → Prop} {s : Disk Bytes}
    (h : Ensures (Answers Ans) body (fun a t => Q a (t.shut fd)) (fun e t => E e (t.shut fd)) s) :
    Ensures (Answers Ans) (closingFile fd body) Q E s :=
  Ensures.deferring (fun t => ensures_onFd (ensures_closeQuietly fd t)) h

/-- **`RenameNoFollow` moves what is at its first path to the second, or does nothing.** -/
theorem ensures_renameNoFollow {p q : Path} (hp : p ≠ []) (hq : q ≠ []) (s : Disk Bytes) :
    Ensures (Answers Ans) (renameNoFollow p q)
      (fun _ t => s.store.nodes p ≠ none ∧ t.store = s.store.move p q ∧ HasParent s.store p ∧
        HasParent s.store q)
      (fun _ t => t.store = s.store) s := by
  refine Ensures.seq (ensures_onFd (ensures_openParent p s)) (fun _ _ h => h.store) ?_
  rintro ⟨parent, base⟩ t ⟨hparent, rfl, hp'⟩
  refine ensures_closingFile ?_
  refine Ensures.seq (ensures_onFd (ensures_openParent q t))
    (fun _ _ h => h.store.trans hparent.quiet.store) ?_
  rintro ⟨parent', base'⟩ u ⟨hparent', rfl, hq'⟩
  refine ensures_closingFile ?_
  have hstore : u.store = s.store := hparent'.quiet.store.trans hparent.quiet.store
  refine Ensures.calling fun r v hr => ?_
  rcases hr.rename (hparent'.quiet.files _ _ hparent.file) hparent'.file with
    ⟨e, rfl, rfl⟩ | ⟨rfl, hnode, rfl⟩
  · exact Ensures.throw hstore
  · rw [dropLast_append_getLastD hp, hstore] at hnode
    rw [dropLast_append_getLastD hp, dropLast_append_getLastD hq, hstore]
    rw [hparent.quiet.store] at hq'
    exact Ensures.pure ⟨hnode, rfl, hp', hq'⟩

/-! ## Removing -/

/-- Only entries below `p` have been taken away. -/
def Below (p : Path) (st st' : Store Bytes) : Prop :=
  ∃ l, st'.removed = st.removed ++ l ∧ (∀ x ∈ l, p <+: x ∧ x ≠ p) ∧
    ∀ q, (p <+: q → q = p) → st'.nodes q = st.nodes q

/-- Only `p` and entries below it have been taken away, and `p` if the log says so. -/
def Cleared (p : Path) (st st' : Store Bytes) : Prop :=
  ∃ l, st'.removed = st.removed ++ l ∧ (∀ x ∈ l, p <+: x) ∧
    (∀ q, ¬p <+: q → st'.nodes q = st.nodes q) ∧
    (p ∈ l → st'.nodes p = none) ∧ (p ∉ l → st'.nodes p = st.nodes p)

section Removing

variable {st st' st'' : Store Bytes} {p : Path} {s t u : Disk Bytes}

theorem Below.of_eq (hnodes : st'.nodes = st.nodes) (hremoved : st'.removed = st.removed) :
    Below p st st' :=
  ⟨[], by rw [hremoved, List.append_nil], by simp, fun q _ => by rw [hnodes]⟩

theorem Below.trans (h : Below p st st') (h' : Below p st' st'') : Below p st st'' := by
  obtain ⟨l, hl, hmem, hnodes⟩ := h
  obtain ⟨l', hl', hmem', hnodes'⟩ := h'
  refine ⟨l ++ l', by rw [hl', hl, List.append_assoc], fun x hx => ?_, fun q hq => ?_⟩
  · exact (List.mem_append.1 hx).elim (hmem x) (hmem' x)
  · rw [hnodes' q hq, hnodes q hq]

theorem append_singleton_ne (p : Path) (name : Bytes) {q : Path} (h : p ++ [name] <+: q) :
    q ≠ p := by
  rintro rfl
  have hlength := h.length_le
  rw [List.length_append, List.length_singleton] at hlength
  omega

theorem Below.up {name : Bytes} (h : Below (p ++ [name]) st st') : Below p st st' := by
  obtain ⟨l, hl, hmem, hnodes⟩ := h
  refine ⟨l, hl, fun x hx => ?_, fun q hq => hnodes q fun hpre => ?_⟩
  · exact ⟨(List.prefix_append p [name]).trans (hmem x hx).1,
      append_singleton_ne p name (hmem x hx).1⟩
  · exact absurd (hq ((List.prefix_append p [name]).trans hpre)) (append_singleton_ne p name hpre)

theorem below_take (st : Store Bytes) (p : Path) (name : Bytes) :
    Below p st (st.take (p ++ [name])) := by
  refine ⟨[p ++ [name]], rfl, fun x hx => ?_, fun q hq => Function.update_of_ne ?_ ..⟩
  · rw [List.mem_singleton.1 hx]
    exact ⟨List.prefix_append p [name], append_singleton_ne p name List.prefix_rfl⟩
  · rintro rfl
    exact append_singleton_ne p name List.prefix_rfl (hq (List.prefix_append p [name]))

theorem Below.cleared (h : Below p st st') : Cleared p st st' := by
  obtain ⟨l, hl, hmem, hnodes⟩ := h
  refine ⟨l, hl, fun x hx => (hmem x hx).1, fun q hq => hnodes q fun hpre => absurd hpre hq,
    fun hp => absurd rfl (hmem p hp).2, fun _ => hnodes p fun _ => rfl⟩

theorem Cleared.of_eq (h : Cleared p st st') (hnodes : st''.nodes = st'.nodes)
    (hremoved : st''.removed = st'.removed) : Cleared p st st'' := by
  unfold Cleared
  rw [hnodes, hremoved]
  exact h

theorem Below.take (h : Below p st st') : Cleared p st (st'.take p) := by
  obtain ⟨l, hl, hmem, hnodes⟩ := h
  refine ⟨l ++ [p], ?_, fun x hx => ?_, fun q hq => ?_, fun _ => ?_, fun hp => ?_⟩
  · rw [← List.append_assoc, ← hl]
    rfl
  · rcases List.mem_append.1 hx with hx | hx
    · exact (hmem x hx).1
    · rw [List.mem_singleton.1 hx]
  · have hne : q ≠ p := fun heq => hq (heq ▸ List.prefix_rfl)
    exact (Function.update_of_ne hne ..).trans (hnodes q fun hpre => absurd hpre hq)
  · exact Function.update_self ..
  · exact absurd (by simp) hp

theorem cleared_take (st : Store Bytes) (p : Path) : Cleared p st (st.take p) :=
  (Below.of_eq rfl rfl).take

/-- A directory has been emptied, in part at least. -/
structure Emptied (p : Path) (s t : Disk Bytes) : Prop where
  keeps : Keeps s t
  below : Below p s.store t.store

theorem Emptied.refl (p : Path) (s : Disk Bytes) : Emptied p s s :=
  ⟨(Quiet.refl s).files, .of_eq rfl rfl⟩

theorem Emptied.trans (h : Emptied p s t) (h' : Emptied p t u) : Emptied p s u :=
  ⟨h.keeps.trans h'.keeps, h.below.trans h'.below⟩

/-- The call that takes an entry of the directory away. -/
theorem Emptied.take {name : Bytes} (h : Emptied p s t)
    (hanswer : u = t.withStore (t.store.take (p ++ [name]))) : Emptied p s u := by
  subst hanswer
  exact h.trans ⟨(Quiet.refl t).files, below_take t.store p name⟩

/-- Going on with the answer to a call, where it is no error. -/
theorem ensures_check {β γ : Type} {wrap : Errno → Err} {r : Except Errno β} {k : β → FdProg γ}
    {Q : γ → Disk Bytes → Prop} {E : Err → Disk Bytes → Prop}
    (herror : ∀ e, r = .error e → E (wrap e) s)
    (hok : ∀ a, r = .ok a → Ensures FdAnswers (k a) Q E s) :
    Ensures FdAnswers (check wrap r >>= k) Q E s := by
  cases r with
  | error e => exact Ensures.throw (herror e rfl)
  | ok a => exact hok a rfl

/-- One entry: a file is unlinked, a directory is emptied and removed. -/
theorem ensures_removeEntry {recurse : Fd → FdProg Unit} {dir : Fd} {name : Bytes}
    (hrecurse : ∀ child s, s.files child = some (p ++ [name]) →
      Ensures FdAnswers (recurse child) (fun _ t => Emptied (p ++ [name]) s t)
        (fun _ t => Emptied (p ++ [name]) s t) s)
    (hdir : s.files dir = some p) :
    Ensures FdAnswers (removeEntry recurse dir name) (fun _ t => Emptied p s t)
      (fun _ t => Emptied p s t) s := by
  have hrefl := Emptied.refl p s
  unfold removeEntry
  split
  · exact Ensures.throw hrefl
  refine Ensures.bind (Q := fun _ t => t = s) (Ensures.lift fun r t hr => ?_) ?_
  · cases r <;> exact (Option.some.inj hr).symm
  rintro r t rfl
  refine ensures_check (fun _ _ => hrefl) fun kind _ => ?_
  split
  · refine Ensures.calling fun r u hr => ?_
    rcases hr.openDir hdir with ⟨e, rfl, rfl⟩ | ⟨child, rfl, -, hopened⟩
    · exact Ensures.throw hrefl
    refine ensures_check (fun _ h => by cases h) fun _ hchild => ?_
    obtain rfl := Except.ok.inj hchild
    have hbody : Ensures FdAnswers (attempt (recurse child))
        (fun _ v => Emptied (p ++ [name]) u v) (fun _ v => Emptied p t v) u :=
      Ensures.attempt (hrecurse child u hopened.files_self)
    refine Ensures.bind hbody fun r v hv => ?_
    have hshut : Emptied p t (v.shut child) :=
      ⟨(hopened.keeps.trans hv.keeps).shut hopened.1, hopened.store ▸ hv.below.up⟩
    cases r with
    | error e =>
      refine Ensures.bind (ensures_closeQuietly child v) ?_
      rintro - v' rfl
      exact Ensures.throw hshut
    | ok _ =>
      refine Ensures.bind (Ensures.lift fun r w hr => hr.close) ?_
      rintro r w rfl
      refine ensures_check (fun _ _ => hshut) fun _ _ => ?_
      refine Ensures.calling fun r x hr => ?_
      rcases hr.rmdir (hshut.keeps _ _ hdir) with ⟨e, rfl, rfl⟩ | ⟨rfl, hx⟩
      · exact Ensures.throw hshut
      · exact Ensures.pure (hshut.take hx)
  · refine Ensures.calling fun r x hr => ?_
    rcases hr.unlink hdir with ⟨e, rfl, rfl⟩ | ⟨rfl, -, hx⟩
    · exact Ensures.throw hrefl
    · exact Ensures.pure (hrefl.take hx)

theorem ensures_removeEntries {recurse : Fd → FdProg Unit} {dir : Fd}
    (hrecurse : ∀ name child s, s.files child = some (p ++ [name]) →
      Ensures FdAnswers (recurse child) (fun _ t => Emptied (p ++ [name]) s t)
        (fun _ t => Emptied (p ++ [name]) s t) s)
    (names : List Bytes) (hdir : s.files dir = some p) :
    Ensures FdAnswers (removeEntries recurse dir names) (fun _ t => Emptied p s t)
      (fun _ t => Emptied p s t) s := by
  induction names generalizing s with
  | nil => exact Ensures.pure (.refl p s)
  | cons name names ih =>
    refine Ensures.bind (ensures_removeEntry (hrecurse name) hdir) fun _ t h => ?_
    exact Ensures.mono (fun _ _ h' => h.trans h') (fun _ _ h' => h.trans h')
      (ih (h.keeps _ _ hdir))

theorem ensures_removeDirectoryContents (fuel : Nat) {dir : Fd} (hdir : s.files dir = some p) :
    Ensures FdAnswers (removeDirectoryContents fuel dir) (fun _ t => Emptied p s t)
      (fun _ t => Emptied p s t) s := by
  induction fuel generalizing s p dir with
  | zero => exact Ensures.throw (.refl p s)
  | succ fuel ih =>
    refine Ensures.bind (Q := fun _ t => t = s) (Ensures.lift fun r t hr => ?_) ?_
    · cases r <;> exact (Option.some.inj hr).symm
    rintro r t rfl
    rcases r with e | ⟨names, eof⟩
    · by_cases he : e = .ENOENT
      · subst he
        exact ih hdir
      · cases e <;> first | exact absurd rfl he | exact Ensures.throw (.refl p t)
    · refine Ensures.bind (ensures_removeEntries (fun name child u => ih) names hdir) ?_
      intro _ u h
      split
      · exact Ensures.pure h
      · exact Ensures.mono (fun _ _ h' => h.trans h') (fun _ _ h' => h.trans h')
          (ih (h.keeps _ _ hdir))

/-- **`RemoveNoFollow` takes away what is at its path, which is no directory.** -/
theorem ensures_removeNoFollow (hp : p ≠ []) (s : Disk Bytes) :
    Ensures FdAnswers (removeNoFollow p)
      (fun _ t => HasParent s.store p ∧
        ¬(s.store.nodes p = none ∨ s.store.nodes p = some .directory) ∧
        t.store = (s.store.take p).flush p.dropLast)
      (fun _ t => Cleared p s.store t.store) s := by
  have hsame : ∀ u : Disk Bytes, u.store = s.store → Cleared p s.store u.store :=
    fun u hu => (Below.of_eq (congrArg Store.nodes hu) (congrArg Store.removed hu)).cleared
  refine Ensures.seq (ensures_openParent p s) (fun _ _ h => hsame _ h.store) ?_
  rintro ⟨parent, base⟩ t ⟨hparent, rfl, hp'⟩
  refine ensures_closing ?_
  refine Ensures.calling fun r u hr => ?_
  rcases hr.unlink hparent.file with ⟨e, rfl, rfl⟩ | ⟨rfl, hnode, rfl⟩
  · exact Ensures.throw (hsame _ hparent.quiet.store)
  · rw [dropLast_append_getLastD hp, hparent.quiet.store] at hnode
    rw [dropLast_append_getLastD hp, hparent.quiet.store]
    refine ensures_check (fun _ h => by cases h) fun _ _ => ?_
    refine Ensures.calling fun r u hr => ?_
    rcases hr.sync hparent.file with ⟨e, rfl, rfl⟩ | ⟨rfl, rfl⟩
    · exact Ensures.throw (cleared_take s.store p)
    · exact Ensures.pure ⟨hp', hnode, rfl⟩

/-- **`RemoveTreeNoFollow` takes away its path and what is below it, or a part of that.** -/
theorem ensures_removeTreeNoFollow (fuel : Nat) (hp : p ≠ []) (s : Disk Bytes) :
    Ensures FdAnswers (removeTreeNoFollow fuel p) (fun _ t => Cleared p s.store t.store)
      (fun _ t => Cleared p s.store t.store) s := by
  have hsame : ∀ u : Disk Bytes, u.store = s.store → Cleared p s.store u.store :=
    fun u hu => (Below.of_eq (congrArg Store.nodes hu) (congrArg Store.removed hu)).cleared
  refine Ensures.seq (ensures_openParent p s) (fun _ _ h => hsame _ h.store) ?_
  rintro ⟨parent, base⟩ t ⟨hparent, rfl, -⟩
  refine ensures_closing ?_
  refine Ensures.calling fun r u hr => ?_
  rcases hr.openDir hparent.file with ⟨e, rfl, rfl⟩ | ⟨directory, rfl, -, hopened⟩
  · exact Ensures.throw (hsame _ hparent.quiet.store)
  refine ensures_check (fun _ h => by cases h) fun _ hdirectory => ?_
  obtain rfl := Except.ok.inj hdirectory
  rw [dropLast_append_getLastD hp] at hopened
  have hstore : u.store = s.store := hopened.store.trans hparent.quiet.store
  have hbody : Ensures FdAnswers (attempt (removeDirectoryContents fuel directory))
      (fun _ v => Emptied p u v) (fun _ v => Cleared p s.store v.store) u :=
    Ensures.attempt (ensures_removeDirectoryContents fuel hopened.files_self)
  refine Ensures.bind hbody fun r v hv => ?_
  have hbelow : Below p s.store v.store := hstore ▸ hv.below
  have hne : parent ≠ directory := by
    rintro rfl
    exact absurd (hopened.1.symm.trans hparent.file) (by simp)
  have hfile : (v.shut directory).files parent = some p.dropLast := by
    rw [files_shut_ne v hne]
    exact hv.keeps _ _ (hopened.keeps _ _ hparent.file)
  cases r with
  | error e =>
    refine Ensures.bind (ensures_closeQuietly directory v) ?_
    rintro - w rfl
    exact Ensures.throw hbelow.cleared
  | ok _ =>
    refine Ensures.calling fun r w hr => ?_
    rcases hr.sync (hv.keeps _ _ hopened.files_self) with ⟨e, rfl, rfl⟩ | ⟨rfl, rfl⟩
    · refine Ensures.bind (ensures_closeQuietly directory w) ?_
      rintro - w' rfl
      exact Ensures.throw hbelow.cleared
    have hsynced : Below p s.store (v.store.flush p) := hbelow.trans (.of_eq rfl rfl)
    refine Ensures.bind (Ensures.lift fun r w hr => hr.close) ?_
    rintro r w rfl
    refine ensures_check (fun _ _ => hsynced.cleared) fun _ _ => ?_
    refine Ensures.calling fun r w hr => ?_
    rcases hr.rmdir hfile with ⟨e, rfl, rfl⟩ | ⟨rfl, rfl⟩
    · exact Ensures.throw hsynced.cleared
    rw [dropLast_append_getLastD hp]
    refine ensures_check (fun _ h => by cases h) fun _ _ => ?_
    refine Ensures.calling fun r w hr => ?_
    rcases hr.sync hfile with ⟨e, rfl, rfl⟩ | ⟨rfl, rfl⟩
    · exact Ensures.throw hsynced.take
    · exact Ensures.pure (hsynced.take.of_eq rfl rfl)

end Removing

end Kama.Artifact.OnDisk
