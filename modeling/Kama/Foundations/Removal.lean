import Kama.Foundations.Host

/-!
# Taking names away

A process that removes a tree works through descriptors while others may take names away as well.
This module says what it can count on.

* `Fs.Wf.walk_inj`: a directory has one path, so taking out a name changes the paths through that
  name and no other (`Fs.Wf.walk_remove`).
* `Fs.Shrunk`: between two states names were only taken away. `Fs.Removal sel` is one such step at
  a selected path.
* `Host.listing` is the kernel whose directory reads give no name twice and, without a limit, all
  names.
* `Host.Spared` is what a process counts on: the others only take names away, and none out of a
  directory that it has open, the directories at `shallow` paths apart. `Host.clearing` is the
  contract of a process that takes away selected names only.
* `Host.Held` is a descriptor of a directory, and `Host.Pending` a name in such a directory that
  stays until the process takes it away.
-/

namespace Kama.Inode

open FileTree (Errno)

open Program (Pid Kernel Contract)

namespace Fs

variable {ν β : Type} [DecidableEq ν] {fs fs' fs'' : Fs ν β}

/-! ## Paths -/

theorem walk_snoc (s : Ino) (p : List ν) (name : ν) :
    fs.walk s (p ++ [name]) = (fs.walk s p).bind fun d => fs.lookup d name := by
  rw [walk_append]
  cases fs.walk s p with
  | none => rfl
  | some d =>
    show (fs.lookup d name).bind some = fs.lookup d name
    cases fs.lookup d name <;> rfl

/-- A directory has one path. -/
theorem Wf.walk_inj (h : fs.Wf) {p q : List ν} {d : Ino} (hd : fs.kind d = some .directory)
    (hp : fs.walk root p = some d) (hq : fs.walk root q = some d) : p = q := by
  induction p using List.reverseRecOn generalizing q d with
  | nil =>
    obtain rfl : root = d := Option.some.inj hp
    cases q using List.reverseRecOn with
    | nil => rfl
    | append_singleton q m =>
      rw [walk_snoc] at hq
      obtain ⟨e, -, he⟩ := Option.bind_eq_some_iff.1 hq
      exact absurd he (h.root_unnamed e m)
  | append_singleton p n ih =>
    rw [walk_snoc] at hp
    obtain ⟨e, hpe, hed⟩ := Option.bind_eq_some_iff.1 hp
    cases q using List.reverseRecOn with
    | nil =>
      obtain rfl : root = d := Option.some.inj hq
      exact absurd hed (h.root_unnamed e n)
    | append_singleton q m =>
      rw [walk_snoc] at hq
      obtain ⟨e', hqe, hed'⟩ := Option.bind_eq_some_iff.1 hq
      obtain ⟨rfl, rfl⟩ := h.unique hd hed hed'
      rw [ih (lookup_dir hed) hpe hqe]

/-- Taking out a name changes the paths through that name and no other. -/
theorem Wf.walk_remove (h : fs.Wf) {q : List ν} {d j : Ino} {name : ν}
    (hq : fs.walk root q = some d) (hj : fs.lookup d name = some j) (p : List ν) :
    (fs.remove d name).walk root p = if q ++ [name] <+: p then none else fs.walk root p := by
  have hd := lookup_dir hj
  induction p using List.reverseRecOn with
  | nil => rw [if_neg (by simp)]; rfl
  | append_singleton p n ih =>
    rw [walk_snoc, walk_snoc, ih]
    by_cases hbelow : q ++ [name] <+: p
    · rw [if_pos hbelow, if_pos (hbelow.trans (List.prefix_append ..)), Option.bind_none]
    · rw [if_neg hbelow]
      cases hwalk : fs.walk root p with
      | none => simp
      | some e =>
        rw [Option.bind_some, Option.bind_some, lookup_remove hd]
        refine if_congr ?_ rfl rfl
        constructor
        · rintro ⟨rfl, rfl⟩
          rw [h.walk_inj hd hq hwalk]
        · intro hlonger
          have heq : q ++ [name] = p ++ [n] := by
            rcases List.prefix_concat_iff.1 hlonger with heq | hpre
            · exact heq
            · exact absurd hpre hbelow
          obtain ⟨rfl, hname⟩ := List.append_inj' heq rfl
          exact ⟨Option.some.inj (hwalk.symm.trans hq), (List.cons.inj hname).1.symm⟩

/-! ## Fewer names -/

/-- Names were only taken away, directories only when they were empty. -/
structure Shrunk (fs fs' : Fs ν β) : Prop where
  kind : ∀ {i k}, fs.kind i = some k → fs'.kind i = some k
  lookup : ∀ {d name j}, fs'.lookup d name = some j → fs.lookup d name = some j
  located : ∀ {p d}, fs.Located p d → fs'.Located p d

theorem Shrunk.refl : Shrunk fs fs := ⟨id, id, id⟩

theorem Shrunk.trans (h : Shrunk fs fs') (h' : Shrunk fs' fs'') : Shrunk fs fs'' where
  kind hk := h'.kind (h.kind hk)
  lookup hj := h.lookup (h'.lookup hj)
  located hd := h'.located (h.located hd)

theorem Wf.shrunk_remove (h : fs.Wf) {d j : Ino} {name : ν} (hj : fs.lookup d name = some j)
    (hempty : fs.kind j = some .directory → fs.entries j = []) :
    Shrunk fs (fs.remove d name) where
  kind hk := (Change.remove hj hempty).kind hk
  lookup hfound := by
    rw [lookup_remove (lookup_dir hj)] at hfound
    split at hfound
    · cases hfound
    · exact hfound
  located hloc := hloc.change h (.remove hj hempty)

theorem Shrunk.walk (h : Shrunk fs fs') {s i : Ino} {p : List ν}
    (hwalk : fs'.walk s p = some i) : fs.walk s p = some i := by
  induction p generalizing s with
  | nil => exact hwalk
  | cons n p ih =>
    obtain ⟨m, hm, hrest⟩ := Option.bind_eq_some_iff.1 hwalk
    exact Option.bind_eq_some_iff.2 ⟨m, h.lookup hm, ih hrest⟩

/-- What is not there does not come back. -/
theorem Shrunk.absent (h : Shrunk fs fs') {p : List ν} (hp : fs.walk root p = none) :
    fs'.walk root p = none := by
  cases hwalk : fs'.walk root p with
  | none => rfl
  | some i => exact absurd (h.walk hwalk) (by simp [hp])

/-- One name is taken away, if any, and its path is selected. -/
inductive Removal (sel : List ν → Prop) (fs : Fs ν β) : Fs ν β → Prop
  | same : Removal sel fs fs
  | remove {q : List ν} {d j : Ino} {name : ν} (hq : fs.walk root q = some d)
      (hj : fs.lookup d name = some j) (hempty : fs.kind j = some .directory → fs.entries j = [])
      (hsel : sel (q ++ [name])) : Removal sel fs (fs.remove d name)

variable {sel : List ν → Prop}

theorem Removal.shrunk (h : Removal sel fs fs') (hwf : fs.Wf) : Shrunk fs fs' := by
  cases h with
  | same => exact .refl
  | remove hq hj hempty hsel => exact hwf.shrunk_remove hj hempty

theorem Removal.mono {sel' : List ν → Prop} (hsel : ∀ p, sel p → sel' p) (h : Removal sel fs fs') :
    Removal sel' fs fs' := by
  cases h with
  | same => exact .same
  | remove hq hj hempty hp => exact .remove hq hj hempty (hsel _ hp)

/-- What is not below a selected path stays. -/
theorem Removal.walk (h : Removal sel fs fs') (hwf : fs.Wf) {p : List ν}
    (hp : ∀ r, r <+: p → ¬sel r) : fs'.walk root p = fs.walk root p := by
  cases h with
  | same => rfl
  | remove hq hj hempty hsel =>
    rw [hwf.walk_remove hq hj, if_neg fun hbelow => hp _ hbelow hsel]

/-- The content of what is not a directory stays, whether it has a name or not. -/
theorem Removal.node (h : Removal sel fs fs') {i : Ino} (hi : fs.kind i ≠ some .directory) :
    fs'.nodes[i]? = fs.nodes[i]? := by
  cases h with
  | same => rfl
  | @remove q d j name hq hj hempty hsel =>
    have hne : d ≠ i := by
      rintro rfl
      exact hi (lookup_dir hj)
    rw [Fs.remove, setEntries, List.getElem?_set_ne hne]

end Fs

namespace Host

variable {ν β : Type} [DecidableEq ν] {h h' h'' : Host ν β} {empty : β} {pid i : Pid}
  {choice : DirAnswer ν}

/-! ## Calls -/

/-- A directory read gives no name twice, and without a limit all names. -/
def lists (pid : Pid) (op : FdOp ν) (choice : DirAnswer ν) (h : Host ν β) : Bool :=
  match op with
  | .readDir dir limit =>
    decide choice.names.Nodup && (limit.isSome ||
      (h.file pid dir).all fun f => (h.fs.entries f.ino).all fun e => decide (e.1 ∈ choice.names))
  | _ => true

/-- The kernel whose directory reads are complete. -/
def listing (empty : β) : Kernel (FdOp ν) FdOp.Res (DirAnswer ν) (Host ν β) where
  exec pid op choice h := if lists pid op choice h then h.exec empty pid choice op else none
  reap := reap

theorem exec_of_listing {op : FdOp ν} {r : op.Res}
    (hexec : (listing empty).exec pid op choice h = some (r, h')) :
    h.exec empty pid choice op = some (r, h') ∧ lists pid op choice h = true := by
  simp only [listing] at hexec
  split at hexec
  · exact ⟨hexec, ‹_›⟩
  · cases hexec

/-- What `unlink` and `rmdir` do: they are refused, or the name is taken away. -/
inductive Taken (pid : Pid) (h : Host ν β) (dir : Fd) (name : ν) :
    Except Errno Unit → Host ν β → Prop
  | refused {e : Errno} (he : e = .ENOENT → ∀ f, h.file pid dir = some f →
      h.fs.lookup f.ino name = none) : Taken pid h dir name (.error e) h
  | taken {f : OpenFile} {j : Ino} (hf : h.file pid dir = some f)
      (hj : h.fs.lookup f.ino name = some j)
      (hempty : h.fs.kind j = some .directory → h.fs.entries j = []) :
      Taken pid h dir name (.ok ()) { h with fs := h.fs.remove f.ino name }

theorem taken_onDir {dir : Fd} {name : ν} {call : Ino → Except Errno (Fs ν β)}
    (hok : ∀ {d fs}, call d = .ok fs → ∃ j, h.fs.lookup d name = some j ∧
      (h.fs.kind j = some .directory → h.fs.entries j = []) ∧ fs = h.fs.remove d name)
    (herr : ∀ {d}, call d = .error .ENOENT → h.fs.lookup d name = none) :
    Taken pid h dir name (h.onDir pid dir call).1 (h.onDir pid dir call).2 := by
  unfold onDir
  split
  case h_1 => exact .refused (by rintro ⟨⟩)
  case h_2 f hf =>
    split
    case h_1 e hcall =>
      refine .refused fun he g hg => ?_
      obtain rfl := Option.some.inj (hf.symm.trans hg)
      exact herr (he ▸ hcall)
    case h_2 fs hcall =>
      obtain ⟨j, hj, hempty, rfl⟩ := hok hcall
      exact .taken hf hj hempty

theorem taken_unlink {dir : Fd} {name : ν} {r : Except Errno Unit}
    (hexec : h.exec empty pid choice (.unlink dir name) = some (r, h')) :
    Taken pid h dir name r h' := by
  have htaken : Taken pid h dir name (h.onDir pid dir fun d => h.fs.unlinkAt d name).1
      (h.onDir pid dir fun d => h.fs.unlinkAt d name).2 := by
    refine taken_onDir (fun hok => ?_) fun herr => ?_
    · obtain ⟨j, hj, hkind, rfl⟩ := Fs.unlinkAt_change hok
      exact ⟨j, hj, fun hdir => absurd hdir hkind, rfl⟩
    · unfold Fs.unlinkAt at herr
      split at herr
      · assumption
      · split at herr <;> cases herr
  rw [Option.some.inj hexec] at htaken
  exact htaken

theorem taken_rmdir {dir : Fd} {name : ν} {r : Except Errno Unit}
    (hexec : h.exec empty pid choice (.rmdir dir name) = some (r, h')) :
    Taken pid h dir name r h' := by
  have htaken : Taken pid h dir name (h.onDir pid dir fun d => h.fs.rmdirAt d name).1
      (h.onDir pid dir fun d => h.fs.rmdirAt d name).2 := by
    refine taken_onDir (fun hok => ?_) fun herr => ?_
    · obtain ⟨j, hj, -, hempty, rfl⟩ := Fs.rmdirAt_change hok
      exact ⟨j, hj, fun _ => hempty, rfl⟩
    · unfold Fs.rmdirAt at herr
      split at herr
      · assumption
      · split at herr
        · split at herr <;> cases herr
        · cases herr
  rw [Option.some.inj hexec] at htaken
  exact htaken

/-- The call neither makes a name nor takes one away. -/
def Looks : FdOp ν → Prop
  | .create _ _ _ | .mkdir _ _ | .unlink _ _ | .rmdir _ _ => False
  | _ => True

theorem fs_of_looks {op : FdOp ν} {r : op.Res} (hop : Looks op)
    (hexec : h.exec empty pid choice op = some (r, h')) : h'.fs = h.fs := by
  cases op with
  | create dir name exclusive | mkdir dir name | unlink dir name | rmdir dir name => exact hop.elim
  | openRoot | stat fd | statAt dir name | sync fd =>
    obtain ⟨-, rfl⟩ := Prod.mk.inj (Option.some.inj hexec)
    rfl
  | openDir dir name | lock fd | unlock fd | close fd =>
    simp only [exec, Option.some.injEq] at hexec
    (repeat' split at hexec) <;> (obtain ⟨-, rfl⟩ := Prod.mk.inj hexec; rfl)
  | readDir dir limit =>
    simp only [exec] at hexec
    (repeat' split at hexec) <;> cases hexec <;> rfl

/-! ## What the others leave alone -/

/-- The process has the directory open. -/
def hasOpen (i : Pid) (d : Ino) (h : Host ν β) : Bool :=
  h.files.any fun f => f.any fun f => f.owner == i && f.ino == d

omit [DecidableEq ν] in
theorem hasOpen_of_file {fd : Fd} {f : OpenFile} (hf : h.file i fd = some f) :
    h.hasOpen i f.ino = true := by
  obtain ⟨hget, howner⟩ := file_eq_some.1 hf
  exact List.any_eq_true.2 ⟨some f, List.mem_of_getElem? hget, by simp [howner]⟩

/-- The call makes no name. -/
def onlyRemoves : FdOp ν → Bool
  | .create _ _ _ | .mkdir _ _ => false
  | _ => true

/-- The call takes no name out of a directory that the process `i` has open, unless the directory is
at one of the paths `shallow`. -/
def sparesOpenDirs (shallow : List (List ν)) (i pid : Pid) (op : FdOp ν) (h : Host ν β) : Bool :=
  match op with
  | .unlink dir _ | .rmdir dir _ =>
    (h.file pid dir).all fun f =>
      !h.hasOpen i f.ino || shallow.any fun p => h.fs.walk Fs.root p == some f.ino
  | _ => true

/-- What the other processes leave alone for `i`. -/
structure Spared (shallow : List (List ν)) (i : Pid) (h h' : Host ν β) : Prop where
  length : h.files.length ≤ h'.files.length
  file : ∀ {fd f}, h.file i fd = some f → h'.file i fd = some f
  shrunk : Fs.Shrunk h.fs h'.fs
  kept : ∀ {fd f name j}, h.file i fd = some f →
    (∀ p ∈ shallow, h.fs.walk Fs.root p ≠ some f.ino) → h.fs.lookup f.ino name = some j →
    h'.fs.lookup f.ino name = some j

variable {shallow : List (List ν)}

theorem Spared.refl : Spared shallow i h h := ⟨le_rfl, id, .refl, fun _ _ => id⟩

theorem Spared.trans (h₁ : Spared shallow i h h') (h₂ : Spared shallow i h' h'') :
    Spared shallow i h h'' where
  length := h₁.length.trans h₂.length
  file hf := h₂.file (h₁.file hf)
  shrunk := h₁.shrunk.trans h₂.shrunk
  kept hf hdeep hj :=
    h₂.kept (h₁.file hf) (fun p hp hwalk => hdeep p hp (h₁.shrunk.walk hwalk))
      (h₁.kept hf hdeep hj)

/-- A call of another process. -/
theorem spared_of_exec {op : FdOp ν} {r : op.Res} (hinv : h.Inv) (hne : pid ≠ i)
    (hremoves : onlyRemoves op = true) (hspares : sparesOpenDirs shallow i pid op h = true)
    (hexec : h.exec empty pid choice op = some (r, h')) : Spared shallow i h h' := by
  have hfiles := (exec_effect hexec).files
  have hfile : ∀ {fd f}, h.file i fd = some f → h'.file i fd = some f := by
    intro fd f hf
    obtain ⟨hget, howner⟩ := file_eq_some.1 hf
    exact file_eq_some.2 ⟨hfiles.keeps_other hget fun heq => hne (heq.symm.trans howner), howner⟩
  have hlooks : h'.fs = h.fs → Spared shallow i h h' := fun hfs =>
    ⟨hfiles.length_le, hfile, hfs ▸ .refl, fun _ _ hj => hfs ▸ hj⟩
  have htaken : ∀ {dir name r}, Taken pid h dir name r h' →
      ((h.file pid dir).all fun f => !h.hasOpen i f.ino ||
        shallow.any fun p => h.fs.walk Fs.root p == some f.ino) = true →
      Spared shallow i h h' := by
    intro dir name r htaken hspares
    cases htaken with
    | refused he => exact hlooks rfl
    | @taken f j hf hj hempty =>
      refine ⟨hfiles.length_le, hfile, hinv.wf.shrunk_remove hj hempty, ?_⟩
      intro fd g name' j' hg hdeep hj'
      -- the name was not taken out of the directory of this descriptor
      have hdir : g.ino ≠ f.ino := by
        intro heq
        rw [hf, Option.all_some, Bool.or_eq_true, List.any_eq_true] at hspares
        rcases hspares with hclosed | ⟨p, hp, hwalk⟩
        · rw [← heq, hasOpen_of_file hg] at hclosed
          cases hclosed
        · exact hdeep p hp (heq ▸ by simpa using hwalk)
      rw [Fs.lookup_remove (Fs.lookup_dir hj), if_neg fun heq => hdir heq.1]
      exact hj'
  cases op with
  | create dir name exclusive | mkdir dir name => cases hremoves
  | unlink dir name => exact htaken (taken_unlink hexec) hspares
  | rmdir dir name => exact htaken (taken_rmdir hexec) hspares
  | openRoot | openDir dir name | stat fd | statAt dir name | readDir dir limit | sync fd | lock fd
  | unlock fd | close fd => exact hlooks (fs_of_looks (by trivial) hexec)

theorem spared_reap (hne : pid ≠ i) : Spared shallow i h (reap pid h) := by
  have hrely : Rely i h (reap pid h) := reap_rely hne.symm
  exact ⟨hrely.length, hrely.file, .refl, fun _ _ hj => hj⟩

/-! ## The contract -/

/-- A call that takes away a name at a selected path, if any, and keeps the descriptors `keep`. -/
structure Clears (sel : List ν → Prop) (keep : Fd → Prop) (i : Pid) (h h' : Host ν β) : Prop where
  length : h.files.length ≤ h'.files.length
  file : ∀ {fd f}, keep fd → h.file i fd = some f → h'.file i fd = some f
  removal : Fs.Removal sel h.fs h'.fs

/-- The contract of a process that takes away names at selected paths only. -/
def clearing (shallow : List (List ν)) (sel : List ν → Prop) (keep : Fd → Prop) (i : Pid) :
    Contract (FdOp ν) (Host ν β) where
  inv := Inv
  rely _ := Spared shallow i
  guar h _ h' := Clears sel keep i h h'
  rely_refl _ _ := .refl
  rely_trans h h' := h.trans h'

variable {sel : List ν → Prop} {keep : Fd → Prop} {fd : Fd} {q : List ν} {name : ν}

/-- The descriptor that a call changes. -/
def changes : FdOp ν → Option Fd
  | .lock fd | .unlock fd | .close fd => some fd
  | _ => none

theorem file_of_looks {op : FdOp ν} {r : op.Res} {f : OpenFile} (hop : Looks op)
    (hkept : changes op ≠ some fd) (hexec : h.exec empty i choice op = some (r, h'))
    (hf : h.file i fd = some f) : h'.file i fd = some f := by
  have hopened : ∀ j, (h.openIno i j).2.file i fd = some f := by
    intro j
    obtain ⟨hget, howner⟩ := file_eq_some.1 hf
    refine file_eq_some.2 ⟨?_, howner⟩
    rw [openIno, List.getElem?_append_left (lt_length_of_file hf), hget]
  have hset : ∀ {fd'} g, some fd' ≠ some fd → (h.setFile fd' g).file i fd = some f := by
    intro fd' g hne
    obtain ⟨hget, howner⟩ := file_eq_some.1 hf
    refine file_eq_some.2 ⟨?_, howner⟩
    rw [setFile, List.getElem?_set_ne fun heq => hne (congrArg some heq), hget]
  cases op with
  | create dir name exclusive | mkdir dir name | unlink dir name | rmdir dir name => exact hop.elim
  | openRoot =>
    obtain ⟨-, rfl⟩ := Prod.mk.inj (Option.some.inj hexec)
    exact hopened _
  | stat fd | statAt dir name | sync fd =>
    obtain ⟨-, rfl⟩ := Prod.mk.inj (Option.some.inj hexec)
    exact hf
  | openDir dir name =>
    simp only [exec, Option.some.injEq] at hexec
    (repeat' split at hexec) <;> obtain ⟨-, rfl⟩ := Prod.mk.inj hexec
    · exact hf
    · exact hf
    · exact hopened _
  | lock fd' | unlock fd' | close fd' =>
    simp only [exec, Option.some.injEq] at hexec
    (repeat' split at hexec) <;> obtain ⟨-, rfl⟩ := Prod.mk.inj hexec
    all_goals first | exact hf | exact hset _ hkept
  | readDir dir limit =>
    simp only [exec] at hexec
    (repeat' split at hexec) <;> cases hexec <;> exact hf

theorem clears_of_looks {op : FdOp ν} {r : op.Res} (hop : Looks op)
    (hkept : ∀ fd, changes op = some fd → ¬keep fd)
    (hexec : h.exec empty i choice op = some (r, h')) : Clears sel keep i h h' where
  length := (exec_effect hexec).files.length_le
  file hfd hf := file_of_looks hop (fun heq => hkept _ heq hfd) hexec hf
  removal := fs_of_looks hop hexec ▸ .same

/-! ## Directories that the process has open -/

/-- Nothing is at the path. -/
def Absent (p : List ν) (h : Host ν β) : Prop := h.fs.walk Fs.root p = none

theorem Absent.spared {p : List ν} (hp : Absent p h) (hrely : Spared shallow i h h') :
    Absent p h' :=
  hrely.shrunk.absent hp

theorem Absent.clears {p : List ν} (hp : Absent p h) (hinv : h.Inv)
    (hown : Clears sel keep i h h') : Absent p h' :=
  (hown.removal.shrunk hinv.wf).absent hp

theorem Absent.below {p r : List ν} (hp : Absent p h) : Absent (p ++ r) h := by
  rw [Absent, Fs.walk_append, show h.fs.walk Fs.root p = none from hp, Option.bind_none]

/-- The descriptor refers to the directory at `q`, or to one that was there and is gone. -/
def Held (i : Pid) (fd : Fd) (q : List ν) (h : Host ν β) : Prop :=
  ∃ f, h.file i fd = some f ∧ h.fs.Located q f.ino ∧
    (h.fs.walk Fs.root q = some f.ino ∨ h.fs.walk Fs.root q = none)

theorem Held.lt_length (hheld : Held i fd q h) : fd < h.files.length := by
  obtain ⟨f, hf, -⟩ := hheld
  exact lt_length_of_file hf

theorem Held.shrunk (hheld : Held i fd q h) (hshrunk : Fs.Shrunk h.fs h'.fs)
    (hfile : ∀ {f}, h.file i fd = some f → h'.file i fd = some f) : Held i fd q h' := by
  obtain ⟨f, hf, hloc, hwalk⟩ := hheld
  refine ⟨f, hfile hf, hshrunk.located hloc, ?_⟩
  cases hwalk' : h'.fs.walk Fs.root q with
  | none => exact .inr rfl
  | some j =>
    have hj := hshrunk.walk hwalk'
    rcases hwalk with hwalk | hwalk
    · exact .inl (hj.symm.trans hwalk)
    · exact absurd hj (by simp [hwalk])

theorem Held.spared (hheld : Held i fd q h) (hrely : Spared shallow i h h') : Held i fd q h' :=
  hheld.shrunk hrely.shrunk hrely.file

theorem Held.clears (hheld : Held i fd q h) (hinv : h.Inv) (hfd : keep fd)
    (hown : Clears sel keep i h h') : Held i fd q h' :=
  hheld.shrunk (hown.removal.shrunk hinv.wf) (hown.file hfd)

theorem Held.absent (hheld : Held i fd q h)
    (hnone : ∀ f, h.file i fd = some f → h.fs.lookup f.ino name = none) :
    Absent (q ++ [name]) h := by
  obtain ⟨f, hf, -, hwalk⟩ := hheld
  rw [Absent, Fs.walk_snoc]
  rcases hwalk with hwalk | hwalk
  · rw [hwalk, Option.bind_some, hnone f hf]
  · rw [hwalk, Option.bind_none]

/-- The directory at `q` is open, it is not at a shallow path, and it has the name. -/
def Pending (shallow : List (List ν)) (i : Pid) (fd : Fd) (q : List ν) (name : ν) (h : Host ν β) :
    Prop :=
  ∃ f j, h.file i fd = some f ∧ h.fs.walk Fs.root q = some f.ino ∧
    (∀ p ∈ shallow, h.fs.walk Fs.root p ≠ some f.ino) ∧ h.fs.lookup f.ino name = some j

theorem Pending.shrunk (hname : Pending shallow i fd q name h) (hshrunk : Fs.Shrunk h.fs h'.fs)
    (hfile : ∀ {f}, h.file i fd = some f → h'.file i fd = some f)
    (hkept : ∀ {f j}, h.file i fd = some f → h.fs.walk Fs.root q = some f.ino →
      (∀ p ∈ shallow, h.fs.walk Fs.root p ≠ some f.ino) → h.fs.lookup f.ino name = some j →
      h'.fs.lookup f.ino name = some j) : Pending shallow i fd q name h' := by
  obtain ⟨f, j, hf, hwalk, hdeep, hj⟩ := hname
  have hj' := hkept hf hwalk hdeep hj
  refine ⟨f, j, hfile hf, ?_, fun p hp heq => hdeep p hp (hshrunk.walk heq), hj'⟩
  rcases hshrunk.located (.inl ⟨Fs.lookup_dir hj, hwalk⟩) with ⟨-, hwalk'⟩ | hgone
  · exact hwalk'
  · simp [Fs.lookup, hgone.empty] at hj'

theorem Pending.spared (hname : Pending shallow i fd q name h) (hrely : Spared shallow i h h') :
    Pending shallow i fd q name h' :=
  hname.shrunk hrely.shrunk hrely.file fun hf _ hdeep hj => hrely.kept hf hdeep hj

/-- A name stays pending while the process takes away others. -/
theorem Pending.clears (hname : Pending shallow i fd q name h) (hinv : h.Inv) (hfd : keep fd)
    (hsel : ¬sel (q ++ [name])) (hown : Clears sel keep i h h') :
    Pending shallow i fd q name h' := by
  refine hname.shrunk (hown.removal.shrunk hinv.wf) (hown.file hfd) fun _ hwalk _ hj => ?_
  have hremoval := hown.removal
  generalize h'.fs = fs' at hremoval
  cases hremoval with
  | same => exact hj
  | @remove q' d j' name' hq' hj' hempty hsel' =>
    rw [Fs.lookup_remove (Fs.lookup_dir hj'), if_neg]
    · exact hj
    · rintro ⟨rfl, rfl⟩
      rw [hinv.wf.walk_inj (Fs.lookup_dir hj) hwalk hq'] at hsel
      exact hsel hsel'

/-! ## What a call does for its own process -/

theorem Taken.clears {r : Except Errno Unit} (htaken : Taken i h fd name r h')
    (hheld : Held i fd q h) (hsel : sel (q ++ [name])) : Clears sel keep i h h' := by
  cases htaken with
  | refused he => exact ⟨le_rfl, fun _ hf => hf, .same⟩
  | @taken f j hf hj hempty =>
    obtain ⟨g, hg, hloc, -⟩ := hheld
    obtain rfl := Option.some.inj (hf.symm.trans hg)
    have hwalk : h.fs.walk Fs.root q = some f.ino := by
      rcases hloc with ⟨-, hwalk⟩ | hgone
      · exact hwalk
      · simp [Fs.lookup, hgone.empty] at hj
    exact ⟨le_rfl, fun _ hf => hf, .remove hwalk hj hempty hsel⟩

/-- Whether the name was taken away or was not there, it is not there now. -/
theorem Taken.absent {r : Except Errno Unit} (htaken : Taken i h fd name r h') (hinv : h.Inv)
    (hheld : Held i fd q h) (hr : r = .ok () ∨ r = .error .ENOENT) : Absent (q ++ [name]) h' := by
  cases htaken with
  | refused he =>
    rcases hr with hr | hr
    · cases hr
    · exact hheld.absent (he (Except.error.inj hr))
  | @taken f j hf hj hempty =>
    have hnone : (h.fs.remove f.ino name).lookup f.ino name = none := by
      rw [Fs.lookup_remove (Fs.lookup_dir hj), if_pos ⟨rfl, rfl⟩]
    have hheld' : Held i fd q { h with fs := h.fs.remove f.ino name } :=
      hheld.shrunk (hinv.wf.shrunk_remove hj hempty) fun hf => hf
    refine hheld'.absent fun g hg => ?_
    obtain rfl := Option.some.inj (hf.symm.trans hg)
    exact hnone

theorem Pending.taken {r : Except Errno Unit} (hname : Pending shallow i fd q name h)
    (htaken : Taken i h fd name r h') : r ≠ .error .ENOENT := by
  obtain ⟨f, j, hf, -, -, hj⟩ := hname
  cases htaken with
  | refused he =>
    intro heq
    simp [he (Except.error.inj heq) f hf] at hj
  | taken hf hj hempty => exact fun heq => by cases heq

theorem Pending.held (hname : Pending shallow i fd q name h) : Held i fd q h := by
  obtain ⟨f, j, hf, hwalk, -, hj⟩ := hname
  exact ⟨f, hf, .inl ⟨Fs.lookup_dir hj, hwalk⟩, .inl hwalk⟩

theorem held_openRoot {r : Except Errno Fd} (hinv : h.Inv)
    (hexec : h.exec empty i choice .openRoot = some (r, h')) :
    ∃ fd, r = .ok fd ∧ Held i fd [] h' ∧ fd = h.files.length := by
  obtain ⟨rfl, rfl⟩ := Prod.mk.inj (Option.some.inj hexec)
  exact ⟨_, rfl, ⟨_, file_openIno h i Fs.root, .inl ⟨hinv.wf.root_dir, rfl⟩, .inl rfl⟩, rfl⟩

theorem held_openDir {r : Except Errno Fd} (hheld : Held i fd q h)
    (hexec : h.exec empty i choice (.openDir fd name) = some (r, h')) :
    (∀ child, r = .ok child → Held i child (q ++ [name]) h' ∧ child = h.files.length) ∧
      (r = .error .ENOENT → Absent (q ++ [name]) h') := by
  obtain ⟨f, hf, hloc, -⟩ := id hheld
  simp only [exec, hf, Fs.openDirAt] at hexec
  cases hj : h.fs.lookup f.ino name with
  | none =>
    simp only [hj] at hexec
    obtain ⟨rfl, rfl⟩ := Prod.mk.inj (Option.some.inj hexec)
    refine ⟨?_, fun _ => hheld.absent fun g hg => ?_⟩
    · rintro child ⟨⟩
    · obtain rfl := Option.some.inj (hf.symm.trans hg)
      exact hj
  | some j =>
    simp only [hj] at hexec
    by_cases hkind : h.fs.kind j = some .directory
    · simp only [hkind, if_true] at hexec
      obtain ⟨rfl, rfl⟩ := Prod.mk.inj (Option.some.inj hexec)
      have hwalk := hloc.lookup hj
      refine ⟨?_, by rintro ⟨⟩⟩
      rintro child ⟨⟩
      exact ⟨⟨_, file_openIno h i j, .inl ⟨hkind, hwalk⟩, .inl hwalk⟩, rfl⟩
    · simp only [hkind, if_false] at hexec
      obtain ⟨rfl, rfl⟩ := Prod.mk.inj (Option.some.inj hexec)
      exact ⟨by rintro child ⟨⟩, by rintro ⟨⟩⟩

theorem Pending.not_absent (hname : Pending shallow i fd q name h) : ¬Absent (q ++ [name]) h := by
  obtain ⟨f, j, -, hwalk, -, hj⟩ := hname
  rw [Absent, Fs.walk_snoc, hwalk, Option.bind_some, hj]
  rintro ⟨⟩

theorem Pending.statAt {r : Except Errno Kind} (hname : Pending shallow i fd q name h)
    (hinv : h.Inv) (hexec : h.exec empty i choice (.statAt fd name) = some (r, h')) :
    r ≠ .error .ENOENT := by
  obtain ⟨f, j, hf, -, -, hj⟩ := hname
  obtain ⟨rfl, -⟩ := Prod.mk.inj (Option.some.inj hexec)
  have hlt := hinv.wf.bound hj
  simp only [hf, hj, Fs.kind, Option.bind_some, List.getElem?_eq_getElem hlt, Option.map_some]
  rintro ⟨⟩

/-- The names that a directory read gives are pending, and none is given twice. -/
theorem pending_readDir {limit : Option Nat} {names : List ν} {eof : Bool} (hheld : Held i fd q h)
    (hinv : h.Inv) (hdeep : q ∉ shallow)
    (hexec : h.exec empty i choice (.readDir fd limit) = some (.ok (names, eof), h'))
    (hlists : lists i (.readDir fd limit) choice h = true) :
    names.Nodup ∧ ∀ name ∈ names, Pending shallow i fd q name h' := by
  obtain ⟨f, hf, hloc, -⟩ := hheld
  simp only [exec, hf] at hexec
  split at hexec
  · cases hexec
  split at hexec
  · rename_i hnames
    cases hexec
    simp only [lists, Bool.and_eq_true, decide_eq_true_eq] at hlists
    refine ⟨hlists.1, fun name hname => ?_⟩
    obtain ⟨j, hj⟩ := Option.isSome_iff_exists.1
      (List.all_eq_true.1 (Bool.and_eq_true_iff.1 hnames).1 name hname)
    rcases hloc with ⟨hkind, hwalk⟩ | hgone
    · refine ⟨f, j, hf, hwalk, fun p hp heq => hdeep ?_, hj⟩
      rwa [hinv.wf.walk_inj hkind hwalk heq]
    · simp [Fs.lookup, hgone.empty] at hj
  · cases hexec

/-- A directory read without a limit misses no name. -/
theorem absent_readDir {names : List ν} {eof : Bool} (hheld : Held i fd q h)
    (hexec : h.exec empty i choice (.readDir fd none) = some (.ok (names, eof), h'))
    (hlists : lists i (.readDir fd none) choice h = true) (hname : name ∉ names) :
    Absent (q ++ [name]) h' := by
  rw [Absent, fs_of_looks (by trivial) hexec]
  refine hheld.absent fun f hf => ?_
  simp only [exec, hf] at hexec
  split at hexec
  · cases hexec
  split at hexec
  · cases hexec
    simp only [lists, hf, Bool.and_eq_true, Option.isSome_none, Bool.false_or, Option.all_some,
      List.all_eq_true, decide_eq_true_eq] at hlists
    cases hj : h.fs.lookup f.ino name with
    | none => rfl
    | some j => exact absurd (hlists.2 _ (Fs.mem_of_lookup hj)) hname
  · cases hexec

theorem sync_certain {r : Except Errno Unit}
    (hexec : h.exec empty i choice (.sync fd) = some (r, h')) : r ≠ .error .ENOENT := by
  obtain ⟨rfl, -⟩ := Prod.mk.inj (Option.some.inj hexec)
  cases h.file i fd <;> rintro ⟨⟩

theorem close_certain {r : Except Errno Unit}
    (hexec : h.exec empty i choice (.close fd) = some (r, h')) : r ≠ .error .ENOENT := by
  simp only [exec] at hexec
  split at hexec <;> obtain ⟨rfl, -⟩ := Prod.mk.inj (Option.some.inj hexec) <;> rintro ⟨⟩

end Host

end Kama.Inode
