import Kama.Foundations.Inode

/-!
# Descriptors and advisory locks

Processes reach a file system of inodes through descriptors: a descriptor keeps referring to its
inode whatever happens to the names. A `Host` is a file system with the open files of all
processes; an advisory lock belongs to an open file, and at most one open file of an inode has it.

* `FdOp` are the calls, `Host.exec` is their meaning and `Host.kernel` answers them.
* `Host.exec_effect` says once what a call can do, to the directories and to the open files; what
  other processes see of a call follows from it.
-/

namespace Kama.Inode

open FileTree (Errno)

open Program (Pid Kernel Contract Compatible)

abbrev Fd := Nat

/-- An open file: its process, its inode, and whether an exclusive advisory lock is held
through it. -/
structure OpenFile where
  owner : Pid
  ino : Ino
  locked : Bool
  deriving DecidableEq, Repr

/-- A file system with its open files, by descriptor; `none` is a closed descriptor. -/
structure Host (ν β : Type) where
  fs : Fs ν β
  files : List (Option OpenFile)
  deriving DecidableEq, Repr

/-- The calls on descriptors. -/
inductive FdOp (ν : Type)
  | openRoot
  /-- `openat` of a directory -/
  | openDir (dir : Fd) (name : ν)
  /-- `openat` of a writable file, creating it -/
  | create (dir : Fd) (name : ν) (exclusive : Bool)
  | mkdir (dir : Fd) (name : ν)
  | unlink (dir : Fd) (name : ν)
  | rmdir (dir : Fd) (name : ν)
  | stat (fd : Fd)
  | statAt (dir : Fd) (name : ν)
  /-- the next names of a directory, at most `limit` of them -/
  | readDir (dir : Fd) (limit : Option Nat)
  | sync (fd : Fd)
  /-- an exclusive lock, without waiting -/
  | lock (fd : Fd)
  | unlock (fd : Fd)
  | close (fd : Fd)

/-- What the calls answer: `stat` the kind and the number of names, `readDir` some names and
whether the end was reached. -/
def FdOp.Res {ν : Type} : FdOp ν → Type
  | .openRoot | .openDir _ _ | .create _ _ _ => Except Errno Fd
  | .stat _ => Except Errno (Kind × Nat)
  | .statAt _ _ => Except Errno Kind
  | .readDir _ _ => Except Errno (List ν × Bool)
  | _ => Except Errno Unit

/-- Which names a directory read returns, in which order, and whether it reports the end. -/
structure DirAnswer (ν : Type) where
  names : List ν
  eof : Bool
  deriving DecidableEq, Repr

namespace Host

variable {ν β : Type}

/-- The open file behind a descriptor of the process `pid`. -/
def file (h : Host ν β) (pid : Pid) (fd : Fd) : Option OpenFile :=
  match h.files[fd]? with
  | some (some f) => if f.owner = pid then some f else none
  | _ => none

def openIno (h : Host ν β) (pid : Pid) (i : Ino) : Fd × Host ν β :=
  (h.files.length, { h with files := h.files ++ [some ⟨pid, i, false⟩] })

/-- Somebody holds an exclusive lock on the inode. -/
def lockedIno (h : Host ν β) (i : Ino) : Bool :=
  h.files.any fun f => match f with
    | some f => f.ino == i && f.locked
    | none => false

def setFile (h : Host ν β) (fd : Fd) (f : Option OpenFile) : Host ν β :=
  { h with files := h.files.set fd f }

/-- The end of a process closes its descriptors. -/
def reap (pid : Pid) (h : Host ν β) : Host ν β :=
  { h with files := h.files.map fun f => f.filter fun f => f.owner != pid }

variable [DecidableEq ν]

/-- Run a call on the directory behind a descriptor. -/
def onDir (h : Host ν β) (pid : Pid) (dir : Fd) (call : Ino → Except Errno (Fs ν β)) :
    Except Errno Unit × Host ν β :=
  match h.file pid dir with
  | none => (.error .EBADF, h)
  | some f =>
    match call f.ino with
    | .error e => (.error e, h)
    | .ok fs => (.ok (), { h with fs := fs })

/-- The meaning of the calls. New files are created with the content `empty`. -/
def exec (empty : β) (pid : Pid) (h : Host ν β) (choice : DirAnswer ν) :
    (op : FdOp ν) → Option (op.Res × Host ν β)
  | .openRoot => let (fd, h') := h.openIno pid Fs.root; some (.ok fd, h')
  | .openDir dir name =>
    some <| match h.file pid dir with
    | none => (.error .EBADF, h)
    | some f =>
      match h.fs.openDirAt f.ino name with
      | .error e => (.error e, h)
      | .ok i => let (fd, h') := h.openIno pid i; (.ok fd, h')
  | .create dir name exclusive =>
    some <| match h.file pid dir with
    | none => (.error .EBADF, h)
    | some f =>
      match h.fs.createAt f.ino name exclusive empty with
      | .error e => (.error e, h)
      | .ok (i, fs) => let (fd, h') := { h with fs := fs }.openIno pid i; (.ok fd, h')
  | .mkdir dir name => some (h.onDir pid dir fun d => h.fs.mkdirAt d name)
  | .unlink dir name => some (h.onDir pid dir fun d => h.fs.unlinkAt d name)
  | .rmdir dir name => some (h.onDir pid dir fun d => h.fs.rmdirAt d name)
  | .stat fd =>
    some (match h.file pid fd with
      | none => .error .EBADF
      | some f =>
        ((h.fs.kind f.ino).map fun k => (k, h.fs.nlink f.ino)).elim (.error .EIOERR) .ok, h)
  | .statAt dir name =>
    some (match h.file pid dir with
      | none => .error .EBADF
      | some f => ((h.fs.lookup f.ino name).bind h.fs.kind).elim (.error .ENOENT) .ok, h)
  | .readDir dir limit =>
    match h.file pid dir with
    | none => some (.error .EBADF, h)
    | some f =>
      if h.fs.dead f.ino then some (.error .ENOENT, h)
      else if choice.names.all (fun name => (h.fs.lookup f.ino name).isSome) &&
          limit.all (fun n => decide (choice.names.length ≤ n)) then
        some (.ok (choice.names, choice.eof), h)
      else none
  | .sync fd => some ((h.file pid fd).elim (.error .EBADF) fun _ => .ok (), h)
  | .lock fd =>
    some <| match h.file pid fd with
    | none => (.error .EBADF, h)
    | some f =>
      if f.locked then (.ok (), h)
      else if h.lockedIno f.ino then (.error .EWOULDBLOCK, h)
      else (.ok (), h.setFile fd (some { f with locked := true }))
  | .unlock fd =>
    some <| match h.file pid fd with
    | none => (.error .EBADF, h)
    | some f => (.ok (), h.setFile fd (some { f with locked := false }))
  | .close fd =>
    some <| match h.file pid fd with
    | none => (.error .EBADF, h)
    | some _ => (.ok (), h.setFile fd none)

def kernel (empty : β) : Kernel (FdOp ν) FdOp.Res (DirAnswer ν) (Host ν β) where
  exec pid op choice h := h.exec empty pid choice op
  reap := reap

/-! ### What a call can do -/

/-- The inode whose name an `unlink` is about to take away. -/
def unlinkTarget (h : Host ν β) (pid : Pid) : FdOp ν → Option Ino
  | .unlink dir name => (h.file pid dir).bind fun f => h.fs.lookup f.ino name
  | _ => none

/-- What a call of the process `pid` can do to the open files. -/
inductive FilesChange (pid : Pid) (h : Host ν β) : List (Option OpenFile) → Prop
  | same : FilesChange pid h h.files
  | opened (i : Ino) : FilesChange pid h (h.files ++ [some ⟨pid, i, false⟩])
  | changed {fd : Fd} {f : OpenFile} (g : Option OpenFile) (hf : h.file pid fd = some f)
      (hg : ∀ f', g = some f' → f'.owner = pid ∧ f'.ino = f.ino ∧
        (f'.locked = true → h.lockedIno f.ino = false)) :
      FilesChange pid h (h.files.set fd g)

/-- What a call can do: only `rmdir` of a directory and `unlink` take names away. -/
structure Effect (pid : Pid) (op : FdOp ν) (h h' : Host ν β) : Prop where
  dirs : ∃ lost, Fs.Change h.fs h'.fs lost ∧ ∀ i, lost = some i →
    h.fs.kind i = some .directory ∨ h.unlinkTarget pid op = some i
  files : FilesChange pid h h'.files

section Calls

omit [DecidableEq ν] in
theorem file_eq_some {h : Host ν β} {pid : Pid} {fd : Fd} {f : OpenFile} :
    h.file pid fd = some f ↔ h.files[fd]? = some (some f) ∧ f.owner = pid := by
  unfold file
  split
  · rename_i g hg
    simp only [Option.ite_none_right_eq_some, Option.some.injEq, hg]
    constructor
    · rintro ⟨howner, rfl⟩
      exact ⟨rfl, howner⟩
    · rintro ⟨rfl, howner⟩
      exact ⟨howner, rfl⟩
  · rename_i hnone
    simp only [reduceCtorEq, false_iff, not_and]
    exact fun hget => absurd hget (hnone f)

omit [DecidableEq ν] in
theorem lt_length_of_file {h : Host ν β} {pid : Pid} {fd : Fd} {f : OpenFile}
    (hf : h.file pid fd = some f) : fd < h.files.length :=
  (List.getElem?_eq_some_iff.1 (file_eq_some.1 hf).1).1

variable {empty : β} {pid : Pid} {op : FdOp ν} {h h' : Host ν β} {choice : DirAnswer ν}

theorem Effect.same : Effect pid op h h := ⟨⟨none, .same, by simp⟩, .same⟩

/-- The calls that only touch the open files. -/
theorem Effect.ofFiles (hfs : h'.fs = h.fs) (hfiles : FilesChange pid h h'.files) :
    Effect pid op h h' :=
  ⟨⟨none, hfs ▸ .same, by simp⟩, hfiles⟩

theorem Effect.onDir {dir : Fd} {call : Ino → Except Errno (Fs ν β)}
    (hcall : ∀ {f fs}, h.file pid dir = some f → call f.ino = .ok fs →
      ∃ lost, Fs.Change h.fs fs lost ∧ ∀ i, lost = some i →
        h.fs.kind i = some .directory ∨ h.unlinkTarget pid op = some i) :
    Effect pid op h (h.onDir pid dir call).2 := by
  unfold Host.onDir
  split
  · exact .same
  · rename_i f hf
    split
    · exact .same
    · rename_i fs hfs
      exact ⟨hcall hf hfs, .same⟩

theorem exec_effect {r : op.Res} (hexec : h.exec empty pid choice op = some (r, h')) :
    Effect pid op h h' := by
  cases op with
  | openRoot =>
    obtain ⟨-, rfl⟩ := Prod.mk.inj (Option.some.inj hexec)
    exact .ofFiles rfl (.opened _)
  | stat fd | statAt dir name | sync fd =>
    obtain ⟨-, rfl⟩ := Prod.mk.inj (Option.some.inj hexec)
    exact .same
  | openDir dir name =>
    simp only [exec, Option.some.injEq] at hexec
    split at hexec
    · obtain ⟨-, rfl⟩ := Prod.mk.inj hexec
      exact .same
    split at hexec
    · obtain ⟨-, rfl⟩ := Prod.mk.inj hexec
      exact .same
    · obtain ⟨-, rfl⟩ := Prod.mk.inj hexec
      exact .ofFiles rfl (.opened _)
  | create dir name exclusive =>
    simp only [exec, Option.some.injEq] at hexec
    split at hexec
    · obtain ⟨-, rfl⟩ := Prod.mk.inj hexec
      exact .same
    split at hexec
    · obtain ⟨-, rfl⟩ := Prod.mk.inj hexec
      exact .same
    · rename_i i fs hcreate
      obtain ⟨-, rfl⟩ := Prod.mk.inj hexec
      exact ⟨⟨none, Fs.createAt_change hcreate, by simp⟩, .opened _⟩
  | mkdir dir name =>
    obtain rfl : (h.onDir pid dir _).2 = h' := congrArg Prod.snd (Option.some.inj hexec)
    exact .onDir fun _ hcall => ⟨none, Fs.mkdirAt_change hcall, by simp⟩
  | unlink dir name =>
    obtain rfl : (h.onDir pid dir _).2 = h' := congrArg Prod.snd (Option.some.inj hexec)
    refine .onDir fun hf hcall => ?_
    obtain ⟨j, hj, hkind, rfl⟩ := Fs.unlinkAt_change hcall
    refine ⟨some j, .remove hj fun hdir => absurd hdir hkind, ?_⟩
    rintro i ⟨⟩
    exact .inr (by simp only [unlinkTarget, hf, Option.bind_some, hj])
  | rmdir dir name =>
    obtain rfl : (h.onDir pid dir _).2 = h' := congrArg Prod.snd (Option.some.inj hexec)
    refine .onDir fun _ hcall => ?_
    obtain ⟨j, hj, hkind, hempty, rfl⟩ := Fs.rmdirAt_change hcall
    refine ⟨some j, .remove hj fun _ => hempty, ?_⟩
    rintro i ⟨⟩
    exact .inl hkind
  | readDir dir limit =>
    simp only [exec] at hexec
    split at hexec
    · obtain ⟨-, rfl⟩ := Prod.mk.inj (Option.some.inj hexec)
      exact .same
    split at hexec
    · obtain ⟨-, rfl⟩ := Prod.mk.inj (Option.some.inj hexec)
      exact .same
    split at hexec
    · obtain ⟨-, rfl⟩ := Prod.mk.inj (Option.some.inj hexec)
      exact .same
    · simp at hexec
  | lock fd =>
    simp only [exec, Option.some.injEq] at hexec
    split at hexec
    · obtain ⟨-, rfl⟩ := Prod.mk.inj hexec
      exact .same
    rename_i f hf
    split at hexec
    · obtain ⟨-, rfl⟩ := Prod.mk.inj hexec
      exact .same
    split at hexec
    · obtain ⟨-, rfl⟩ := Prod.mk.inj hexec
      exact .same
    · rename_i hfree
      obtain ⟨-, rfl⟩ := Prod.mk.inj hexec
      refine .ofFiles rfl (.changed _ hf fun f' hf' => ?_)
      obtain rfl := Option.some.inj hf'
      exact ⟨(file_eq_some.1 hf).2, rfl, fun _ => by simpa using hfree⟩
  | unlock fd =>
    simp only [exec, Option.some.injEq] at hexec
    split at hexec
    · obtain ⟨-, rfl⟩ := Prod.mk.inj hexec
      exact .same
    · rename_i f hf
      obtain ⟨-, rfl⟩ := Prod.mk.inj hexec
      refine .ofFiles rfl (.changed _ hf fun f' hf' => ?_)
      obtain rfl := Option.some.inj hf'
      exact ⟨(file_eq_some.1 hf).2, rfl, fun hlocked => by simp at hlocked⟩
  | close fd =>
    simp only [exec, Option.some.injEq] at hexec
    split at hexec
    · obtain ⟨-, rfl⟩ := Prod.mk.inj hexec
      exact .same
    · rename_i f hf
      obtain ⟨-, rfl⟩ := Prod.mk.inj hexec
      exact .ofFiles rfl (.changed _ hf (by simp))

end Calls

/-! ### What the other processes see of a call -/

section Interference

variable {pid : Pid} {h : Host ν β} {files : List (Option OpenFile)}

omit [DecidableEq ν] in
theorem FilesChange.length_le (hc : FilesChange pid h files) : h.files.length ≤ files.length := by
  cases hc <;> simp

omit [DecidableEq ν] in
theorem FilesChange.keeps_other {fd : Fd} {f : OpenFile} (hc : FilesChange pid h files)
    (hf : h.files[fd]? = some (some f)) (howner : f.owner ≠ pid) : files[fd]? = some (some f) := by
  have hlt : fd < h.files.length := (List.getElem?_eq_some_iff.1 hf).1
  cases hc with
  | same => exact hf
  | opened i => rw [List.getElem?_append_left hlt, hf]
  | @changed fd' f' g hf' hg =>
    rw [List.getElem?_set_ne, hf]
    rintro rfl
    obtain ⟨hget, rfl⟩ := file_eq_some.1 hf'
    obtain rfl : f = f' := by simpa [hf] using hget
    exact howner rfl

/-- At most one open file of an inode has the lock. -/
def LocksUnique (h : Host ν β) : Prop :=
  ∀ {a b : Fd} {f g : OpenFile}, h.files[a]? = some (some f) → h.files[b]? = some (some g) →
    f.locked = true → g.locked = true → f.ino = g.ino → a = b

omit [DecidableEq ν] in
theorem lockedIno_eq_true {fd : Fd} {f : OpenFile} (hf : h.files[fd]? = some (some f))
    (hlocked : f.locked = true) : h.lockedIno f.ino = true := by
  unfold lockedIno
  exact List.any_eq_true.2 ⟨some f, List.mem_of_getElem? hf, by simp [hlocked]⟩

omit [DecidableEq ν] in
theorem LocksUnique.filesChange {h' : Host ν β} (hu : h.LocksUnique)
    (hc : FilesChange pid h h'.files) : h'.LocksUnique := by
  intro a b f g ha hb hf hg hino
  generalize h'.files = files at hc ha hb
  cases hc with
  | same => exact hu ha hb hf hg hino
  | opened i =>
    -- the new open file is not locked, so both are old
    have hold : ∀ {c : Fd} {k : OpenFile}, k.locked = true →
        (h.files ++ [some ⟨pid, i, false⟩])[c]? = some (some k) → h.files[c]? = some (some k) := by
      intro c k hk hc
      rcases Nat.lt_or_ge c h.files.length with hlt | hge
      · rwa [List.getElem?_append_left hlt] at hc
      · rw [List.getElem?_append_right hge] at hc
        have hmem := List.mem_of_getElem? hc
        simp only [List.mem_singleton, Option.some.injEq] at hmem
        simp [hmem] at hk
    exact hu (hold hf ha) (hold hg hb) hf hg hino
  | @changed fd f₀ k hf₀ hk =>
    -- a descriptor that has just been locked excludes every other one of its inode
    have hclash : ∀ {c : Fd} {l m : OpenFile}, k = some l → l.locked = true → c ≠ fd →
        (h.files.set fd k)[c]? = some (some m) → m.locked = true → l.ino ≠ m.ino := by
      intro c l m hl hlocked hne hm hmlocked heq
      obtain ⟨-, hino₀, hfree⟩ := hk l hl
      rw [List.getElem?_set_ne hne.symm] at hm
      have htrue := lockedIno_eq_true hm hmlocked
      rw [← heq, hino₀, hfree hlocked] at htrue
      simp at htrue
    have hlt := lt_length_of_file hf₀
    by_cases hafd : a = fd
    · by_cases hbfd : b = fd
      · rw [hafd, hbfd]
      · rw [hafd, List.getElem?_set_self hlt] at ha
        exact absurd hino (hclash (Option.some.inj ha) hf hbfd hb hg)
    · by_cases hbfd : b = fd
      · rw [hbfd, List.getElem?_set_self hlt] at hb
        exact absurd hino.symm (hclash (Option.some.inj hb) hg hafd ha hf)
      · rw [List.getElem?_set_ne (Ne.symm hafd)] at ha
        rw [List.getElem?_set_ne (Ne.symm hbfd)] at hb
        exact hu ha hb hf hg hino

omit [DecidableEq ν] in
theorem getElem?_reap {fd : Fd} {f : OpenFile} :
    (reap pid h).files[fd]? = some (some f) ↔ h.files[fd]? = some (some f) ∧ f.owner ≠ pid := by
  simp only [reap, List.getElem?_map, Option.map_eq_some_iff, Option.filter_eq_some_iff]
  constructor
  · rintro ⟨g, hg, rfl, howner⟩
    exact ⟨hg, by simpa using howner⟩
  · rintro ⟨hget, howner⟩
    exact ⟨some f, hget, rfl, by simpa using howner⟩

end Interference

/-! ### The contract of a process

A process may count on its own descriptors, on directories staying where they are until they are
removed, and on the names of the files that it has open: as long as nobody unlinks an open file. -/

/-- Somebody has the inode open. -/
def isOpen (h : Host ν β) (i : Ino) : Bool := h.files.any fun f => f.any fun f => f.ino == i

/-- The call does not unlink a file that somebody has open. -/
def sparesOpen (pid : Pid) (op : FdOp ν) (h : Host ν β) : Bool :=
  (h.unlinkTarget pid op).all fun i => !h.isOpen i

structure Inv (h : Host ν β) : Prop where
  wf : h.fs.Wf
  locks : h.LocksUnique

/-- What the other processes leave alone for `pid`. -/
structure Rely (pid : Pid) (h h' : Host ν β) : Prop where
  length : h.files.length ≤ h'.files.length
  file : ∀ {fd f}, h.file pid fd = some f → h'.file pid fd = some f
  kind : ∀ {i k}, h.fs.kind i = some k → h'.fs.kind i = some k
  located : ∀ {p d}, h.fs.Located p d → h'.fs.Located p d
  named : ∀ {fd f p k}, h.file pid fd = some f → h.fs.kind f.ino = some k → k ≠ .directory →
    h.fs.walk Fs.root p = some f.ino → h'.fs.walk Fs.root p = some f.ino

def contract (pid : Pid) : Contract (FdOp ν) (Host ν β) where
  inv := Inv
  rely _ := Rely pid
  guar h _ h' := ∀ j ≠ pid, Rely j h h'
  rely_refl _ _ := ⟨le_rfl, id, id, id, fun _ _ _ hwalk => hwalk⟩
  rely_trans h h' := ⟨h.length.trans h'.length, fun hf => h'.file (h.file hf),
    fun hk => h'.kind (h.kind hk), fun hd => h'.located (h.located hd),
    fun hf hk hne hwalk => h'.named (h.file hf) (h.kind hk) hne (h.named hf hk hne hwalk)⟩

section Contract

variable {pid : Pid} {op : FdOp ν} {h h' : Host ν β}

theorem Effect.inv (he : Effect pid op h h') (hinv : h.Inv) : h'.Inv := by
  obtain ⟨lost, hchange, -⟩ := he.dirs
  exact ⟨hchange.wf hinv.wf, LocksUnique.filesChange hinv.locks he.files⟩

omit [DecidableEq ν] in
theorem isOpen_of_file {fd : Fd} {f : OpenFile} (hf : h.file pid fd = some f) :
    h.isOpen f.ino = true :=
  List.any_eq_true.2 ⟨some f, List.mem_of_getElem? (file_eq_some.1 hf).1, by simp⟩

theorem Effect.rely (he : Effect pid op h h') (hinv : h.Inv) (hok : sparesOpen pid op h = true)
    {j : Pid} (hj : j ≠ pid) : Rely j h h' := by
  obtain ⟨lost, hchange, hlost⟩ := he.dirs
  refine ⟨he.files.length_le, fun {fd f} hf => ?_, hchange.kind,
    fun hd => hd.change hinv.wf hchange, fun {fd f p k} hf hk hne hwalk => ?_⟩
  · obtain ⟨hget, rfl⟩ := file_eq_some.1 hf
    exact file_eq_some.2 ⟨he.files.keeps_other hget hj, rfl⟩
  · refine hchange.walk hwalk fun heq => ?_
    rcases hlost f.ino heq with hdir | htarget
    · rw [hk] at hdir
      exact hne (Option.some.inj hdir)
    · rw [sparesOpen, htarget, Option.all_some, isOpen_of_file hf] at hok
      simp at hok

theorem reap_inv (hinv : h.Inv) : (reap pid h).Inv := by
  refine ⟨hinv.wf, fun ha hb hf hg hino => ?_⟩
  exact hinv.locks (getElem?_reap.1 ha).1 (getElem?_reap.1 hb).1 hf hg hino

theorem reap_rely {j : Pid} (hj : j ≠ pid) : Rely j h (reap pid h) := by
  refine ⟨by simp [reap], fun {fd f} hf => ?_, id, id, fun _ _ _ hwalk => hwalk⟩
  obtain ⟨hget, rfl⟩ := file_eq_some.1 hf
  exact file_eq_some.2 ⟨getElem?_reap.2 ⟨hget, hj⟩, rfl⟩

/-- The kernel for processes that keep the contract. -/
def sparing (empty : β) : Kernel (FdOp ν) FdOp.Res (DirAnswer ν) (Host ν β) :=
  (kernel empty).guarded sparesOpen

variable {empty : β}

theorem exec_of_sparing {choice : DirAnswer ν} {r : op.Res}
    (hexec : (sparing empty).exec pid op choice h = some (r, h')) :
    h.exec empty pid choice op = some (r, h') ∧ sparesOpen pid op h = true := by
  simp only [sparing, Kernel.guarded, kernel] at hexec
  split at hexec
  · exact ⟨hexec, ‹_›⟩
  · simp at hexec

theorem sparing_call {choice : DirAnswer ν} {r : op.Res} (hinv : h.Inv)
    (hexec : (sparing empty).exec pid op choice h = some (r, h')) :
    h'.Inv ∧ ∀ j ≠ pid, Rely j h h' := by
  obtain ⟨hexec, hok⟩ := exec_of_sparing hexec
  have he := exec_effect hexec
  exact ⟨he.inv hinv, fun j hj => he.rely hinv hok hj⟩

theorem compatible (empty : β) :
    Compatible (sparing empty) (Inv : Host ν β → Prop) contract fun _ _ _ => True where
  inv_eq _ := rfl
  guar_rely hij _ hguar _ := hguar _ hij.symm
  reap_inv := reap_inv
  reap_rely hij _ := reap_rely hij.symm

end Contract

/-! ### What a call does for its own process -/

section Own

/-- The descriptor refers to the directory at `p`, or to one that was there and is gone. -/
def DirAt (pid : Pid) (fd : Fd) (p : List ν) (h : Host ν β) : Prop :=
  ∃ f, h.file pid fd = some f ∧ h.fs.Located p f.ino

/-- The descriptor refers to the file at `p`. -/
structure FileAt (pid : Pid) (fd : Fd) (f : OpenFile) (p : List ν) (h : Host ν β) : Prop where
  file : h.file pid fd = some f
  kind : ∃ k, h.fs.kind f.ino = some k ∧ k ≠ .directory
  walk : h.fs.walk Fs.root p = some f.ino

variable {empty : β} {pid : Pid} {h h' : Host ν β} {choice : DirAnswer ν}

theorem DirAt.rely {fd : Fd} {p : List ν} (hd : DirAt pid fd p h) (hrely : Rely pid h h') :
    DirAt pid fd p h' := by
  obtain ⟨f, hf, hloc⟩ := hd
  exact ⟨f, hrely.file hf, hrely.located hloc⟩

theorem FileAt.rely {fd : Fd} {f : OpenFile} {p : List ν} (hf : FileAt pid fd f p h)
    (hrely : Rely pid h h') : FileAt pid fd f p h' := by
  obtain ⟨k, hk, hne⟩ := hf.kind
  exact ⟨hrely.file hf.file, ⟨k, hrely.kind hk, hne⟩, hrely.named hf.file hk hne hf.walk⟩

omit [DecidableEq ν] in
theorem file_openIno (h : Host ν β) (pid : Pid) (i : Ino) :
    (h.openIno pid i).2.file pid h.files.length = some ⟨pid, i, false⟩ :=
  file_eq_some.2 ⟨by simp [openIno], rfl⟩

theorem exec_openRoot {r : Except Errno Fd} (hinv : h.Inv)
    (hexec : h.exec empty pid choice .openRoot = some (r, h')) {fd : Fd} (hr : r = .ok fd) :
    DirAt pid fd [] h' ∧ fd < h'.files.length := by
  obtain ⟨rfl, rfl⟩ := Prod.mk.inj (Option.some.inj hexec)
  obtain rfl : h.files.length = fd := Except.ok.inj hr
  have hfile := file_openIno h pid Fs.root
  exact ⟨⟨_, hfile, .inl ⟨hinv.wf.root_dir, rfl⟩⟩, lt_length_of_file hfile⟩

theorem exec_openDir {dir : Fd} {name : ν} {p : List ν} {r : Except Errno Fd}
    (hdir : DirAt pid dir p h) (hexec : h.exec empty pid choice (.openDir dir name) = some (r, h'))
    {fd : Fd} (hr : r = .ok fd) : DirAt pid fd (p ++ [name]) h' ∧ fd = h.files.length := by
  obtain ⟨f, hf, hloc⟩ := hdir
  simp only [exec, hf] at hexec
  split at hexec
  · obtain ⟨rfl, -⟩ := Prod.mk.inj (Option.some.inj hexec)
    simp at hr
  · rename_i i hopen
    obtain ⟨rfl, rfl⟩ := Prod.mk.inj (Option.some.inj hexec)
    obtain rfl : h.files.length = fd := Except.ok.inj hr
    unfold Fs.openDirAt at hopen
    split at hopen
    · simp at hopen
    · rename_i j hj
      split at hopen
      · rename_i hkind
        obtain rfl := Except.ok.inj hopen
        exact ⟨⟨_, file_openIno h pid j, .inl ⟨hkind, hloc.lookup hj⟩⟩, rfl⟩
      · simp at hopen

theorem exec_create {dir : Fd} {name : ν} {exclusive : Bool} {p : List ν} {r : Except Errno Fd}
    (hinv : h.Inv) (hdir : DirAt pid dir p h)
    (hexec : h.exec empty pid choice (.create dir name exclusive) = some (r, h')) {fd : Fd}
    (hr : r = .ok fd) : (∃ f, FileAt pid fd f (p ++ [name]) h') ∧ fd = h.files.length := by
  obtain ⟨f, hf, hloc⟩ := hdir
  simp only [exec, hf] at hexec
  split at hexec
  · obtain ⟨rfl, -⟩ := Prod.mk.inj (Option.some.inj hexec)
    simp at hr
  · rename_i i fs hcreate
    obtain ⟨rfl, rfl⟩ := Prod.mk.inj (Option.some.inj hexec)
    obtain rfl : h.files.length = fd := Except.ok.inj hr
    obtain ⟨hkind, hwalk⟩ := Fs.createAt_named hinv.wf hloc hcreate
    exact ⟨⟨⟨pid, i, false⟩, file_openIno { h with fs := fs } pid i, hkind, hwalk⟩, rfl⟩

theorem exec_close {fd fd' : Fd} {f : OpenFile} {r : Except Errno Unit}
    (hexec : h.exec empty pid choice (.close fd) = some (r, h')) (hne : fd' ≠ fd)
    (hf : h.file pid fd' = some f) : h'.file pid fd' = some f ∧ h'.fs = h.fs := by
  simp only [exec] at hexec
  split at hexec
  · obtain ⟨-, rfl⟩ := Prod.mk.inj (Option.some.inj hexec)
    exact ⟨hf, rfl⟩
  · obtain ⟨-, rfl⟩ := Prod.mk.inj (Option.some.inj hexec)
    obtain ⟨hget, howner⟩ := file_eq_some.1 hf
    refine ⟨file_eq_some.2 ⟨?_, howner⟩, rfl⟩
    rw [setFile, List.getElem?_set_ne hne.symm, hget]

theorem exec_lock {fd : Fd} {f : OpenFile} {p : List ν} {r : Except Errno Unit}
    (hf : FileAt pid fd f p h) (hexec : h.exec empty pid choice (.lock fd) = some (r, h')) :
    ∃ f', FileAt pid fd f' p h' ∧ (r = .ok () → f'.locked = true) := by
  have hlt := lt_length_of_file hf.file
  simp only [exec, hf.file] at hexec
  split at hexec
  · rename_i hlocked
    obtain ⟨-, rfl⟩ := Prod.mk.inj (Option.some.inj hexec)
    exact ⟨f, hf, fun _ => hlocked⟩
  split at hexec
  · obtain ⟨rfl, rfl⟩ := Prod.mk.inj (Option.some.inj hexec)
    exact ⟨f, hf, by simp⟩
  · obtain ⟨-, rfl⟩ := Prod.mk.inj (Option.some.inj hexec)
    refine ⟨{ f with locked := true }, ⟨file_eq_some.2 ⟨?_, (file_eq_some.1 hf.file).2⟩,
      hf.kind, hf.walk⟩, fun _ => rfl⟩
    rw [setFile, List.getElem?_set_self hlt]

end Own

end Host

end Kama.Inode
