import Kama.Foundations.Ensures
import Kama.Foundations.Host

/-!
# A disk whose calls can fail

What one process sees of a file system through its descriptors: the entries of the directories by
path, and which of them are on stable storage. Every call can fail with any error number, and a call
that fails changes nothing, except that a descriptor is closed even where `close` reports an error.

* `DiskOp` are the calls: those on descriptors, opening a file for reading, renaming, and others
  that touch no entry. `Disk.after` is the disk after a call with a given answer, where it can be
  the answer.
* A new entry is volatile. `fsync` of a directory makes its entries durable (`Store.flush`), and the
  store keeps a log of what was synced and of what was taken away.
* `Quiet s t`: from `s` to `t` nothing happened to the store, and the descriptors of `s` are open.
-/

namespace Kama.Inode

open FileTree (Errno)

/-- The calls of a process. -/
inductive DiskOp (ν ι : Type)
  | fd (op : FdOp ν)
  /-- `openat` of a file for reading -/
  | openFile (dir : Fd) (name : ν)
  | rename (dir : Fd) (name : ν) (dir' : Fd) (name' : ν)
  /-- a call that has nothing to do with names -/
  | other (q : ι)

def DiskOp.Res {ν ι : Type} (Ans : ι → Type) : DiskOp ν ι → Type
  | .fd op => op.Res
  | .openFile _ _ => Except Errno Fd
  | .rename _ _ _ _ => Except Errno Unit
  | .other q => Ans q

/-- A call that takes no entry away. -/
def FdOp.Adds {ν : Type} : FdOp ν → Prop
  | .unlink _ _ | .rmdir _ _ => False
  | _ => True

/-- The entries of the directories. -/
structure Store (ν : Type) where
  nodes : List ν → Option Kind
  /-- the entries that a crash leaves -/
  durable : List ν → Bool
  /-- where the descriptors were opened that have been synced, in order -/
  synced : List (List ν)
  /-- the entries that have been taken away, in order -/
  removed : List (List ν)

namespace Store

variable {ν : Type} [DecidableEq ν]

/-- Make an entry. -/
def put (s : Store ν) (p : List ν) (k : Kind) : Store ν :=
  { s with
    nodes := Function.update s.nodes p (some k)
    durable := Function.update s.durable p false }

/-- Take an entry away. -/
def take (s : Store ν) (p : List ν) : Store ν :=
  { s with
    nodes := Function.update s.nodes p none
    durable := Function.update s.durable p false
    removed := s.removed ++ [p] }

/-- What `fsync` of the directory `p` does. -/
def flush (s : Store ν) (p : List ν) : Store ν :=
  { s with
    durable := fun q => s.durable q || decide (q ≠ [] ∧ q.dropLast = p ∧ s.nodes q ≠ none)
    synced := s.synced ++ [p] }

/-- Move what is at `p` to `q`, in the place of what is there. -/
def move (s : Store ν) (p q : List ν) : Store ν :=
  { s with
    nodes := fun x =>
      if q <+: x then s.nodes (p ++ x.drop q.length) else if p <+: x then none else s.nodes x
    durable := fun x => decide (¬q <+: x ∧ ¬p <+: x) && s.durable x }

theorem nodes_move_left (s : Store ν) {p q : List ν} (h : ¬q <+: p) :
    (s.move p q).nodes p = none := by
  simp [move, h]

theorem nodes_move_right (s : Store ν) (p q : List ν) : (s.move p q).nodes q = s.nodes p := by
  simp [move]

theorem nodes_move_of_not_below (s : Store ν) {p q x : List ν} (hp : ¬p <+: x) (hq : ¬q <+: x) :
    (s.move p q).nodes x = s.nodes x := by
  simp [move, hp, hq]

end Store

/-- A store with the descriptors of a process, and where each was opened. -/
structure Disk (ν : Type) where
  files : Fd → Option (List ν)
  store : Store ν

namespace Disk

variable {ν : Type} [DecidableEq ν]

/-- Open a descriptor that was not open. -/
def openAt (d : Disk ν) (fd : Fd) (p : List ν) : Option (Disk ν) :=
  if d.files fd = none then some { d with files := Function.update d.files fd (some p) } else none

/-- The path of a name in the directory behind a descriptor. -/
def entry (d : Disk ν) (dir : Fd) (name : ν) : Option (List ν) := (d.files dir).map (· ++ [name])

def withStore (d : Disk ν) (s : Store ν) : Disk ν := { d with store := s }

def shut (d : Disk ν) (fd : Fd) : Disk ν := { d with files := Function.update d.files fd none }

/-- The disk after a call on descriptors that was answered like this. -/
def afterFd (d : Disk ν) : (op : FdOp ν) → op.Res → Option (Disk ν)
  | .openRoot, .ok fd => d.openAt fd []
  | .openDir dir name, .ok fd => do
    let p ← d.entry dir name
    if d.store.nodes p = some .directory then d.openAt fd p else none
  | .create dir name exclusive, .ok fd => do
    let p ← d.entry dir name
    match d.store.nodes p with
    | none => (d.withStore (d.store.put p .regular)).openAt fd p
    | some .directory => none
    | some _ => if exclusive then none else d.openAt fd p
  | .mkdir dir name, .ok () => do
    let p ← d.entry dir name
    if d.store.nodes p = none then some (d.withStore (d.store.put p .directory)) else none
  | .mkdir dir name, .error .EEXIST => do
    let p ← d.entry dir name
    if d.store.nodes p = none then none else some d
  | .unlink dir name, .ok () => do
    let p ← d.entry dir name
    if d.store.nodes p = none ∨ d.store.nodes p = some .directory then none
    else some (d.withStore (d.store.take p))
  | .rmdir dir name, .ok () => do
    let p ← d.entry dir name
    if d.store.nodes p = some .directory then some (d.withStore (d.store.take p)) else none
  | .sync fd, .ok () => do
    let p ← d.files fd
    some (d.withStore (d.store.flush p))
  | .close fd, _ => some (d.shut fd)
  | _, _ => some d

/-- The disk after a call that was answered like this; `none` where it cannot be the answer. -/
def after {ι : Type} {Ans : ι → Type} (d : Disk ν) :
    (op : DiskOp ν ι) → op.Res Ans → Option (Disk ν)
  | .fd op, r => d.afterFd op r
  | .openFile dir name, .ok fd => do
    let p ← d.entry dir name
    if d.store.nodes p = none then none else d.openAt fd p
  | .rename dir name dir' name', .ok () => do
    let p ← d.entry dir name
    let q ← d.entry dir' name'
    if d.store.nodes p = none then none else some (d.withStore (d.store.move p q))
  | _, _ => some d

/-- The possible answers to the calls on descriptors. -/
def FdAnswers (s : Disk ν) (op : FdOp ν) (r : op.Res) (t : Disk ν) : Prop :=
  s.afterFd op r = some t

/-- The possible answers. -/
def Answers {ι : Type} (Ans : ι → Type) (s : Disk ν) (op : DiskOp ν ι) (r : op.Res Ans)
    (t : Disk ν) : Prop :=
  s.after op r = some t

/-! ### What a call can do -/

section Calls

variable {s t u : Disk ν} {fd : Fd} {p : List ν}

/-- A descriptor that was not open has been opened at `p`. -/
def Opened (s : Disk ν) (fd : Fd) (p : List ν) (t : Disk ν) : Prop :=
  s.files fd = none ∧ t = { s with files := Function.update s.files fd (some p) }

omit [DecidableEq ν] in
theorem openAt_eq_some : s.openAt fd p = some t ↔ Opened s fd p t := by
  unfold openAt Opened
  split
  · rename_i hfree
    rw [Option.some.injEq]
    exact ⟨fun h => ⟨hfree, h.symm⟩, fun h => h.2.symm⟩
  · rename_i hused
    constructor
    · intro h
      cases h
    · intro h
      exact absurd h.1 hused

omit [DecidableEq ν] in
theorem entry_of_file {dir : Fd} (h : s.files dir = some p) (name : ν) :
    s.entry dir name = some (p ++ [name]) := by
  rw [entry, h]
  rfl

theorem FdAnswers.openRoot {r : Except Errno Fd} (h : FdAnswers s .openRoot r t) :
    (∃ e, r = .error e ∧ t = s) ∨ ∃ fd, r = .ok fd ∧ Opened s fd [] t := by
  cases r with
  | error e => exact .inl ⟨e, rfl, (Option.some.inj h).symm⟩
  | ok fd => exact .inr ⟨fd, rfl, openAt_eq_some.1 h⟩

theorem FdAnswers.openDir {dir : Fd} {name : ν} {r : Except Errno Fd}
    (h : FdAnswers s (.openDir dir name) r t) (hdir : s.files dir = some p) :
    (∃ e, r = .error e ∧ t = s) ∨ ∃ fd, r = .ok fd ∧
      s.store.nodes (p ++ [name]) = some .directory ∧ Opened s fd (p ++ [name]) t := by
  cases r with
  | error e => exact .inl ⟨e, rfl, (Option.some.inj h).symm⟩
  | ok fd =>
    simp only [FdAnswers, afterFd, entry_of_file hdir, Option.bind_eq_bind, Option.bind_some] at h
    split at h
    · rename_i hnode
      exact .inr ⟨fd, rfl, hnode, openAt_eq_some.1 h⟩
    · cases h

theorem FdAnswers.mkdir {dir : Fd} {name : ν} {r : Except Errno Unit}
    (h : FdAnswers s (.mkdir dir name) r t) (hdir : s.files dir = some p) :
    (∃ e, e ≠ .EEXIST ∧ r = .error e ∧ t = s) ∨
      (r = .error .EEXIST ∧ s.store.nodes (p ++ [name]) ≠ none ∧ t = s) ∨
      r = .ok () ∧ s.store.nodes (p ++ [name]) = none ∧
        t = s.withStore (s.store.put (p ++ [name]) .directory) := by
  cases r with
  | ok u =>
    simp only [FdAnswers, afterFd, entry_of_file hdir, Option.bind_eq_bind, Option.bind_some] at h
    split at h
    · rename_i hnode
      exact .inr (.inr ⟨rfl, hnode, (Option.some.inj h).symm⟩)
    · cases h
  | error e =>
    by_cases he : e = .EEXIST
    · subst he
      simp only [FdAnswers, afterFd, entry_of_file hdir, Option.bind_eq_bind,
        Option.bind_some] at h
      split at h
      · cases h
      · rename_i hnode
        exact .inr (.inl ⟨rfl, hnode, (Option.some.inj h).symm⟩)
    · refine .inl ⟨e, he, rfl, ?_⟩
      cases e <;> first | exact absurd rfl he | exact (Option.some.inj h).symm

theorem FdAnswers.unlink {dir : Fd} {name : ν} {r : Except Errno Unit}
    (h : FdAnswers s (.unlink dir name) r t) (hdir : s.files dir = some p) :
    (∃ e, r = .error e ∧ t = s) ∨
      r = .ok () ∧ ¬(s.store.nodes (p ++ [name]) = none ∨
        s.store.nodes (p ++ [name]) = some .directory) ∧
        t = s.withStore (s.store.take (p ++ [name])) := by
  cases r with
  | error e => exact .inl ⟨e, rfl, (Option.some.inj h).symm⟩
  | ok u =>
    simp only [FdAnswers, afterFd, entry_of_file hdir, Option.bind_eq_bind, Option.bind_some] at h
    split at h
    · cases h
    · rename_i hnode
      exact .inr ⟨rfl, hnode, (Option.some.inj h).symm⟩

theorem FdAnswers.rmdir {dir : Fd} {name : ν} {r : Except Errno Unit}
    (h : FdAnswers s (.rmdir dir name) r t) (hdir : s.files dir = some p) :
    (∃ e, r = .error e ∧ t = s) ∨
      r = .ok () ∧ t = s.withStore (s.store.take (p ++ [name])) := by
  cases r with
  | error e => exact .inl ⟨e, rfl, (Option.some.inj h).symm⟩
  | ok u =>
    simp only [FdAnswers, afterFd, entry_of_file hdir, Option.bind_eq_bind, Option.bind_some] at h
    split at h
    · exact .inr ⟨rfl, (Option.some.inj h).symm⟩
    · cases h

theorem FdAnswers.sync {r : Except Errno Unit} (h : FdAnswers s (.sync fd) r t)
    (hfile : s.files fd = some p) :
    (∃ e, r = .error e ∧ t = s) ∨ r = .ok () ∧ t = s.withStore (s.store.flush p) := by
  cases r with
  | error e => exact .inl ⟨e, rfl, (Option.some.inj h).symm⟩
  | ok u =>
    simp only [FdAnswers, afterFd, hfile, Option.bind_eq_bind, Option.bind_some] at h
    exact .inr ⟨rfl, (Option.some.inj h).symm⟩

theorem FdAnswers.close {r : Except Errno Unit} (h : FdAnswers s (.close fd) r t) :
    t = s.shut fd := by
  cases r <;> exact (Option.some.inj h).symm

theorem Answers.openFile {ι : Type} {Ans : ι → Type} {dir : Fd} {name : ν} {r : Except Errno Fd}
    (h : Answers Ans s (.openFile dir name) r t) (hdir : s.files dir = some p) :
    (∃ e, r = .error e ∧ t = s) ∨ ∃ fd, r = .ok fd ∧ Opened s fd (p ++ [name]) t := by
  cases r with
  | error e => exact .inl ⟨e, rfl, (Option.some.inj h).symm⟩
  | ok fd =>
    simp only [Answers, after, entry_of_file hdir, Option.bind_eq_bind, Option.bind_some] at h
    split at h
    · cases h
    · exact .inr ⟨fd, rfl, openAt_eq_some.1 h⟩

theorem Answers.rename {ι : Type} {Ans : ι → Type} {dir dir' : Fd} {name name' : ν} {q : List ν}
    {r : Except Errno Unit} (h : Answers Ans s (.rename dir name dir' name') r t)
    (hdir : s.files dir = some p) (hdir' : s.files dir' = some q) :
    (∃ e, r = .error e ∧ t = s) ∨
      r = .ok () ∧ s.store.nodes (p ++ [name]) ≠ none ∧
        t = s.withStore (s.store.move (p ++ [name]) (q ++ [name'])) := by
  cases r with
  | error e => exact .inl ⟨e, rfl, (Option.some.inj h).symm⟩
  | ok u =>
    simp only [Answers, after, entry_of_file hdir, entry_of_file hdir', Option.bind_eq_bind,
      Option.bind_some] at h
    split at h
    · cases h
    · rename_i hnode
      exact .inr ⟨rfl, hnode, (Option.some.inj h).symm⟩

theorem Answers.other {ι : Type} {Ans : ι → Type} {q : ι} {r : Ans q}
    (h : Answers Ans s (.other q) r t) : t = s := (Option.some.inj h).symm

omit [DecidableEq ν] in
theorem Opened.store (h : Opened s fd p t) : t.store = s.store := by rw [h.2]

end Calls

/-! ### What is taken away -/

theorem FdAnswers.removed {s t : Disk ν} {op : FdOp ν} {r : op.Res} (h : FdAnswers s op r t)
    (hop : op.Adds) : t.store.removed = s.store.removed := by
  cases op with
  | unlink dir name => exact hop.elim
  | rmdir dir name => exact hop.elim
  | close fd =>
    rw [h.close]
    rfl
  | openRoot =>
    rcases h.openRoot with ⟨_, rfl, rfl⟩ | ⟨_, rfl, hopened⟩
    · rfl
    · rw [hopened.store]
  | openDir dir name =>
    cases r with
    | error e => rw [Option.some.inj h]
    | ok fd =>
      obtain ⟨p, -, h⟩ := Option.bind_eq_some_iff.1 h
      split at h
      · rw [(openAt_eq_some.1 h).store]
      · cases h
  | create dir name exclusive =>
    cases r with
    | error e => rw [Option.some.inj h]
    | ok fd =>
      obtain ⟨p, -, h⟩ := Option.bind_eq_some_iff.1 h
      split at h
      · rw [(openAt_eq_some.1 h).store]
        rfl
      · cases h
      · split at h
        · cases h
        · rw [(openAt_eq_some.1 h).store]
  | mkdir dir name =>
    cases r with
    | ok u =>
      obtain ⟨p, -, h⟩ := Option.bind_eq_some_iff.1 h
      split at h
      · rw [← Option.some.inj h]
        rfl
      · cases h
    | error e =>
      by_cases he : e = .EEXIST
      · subst he
        obtain ⟨p, -, h⟩ := Option.bind_eq_some_iff.1 h
        split at h
        · cases h
        · rw [Option.some.inj h]
      · cases e <;> first | exact absurd rfl he | rw [Option.some.inj h]
  | sync fd =>
    cases r with
    | error e => rw [Option.some.inj h]
    | ok u =>
      obtain ⟨p, -, h⟩ := Option.bind_eq_some_iff.1 h
      rw [← Option.some.inj h]
      rfl
  | _ => cases r <;> rw [Option.some.inj h]

/-- What a call takes away. -/
def taken {ι : Type} {Ans : ι → Type} (d : Disk ν) : (op : DiskOp ν ι) → op.Res Ans → List (List ν)
  | .fd (.unlink dir name), .ok () => (d.entry dir name).toList
  | .fd (.rmdir dir name), .ok () => (d.entry dir name).toList
  | _, _ => []

/-- What the calls of a run take away, in order. -/
def removals {ι : Type} {Ans : ι → Type} :
    Disk ν → List (Program.Called (DiskOp ν ι) (DiskOp.Res Ans) (Disk ν)) → List (List ν)
  | _, [] => []
  | d, c :: cs => d.taken c.op c.answer ++ removals c.after cs

section Removals

variable {ι : Type} {Ans : ι → Type} {s t : Disk ν}

/-- A call logs what it takes away. -/
theorem Answers.removed {op : DiskOp ν ι} {r : op.Res Ans} (h : Answers Ans s op r t) :
    t.store.removed = s.store.removed ++ s.taken op r := by
  have hnone : s.taken op r = [] → t.store.removed = s.store.removed →
      t.store.removed = s.store.removed ++ s.taken op r := by
    intro htaken hremoved
    rw [htaken, hremoved, List.append_nil]
  cases op with
  | fd op =>
    have hfd : FdAnswers s op r t := h
    cases op with
    | unlink dir name =>
      cases r with
      | error e => exact hnone rfl (by rw [Option.some.inj h])
      | ok u =>
        obtain ⟨p, hp, h⟩ := Option.bind_eq_some_iff.1 h
        split at h
        · cases h
        · rw [← Option.some.inj h, taken, hp]
          rfl
    | rmdir dir name =>
      cases r with
      | error e => exact hnone rfl (by rw [Option.some.inj h])
      | ok u =>
        obtain ⟨p, hp, h⟩ := Option.bind_eq_some_iff.1 h
        split at h
        · rw [← Option.some.inj h, taken, hp]
          rfl
        · cases h
    | _ => exact hnone rfl (hfd.removed trivial)
  | openFile dir name =>
    refine hnone rfl ?_
    cases r with
    | error e => rw [Option.some.inj h]
    | ok fd =>
      obtain ⟨p, -, h⟩ := Option.bind_eq_some_iff.1 h
      split at h
      · cases h
      · rw [(openAt_eq_some.1 h).store]
  | rename dir name dir' name' =>
    refine hnone rfl ?_
    cases r with
    | error e => rw [Option.some.inj h]
    | ok u =>
      obtain ⟨p, -, h⟩ := Option.bind_eq_some_iff.1 h
      obtain ⟨q, -, h⟩ := Option.bind_eq_some_iff.1 h
      split at h
      · cases h
      · rw [← Option.some.inj h]
        rfl
  | other q => exact hnone rfl (by rw [h.other])

/-- The log of a run is what its calls have taken away. -/
theorem removed_final {calls : List (Program.Called (DiskOp ν ι) (DiskOp.Res Ans) (Disk ν))}
    (h : Program.Answered (Answers Ans) s calls) :
    (Program.final s calls).store.removed = s.store.removed ++ removals s calls := by
  induction calls generalizing s with
  | nil => exact (List.append_nil _).symm
  | cons c calls ih =>
    obtain ⟨hc, hcalls⟩ := h
    rw [removals, ← List.append_assoc, ← hc.removed]
    exact ih hcalls

end Removals

/-! ### Nothing happens to the store -/

/-- Every descriptor of `s` is open in `t`, where it was opened. -/
def Keeps (s t : Disk ν) : Prop := ∀ fd p, s.files fd = some p → t.files fd = some p

/-- Nothing happened to the store, and every descriptor of `s` is still open. -/
structure Quiet (s t : Disk ν) : Prop where
  store : t.store = s.store
  files : Keeps s t

section Quiet

variable {s t u : Disk ν} {fd : Fd} {p : List ν}

omit [DecidableEq ν] in
theorem Quiet.refl (s : Disk ν) : Quiet s s := ⟨rfl, fun _ _ h => h⟩

omit [DecidableEq ν] in
theorem Keeps.trans (h : Keeps s t) (h' : Keeps t u) : Keeps s u :=
  fun fd p hfd => h' fd p (h fd p hfd)

omit [DecidableEq ν] in
theorem Opened.files_self (h : Opened s fd p t) : t.files fd = some p := by
  rw [h.2]
  exact Function.update_self ..

omit [DecidableEq ν] in
theorem Opened.files_ne {other : Fd} (h : Opened s fd p t) (hne : other ≠ fd) :
    t.files other = s.files other := by
  rw [h.2]
  exact Function.update_of_ne hne ..

omit [DecidableEq ν] in
theorem Opened.keeps (h : Opened s fd p t) : Keeps s t := by
  intro other q hother
  rw [h.files_ne, hother]
  rintro rfl
  rw [h.1] at hother
  cases hother

omit [DecidableEq ν] in
theorem Opened.quiet (h : Opened s fd p t) : Quiet s t := ⟨by rw [h.2], h.keeps⟩

omit [DecidableEq ν] in
theorem files_shut_ne {other : Fd} (s : Disk ν) (hne : other ≠ fd) :
    (s.shut fd).files other = s.files other :=
  Function.update_of_ne hne ..

omit [DecidableEq ν] in
/-- A descriptor that was opened on the way is closed again. -/
theorem Keeps.shut (h : Keeps s t) (hfd : s.files fd = none) : Keeps s (t.shut fd) := by
  intro other q hother
  rw [files_shut_ne t, h other q hother]
  rintro rfl
  rw [hfd] at hother
  cases hother

omit [DecidableEq ν] in
theorem Quiet.shut (h : Quiet s t) (hfd : s.files fd = none) : Quiet s (t.shut fd) :=
  ⟨h.store, h.files.shut hfd⟩

end Quiet

/-! ### A disk that works -/

/-- A descriptor that is not open. -/
def fresh (d : Disk ν) : Option Fd := (List.range 64).find? fun fd => (d.files fd).isNone

/-- The answer of a call that opens something. -/
def freshFd (d : Disk ν) : Except Errno Fd := d.fresh.elim (.error .EIOERR) .ok

/-- The answers of a system on which nothing fails that need not. -/
def replyFd (d : Disk ν) : (op : FdOp ν) → op.Res
  | .openRoot => d.freshFd
  | .openDir dir name =>
    match (d.entry dir name).bind d.store.nodes with
    | some .directory => d.freshFd
    | _ => .error .ENOENT
  | .create dir name exclusive =>
    match d.entry dir name with
    | none => .error .EBADF
    | some p =>
      match d.store.nodes p with
      | none => d.freshFd
      | some .directory => .error .EISDIR
      | some _ => if exclusive then .error .EEXIST else d.freshFd
  | .mkdir dir name =>
    match d.entry dir name with
    | none => .error .EBADF
    | some p => if d.store.nodes p = none then .ok () else .error .EEXIST
  | .unlink dir name =>
    match (d.entry dir name).bind d.store.nodes with
    | none => .error .ENOENT
    | some .directory => .error .EISDIR
    | some _ => .ok ()
  | .rmdir dir name =>
    match (d.entry dir name).bind d.store.nodes with
    | some .directory => .ok ()
    | _ => .error .ENOENT
  | .stat fd => ((d.files fd).bind d.store.nodes).elim (.error .EBADF) fun k => .ok (k, 1)
  | .statAt dir name => ((d.entry dir name).bind d.store.nodes).elim (.error .ENOENT) .ok
  | .readDir _ _ => .ok ([], true)
  | .sync fd => (d.files fd).elim (.error .EBADF) fun _ => .ok ()
  | .lock fd =>
    -- as if every other descriptor of the file had the lock
    if (List.range 64).any fun other => other ≠ fd ∧ d.files other = d.files fd then
      .error .EWOULDBLOCK
    else .ok ()
  | .unlock _ => .ok ()
  | .close _ => .ok ()

/-- The answer of a call that fails. -/
def failFd : (op : FdOp ν) → op.Res
  | .openRoot | .openDir _ _ | .create _ _ _ | .mkdir _ _ | .unlink _ _ | .rmdir _ _ | .stat _
  | .statAt _ _ | .readDir _ _ | .sync _ | .lock _ | .unlock _ | .close _ => .error .EIOERR

/-- A call on it. -/
def execFd (op : FdOp ν) (d : Disk ν) : op.Res × Disk ν :=
  match d.afterFd op (d.replyFd op) with
  | some t => (d.replyFd op, t)
  | none => (failFd op, d)

theorem answers_execFd (d : Disk ν) (op : FdOp ν) :
    FdAnswers d op (execFd op d).1 (execFd op d).2 := by
  unfold execFd FdAnswers
  split
  · assumption
  · rename_i hnone
    cases op with
    | close fd => cases hnone
    | _ => rfl

section Exec

variable {ι : Type} {Ans : ι → Type}

/-- The answers of that system to all calls, given those that have nothing to do with names. -/
def reply (other : ∀ q, Ans q) (d : Disk ν) : (op : DiskOp ν ι) → op.Res Ans
  | .fd op => d.replyFd op
  | .openFile dir name => ((d.entry dir name).bind d.store.nodes).elim (.error .ENOENT)
      fun _ => d.freshFd
  | .rename dir name dir' name' =>
    match (d.entry dir name).bind d.store.nodes, d.entry dir' name' with
    | some _, some _ => .ok ()
    | _, _ => .error .ENOENT
  | .other q => other q

/-- The answer of a call that fails. -/
def fail (other : ∀ q, Ans q) : (op : DiskOp ν ι) → op.Res Ans
  | .fd op => failFd op
  | .openFile _ _ | .rename _ _ _ _ => .error .EIOERR
  | .other q => other q

/-- A call on it. -/
def exec (other : ∀ q, Ans q) (op : DiskOp ν ι) (d : Disk ν) : op.Res Ans × Disk ν :=
  match d.after op (d.reply other op) with
  | some t => (d.reply other op, t)
  | none => (fail other op, d)

theorem answers_exec (other : ∀ q, Ans q) (d : Disk ν) (op : DiskOp ν ι) :
    Answers Ans d op (exec other op d).1 (exec other op d).2 := by
  unfold exec Answers
  split
  · assumption
  · rename_i hnone
    cases op with
    | fd op =>
      cases op with
      | close fd => cases hnone
      | _ => rfl
    | _ => rfl

end Exec

end Disk

end Kama.Inode
