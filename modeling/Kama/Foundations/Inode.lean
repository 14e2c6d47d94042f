import Kama.Foundations.FileTree

/-!
# A file system of inodes

Directories map names to inode numbers, so a file or directory keeps its identity when it is
renamed and when it has no name left. The inode number is the position in a list that only grows;
inode `0` is the root.

* `Fs.lookup` and `Fs.walk` resolve one name and a path of names.
* `Fs.add` and `Fs.remove` are what `open` with creation and `unlink` do to the directories;
  `Fs.createAt`, `Fs.mkdirAt`, `Fs.unlinkAt` and `Fs.rmdirAt` are the system calls with their
  errors.
* `Fs.Change` says what a call can do to the directories, `Fs.Change.walk` which paths it leaves
  alone, and `Fs.Located` that a directory stays where it is until it is removed.

Names `ν` and contents `β` are arbitrary types.
-/

namespace Kama.Inode

open FileTree (Errno Tree)

abbrev Ino := Nat

/-- `special` is everything that is neither a regular file nor a directory. -/
inductive Node (ν β : Type)
  | file (content : β)
  | dir (entries : List (ν × Ino))
  | special
  deriving DecidableEq, Repr

structure Fs (ν β : Type) where
  nodes : List (Node ν β)
  deriving DecidableEq, Repr

inductive Kind
  | regular
  | directory
  | special
  deriving DecidableEq, Repr

def Node.kind {ν β : Type} : Node ν β → Kind
  | .file _ => .regular
  | .dir _ => .directory
  | .special => .special

def Node.entries {ν β : Type} : Node ν β → List (ν × Ino)
  | .dir es => es
  | _ => []

namespace Fs

variable {ν β : Type}

def root : Ino := 0

def entries (fs : Fs ν β) (d : Ino) : List (ν × Ino) :=
  (fs.nodes[d]?.map Node.entries).getD []

def kind (fs : Fs ν β) (i : Ino) : Option Kind := fs.nodes[i]?.map Node.kind

def lookup [DecidableEq ν] (fs : Fs ν β) (d : Ino) (name : ν) : Option Ino :=
  (fs.entries d).lookup name

def walk [DecidableEq ν] (fs : Fs ν β) : Ino → List ν → Option Ino
  | d, [] => some d
  | d, name :: path => (fs.lookup d name).bind fun i => fs.walk i path

/-- The number of names of an inode. -/
def nlink (fs : Fs ν β) (i : Ino) : Nat :=
  ((List.range fs.nodes.length).flatMap fs.entries).countP fun e => e.2 == i

/-- A directory that was removed while somebody held it open takes no new entries. -/
def dead (fs : Fs ν β) (d : Ino) : Bool := d != root && fs.nlink d == 0

/-! ## Changing directories -/

def setEntries (fs : Fs ν β) (d : Ino) (es : List (ν × Ino)) : Fs ν β :=
  ⟨fs.nodes.set d (.dir es)⟩

/-- A new inode without a name. -/
def push (fs : Fs ν β) (node : Node ν β) : Fs ν β := ⟨fs.nodes ++ [node]⟩

/-- A new inode with a name in the directory `d`. -/
def add (fs : Fs ν β) (d : Ino) (name : ν) (node : Node ν β) : Fs ν β :=
  (fs.setEntries d (fs.entries d ++ [(name, fs.nodes.length)])).push node

/-- The name `name` is taken out of the directory `d`. -/
def remove [DecidableEq ν] (fs : Fs ν β) (d : Ino) (name : ν) : Fs ν β :=
  fs.setEntries d ((fs.entries d).filter fun e => e.1 != name)

/-! ## System calls -/

variable [DecidableEq ν]
variable {node : Node ν β} {lost : Option Ino} {name : ν} {d : Ino} {fs' fs : Fs ν β}

/-- `openat` with `O_DIRECTORY | O_NOFOLLOW`. -/
def openDirAt (fs : Fs ν β) (d : Ino) (name : ν) : Except Errno Ino :=
  match fs.lookup d name with
  | none => .error .ENOENT
  | some i => if fs.kind i = some .directory then .ok i else .error .ENOTDIR

/-- `openat` with `O_RDWR | O_CREAT | O_NOFOLLOW | O_NONBLOCK`, and `O_EXCL` if `exclusive`. -/
def createAt (fs : Fs ν β) (d : Ino) (name : ν) (exclusive : Bool) (content : β) :
    Except Errno (Ino × Fs ν β) :=
  match fs.lookup d name with
  | none =>
    if fs.kind d ≠ some .directory then .error .ENOTDIR
    else if fs.dead d then .error .ENOENT
    else .ok (fs.nodes.length, fs.add d name (.file content))
  | some i =>
    if exclusive then .error .EEXIST
    else if fs.kind i = some .directory then .error .EISDIR
    else .ok (i, fs)

def mkdirAt (fs : Fs ν β) (d : Ino) (name : ν) : Except Errno (Fs ν β) :=
  match fs.lookup d name with
  | none =>
    if fs.kind d ≠ some .directory then .error .ENOTDIR
    else if fs.dead d then .error .ENOENT
    else .ok (fs.add d name (.dir []))
  | some _ => .error .EEXIST

/-- `unlinkat` without flags. -/
def unlinkAt (fs : Fs ν β) (d : Ino) (name : ν) : Except Errno (Fs ν β) :=
  match fs.lookup d name with
  | none => .error .ENOENT
  | some i => if fs.kind i = some .directory then .error .EISDIR else .ok (fs.remove d name)

/-- `unlinkat` with `AT_REMOVEDIR`. -/
def rmdirAt (fs : Fs ν β) (d : Ino) (name : ν) : Except Errno (Fs ν β) :=
  match fs.lookup d name with
  | none => .error .ENOENT
  | some i =>
    if fs.kind i = some .directory then
      if fs.entries i = [] then .ok (fs.remove d name) else .error .ENOTEMPTY
    else .error .ENOTDIR

/-! ### Entries after a change -/

omit [DecidableEq ν] in
theorem kind_dir_iff : fs.kind d = some .directory ↔ ∃ es, fs.nodes[d]? = some (.dir es) := by
  unfold kind
  rcases fs.nodes[d]? with _ | (_ | es | _) <;> simp [Node.kind]

omit [DecidableEq ν] in
theorem entries_eq_nil (h : fs.kind d ≠ some .directory) : fs.entries d = [] := by
  unfold kind at h
  unfold entries
  cases hnode : fs.nodes[d]? with
  | none => rfl
  | some node =>
    cases node with
    | file content => rfl
    | dir es => simp [hnode, Node.kind] at h
    | special => rfl

theorem lookup_dir {i : Ino} (h : fs.lookup d name = some i) : fs.kind d = some .directory := by
  by_contra hd
  simp [lookup, entries_eq_nil hd] at h

omit [DecidableEq ν] in
theorem lt_length_of_dir (hd : fs.kind d = some .directory) : d < fs.nodes.length := by
  obtain ⟨es, hes⟩ := kind_dir_iff.1 hd
  exact (List.getElem?_eq_some_iff.1 hes).1

omit [DecidableEq ν] in
theorem entries_setEntries (hd : fs.kind d = some .directory) (es : List (ν × Ino)) (d' : Ino) :
    (fs.setEntries d es).entries d' = if d' = d then es else fs.entries d' := by
  unfold entries setEntries
  rcases eq_or_ne d' d with rfl | hne
  · simp [List.getElem?_set_self (lt_length_of_dir hd), Node.entries]
  · simp [List.getElem?_set_ne hne.symm, hne]

omit [DecidableEq ν] in
theorem kind_setEntries (hd : fs.kind d = some .directory) (es : List (ν × Ino)) (i : Ino) :
    (fs.setEntries d es).kind i = fs.kind i := by
  obtain ⟨es', hes'⟩ := kind_dir_iff.1 hd
  unfold kind setEntries
  rcases eq_or_ne i d with rfl | hne
  · simp [List.getElem?_set_self (lt_length_of_dir hd), hes', Node.kind]
  · simp [List.getElem?_set_ne hne.symm]

omit [DecidableEq ν] in
theorem entries_push (fs : Fs ν β) (hnode : node.entries = []) (d : Ino) :
    (fs.push node).entries d = fs.entries d := by
  unfold entries push
  rcases Nat.lt_trichotomy d fs.nodes.length with hlt | rfl | hgt
  · rw [List.getElem?_append_left hlt]
  · simp [hnode]
  · rw [List.getElem?_eq_none (by simp; omega), List.getElem?_eq_none (by omega)]

omit [DecidableEq ν] in
theorem kind_push (fs : Fs ν β) (node : Node ν β) {i : Ino} (hi : i < fs.nodes.length) :
    (fs.push node).kind i = fs.kind i := by
  unfold kind push
  rw [List.getElem?_append_left hi]

theorem lookup_add (hd : fs.kind d = some .directory) (hname : fs.lookup d name = none)
    (hnode : node.entries = []) (d' : Ino) (name' : ν) :
    (fs.add d name node).lookup d' name' =
      if d' = d ∧ name' = name then some fs.nodes.length else fs.lookup d' name' := by
  unfold lookup at hname ⊢
  rw [add, entries_push _ hnode, entries_setEntries hd]
  rcases eq_or_ne d' d with rfl | hne
  · rcases eq_or_ne name' name with rfl | hne'
    · simp [List.lookup_append, hname]
    · have hbeq : (name' == name) = false := by simpa using hne'
      simp [List.lookup_append, List.lookup_cons, hne', hbeq]
  · simp [hne]

omit [DecidableEq ν] in
theorem kind_add (hd : fs.kind d = some .directory) (name : ν) (node : Node ν β) {i : Ino}
    (hi : i < fs.nodes.length) : (fs.add d name node).kind i = fs.kind i := by
  rw [add, kind_push _ _ (by simpa [setEntries] using hi), kind_setEntries hd]

omit [DecidableEq ν] in
theorem kind_add_new (fs : Fs ν β) (d : Ino) (name : ν) (node : Node ν β) :
    (fs.add d name node).kind fs.nodes.length = some node.kind := by
  simp [add, push, kind, setEntries]

theorem lookup_remove (hd : fs.kind d = some .directory) (name : ν) (d' : Ino) (name' : ν) :
    (fs.remove d name).lookup d' name' =
      if d' = d ∧ name' = name then none else fs.lookup d' name' := by
  unfold lookup remove
  rw [entries_setEntries hd]
  rcases eq_or_ne d' d with rfl | hne
  · rw [if_pos rfl, Tree.lookup_filter_fst (fun k => k != name)]
    rcases eq_or_ne name' name with rfl | hne'
    · simp
    · simp [hne']
  · simp [hne]

theorem kind_remove (hd : fs.kind d = some .directory) (name : ν) (i : Ino) :
    (fs.remove d name).kind i = fs.kind i :=
  kind_setEntries hd _ i

/-! ### Well-formed file systems -/

/-- A file system whose directories form a tree of named nodes: no name is listed twice in a
directory, names refer to inodes that exist, a directory has at most one name, and the root is a
directory without one. -/
structure Wf (fs : Fs ν β) : Prop where
  names : ∀ {d e}, e ∈ fs.entries d → fs.lookup d e.1 = some e.2
  bound : ∀ {d name i}, fs.lookup d name = some i → i < fs.nodes.length
  unique : ∀ {d d' name name' i}, fs.kind i = some .directory → fs.lookup d name = some i →
    fs.lookup d' name' = some i → d = d' ∧ name = name'
  root_dir : fs.kind root = some .directory
  root_unnamed : ∀ d name, fs.lookup d name ≠ some root

theorem mem_of_lookup {i : Ino} (h : fs.lookup d name = some i) : (name, i) ∈ fs.entries d := by
  unfold lookup at h
  generalize fs.entries d = es at h
  induction es with
  | nil => simp at h
  | cons e es ih =>
    obtain ⟨k, j⟩ := e
    rw [List.lookup_cons] at h
    split at h
    · rename_i hbeq
      obtain rfl : name = k := by simpa using hbeq
      obtain rfl : j = i := by simpa using h
      exact List.mem_cons_self
    · exact List.mem_cons_of_mem _ (ih h)

theorem wf_of_no_entries (h : ∀ d, fs.entries d = []) (hroot : fs.kind root = some .directory) :
    fs.Wf := by
  have hlookup : ∀ d name, fs.lookup d name = none := fun d name => by simp [lookup, h d]
  refine ⟨fun {d e} he => ?_, fun {d name i} hi => ?_, fun {d d' name name' i} _ hi => ?_, hroot,
    fun d name => by simp [hlookup]⟩
  · simp [h d] at he
  · simp [hlookup] at hi
  · simp [hlookup] at hi

/-- A directory is dead when it is not the root and no name refers to it. -/
theorem Wf.dead_iff (h : fs.Wf) :
    fs.dead d = true ↔ d ≠ root ∧ ∀ p name, fs.lookup p name ≠ some d := by
  simp only [dead, nlink, Bool.and_eq_true, bne_iff_ne, ne_eq, beq_iff_eq, List.countP_eq_zero,
    List.mem_flatMap, List.mem_range]
  refine and_congr_right fun _ => ⟨fun hnone p name hp => ?_, fun hnone e he heq => ?_⟩
  · exact hnone (name, d) ⟨p, lt_length_of_dir (lookup_dir hp), mem_of_lookup hp⟩ (by simp)
  · obtain ⟨p, -, hmem⟩ := he
    exact hnone p e.1 (by rw [h.names hmem]; simpa using heq)

/-- What a system call can do to the directories; the index is the inode that lost a name. -/
inductive Change (fs : Fs ν β) : Fs ν β → Option Ino → Prop
  | same : Change fs fs none
  | add {d : Ino} {name : ν} {node : Node ν β} (hd : fs.kind d = some .directory)
      (hlive : fs.dead d = false) (hname : fs.lookup d name = none) (hnode : node.entries = []) :
      Change fs (fs.add d name node) none
  | remove {d j : Ino} {name : ν} (hj : fs.lookup d name = some j)
      (hempty : fs.kind j = some .directory → fs.entries j = []) :
      Change fs (fs.remove d name) (some j)

theorem createAt_change {i : Ino} {exclusive : Bool} {content : β}
    (h : fs.createAt d name exclusive content = .ok (i, fs')) : Change fs fs' none := by
  unfold createAt at h
  split at h
  · rename_i hname
    split at h
    · simp at h
    split at h
    · simp at h
    rename_i hd hlive
    simp only [Except.ok.injEq, Prod.mk.injEq] at h
    obtain ⟨-, rfl⟩ := h
    exact .add (not_not.1 hd) (by simpa using hlive) hname rfl
  · split at h
    · simp at h
    split at h
    · simp at h
    simp only [Except.ok.injEq, Prod.mk.injEq] at h
    obtain ⟨-, rfl⟩ := h
    exact .same

theorem mkdirAt_change (h : fs.mkdirAt d name = .ok fs') : Change fs fs' none := by
  unfold mkdirAt at h
  split at h
  · rename_i hname
    split at h
    · simp at h
    split at h
    · simp at h
    rename_i hd hlive
    obtain rfl := Except.ok.inj h
    exact .add (not_not.1 hd) (by simpa using hlive) hname rfl
  · simp at h

theorem unlinkAt_change (h : fs.unlinkAt d name = .ok fs') :
    ∃ j, fs.lookup d name = some j ∧ fs.kind j ≠ some .directory ∧ fs' = fs.remove d name := by
  unfold unlinkAt at h
  split at h
  · simp at h
  · rename_i j hj
    split at h
    · simp at h
    · rename_i hkind
      exact ⟨j, hj, hkind, (Except.ok.inj h).symm⟩

theorem rmdirAt_change (h : fs.rmdirAt d name = .ok fs') :
    ∃ j, fs.lookup d name = some j ∧ fs.kind j = some .directory ∧ fs.entries j = [] ∧
      fs' = fs.remove d name := by
  unfold rmdirAt at h
  split at h
  · simp at h
  · rename_i j hj
    split at h
    · rename_i hkind
      split at h
      · rename_i hempty
        exact ⟨j, hj, hkind, hempty, (Except.ok.inj h).symm⟩
      · simp at h
    · simp at h

theorem Change.kind (h : Change fs fs' lost) {i : Ino} {k : Kind} (hi : fs.kind i = some k) :
    fs'.kind i = some k := by
  have hlt : i < fs.nodes.length := by
    unfold Fs.kind at hi
    obtain ⟨node, hnode, -⟩ := Option.map_eq_some_iff.1 hi
    exact (List.getElem?_eq_some_iff.1 hnode).1
  cases h with
  | same => exact hi
  | add hd _ _ _ => rw [kind_add hd _ _ hlt, hi]
  | remove hj _ => rw [kind_remove (lookup_dir hj), hi]

omit [DecidableEq ν] in
theorem mem_entries_add (hd : fs.kind d = some .directory) (hnode : node.entries = []) {d' : Ino}
    {e : ν × Ino} (he : e ∈ (fs.add d name node).entries d') :
    e ∈ fs.entries d' ∨ (d' = d ∧ e = (name, fs.nodes.length)) := by
  rw [add, entries_push _ hnode, entries_setEntries hd] at he
  split at he
  · rename_i heq
    rcases List.mem_append.1 he with he | he
    · exact .inl (heq ▸ he)
    · exact .inr ⟨heq, by simpa using he⟩
  · exact .inl he

theorem mem_entries_remove (hd : fs.kind d = some .directory) {d' : Ino} {e : ν × Ino}
    (he : e ∈ (fs.remove d name).entries d') : e ∈ fs.entries d' ∧ ¬ (d' = d ∧ e.1 = name) := by
  rw [remove, entries_setEntries hd] at he
  split at he
  · rename_i heq
    obtain ⟨hmem, hne⟩ := List.mem_filter.1 he
    exact ⟨heq ▸ hmem, fun h => by simp [h.2] at hne⟩
  · rename_i hne
    exact ⟨he, fun h => hne h.1⟩

theorem Change.wf (h : Change fs fs' lost) (hwf : fs.Wf) : fs'.Wf := by
  cases h with
  | same => exact hwf
  | @add d name node hd hlive hname hnode =>
    have hlookup := lookup_add hd hname hnode
    have hlen : (fs.add d name node).nodes.length = fs.nodes.length + 1 := by
      simp [Fs.add, push, setEntries]
    refine ⟨fun {d' e} he => ?_, fun {d' n i} hi => ?_, fun {d₁ d₂ n₁ n₂ i} hk h₁ h₂ => ?_, ?_,
      fun d' n hroot => ?_⟩
    · rw [hlookup]
      rcases mem_entries_add hd hnode he with he | ⟨rfl, rfl⟩
      · have hold := hwf.names he
        rw [if_neg (by rintro ⟨rfl, hn⟩; rw [hn, hname] at hold; simp at hold), hold]
      · simp
    · rw [hlookup] at hi
      split at hi
      · obtain rfl := Option.some.inj hi
        rw [hlen]
        exact Nat.lt_succ_self _
      · exact hlen ▸ Nat.lt_succ_of_lt (hwf.bound hi)
    · rw [hlookup] at h₁ h₂
      split at h₁
      · rename_i heq₁
        obtain rfl := Option.some.inj h₁
        split at h₂
        · rename_i heq₂
          exact ⟨heq₁.1.trans heq₂.1.symm, heq₁.2.trans heq₂.2.symm⟩
        · exact absurd (hwf.bound h₂) (Nat.lt_irrefl _)
      · split at h₂
        · obtain rfl := Option.some.inj h₂
          exact absurd (hwf.bound h₁) (Nat.lt_irrefl _)
        · rw [kind_add hd _ _ (hwf.bound h₁)] at hk
          exact hwf.unique hk h₁ h₂
    · rw [kind_add hd _ _ (lt_length_of_dir hwf.root_dir), hwf.root_dir]
    · rw [hlookup] at hroot
      split at hroot
      · have hzero : fs.nodes.length = root := Option.some.inj hroot
        exact absurd (hzero ▸ lt_length_of_dir hwf.root_dir) (Nat.lt_irrefl _)
      · exact hwf.root_unnamed d' n hroot
  | @remove d j name hj hempty =>
    have hd := lookup_dir hj
    have hlookup : ∀ {d' n i}, (fs.remove d name).lookup d' n = some i →
        fs.lookup d' n = some i := by
      intro d' n i hi
      rw [lookup_remove hd] at hi
      split at hi
      · simp at hi
      · exact hi
    refine ⟨fun {d' e} he => ?_, fun {d' n i} hi => ?_, fun {d₁ d₂ n₁ n₂ i} hk h₁ h₂ => ?_, ?_,
      fun d' n hroot => hwf.root_unnamed d' n (hlookup hroot)⟩
    · obtain ⟨he, hne⟩ := mem_entries_remove hd he
      rw [lookup_remove hd, if_neg hne, hwf.names he]
    · simpa [Fs.remove, setEntries] using hwf.bound (hlookup hi)
    · rw [kind_remove hd] at hk
      exact hwf.unique hk (hlookup h₁) (hlookup h₂)
    · rw [kind_remove hd, hwf.root_dir]

/-! ### Paths after a change -/

theorem walk_add (hd : fs.kind d = some .directory) (hname : fs.lookup d name = none)
    (hnode : node.entries = []) {s i : Ino} {p : List ν} (hwalk : fs.walk s p = some i) :
    (fs.add d name node).walk s p = some i := by
  induction p generalizing s with
  | nil => exact hwalk
  | cons n p ih =>
    obtain ⟨m, hm, hrest⟩ := Option.bind_eq_some_iff.1 hwalk
    have hne : ¬ (s = d ∧ n = name) := by
      rintro ⟨rfl, rfl⟩
      simp [hname] at hm
    refine Option.bind_eq_some_iff.2 ⟨m, ?_, ih hrest⟩
    rw [lookup_add hd hname hnode, if_neg hne, hm]

/-- Taking out a name keeps the paths to everything but what it named: the directories before the
end of a path have entries, and only empty ones are removed. -/
theorem walk_remove {j : Ino} (hj : fs.lookup d name = some j)
    (hempty : fs.kind j = some .directory → fs.entries j = []) {s i : Ino} {p : List ν}
    (hwalk : fs.walk s p = some i) (hne : j ≠ i) : (fs.remove d name).walk s p = some i := by
  induction p generalizing s with
  | nil => exact hwalk
  | cons n p ih =>
    obtain ⟨m, hm, hrest⟩ := Option.bind_eq_some_iff.1 hwalk
    refine Option.bind_eq_some_iff.2 ⟨m, ?_, ih hrest⟩
    rw [lookup_remove (lookup_dir hj), if_neg ?_, hm]
    rintro ⟨rfl, rfl⟩
    obtain rfl : j = m := by simpa [hj] using hm
    cases p with
    | nil => exact hne (by simpa [walk] using hrest)
    | cons n' p' =>
      obtain ⟨m', hm', -⟩ := Option.bind_eq_some_iff.1 hrest
      simp [lookup, hempty (lookup_dir hm')] at hm'

theorem Change.walk (h : Change fs fs' lost) {s i : Ino} {p : List ν} (hwalk : fs.walk s p = some i)
    (hne : lost ≠ some i) : fs'.walk s p = some i := by
  cases h with
  | same => exact hwalk
  | add hd _ hname hnode => exact walk_add hd hname hnode hwalk
  | remove hj hempty => exact walk_remove hj hempty hwalk fun heq => hne (by rw [heq])

/-- A directory that was removed: empty, without a name, and so for good. -/
structure Gone (fs : Fs ν β) (d : Ino) : Prop where
  dir : fs.kind d = some .directory
  dead : fs.dead d = true
  empty : fs.entries d = []

theorem Gone.change (h : fs.Gone d) (hwf : fs.Wf) (hchange : Change fs fs' lost) : fs'.Gone d := by
  have hwf' := hchange.wf hwf
  obtain ⟨hroot, hunnamed⟩ := hwf.dead_iff.1 h.dead
  refine ⟨hchange.kind h.dir, hwf'.dead_iff.2 ⟨hroot, fun q n hq => ?_⟩, ?_⟩
  · cases hchange with
    | same => exact hunnamed q n hq
    | add hd _ hname hnode =>
      rw [lookup_add hd hname hnode] at hq
      split at hq
      · have hlt := lt_length_of_dir h.dir
        rw [← Option.some.inj hq] at hlt
        exact Nat.lt_irrefl _ hlt
      · exact hunnamed q n hq
    | remove hj _ =>
      rw [lookup_remove (lookup_dir hj)] at hq
      split at hq
      · simp at hq
      · exact hunnamed q n hq
  · refine List.eq_nil_iff_forall_not_mem.2 fun e he => ?_
    cases hchange with
    | same => simp [h.empty] at he
    | add hd hlive _ hnode =>
      rcases mem_entries_add hd hnode he with he | ⟨rfl, -⟩
      · simp [h.empty] at he
      · simp [h.dead] at hlive
    | remove hj _ => simpa [h.empty] using (mem_entries_remove (lookup_dir hj) he).1

/-- The directory `d` is at the path `p`, or it is gone. -/
def Located (fs : Fs ν β) (p : List ν) (d : Ino) : Prop :=
  (fs.kind d = some .directory ∧ fs.walk root p = some d) ∨ fs.Gone d

/-- Removing the name of an empty directory makes it gone. -/
theorem Wf.gone_of_remove (hwf : fs.Wf) {j : Ino} (hj : fs.lookup d name = some j)
    (hkind : fs.kind j = some .directory) (hempty : fs.entries j = []) :
    (fs.remove d name).Gone j := by
  have hd := lookup_dir hj
  have hchange : Change fs (fs.remove d name) (some j) := .remove hj fun _ => hempty
  have hroot : j ≠ root := by
    rintro rfl
    exact hwf.root_unnamed d name hj
  refine ⟨hchange.kind hkind, (hchange.wf hwf).dead_iff.2 ⟨hroot, fun q n hq => ?_⟩, ?_⟩
  · rw [lookup_remove hd] at hq
    split at hq
    · simp at hq
    · rename_i hne
      exact hne (hwf.unique hkind hq hj)
  · refine List.eq_nil_iff_forall_not_mem.2 fun e he => ?_
    simpa [hempty] using (mem_entries_remove hd he).1

theorem Located.change {p : List ν} (h : fs.Located p d) (hwf : fs.Wf)
    (hchange : Change fs fs' lost) : fs'.Located p d := by
  rcases h with ⟨hkind, hwalk⟩ | hgone
  · cases hchange with
    | same => exact .inl ⟨hkind, hwalk⟩
    | add hd hlive hname hnode =>
      exact .inl ⟨(Change.add hd hlive hname hnode).kind hkind, walk_add hd hname hnode hwalk⟩
    | @remove e j name hj hempty =>
      rcases eq_or_ne j d with rfl | hne
      · exact .inr (hwf.gone_of_remove hj hkind (hempty hkind))
      · exact .inl ⟨(Change.remove hj hempty).kind hkind, walk_remove hj hempty hwalk hne⟩
  · exact .inr (hgone.change hwf hchange)

theorem walk_append {s : Ino} {p q : List ν} :
    fs.walk s (p ++ q) = (fs.walk s p).bind fun i => fs.walk i q := by
  induction p generalizing s with
  | nil => rfl
  | cons n p ih =>
    simp only [List.cons_append, walk, ih]
    cases fs.lookup s n <;> rfl

/-- An entry of a located directory is at the longer path. -/
theorem Located.lookup {p : List ν} {i : Ino} (h : fs.Located p d)
    (hname : fs.lookup d name = some i) : fs.walk root (p ++ [name]) = some i := by
  rcases h with ⟨-, hwalk⟩ | hgone
  · simp [walk_append, hwalk, walk, hname]
  · simp [Fs.lookup, hgone.empty] at hname

/-- What was opened for writing in a located directory is at the longer path. -/
theorem createAt_named {p : List ν} {i : Ino} {exclusive : Bool} {content : β} (hwf : fs.Wf)
    (hd : fs.Located p d) (h : fs.createAt d name exclusive content = .ok (i, fs')) :
    (∃ k, fs'.kind i = some k ∧ k ≠ .directory) ∧ fs'.walk root (p ++ [name]) = some i := by
  unfold createAt at h
  split at h
  · rename_i hname
    split at h
    · simp at h
    split at h
    · simp at h
    rename_i hdir hlive
    obtain ⟨rfl, rfl⟩ := Prod.mk.inj (Except.ok.inj h)
    rcases hd with ⟨hkind, hwalk⟩ | hgone
    · refine ⟨⟨.regular, kind_add_new fs d name _, by simp⟩, ?_⟩
      have hempty : (Node.file content : Node ν β).entries = [] := rfl
      simp only [walk_append, walk_add hkind hname hempty hwalk, Option.bind_some, walk,
        lookup_add hkind hname hempty, and_self, if_true]
    · exact absurd hgone.dead hlive
  · rename_i j hj
    split at h
    · simp at h
    split at h
    · simp at h
    rename_i hdir
    obtain ⟨rfl, rfl⟩ := Prod.mk.inj (Except.ok.inj h)
    obtain ⟨k, hk⟩ : ∃ k, fs.kind j = some k := by
      simp [kind, List.getElem?_eq_getElem (hwf.bound hj)]
    exact ⟨⟨k, hk, fun heq => hdir (by rw [hk, heq])⟩, hd.lookup hj⟩

end Fs

end Kama.Inode
