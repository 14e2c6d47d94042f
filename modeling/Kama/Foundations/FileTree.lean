import Kama.Foundations.Program
import Mathlib.Data.List.Dedup
import Mathlib.Data.List.Infix
import Mathlib.Data.List.Lookmap

/-!
# A file tree addressed by paths

The state of a directory tree, for code whose steps name whole paths: a finite list of paths with
what is there. Nothing but the paths identifies a file, so this is the model for protocols that
never hold a descriptor across a rename; `Kama.Foundations.Inode` is the one for those that do.

* `Tree.get` reads a path; `Tree.put`, `Tree.erase` and `Tree.move` change the tree, with one
  lemma each on what `get` sees afterwards (`get_put`, `get_erase`, `get_move`).
* `Tree.Wf`: whatever has a name is in a directory. Every change that a call can make keeps it.

Names `ν` and contents `β` are arbitrary types.
-/

namespace Kama.FileTree

open Program

/-- The error numbers that file-system calls return here. -/
inductive Errno
  | ENOENT
  | EEXIST
  | ENOTDIR
  | EISDIR
  | ENOTEMPTY
  | ELOOP
  | EINVAL
  | EBADF
  | EWOULDBLOCK
  | ENOSPC
  | EDQUOT
  | EIOERR
  deriving DecidableEq, Repr

/-- `special` is everything that is neither a regular file nor a directory. -/
inductive Node (β : Type)
  | file (content : β)
  | dir
  | special
  deriving DecidableEq, Repr

/-- What is at each path below the root, which is itself a directory and not listed. -/
structure Tree (ν β : Type) where
  items : List (List ν × Node β)
  deriving DecidableEq, Repr

namespace Tree

variable {ν β : Type} [DecidableEq ν]

def get (t : Tree ν β) (p : List ν) : Option (Node β) :=
  if p = [] then some .dir else t.items.lookup p

def put (t : Tree ν β) (p : List ν) (n : Node β) : Tree ν β :=
  ⟨(p, n) :: t.items.filter fun e => e.1 != p⟩

def erase (t : Tree ν β) (p : List ν) : Tree ν β := ⟨t.items.filter fun e => e.1 != p⟩

/-- Everything at or below `src` moves to `dst`, which loses what it had. -/
def move (t : Tree ν β) (src dst : List ν) : Tree ν β :=
  ⟨(t.items.filter fun e => !dst.isPrefixOf e.1).map fun e =>
    if src.isPrefixOf e.1 then (dst ++ e.1.drop src.length, e.2) else e⟩

/-- The names in the directory `p`. -/
def children (t : Tree ν β) (p : List ν) : List ν :=
  (t.items.filterMap fun e => if e.1.dropLast = p then e.1.getLast? else none).dedup

/-- Whatever has a name is in a directory. -/
def Wf (t : Tree ν β) : Prop := ∀ p name, t.get (p ++ [name]) ≠ none → t.get p = some .dir

/-! ### What `get` sees after a change -/

section Lookup

variable {κ γ : Type} [BEq κ] [LawfulBEq κ]

theorem lookup_filter_fst (keep : κ → Bool) (l : List (κ × γ)) (a : κ) :
    (l.filter fun e => keep e.1).lookup a = if keep a then l.lookup a else none := by
  induction l with
  | nil => simp
  | cons e l ih =>
    obtain ⟨k, v⟩ := e
    rcases eq_or_ne a k with rfl | hak
    · cases hkeep : keep a
      · simp [hkeep, ih]
      · simp [hkeep]
    · have hbeq : (a == k) = false := by simpa using hak
      cases hkeep : keep k
      · simp [hkeep, ih, List.lookup_cons, hbeq]
      · simp [hkeep, ih, List.lookup_cons, hbeq]

/-- Renaming keys by a map that is injective on the keys that are there. -/
theorem lookup_map_fst (f : κ → κ) (l : List (κ × γ)) (a : κ)
    (hf : ∀ e ∈ l, f e.1 = f a → e.1 = a) :
    (l.map fun e => (f e.1, e.2)).lookup (f a) = l.lookup a := by
  induction l with
  | nil => rfl
  | cons e l ih =>
    obtain ⟨k, v⟩ := e
    have ih' := ih fun e he => hf e (List.mem_cons_of_mem _ he)
    rcases eq_or_ne a k with rfl | hak
    · simp
    · have hbeq : (a == k) = false := by simpa using hak
      have hne : (f a == f k) = false := by
        simpa using fun h => hak (hf (k, v) List.mem_cons_self h.symm).symm
      simp [List.lookup_cons, hbeq, hne, ih']

theorem lookup_eq_none_of_forall {l : List (κ × γ)} {a : κ} (h : ∀ e ∈ l, e.1 ≠ a) :
    l.lookup a = none := by
  rw [List.lookup_eq_none_iff]
  intro e he
  simpa using fun hea => h e he hea.symm

end Lookup

@[simp] theorem get_nil (t : Tree ν β) : t.get [] = some .dir := by simp [get]

theorem get_put (t : Tree ν β) {p : List ν} (hp : p ≠ []) (n : Node β) (q : List ν) :
    (t.put p n).get q = if q = p then some n else t.get q := by
  by_cases hq : q = []
  · subst hq
    simp [get, hp.symm]
  · by_cases hqp : q = p
    · subst hqp
      simp [get, put, hq]
    · have hbeq : (q == p) = false := by simpa using hqp
      simp [get, put, hq, hqp, List.lookup_cons, hbeq, lookup_filter_fst (fun k => k != p)]

theorem get_erase (t : Tree ν β) {p : List ν} (hp : p ≠ []) (q : List ν) :
    (t.erase p).get q = if q = p then none else t.get q := by
  by_cases hq : q = []
  · subst hq
    simp [get, hp.symm]
  · by_cases hqp : q = p <;> simp [get, erase, hq, hqp, hp, lookup_filter_fst (fun k => k != p)]

/-- The key that `move` gives to what was at `k`. -/
def movedKey (src dst k : List ν) : List ν :=
  if src.isPrefixOf k then dst ++ k.drop src.length else k

theorem movedKey_append (src dst r : List ν) : movedKey src dst (src ++ r) = dst ++ r := by
  simp [movedKey]

theorem movedKey_of_not_below {src dst k : List ν} (h : ¬ src <+: k) :
    movedKey src dst k = k := by
  simp [movedKey, h]

theorem items_move (t : Tree ν β) (src dst : List ν) :
    (t.move src dst).items =
      (t.items.filter fun e => !dst.isPrefixOf e.1).map fun e => (movedKey src dst e.1, e.2) := by
  simp only [move, movedKey]
  refine List.map_congr_left fun e _ => ?_
  split <;> rfl

omit [DecidableEq ν] in
theorem not_prefix_append {src dst : List ν} (hsd : ¬ src <+: dst) (hds : ¬ dst <+: src)
    (r : List ν) : ¬ dst <+: src ++ r := by
  intro h
  rcases List.prefix_or_prefix_of_prefix h (List.prefix_append src r) with h | h
  · exact hds h
  · exact hsd h

/-- **A move shows the moved paths under their new names.** -/
theorem get_move (t : Tree ν β) {src dst : List ν} (hsd : ¬ src <+: dst) (hds : ¬ dst <+: src)
    (q : List ν) :
    (t.move src dst).get q =
      if dst <+: q then t.get (src ++ q.drop dst.length)
      else if src <+: q then none else t.get q := by
  have hsrc : src ≠ [] := fun h => hsd (by simp [h])
  have hdst : dst ≠ [] := fun h => hds (by simp [h])
  rcases eq_or_ne q [] with rfl | hq
  · simp [hsrc, hdst]
  simp only [get, hq, if_false, items_move]
  split
  · -- `q` names something that was moved
    rename_i hunder
    obtain ⟨r, rfl⟩ := hunder
    have hinj : ∀ e ∈ t.items.filter fun e => !dst.isPrefixOf e.1,
        movedKey src dst e.1 = movedKey src dst (src ++ r) → e.1 = src ++ r := by
      intro e he hkey
      rw [movedKey_append] at hkey
      by_cases hpre : src <+: e.1
      · obtain ⟨r', hr'⟩ := hpre
        rw [← hr', movedKey_append] at hkey
        rw [← hr', List.append_cancel_left hkey]
      · rw [movedKey_of_not_below hpre] at hkey
        have hkeep : (!dst.isPrefixOf e.1) = true := (List.mem_filter.1 he).2
        have hunder : dst.isPrefixOf e.1 = true :=
          List.isPrefixOf_iff_prefix.2 (hkey ▸ List.prefix_append dst r)
        simp [hunder] at hkeep
    rw [← movedKey_append src dst r, lookup_map_fst _ _ _ hinj,
      lookup_filter_fst (fun k => !dst.isPrefixOf k), movedKey_append]
    simp [not_prefix_append hsd hds r, hsrc]
  · rename_i hunder
    split
    · -- `q` names something that was moved away
      rename_i hpre
      apply lookup_eq_none_of_forall
      intro e he
      obtain ⟨e', -, rfl⟩ := List.mem_map.1 he
      intro hkey
      by_cases hpre' : src <+: e'.1
      · obtain ⟨r', hr'⟩ := hpre'
        simp only [← hr', movedKey_append] at hkey
        exact hunder ⟨r', hkey⟩
      · simp only [movedKey_of_not_below hpre'] at hkey
        exact hpre' (hkey ▸ hpre)
    · rename_i hpre
      have hinj : ∀ e ∈ t.items.filter fun e => !dst.isPrefixOf e.1,
          movedKey src dst e.1 = movedKey src dst q → e.1 = q := by
        intro e he hkey
        rw [movedKey_of_not_below hpre] at hkey
        by_cases hpre' : src <+: e.1
        · obtain ⟨r', hr'⟩ := hpre'
          rw [← hr', movedKey_append] at hkey
          exact absurd ⟨r', hkey⟩ hunder
        · rwa [movedKey_of_not_below hpre'] at hkey
      rw [← (movedKey_of_not_below hpre : movedKey src dst q = q), lookup_map_fst _ _ _ hinj,
        lookup_filter_fst (fun k => !dst.isPrefixOf k), movedKey_of_not_below hpre]
      simp [hunder]

end Tree

/-! ## Calls -/

namespace Tree

variable {ν β : Type} [DecidableEq ν]
variable {p : List ν} {t : Tree ν β}

/-- Walk from the directory `base` down `rest`: every component has to be a directory. -/
def checkDirFrom (t : Tree ν β) (base : List ν) : List ν → Except Errno Unit
  | [] => .ok ()
  | name :: rest =>
    match t.get (base ++ [name]) with
    | none => .error .ENOENT
    | some .dir => t.checkDirFrom (base ++ [name]) rest
    | some _ => .error .ENOTDIR

def checkDir (t : Tree ν β) (p : List ν) : Except Errno Unit := t.checkDirFrom [] p

theorem get_of_checkDirFrom {base rest : List ν} (hbase : t.get base = some .dir)
    (h : t.checkDirFrom base rest = .ok ()) : t.get (base ++ rest) = some .dir := by
  induction rest generalizing base with
  | nil => simpa using hbase
  | cons name rest ih =>
    simp only [checkDirFrom] at h
    split at h
    · simp at h
    · rename_i hname
      simpa using ih hname h
    · simp at h

theorem get_of_checkDir (h : t.checkDir p = .ok ()) : t.get p = some .dir := by
  simpa using get_of_checkDirFrom (get_nil t) h

/-! ### Well-formed trees -/

theorem Wf.get_of_append (h : t.Wf) {r : List ν} (hr : r ≠ []) (hget : t.get (p ++ r) ≠ none) :
    t.get p = some .dir := by
  induction r using List.reverseRecOn with
  | nil => exact absurd rfl hr
  | append_singleton r name ih =>
    rw [← List.append_assoc] at hget
    have hdir := h _ _ hget
    rcases eq_or_ne r [] with rfl | hr'
    · simpa using hdir
    · exact ih hr' (by simp [hdir])

theorem Wf.get_of_below (h : t.Wf) {q : List ν} (hpq : p <+: q) (hne : p ≠ q)
    (hget : t.get q ≠ none) : t.get p = some .dir := by
  obtain ⟨r, rfl⟩ := hpq
  exact h.get_of_append (fun hr => hne (by simp [hr])) hget

/-- Below something that is not a directory there is nothing. -/
theorem Wf.get_eq_none (h : t.Wf) {q : List ν} (hpq : p <+: q) (hne : p ≠ q)
    (hp : t.get p ≠ some .dir) : t.get q = none := by
  by_contra hget
  exact hp (h.get_of_below hpq hne hget)

theorem Wf.checkDirFrom (h : t.Wf) {base rest : List ν} (hget : t.get (base ++ rest) = some .dir) :
    t.checkDirFrom base rest = .ok () := by
  induction rest generalizing base with
  | nil => rfl
  | cons name rest ih =>
    have hname : t.get (base ++ [name]) = some .dir := by
      rcases eq_or_ne rest [] with rfl | hrest
      · exact hget
      · exact h.get_of_append hrest (by simp [hget])
    simp only [Tree.checkDirFrom, hname]
    exact ih (by simpa using hget)

theorem Wf.checkDir (h : t.Wf) (hget : t.get p = some .dir) : t.checkDir p = .ok () :=
  h.checkDirFrom (by simpa using hget)

theorem mem_children {name : ν} : name ∈ t.children p ↔ t.get (p ++ [name]) ≠ none := by
  have hmem : name ∈ t.children p ↔ ∃ e ∈ t.items, e.1 = p ++ [name] := by
    simp only [children, List.mem_dedup, List.mem_filterMap]
    refine exists_congr fun e => and_congr_right fun _ => ?_
    rcases List.eq_nil_or_concat e.1 with he | ⟨l, a, he⟩
    · simp [he]
    · simp [he, and_comm]
  have hlookup : t.get (p ++ [name]) = none ↔ ∀ e ∈ t.items, e.1 ≠ p ++ [name] := by
    simp only [get, List.append_eq_nil_iff, List.cons_ne_self, and_false, if_false,
      List.lookup_eq_none_iff]
    refine forall₂_congr fun e _ => ⟨fun h heq => by simp [heq] at h, fun h => ?_⟩
    simpa using fun heq => h heq.symm
  rw [hmem, Ne, hlookup]
  push Not
  rfl

theorem get_eq_none_of_children_nil (h : t.children p = []) (name : ν) :
    t.get (p ++ [name]) = none := by
  by_contra hget
  simpa [h] using mem_children.2 hget

theorem get_eq_none_of_keys (hp : p ≠ []) (h : ∀ e ∈ t.items, e.1 ≠ p) : t.get p = none := by
  rw [get, if_neg hp]
  exact lookup_eq_none_of_forall h

/-- A tree is well formed when the parent of everything in it is a directory. -/
theorem wf_of_items (h : ∀ e ∈ t.items, t.get e.1.dropLast = some .dir) : t.Wf := by
  intro p name hget
  by_contra hp
  refine hget (get_eq_none_of_keys (by simp) fun e he heq => hp ?_)
  have hparent := h e he
  rwa [heq, List.dropLast_concat] at hparent

theorem Wf.put (h : t.Wf) {n : Node β} (hp : p ≠ []) (hparent : t.get p.dropLast = some .dir)
    (hn : n = .dir ∨ t.get p ≠ some .dir) : (t.put p n).Wf := by
  intro q name hget
  rw [get_put t hp] at hget ⊢
  rcases eq_or_ne (q ++ [name]) p with rfl | hne
  · have hq : q ≠ q ++ [name] := by simp
    simpa [hq] using hparent
  · rw [if_neg hne] at hget
    have hdir := h q name hget
    split
    · rename_i hqp
      subst hqp
      rcases hn with rfl | hn
      · rfl
      · exact absurd hdir hn
    · exact hdir

theorem Wf.erase (h : t.Wf) (hp : p ≠ []) (hchildren : ∀ name, t.get (p ++ [name]) = none) :
    (t.erase p).Wf := by
  intro q name hget
  rw [get_erase t hp] at hget ⊢
  split at hget
  · exact absurd rfl hget
  · have hqp : q ≠ p := by
      rintro rfl
      exact hget (hchildren name)
    simpa [hqp] using h q name hget

theorem Wf.move (h : t.Wf) {src dst : List ν} (hsd : ¬ src <+: dst) (hds : ¬ dst <+: src)
    (hparent : t.get dst.dropLast = some .dir) : (t.move src dst).Wf := by
  have hdst : dst ≠ [] := fun hnil => hds (by simp [hnil])
  intro q name hget
  rw [get_move t hsd hds] at hget ⊢
  by_cases hname : dst <+: q ++ [name]
  · rcases List.prefix_concat_iff.1 hname with heq | hq
    · -- `q` is the directory that receives the moved tree
      have hparent' : t.get q = some .dir := by simpa [heq] using hparent
      have h1 : ¬ dst <+: q := fun hpre => by
        have hlen := hpre.length_le
        rw [heq, List.length_append, List.length_singleton] at hlen
        omega
      have h2 : ¬ src <+: q := fun hpre => hsd (heq ▸ hpre.trans (List.prefix_append q [name]))
      simpa [h1, h2] using hparent'
    · obtain ⟨r, rfl⟩ := hq
      simp only [List.append_assoc, List.prefix_append, if_true, List.drop_left] at hget ⊢
      rw [← List.append_assoc] at hget
      exact h _ name hget
  · rw [if_neg hname] at hget
    split at hget
    · exact absurd rfl hget
    · rename_i hsrc
      have h1 : ¬ dst <+: q := fun hpre => hname (hpre.trans (List.prefix_append q [name]))
      have h2 : ¬ src <+: q := fun hpre => hsrc (hpre.trans (List.prefix_append q [name]))
      simpa [h1, h2] using h q name hget

end Tree

end Kama.FileTree
