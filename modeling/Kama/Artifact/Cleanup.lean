import Kama.Artifact.Descriptors
import Kama.Foundations.Removal

/-!
# Scoped cleanup

`RemoveOperationState` reads the directories of transient state and takes away, by name, what
belongs to operations with its prefix. It treats "does not exist" as done, and so it rests on this:
an error of this kind from `RemoveTreeNoFollow` or `RemoveNoFollow` means that nothing is at the
path.

* `Tidies` is the triple of code that takes away selected names only. `Tidies.frame` carries a fact
  through the code and `Tidies.widen` fits a triple to a larger selection.
* `tidies_removeDirectoryContents`: a directory is emptied without an error of that kind, as long
  as no other process takes names out of the directories that are open.
* `cleans_removeOperationState`: on success nothing is left that `Selected` selects.
-/

namespace Kama.Artifact.Descriptors

open Bytes FileTree Inode Program

/-! ## Triples -/

/-- Whatever the others take away within the contract, the program takes away selected names only,
keeps the descriptors `keep`, and ends with `Q`, or with `E` if it fails. -/
abbrev Tidies {α : Type} (shallow : List Path) (sel : Path → Prop) (keep : Fd → Prop) (i : Pid)
    (p : FdProg α) (Q : α → Host Bytes Bytes → Prop) (E : Err → Host Bytes Bytes → Prop)
    (h : Host Bytes Bytes) : Prop :=
  SafeEx (Host.listing []) i (Host.clearing shallow sel keep i) p Q E h

/-- A fact that the others keep, and the process as well while it keeps the contract. -/
structure Stable (shallow : List Path) (sel : Path → Prop) (keep : Fd → Prop) (i : Pid)
    (L : Host Bytes Bytes → Prop) : Prop where
  spared : ∀ {h h'}, L h → Host.Spared shallow i h h' → L h'
  clears : ∀ {h h'}, L h → h.Inv → Host.Clears sel keep i h h' → L h'

section Triples

variable {shallow : List Path} {sel sel' : Path → Prop} {keep keep' : Fd → Prop} {i : Pid}
  {h : Host Bytes Bytes} {α β : Type} {fd : Fd}

theorem Stable.and {L M : Host Bytes Bytes → Prop} (hL : Stable shallow sel keep i L)
    (hM : Stable shallow sel keep i M) : Stable shallow sel keep i fun h => L h ∧ M h where
  spared h hrely := ⟨hL.spared h.1 hrely, hM.spared h.2 hrely⟩
  clears h hinv hown := ⟨hL.clears h.1 hinv hown, hM.clears h.2 hinv hown⟩

theorem Stable.imp {c : Prop} {L : Host Bytes Bytes → Prop}
    (hL : c → Stable shallow sel keep i L) : Stable shallow sel keep i fun h => c → L h where
  spared h hrely hc := (hL hc).spared (h hc) hrely
  clears h hinv hown hc := (hL hc).clears (h hc) hinv hown

theorem Stable.all {ι : Type} {c : ι → Prop} {L : ι → Host Bytes Bytes → Prop}
    (hL : ∀ x, c x → Stable shallow sel keep i (L x)) :
    Stable shallow sel keep i fun h => ∀ x, c x → L x h where
  spared h hrely x hx := (hL x hx).spared (h x hx) hrely
  clears h hinv hown x hx := (hL x hx).clears (h x hx) hinv hown

theorem stable_true (c : Prop) : Stable shallow sel keep i fun _ => c :=
  ⟨fun h _ => h, fun h _ _ => h⟩

theorem stable_absent (p : Path) : Stable shallow sel keep i (Host.Absent p) :=
  ⟨fun h hrely => h.spared hrely, fun h hinv hown => h.clears hinv hown⟩

theorem stable_length (n : Nat) : Stable shallow sel keep i fun h => n ≤ h.files.length :=
  ⟨fun h hrely => h.trans hrely.length, fun h _ hown => h.trans hown.length⟩

theorem stable_held {q : Path} (hfd : keep fd) : Stable shallow sel keep i (Host.Held i fd q) :=
  ⟨fun h hrely => h.spared hrely, fun h hinv hown => h.clears hinv hfd hown⟩

theorem stable_pending {q : Path} {name : Bytes} (hfd : keep fd) (hsel : ¬sel (q ++ [name])) :
    Stable shallow sel keep i (Host.Pending shallow i fd q name) :=
  ⟨fun h hrely => h.spared hrely, fun h hinv hown => h.clears hinv hfd hsel hown⟩

variable {p : FdProg α} {Q : α → Host Bytes Bytes → Prop} {E : Err → Host Bytes Bytes → Prop}

theorem Tidies.frame {L : Host Bytes Bytes → Prop} (hL : Stable shallow sel keep i L) (hs : L h)
    (hp : Tidies shallow sel keep i p Q E h) :
    Tidies shallow sel keep i p (fun a t => Q a t ∧ L t) (fun e t => E e t ∧ L t) h :=
  SafeEx.frame (fun hrely hs => hL.spared hs hrely) (fun hinv hown hs => hL.clears hs hinv hown)
    hs hp

theorem Tidies.widen (hsel : ∀ p, sel p → sel' p) (hkeep : ∀ fd, keep' fd → keep fd)
    (hp : Tidies shallow sel keep i p Q E h) : Tidies shallow sel' keep' i p Q E h := by
  refine SafeEx.weaken (C := Host.clearing shallow sel keep i) rfl id (fun hown => ?_) hp
  exact ⟨hown.length, fun hfd => hown.file (hkeep _ hfd), hown.removal.mono hsel⟩

theorem tidies_call {op : FdOp Bytes} {Q : op.Res → Host Bytes Bytes → Prop}
    (hexec : ∀ {t choice r t'}, Host.Spared shallow i h t → t.Inv →
      t.exec [] i choice op = some (r, t') → Host.lists i op choice t = true →
      Host.Clears sel keep i t t' ∧ Q r t') : Tidies shallow sel keep i (call op) Q E h := by
  refine SafeEx.lift fun t ht hinv choice r t' hcall => ?_
  obtain ⟨hcall, hlists⟩ := Host.exec_of_listing hcall
  obtain ⟨hown, hQ⟩ := hexec ht hinv hcall hlists
  exact ⟨(Host.exec_effect hcall).inv hinv, hown, hQ⟩

theorem tidies_check {wrap : Errno → Err} {r : Except Errno α}
    (hr : Ends Q (fun e => E (wrap e)) r h) : Tidies shallow sel keep i (check wrap r) Q E h := by
  cases r with
  | error e => exact SafeEx.ofExcept hr
  | ok a => exact SafeEx.ofExcept hr

/-- A call that looks only, with an answer that other than "does not exist" says nothing. -/
theorem tidies_look {op : FdOp Bytes} {L : Host Bytes Bytes → Prop} (hop : Host.Looks op)
    (hkept : ∀ fd, Host.changes op = some fd → ¬keep fd)
    (hL : Stable shallow (fun _ => False) (fun fd => Host.changes op ≠ some fd) i L) (h0 : L h) :
    Tidies shallow sel keep i (call op) (fun _ => L) E h := by
  refine tidies_call fun ht hinv hexec _ => ⟨Host.clears_of_looks hop hkept hexec, ?_⟩
  exact hL.clears (hL.spared h0 ht) hinv
    (Host.clears_of_looks hop (fun fd heq => not_not_intro heq) hexec)

/-- Closing a descriptor keeps what does not depend on it. -/
theorem tidies_closeQuietly {L : Host Bytes Bytes → Prop} (hfd : ¬keep fd)
    (hL : Stable shallow (fun _ => False) (· ≠ fd) i L) (h0 : L h) :
    Tidies shallow sel keep i (closeQuietly fd) (fun _ => L) E h := by
  refine SafeEx.seq (Q := fun _ => L) (tidies_look trivial ?_ ⟨hL.spared, ?_⟩ h0)
    fun _ _ ht => SafeEx.pure ht
  · rintro fd' ⟨⟩
    exact hfd
  · refine fun hs hinv hown => hL.clears hs hinv
      ⟨hown.length, fun hne => hown.file ?_, hown.removal⟩
    rintro ⟨⟩
    exact hne rfl

/-- Code under `defer` of a close. -/
theorem tidies_closing {body : FdProg α} (hfd : ¬keep fd)
    (hQ : ∀ a, Stable shallow (fun _ => False) (· ≠ fd) i (Q a))
    (hE : ∀ e, Stable shallow (fun _ => False) (· ≠ fd) i (E e))
    (hbody : Tidies shallow sel keep i body Q E h) :
    Tidies shallow sel keep i (closing fd body) Q E h := by
  have hends : ∀ r, Stable shallow (fun _ => False) (· ≠ fd) i (Ends Q E r) := by
    intro r
    cases r with
    | error e => exact hE e
    | ok a => exact hQ a
  refine SafeEx.seq (Q := Ends Q E) (SafeEx.attempt hbody) fun r t hr => ?_
  refine SafeEx.seq (Q := fun _ => Ends Q E r) (tidies_closeQuietly hfd (hends r) hr)
    fun _ u hu => ?_
  exact SafeEx.ofExcept hu

end Triples

/-! ## Opening -/

@[simp] theorem isNotExist_unsafePath (op : String) (e : Errno) :
    (unsafePath op e).isNotExist = (e == .ENOENT) := rfl

@[simp] theorem isNotExist_storageError (op : String) (e : Errno) :
    (storageError op e).isNotExist = (e == .ENOENT) := by
  rw [storageError, isNotExist_classifyStorageError, Err.isNotExist_errno]

theorem isNotExist_of_validatePath {p : Path} {e : Err} (h : validatePath p = .error e) :
    e.isNotExist = false := by
  unfold validatePath validateRelativePath at h
  (repeat' split at h) <;> cases h <;> rfl

/-- The error, if it says that something does not exist, says it of this path. -/
def Missing (p : Path) (e : Err) (h : Host Bytes Bytes) : Prop :=
  e.isNotExist = true → Host.Absent p h

section Opening

variable {shallow : List Path} {sel : Path → Prop} {keep : Fd → Prop} {i : Pid}
  {h : Host Bytes Bytes} {n : Nat} {dir : Path} {name : Bytes}

theorem stable_missing (p : Path) (e : Err) : Stable shallow sel keep i (Missing p e) :=
  Stable.imp fun _ => stable_absent p

theorem tidies_closeUnlessRoot {root current : Fd} {L : Host Bytes Bytes → Prop}
    {E : Err → Host Bytes Bytes → Prop} (hcurrent : ¬keep current)
    (hL : Stable shallow (fun _ => False) (· ≠ current) i L) (h0 : L h) :
    Tidies shallow sel keep i (closeUnlessRoot root current) (fun _ => L) E h := by
  unfold closeUnlessRoot
  split
  · exact SafeEx.pure h0
  · exact tidies_closeQuietly hcurrent hL h0

theorem tidies_openRoot (op : String) {E : Err → Host Bytes Bytes → Prop}
    (hn : n ≤ h.files.length) :
    Tidies shallow sel (· < n) i (openRoot op) (fun fd t => Host.Held i fd [] t ∧ n ≤ fd) E h := by
  refine SafeEx.seq (Q := fun (r : Except Errno Fd) t =>
    ∃ fd, r = .ok fd ∧ Host.Held i fd [] t ∧ n ≤ fd) ?_ ?_
  · refine tidies_call fun ht hinv hexec _ => ?_
    refine ⟨Host.clears_of_looks (by trivial) (by rintro fd ⟨⟩) hexec, ?_⟩
    obtain ⟨fd, hr, hheld, rfl⟩ := Host.held_openRoot hinv hexec
    exact ⟨_, hr, hheld, hn.trans ht.length⟩
  · rintro r t ⟨fd, rfl, hfd⟩
    exact tidies_check hfd

/-- What is known of the answer to `openat` of `dir/name` when `len` descriptors were in use. -/
structure Opened (i : Pid) (len : Nat) (dir : Path) (name : Bytes) (r : Except Errno Fd)
    (t : Host Bytes Bytes) : Prop where
  length : len ≤ t.files.length
  held : ∀ fd, r = .ok fd → Host.Held i fd (dir ++ [name]) t ∧ len ≤ fd
  absent : r = .error .ENOENT → Host.Absent (dir ++ [name]) t

theorem stable_opened {len : Nat} {fd : Fd} {r : Except Errno Fd} (hlt : fd < len) :
    Stable shallow sel (· ≠ fd) i (Opened i len dir name r) where
  spared ht hrely := ⟨ht.length.trans hrely.length,
    fun child hr => ⟨(ht.held child hr).1.spared hrely, (ht.held child hr).2⟩,
    fun hr => (ht.absent hr).spared hrely⟩
  clears ht hinv hown := by
    refine ⟨ht.length.trans hown.length, fun child hr => ?_,
      fun hr => (ht.absent hr).clears hinv hown⟩
    obtain ⟨hheld, hle⟩ := ht.held child hr
    have hne : child ≠ fd := Nat.ne_of_gt (Nat.lt_of_lt_of_le hlt hle)
    exact ⟨hheld.clears hinv hne hown, hle⟩

theorem tidies_openDir {fd : Fd} {E : Err → Host Bytes Bytes → Prop}
    (hheld : Host.Held i fd dir h) :
    Tidies shallow sel keep i (call (FdOp.openDir fd name))
      (fun r => Opened i h.files.length dir name r) E h := by
  refine tidies_call fun ht hinv hexec _ => ?_
  have hown : Host.Clears sel keep i _ _ :=
    Host.clears_of_looks (by trivial) (by rintro fd ⟨⟩) hexec
  obtain ⟨hok, herr⟩ := Host.held_openDir (hheld.spared ht) hexec
  refine ⟨hown, ht.length.trans hown.length, fun child hchild => ?_, herr⟩
  obtain ⟨hheld', rfl⟩ := hok child hchild
  exact ⟨hheld', ht.length⟩

theorem tidies_walkFrom (op : String) {root current : Fd} (rest : Path)
    (hheld : Host.Held i current dir h) (hn : n ≤ h.files.length) (hroot : n ≤ root)
    (hcurrent : n ≤ current) (hlt : root < h.files.length) (hne : rest = [] → current ≠ root) :
    Tidies shallow sel (· < n) i (walkFrom op root current rest)
      (fun fd t => Host.Held i fd (dir ++ rest) t ∧ n ≤ fd ∧ fd ≠ root) (Missing (dir ++ rest))
      h := by
  induction rest generalizing h current dir with
  | nil =>
    rw [List.append_nil]
    exact SafeEx.pure ⟨hheld, hcurrent, hne rfl⟩
  | cons name rest ih =>
    refine SafeEx.seq (tidies_openDir hheld) fun r t hr => ?_
    refine SafeEx.seq (tidies_closeUnlessRoot (Nat.not_lt.2 hcurrent)
      (stable_opened hheld.lt_length) hr) fun _ u hu => ?_
    cases (r : Except Errno Fd) with
    | error e =>
      refine SafeEx.seq (tidies_closeQuietly (Nat.not_lt.2 hroot) (stable_opened hlt) hu)
        fun _ v hv => SafeEx.throw fun he => ?_
      obtain rfl : e = .ENOENT := by simpa using he
      rw [List.append_cons]
      exact (hv.absent rfl).below
    | ok next =>
      obtain ⟨hnext, hle⟩ := hu.held next rfl
      have hsafe := ih hnext (hn.trans hu.length) (hn.trans hle) (Nat.lt_of_lt_of_le hlt hu.length)
        fun _ => Nat.ne_of_gt (Nat.lt_of_lt_of_le hlt hle)
      rwa [List.append_assoc] at hsafe

theorem tidies_validate (op : String) (p : Path) :
    Tidies shallow sel keep i (validate op p) (fun _ t => t = h) (Missing p) h := by
  refine SafeEx.ofExcept ?_
  cases hp : validatePath p with
  | error e =>
    intro he
    rw [Err.isNotExist_failure, isNotExist_of_validatePath hp] at he
    cases he
  | ok => rfl

theorem tidies_openDirectory (p : Path) (hn : n ≤ h.files.length) :
    Tidies shallow sel (· < n) i (openDirectory p)
      (fun fd t => Host.Held i fd p t ∧ n ≤ fd) (Missing p) h := by
  unfold openDirectory
  split
  · rename_i hp
    subst hp
    exact tidies_openRoot _ hn
  · rename_i hp
    refine SafeEx.seq (tidies_validate _ p) ?_
    rintro _ _ rfl
    refine SafeEx.seq (tidies_openRoot _ hn) fun root t ⟨hroot, hle⟩ => ?_
    have hlt := hroot.lt_length
    refine SafeEx.seq (tidies_walkFrom _ p hroot (hle.trans hlt.le) hle hle hlt
      fun heq => absurd heq hp) fun current u ⟨hcurrent, hle', hne⟩ => ?_
    rw [List.nil_append] at hcurrent
    refine SafeEx.seq (tidies_closeQuietly (Nat.not_lt.2 hle) (stable_held hne) hcurrent)
      fun _ v hv => SafeEx.pure ⟨hv, hle'⟩

theorem tidies_openParent (hn : n ≤ h.files.length) :
    Tidies shallow sel (· < n) i (openParent (dir ++ [name]))
      (fun r t => Host.Held i r.1 dir t ∧ n ≤ r.1 ∧ r.2 = name) (Missing (dir ++ [name])) h := by
  refine SafeEx.seq (tidies_validate _ _) ?_
  rintro _ t rfl
  rw [List.dropLast_concat, List.getLastD_concat]
  have hopen : Tidies shallow sel (· < n) i (openDirectory dir)
      (fun fd t => Host.Held i fd dir t ∧ n ≤ fd) (Missing (dir ++ [name])) t := by
    refine SafeEx.mono (fun _ _ hfd => hfd) (fun e t hdir he => ?_) (tidies_openDirectory dir hn)
    exact (hdir he).below
  exact SafeEx.seq hopen fun fd t ⟨hheld, hle⟩ => SafeEx.pure ⟨hheld, hle, rfl⟩

end Opening

/-! ## Removing -/

section Removing

variable {shallow : List Path} {sel : Path → Prop} {keep : Fd → Prop} {i : Pid}
  {h : Host Bytes Bytes} {n : Nat} {dir : Path} {name : Bytes} {fd : Fd}

theorem tidies_unlink {Q : Except Errno Unit → Host Bytes Bytes → Prop}
    {E : Err → Host Bytes Bytes → Prop} (hheld : Host.Held i fd dir h) (hsel : sel (dir ++ [name]))
    (hQ : ∀ {t r t'}, Host.Spared shallow i h t → t.Inv → Host.Taken i t fd name r t' → Q r t') :
    Tidies shallow sel keep i (call (FdOp.unlink fd name)) Q E h := by
  refine tidies_call fun ht hinv hexec _ => ?_
  have htaken := Host.taken_unlink hexec
  exact ⟨htaken.clears (hheld.spared ht) hsel, hQ ht hinv htaken⟩

theorem tidies_rmdir {Q : Except Errno Unit → Host Bytes Bytes → Prop}
    {E : Err → Host Bytes Bytes → Prop} (hheld : Host.Held i fd dir h) (hsel : sel (dir ++ [name]))
    (hQ : ∀ {t r t'}, Host.Spared shallow i h t → t.Inv → Host.Taken i t fd name r t' → Q r t') :
    Tidies shallow sel keep i (call (FdOp.rmdir fd name)) Q E h := by
  refine tidies_call fun ht hinv hexec _ => ?_
  have htaken := Host.taken_rmdir hexec
  exact ⟨htaken.clears (hheld.spared ht) hsel, hQ ht hinv htaken⟩

/-- What a call that takes away `p` says when it is done or does not find it. -/
theorem ends_of_taken (op : String) {r : Except Errno Unit} {t t' : Host Bytes Bytes}
    (hheld : Host.Held i fd dir t) (hinv : t.Inv) (htaken : Host.Taken i t fd name r t') :
    Ends (fun _ => Host.Absent (dir ++ [name]))
      (fun e => Missing (dir ++ [name]) (storageError op e)) r t' := by
  cases r with
  | ok => exact htaken.absent hinv hheld (.inl rfl)
  | error e =>
    intro he
    obtain rfl : e = .ENOENT := by simpa using he
    exact htaken.absent hinv hheld (.inr rfl)

/-- The error is not taken for something that is already gone. -/
def Fatal (e : Err) (_ : Host Bytes Bytes) : Prop := e.isNotExist = false

theorem Fatal.missing {p : Path} {e : Err} {t : Host Bytes Bytes} (he : Fatal e t) :
    Missing p e t := by
  intro hnot
  rw [he] at hnot
  cases hnot

theorem tidies_certain {α : Type} {Q : α → Host Bytes Bytes → Prop}
    {E : Err → Host Bytes Bytes → Prop} {wrap : Errno → Err} {r : Except Errno α}
    (hwrap : ∀ e, (wrap e).isNotExist = (e == .ENOENT)) (hE : ∀ e, Fatal e h → E e h)
    (hr : r ≠ .error .ENOENT) (hQ : ∀ a, r = .ok a → Q a h) :
    Tidies shallow sel keep i (check wrap r) Q E h := by
  refine tidies_check ?_
  cases r with
  | ok a => exact hQ a rfl
  | error e =>
    refine hE _ ?_
    show (wrap e).isNotExist = false
    rw [hwrap, beq_eq_false_iff_ne]
    exact fun he => hr (congrArg Except.error he)

theorem tidies_sync {L : Host Bytes Bytes → Prop} {E : Err → Host Bytes Bytes → Prop}
    (hL : Stable shallow (fun _ => False) (fun _ => True) i L) (h0 : L h) :
    Tidies shallow sel keep i (call (FdOp.sync fd)) (fun (r : Except Errno Unit) t =>
      r ≠ .error .ENOENT ∧ L t) E h := by
  refine tidies_call fun ht hinv hexec _ => ?_
  exact ⟨Host.clears_of_looks (by trivial) (by rintro fd ⟨⟩) hexec, Host.sync_certain hexec,
    hL.clears (hL.spared h0 ht) hinv (Host.clears_of_looks (by trivial) (by rintro fd ⟨⟩) hexec)⟩

theorem tidies_close {child : Fd} {L : Host Bytes Bytes → Prop} {E : Err → Host Bytes Bytes → Prop}
    (hchild : ¬keep child) (hL : Stable shallow (fun _ => False) (· ≠ child) i L) (h0 : L h) :
    Tidies shallow sel keep i (call (FdOp.close child)) (fun (r : Except Errno Unit) t =>
      r ≠ .error .ENOENT ∧ L t) E h := by
  refine tidies_call fun ht hinv hexec _ => ?_
  have hkept : ∀ fd, Host.changes (.close child : FdOp Bytes) = some fd → fd = child := by
    rintro fd ⟨⟩
    rfl
  refine ⟨Host.clears_of_looks (by trivial) (fun fd hfd => hkept fd hfd ▸ hchild) hexec,
    Host.close_certain hexec, hL.clears (hL.spared h0 ht) hinv ?_⟩
  exact Host.clears_of_looks (by trivial) (fun fd hfd => not_not_intro (hkept fd hfd)) hexec

theorem tidies_removeNoFollow (hn : n ≤ h.files.length) (hsel : sel (dir ++ [name])) :
    Tidies shallow sel (· < n) i (removeNoFollow (dir ++ [name]))
      (fun _ => Host.Absent (dir ++ [name])) (Missing (dir ++ [name])) h := by
  refine SafeEx.seq (tidies_openParent hn) ?_
  rintro ⟨parent, base⟩ t ⟨hheld, hle, rfl⟩
  refine tidies_closing (Nat.not_lt.2 hle) (fun _ => stable_absent _) (stable_missing _) ?_
  refine SafeEx.seq (tidies_unlink hheld hsel fun ht hinv htaken =>
    ends_of_taken "remove artifact path" (hheld.spared ht) hinv htaken) fun r u hr => ?_
  refine SafeEx.seq (tidies_check hr) fun _ v hv => ?_
  refine SafeEx.seq (tidies_sync (stable_absent _) hv) fun r w ⟨hr, hw⟩ => ?_
  exact tidies_certain (isNotExist_storageError _) (fun _ => Fatal.missing) hr fun _ _ => hw

/-- Strictly below `q`. -/
def Inside (q p : Path) : Prop := ∃ name, q ++ [name] <+: p

theorem not_inside_self (q : Path) : ¬Inside q q := by
  rintro ⟨name, hpre⟩
  have hlength := hpre.length_le
  rw [List.length_append, List.length_singleton] at hlength
  omega

/-- A pending name stays pending when the process only looks. -/
theorem tidies_statAt {q : Path} {E : Err → Host Bytes Bytes → Prop}
    (hname : Host.Pending shallow i fd q name h) (hn : n ≤ h.files.length) :
    Tidies shallow sel keep i (call (FdOp.statAt fd name)) (fun (r : Except Errno Kind) t =>
      r ≠ .error .ENOENT ∧ Host.Pending shallow i fd q name t ∧ n ≤ t.files.length) E h := by
  refine tidies_call fun ht hinv hexec _ => ?_
  refine ⟨Host.clears_of_looks (by trivial) (by rintro fd ⟨⟩) hexec,
    (hname.spared ht).statAt hinv hexec, ?_⟩
  obtain ⟨-, rfl⟩ := Prod.mk.inj (Option.some.inj hexec)
  exact ⟨hname.spared ht, hn.trans ht.length⟩

/-- Opening a directory keeps what does not depend on descriptors that are still to come. -/
theorem tidies_openDir_keeping {q : Path} {L : Host Bytes Bytes → Prop}
    {E : Err → Host Bytes Bytes → Prop} (hheld : Host.Held i fd q h)
    (hL : Stable shallow (fun _ => False) (fun _ => True) i L) (h0 : L h) :
    Tidies shallow sel keep i (call (FdOp.openDir fd name)) (fun r t =>
      Opened i h.files.length q name r t ∧ L t) E h := by
  have hopen : Tidies shallow (fun _ => False) (fun _ => True) i (call (FdOp.openDir fd name))
      (fun r => Opened i h.files.length q name r) (fun _ _ => False) h := tidies_openDir hheld
  exact Tidies.widen (fun _ hp => hp.elim) (fun _ _ => trivial)
    (SafeEx.mono (fun _ _ hr => hr) (fun _ _ he => he.1.elim) (Tidies.frame hL h0 hopen))

/-- Code that works strictly below `p` keeps what only depends on the descriptors of its caller. -/
theorem Tidies.around {body : FdProg Unit} {p : Path} {m : Nat} {L : Host Bytes Bytes → Prop}
    (hL : Stable shallow (Inside p) (· < m) i L) (h0 : L h) (hnm : n ≤ m)
    (hbody : Tidies shallow (Inside p) (· < m) i body (fun _ _ => True) Fatal h) :
    Tidies shallow (p <+: ·) (· < n) i body (fun _ => L) Fatal h := by
  refine Tidies.widen ?_ (fun _ hfd => Nat.lt_of_lt_of_le hfd hnm)
    (SafeEx.mono (fun _ _ hr => hr.2) (fun _ _ he => he.1) (Tidies.frame hL h0 hbody))
  rintro _ ⟨_, hp⟩
  exact (List.prefix_append _ _).trans hp

theorem tidies_removeEntry {recurse : Fd → FdProg Unit} {q : Path}
    (hname : Host.Pending shallow i fd q name h) (hfd : fd < n) (hn : n ≤ h.files.length)
    (hrec : ∀ {t child m}, Host.Held i child (q ++ [name]) t → child < m → m ≤ t.files.length →
      Tidies shallow (Inside (q ++ [name])) (· < m) i (recurse child) (fun _ _ => True) Fatal t) :
    Tidies shallow (q ++ [name] <+: ·) (· < n) i (removeEntry recurse fd name) (fun _ _ => True)
      Fatal h := by
  unfold removeEntry
  dsimp only
  refine SafeEx.ite (fun _ => SafeEx.bind (SafeEx.throw rfl)) fun _ => ?_
  refine SafeEx.seq (tidies_statAt hname hn) fun r t ⟨hr, hname, hn⟩ => ?_
  refine SafeEx.seq (Q := fun _ t => Host.Pending shallow i fd q name t ∧ n ≤ t.files.length)
    (tidies_certain (isNotExist_storageError _) (fun _ he => he) hr fun _ _ => ⟨hname, hn⟩)
    fun kind t ⟨hname, hn⟩ => SafeEx.ite (fun _ => ?_) fun _ => ?_
  · -- a directory below is emptied first, and the name is still there to be removed
    refine SafeEx.seq (tidies_openDir_keeping hname.held (stable_pending trivial not_false) hname)
      fun r t' ⟨hr, hname⟩ => ?_
    refine SafeEx.seq (Q := fun child u => Host.Held i child (q ++ [name]) u ∧
      t.files.length ≤ child ∧ Host.Pending shallow i fd q name u)
      (tidies_certain (isNotExist_unsafePath _) (fun _ he => he)
        (fun heq => hname.not_absent (hr.absent heq))
        fun child hchild => ⟨(hr.held child hchild).1, (hr.held child hchild).2, hname⟩)
      fun child u ⟨hchild, hle, hname⟩ => ?_
    have hlt : fd < child := Nat.lt_of_lt_of_le hfd (hn.trans hle)
    have hkept : Stable shallow (Inside (q ++ [name])) (· < child + 1) i
        (Host.Pending shallow i fd q name) :=
      stable_pending (Nat.lt_succ_of_lt hlt) (not_inside_self _)
    have hempty : Tidies shallow (q ++ [name] <+: ·) (· < n) i (recurse child)
        (fun _ => Host.Pending shallow i fd q name) Fatal u :=
      Tidies.around hkept hname (Nat.le_succ_of_le (hn.trans hle))
        (hrec hchild (Nat.lt_succ_self child) hchild.lt_length)
    refine SafeEx.seq (Q := Ends (fun _ => Host.Pending shallow i fd q name) Fatal)
      (SafeEx.attempt hempty) fun r v hr => ?_
    cases r with
    | error e =>
      exact SafeEx.seq (tidies_closeQuietly (Nat.not_lt.2 (hn.trans hle)) (stable_true _) hr)
        fun _ _ he => SafeEx.throw he
    | ok =>
      refine SafeEx.seq (tidies_close (Nat.not_lt.2 (hn.trans hle))
        (stable_pending (Nat.ne_of_lt hlt) not_false) hr) fun r w ⟨hr, hname⟩ => ?_
      refine SafeEx.seq (Q := fun _ => Host.Pending shallow i fd q name)
        (tidies_certain (isNotExist_storageError _) (fun _ he => he) hr fun _ _ => hname)
        fun _ x hname => ?_
      refine SafeEx.seq (tidies_rmdir hname.held (List.prefix_refl _) fun ht _ htaken =>
        (hname.spared ht).taken htaken) fun r y hr => ?_
      exact tidies_certain (isNotExist_storageError _) (fun _ he => he) hr fun _ _ => trivial
  · refine SafeEx.seq (tidies_unlink hname.held (List.prefix_refl _) fun ht _ htaken =>
      (hname.spared ht).taken htaken) fun r y hr => ?_
    exact tidies_certain (isNotExist_storageError _) (fun _ he => he) hr fun _ _ => trivial

theorem tidies_removeEntries {recurse : Fd → FdProg Unit} {q : Path} {names : List Bytes}
    (hnodup : names.Nodup) (hnames : ∀ name ∈ names, Host.Pending shallow i fd q name h)
    (hfd : fd < n) (hn : n ≤ h.files.length)
    (hrec : ∀ {name t child m}, Host.Held i child (q ++ [name]) t → child < m →
      m ≤ t.files.length →
      Tidies shallow (Inside (q ++ [name])) (· < m) i (recurse child) (fun _ _ => True) Fatal t) :
    Tidies shallow (Inside q) (· < n) i (removeEntries recurse fd names) (fun _ _ => True)
      Fatal h := by
  induction names generalizing h with
  | nil => exact SafeEx.pure trivial
  | cons name names ih =>
    obtain ⟨hname, hnames⟩ := List.forall_mem_cons.1 hnames
    rw [List.nodup_cons] at hnodup
    have hkept : Stable shallow (q ++ [name] <+: ·) (· < n) i fun t =>
        (∀ name' ∈ names, Host.Pending shallow i fd q name' t) ∧ n ≤ t.files.length := by
      refine Stable.and (Stable.all fun name' hname' => ?_) (stable_length n)
      refine stable_pending hfd fun hpre => ?_
      -- the other names are not below this one
      obtain ⟨-, heq⟩ := List.append_inj' (hpre.eq_of_length (by simp)) rfl
      exact hnodup.1 ((List.cons.inj heq).1 ▸ hname')
    have hentry := Tidies.frame hkept ⟨hnames, hn⟩ (tidies_removeEntry hname hfd hn hrec)
    refine SafeEx.seq (Tidies.widen (fun p hp => ⟨name, hp⟩) (fun _ hm => hm)
      (SafeEx.mono (fun _ _ hr => hr.2) (fun _ _ he => he.1) hentry)) fun _ t ⟨hnames, hn⟩ => ?_
    exact ih hnodup.2 hnames hn

/-- **A directory is emptied without the error that something does not exist**, as long as no other
process takes names out of the directories that are open. -/
theorem tidies_removeDirectoryContents (fuel : Nat) {q : Path} (hheld : Host.Held i fd q h)
    (hdeep : ∀ p ∈ shallow, ¬q <+: p) (hfd : fd < n) (hn : n ≤ h.files.length) :
    Tidies shallow (Inside q) (· < n) i (removeDirectoryContents fuel fd) (fun _ _ => True)
      Fatal h := by
  induction fuel generalizing fd q n h with
  | zero => exact SafeEx.throw rfl
  | succ fuel ih =>
    refine SafeEx.seq (Q := fun (r : Except Errno (List Bytes × Bool)) t =>
      (Host.Held i fd q t ∧ n ≤ t.files.length) ∧ ∀ names eof, r = .ok (names, eof) →
        names.Nodup ∧ ∀ name ∈ names, Host.Pending shallow i fd q name t) ?_ ?_
    · refine tidies_call fun ht hinv hexec hlists => ?_
      have hown : Host.Clears (Inside q) (· < n) i _ _ :=
        Host.clears_of_looks (by trivial) (by rintro fd ⟨⟩) hexec
      refine ⟨hown, ⟨(hheld.spared ht).clears hinv hfd hown,
        hn.trans (ht.length.trans hown.length)⟩, ?_⟩
      rintro names eof rfl
      exact Host.pending_readDir (hheld.spared ht) hinv
        (fun hq => hdeep q hq (List.prefix_refl q)) hexec hlists
    · intro r t ⟨⟨hheld, hn⟩, hnames⟩
      split
      · exact ih hheld hdeep hfd hn
      · refine SafeEx.throw ?_
        rename_i e hne
        show (storageError _ e).isNotExist = false
        rw [isNotExist_storageError, beq_eq_false_iff_ne]
        exact fun he => hne (he ▸ rfl)
      · rename_i names eof
        obtain ⟨hnodup, hpending⟩ := hnames names eof rfl
        have hentries := tidies_removeEntries hnodup hpending hfd hn fun hchild hlt hm =>
          ih hchild (fun p hp hpre => hdeep p hp ((List.prefix_append _ _).trans hpre)) hlt hm
        have hkept : Stable shallow (Inside q) (· < n) i fun t =>
            Host.Held i fd q t ∧ n ≤ t.files.length :=
          Stable.and (stable_held hfd) (stable_length n)
        refine SafeEx.seq (SafeEx.mono (fun _ _ hr => hr.2) (fun _ _ he => he.1)
          (Tidies.frame hkept ⟨hheld, hn⟩ hentries)) fun _ u ⟨hheld, hn⟩ => ?_
        exact SafeEx.ite (fun _ => SafeEx.pure trivial) fun _ => ih hheld hdeep hfd hn

/-- **When a tree is removed, or reported missing, nothing is at its path.** -/
theorem tidies_removeTreeNoFollow (fuel : Nat) (hn : n ≤ h.files.length)
    (hdeep : ∀ p ∈ shallow, ¬dir ++ [name] <+: p) :
    Tidies shallow (dir ++ [name] <+: ·) (· < n) i (removeTreeNoFollow fuel (dir ++ [name]))
      (fun _ => Host.Absent (dir ++ [name])) (Missing (dir ++ [name])) h := by
  refine SafeEx.seq (tidies_openParent hn) ?_
  rintro ⟨parent, base⟩ t ⟨hheld, hle, rfl⟩
  refine tidies_closing (Nat.not_lt.2 hle) (fun _ => stable_absent _) (stable_missing _) ?_
  refine SafeEx.seq (tidies_openDir_keeping hheld (stable_held trivial) hheld)
    fun r u ⟨hr, hparent⟩ => ?_
  refine SafeEx.seq (Q := fun directory u => (Host.Held i directory (dir ++ [base]) u ∧
    t.files.length ≤ directory) ∧ Host.Held i parent dir u) (tidies_check ?_) ?_
  · cases (r : Except Errno Fd) with
    | ok directory => exact ⟨hr.held directory rfl, hparent⟩
    | error e =>
      intro he
      obtain rfl : e = .ENOENT := by simpa using he
      exact hr.absent rfl
  intro directory u ⟨⟨hdirectory, hfresh⟩, hparent⟩
  have hlt : parent < directory := Nat.lt_of_lt_of_le hheld.lt_length hfresh
  have hkept : Stable shallow (Inside (dir ++ [base])) (· < directory + 1) i
      (Host.Held i parent dir) := stable_held (Nat.lt_succ_of_lt hlt)
  have hnd : n ≤ directory := hle.trans hlt.le
  have hempty : Tidies shallow (dir ++ [base] <+: ·) (· < n) i
      (removeDirectoryContents fuel directory) (fun _ => Host.Held i parent dir) Fatal u :=
    Tidies.around hkept hparent (Nat.le_succ_of_le hnd) (tidies_removeDirectoryContents fuel
      hdirectory hdeep (Nat.lt_succ_self directory) hdirectory.lt_length)
  refine SafeEx.seq (Q := Ends (fun _ => Host.Held i parent dir) Fatal) (SafeEx.attempt hempty)
    fun r v hr => ?_
  cases r with
  | error e =>
    exact SafeEx.seq (tidies_closeQuietly (Nat.not_lt.2 hnd) (stable_true _) hr)
      fun _ _ he => SafeEx.throw (Fatal.missing he)
  | ok =>
    refine SafeEx.seq (tidies_sync (stable_held trivial) hr) fun r w ⟨hr, hparent⟩ => ?_
    cases (r : Except Errno Unit) with
    | error e =>
      refine SafeEx.seq (tidies_closeQuietly (Nat.not_lt.2 hnd) (stable_true True) trivial)
        fun _ _ _ => SafeEx.throw (Fatal.missing ?_)
      show (storageError _ e).isNotExist = false
      rw [isNotExist_storageError, beq_eq_false_iff_ne]
      exact fun he => hr (congrArg Except.error he)
    | ok =>
      refine SafeEx.seq (tidies_close (Nat.not_lt.2 hnd) (stable_held (Nat.ne_of_lt hlt)) hparent)
        fun r x ⟨hr, hparent⟩ => ?_
      refine SafeEx.seq (Q := fun _ => Host.Held i parent dir) (tidies_certain
        (isNotExist_storageError _) (fun _ => Fatal.missing) hr fun _ _ => hparent)
        fun _ x hparent => ?_
      refine SafeEx.seq (tidies_rmdir hparent (List.prefix_refl _) fun ht hinv htaken =>
        ends_of_taken "remove artifact tree" (hparent.spared ht) hinv htaken) fun r y hr => ?_
      refine SafeEx.seq (tidies_check hr) fun _ z hz => ?_
      refine SafeEx.seq (tidies_sync (stable_absent _) hz) fun r _ ⟨hr, habsent⟩ => ?_
      exact tidies_certain (isNotExist_storageError _) (fun _ => Fatal.missing) hr
        fun _ _ => habsent

end Removing

/-! ## The areas -/

/-- The directories that the cleanup opens on its way to what it removes. -/
def shallowPaths : List Path := [] :: [kamaDir] :: transientAreas.map TransientArea.directory

/-- The cleanup takes this entry of the area for state of an operation with the prefix. -/
def Selects (prefix_ : Bytes) (area : TransientArea) (name : Bytes) : Prop :=
  ∃ operation, area.operation name = some operation ∧ prefix_ <+: operation ∧
    operationIDPattern operation = true

/-- The path is at or below a selected entry. -/
def Selected (prefix_ : Bytes) (p : Path) : Prop :=
  ∃ area ∈ transientAreas, ∃ name, Selects prefix_ area name ∧ area.directory ++ [name] <+: p

theorem length_directory : ∀ area ∈ transientAreas, area.directory.length = 2 := by decide

theorem length_shallow : ∀ p ∈ shallowPaths, p.length ≤ 2 := by decide

theorem not_prefix_shallow {area : TransientArea} (harea : area ∈ transientAreas) (name : Bytes) :
    ∀ p ∈ shallowPaths, ¬area.directory ++ [name] <+: p := by
  intro p hp hpre
  have hlength := hpre.length_le
  rw [List.length_append, List.length_singleton, length_directory area harea] at hlength
  have hshort := length_shallow p hp
  omega

section Areas

variable {i : Pid} {h : Host Bytes Bytes} {prefix_ : Bytes} {area : TransientArea} {fuel : Nat}

/-- The triple of the cleanup of a prefix. -/
abbrev Cleans {α : Type} (prefix_ : Bytes) (i : Pid) (p : FdProg α)
    (Q : α → Host Bytes Bytes → Prop) (E : Err → Host Bytes Bytes → Prop) (h : Host Bytes Bytes) :
    Prop :=
  Tidies shallowPaths (Selected prefix_) (· < 0) i p Q E h

theorem cleans_unlessNotExist {p : Path} {body : FdProg Unit}
    (hbody : Cleans prefix_ i body (fun _ => Host.Absent p) (Missing p) h) :
    Cleans prefix_ i (unlessNotExist body) (fun _ => Host.Absent p) (fun _ _ => True) h := by
  refine SafeEx.seq (Q := Ends (fun _ => Host.Absent p) (Missing p)) (SafeEx.attempt hbody)
    fun r t hr => ?_
  cases r with
  | ok => exact SafeEx.pure hr
  | error e => exact SafeEx.ite (fun he => SafeEx.pure (hr he)) fun _ => SafeEx.throw trivial

theorem cleans_entry {name : Bytes} (harea : area ∈ transientAreas)
    (hname : Selects prefix_ area name) :
    Cleans prefix_ i (unlessNotExist <|
      if area.tree then removeTreeNoFollow fuel (area.directory ++ [name])
      else removeNoFollow (area.directory ++ [name]))
      (fun _ => Host.Absent (area.directory ++ [name])) (fun _ _ => True) h := by
  refine cleans_unlessNotExist (SafeEx.ite (fun _ => ?_) fun _ => ?_)
  · refine Tidies.widen (fun p hp => ⟨area, harea, name, hname, hp⟩) (fun _ hfd => hfd)
      (tidies_removeTreeNoFollow fuel (Nat.zero_le _) (not_prefix_shallow harea name))
  · exact tidies_removeNoFollow (Nat.zero_le _) ⟨area, harea, name, hname, List.prefix_refl _⟩

theorem cleans_removeAreaEntries (harea : area ∈ transientAreas) (names : List Bytes) :
    Cleans prefix_ i (removeAreaEntries fuel prefix_ area names) (fun _ t => ∀ name ∈ names,
      Selects prefix_ area name → Host.Absent (area.directory ++ [name]) t) (fun _ _ => True)
      h := by
  induction names generalizing h with
  | nil => exact SafeEx.pure fun _ hname => absurd hname List.not_mem_nil
  | cons name names ih =>
    have hnext : ∀ {t}, (Selects prefix_ area name → Host.Absent (area.directory ++ [name]) t) →
        Cleans prefix_ i (removeAreaEntries fuel prefix_ area names) (fun _ t =>
          ∀ name' ∈ name :: names, Selects prefix_ area name' →
            Host.Absent (area.directory ++ [name']) t) (fun _ _ => True) t := by
      intro t ht
      refine SafeEx.mono (fun _ u hu => ?_) (fun _ _ _ => trivial)
        (Tidies.frame (Stable.imp fun _ => stable_absent _) ht (ih (h := t)))
      exact List.forall_mem_cons.2 ⟨hu.2, hu.1⟩
    unfold removeAreaEntries
    cases hop : area.operation name with
    | none =>
      refine hnext ?_
      rintro ⟨operation, hop', -⟩
      cases hop.symm.trans hop'
    | some operation =>
      refine SafeEx.ite (fun hsel => ?_) fun hsel => ?_
      · exact SafeEx.seq (cleans_entry harea ⟨operation, hop, hsel⟩) fun _ t ht => hnext fun _ => ht
      · refine hnext ?_
        rintro ⟨operation', hop', hsel'⟩
        obtain rfl := Option.some.inj (hop.symm.trans hop')
        exact absurd hsel' hsel

/-- What the enumeration of a directory does not list is not there. -/
def Listed (p : Path) (r : Except Errno (List Bytes × Bool)) (t : Host Bytes Bytes) : Prop :=
  ∀ listing, r = .ok listing → ∀ name, name ∉ listing.1 → Host.Absent (p ++ [name]) t

theorem stable_listed {shallow : List Path} {sel : Path → Prop} {keep : Fd → Prop} (p : Path)
    (r : Except Errno (List Bytes × Bool)) : Stable shallow sel keep i (Listed p r) :=
  Stable.all fun _ _ => Stable.all fun _ _ => stable_absent _

theorem cleans_removeArea (harea : area ∈ transientAreas) :
    Cleans prefix_ i (removeArea fuel prefix_ area) (fun _ t => ∀ name,
      Selects prefix_ area name → Host.Absent (area.directory ++ [name]) t) (fun _ _ => True)
      h := by
  refine SafeEx.seq (Q := Ends (fun fd t => Host.Held i fd area.directory t ∧ 0 ≤ fd)
    (Missing area.directory)) (SafeEx.attempt (tidies_openDirectory _ (Nat.zero_le _)))
    fun r t hr => ?_
  cases r with
  | error e =>
    exact SafeEx.ite (fun he => SafeEx.pure fun _ _ => (hr he).below) fun _ => SafeEx.throw trivial
  | ok directory =>
    refine SafeEx.seq (Q := Listed area.directory) ?_ fun entries t hentries => ?_
    · refine tidies_call fun ht hinv hexec hlists => ?_
      refine ⟨Host.clears_of_looks (by trivial) (by rintro fd ⟨⟩) hexec, ?_⟩
      rintro ⟨names, eof⟩ rfl name hname
      exact Host.absent_readDir (hr.1.spared ht) hexec hlists hname
    refine SafeEx.seq (tidies_look trivial (fun _ _ => Nat.not_lt_zero _)
      (stable_listed area.directory entries) hentries) fun closed u hlisted => ?_
    rcases (closed : Except Errno Unit) with e' | _
    · rcases (entries : Except Errno (List Bytes × Bool)) with e | ⟨names, eof⟩
      · exact SafeEx.throw trivial
      · exact SafeEx.throw trivial
    · rcases (entries : Except Errno (List Bytes × Bool)) with e | ⟨names, eof⟩
      · exact SafeEx.throw trivial
      · refine SafeEx.mono (fun _ v hv name hname => ?_) (fun _ _ _ => trivial) (Tidies.frame
          (stable_listed area.directory _) hlisted (cleans_removeAreaEntries harea names))
        by_cases hmem : name ∈ names
        · exact hv.1 name hmem hname
        · exact hv.2 _ rfl name hmem

theorem cleans_removeAreas {areas : List TransientArea}
    (hareas : ∀ area ∈ areas, area ∈ transientAreas) :
    Cleans prefix_ i (removeAreas fuel prefix_ areas) (fun _ t => ∀ area ∈ areas, ∀ name,
      Selects prefix_ area name → Host.Absent (area.directory ++ [name]) t) (fun _ _ => True)
      h := by
  induction areas generalizing h with
  | nil => exact SafeEx.pure fun _ harea => absurd harea List.not_mem_nil
  | cons area areas ih =>
    obtain ⟨harea, hareas⟩ := List.forall_mem_cons.1 hareas
    refine SafeEx.seq (cleans_removeArea harea) fun _ t ht => ?_
    refine SafeEx.mono (fun _ u hu => ?_) (fun _ _ _ => trivial)
      (Tidies.frame (Stable.all fun _ _ => stable_absent _) ht (ih hareas))
    exact List.forall_mem_cons.2 ⟨hu.2, hu.1⟩

/-- **On success nothing is left that the cleanup selects.** -/
theorem cleans_removeOperationState :
    Cleans prefix_ i (removeOperationState fuel prefix_) (fun _ t => ∀ area ∈ transientAreas,
      ∀ name, Selects prefix_ area name → Host.Absent (area.directory ++ [name]) t)
      (fun _ _ => True) h := by
  refine SafeEx.bind (SafeEx.ofExcept ?_)
  cases validateOperationPrefix prefix_ with
  | error e => trivial
  | ok => exact cleans_removeAreas fun _ harea => harea

end Areas

end Kama.Artifact.Descriptors
