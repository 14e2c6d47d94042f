import Kama.Foundations.FileTree

/-!
# Calls on a file tree

* `FsOp` are the calls on whole paths, `FsOp.run` their meaning, and `FsOp.kernel` the system that
  answers them.
* `FsOp.Effect` says once what a call can do to the tree; `run_replace`, `run_mkdir` and their
  like say when it does it.
* `FsOp.Touches` are the paths at which a call can change something.
* `FsOp.Steady` and `safe_look` are the rule for calls that only look.
-/

namespace Kama.FileTree

open Program

/-- The calls, each on whole paths. -/
inductive FsOp (ν β : Type)
  | mkdir (p : List ν)
  | openDir (p : List ν)
  | syncDir (p : List ν)
  | readDir (p : List ν)
  | stat (p : List ν)
  | readFile (p : List ν)
  | syncFile (p : List ν)
  /-- put a file in place by a rename, whether or not there was one -/
  | replace (p : List ν) (content : β)
  | rename (p q : List ν)
  | unlink (p : List ν)
  | rmdir (p : List ν)

namespace FsOp

variable {ν β : Type}

/-- What a call answers: `readFile` answers `none` for something that is not a regular file,
`stat` says whether the path is a directory. -/
def Res : FsOp ν β → Type
  | .readDir _ => Except Errno (List ν)
  | .stat _ => Except Errno Bool
  | .readFile _ | .syncFile _ => Except Errno (Option β)
  | _ => Except Errno Unit

variable [DecidableEq ν]

/-- The target of a rename admits a directory, or a file. -/
def renameTarget (t : Tree ν β) (node : Node β) (q : List ν) : Except Errno Unit :=
  match node, t.get q with
  | _, none => .ok ()
  | .dir, some .dir => if t.children q = [] then .ok () else .error .ENOTEMPTY
  | .dir, some _ => .error .ENOTDIR
  | _, some .dir => .error .EISDIR
  | _, some _ => .ok ()

/-- `renameat`, after both parents have been opened. -/
def runRename (t : Tree ν β) (p q : List ν) : Except Errno (Tree ν β) :=
  match t.get p with
  | none => .error .ENOENT
  | some node =>
    if p = q then .ok t
    else if p <+: q then .error .EINVAL
    else if q <+: p then .error .ENOTEMPTY
    else (renameTarget t node q).map fun _ => t.move p q

def readNode (t : Tree ν β) (p : List ν) : Except Errno (Option β) :=
  match t.checkDir p.dropLast, t.get p with
  | .error e, _ => .error e
  | .ok _, none => .error .ENOENT
  | .ok _, some (.file content) => .ok (some content)
  | .ok _, some _ => .ok none

/-- The answer of a call that changes the tree, and the tree. -/
def answer (t : Tree ν β) : Except Errno (Tree ν β) → Except Errno Unit × Tree ν β
  | .error e => (.error e, t)
  | .ok t' => (.ok (), t')

def runMkdir (t : Tree ν β) (p : List ν) : Except Errno (Tree ν β) :=
  match t.checkDir p.dropLast, t.get p with
  | .error e, _ => .error e
  | .ok _, some _ => .error .EEXIST
  | .ok _, none => .ok (t.put p .dir)

def runReplace (t : Tree ν β) (p : List ν) (content : β) : Except Errno (Tree ν β) :=
  match t.checkDir p.dropLast, t.get p with
  | .error e, _ => .error e
  | .ok _, some .dir => .error .EISDIR
  | .ok _, _ => .ok (t.put p (.file content))

def runUnlink (t : Tree ν β) (p : List ν) : Except Errno (Tree ν β) :=
  match t.checkDir p.dropLast, t.get p with
  | .error e, _ => .error e
  | .ok _, none => .error .ENOENT
  | .ok _, some .dir => .error .EISDIR
  | .ok _, some _ => .ok (t.erase p)

def runRmdir (t : Tree ν β) (p : List ν) : Except Errno (Tree ν β) :=
  match t.checkDir p.dropLast, t.get p with
  | .error e, _ => .error e
  | .ok _, none => .error .ENOENT
  | .ok _, some .dir =>
    if p = [] then .error .EINVAL
    else if t.children p = [] then .ok (t.erase p) else .error .ENOTEMPTY
  | .ok _, some _ => .error .ENOTDIR

/-- The meaning of the calls. -/
def run (t : Tree ν β) : (op : FsOp ν β) → op.Res × Tree ν β
  | .mkdir p => answer t (runMkdir t p)
  | .openDir p | .syncDir p => (t.checkDir p, t)
  | .readDir p => ((t.checkDir p).map fun _ => t.children p, t)
  | .stat p =>
    (match t.checkDir p.dropLast, t.get p with
      | .error e, _ => .error e
      | .ok _, none => .error .ENOENT
      | .ok _, some node => .ok (match node with | .dir => true | _ => false), t)
  | .readFile p | .syncFile p => (readNode t p, t)
  | .replace p content => answer t (runReplace t p content)
  | .rename p q =>
    answer t (do
      t.checkDir p.dropLast
      t.checkDir q.dropLast
      runRename t p q)
  | .unlink p => answer t (runUnlink t p)
  | .rmdir p => answer t (runRmdir t p)

/-- The system that answers the calls. Nothing is lost when a process ends. -/
def kernel : Kernel (FsOp ν β) Res Unit (Tree ν β) where
  exec _ op _ t := some (op.run t)
  reap _ t := t

/-! ### What a call can do -/

/-- What a call can do to the tree. -/
inductive Effect (t : Tree ν β) : FsOp ν β → Tree ν β → Prop
  | same (op : FsOp ν β) : Effect t op t
  | mkdir {p : List ν} (hp : t.get p = none) (hparent : t.get p.dropLast = some .dir) :
      Effect t (.mkdir p) (t.put p .dir)
  | replace {p : List ν} (content : β) (hp : t.get p ≠ some .dir)
      (hparent : t.get p.dropLast = some .dir) :
      Effect t (.replace p content) (t.put p (.file content))
  | unlink {p : List ν} {node : Node β} (hp : t.get p = some node) (hnode : node ≠ .dir) :
      Effect t (.unlink p) (t.erase p)
  | rmdir {p : List ν} (hne : p ≠ []) (hp : t.get p = some .dir)
      (hchildren : t.children p = []) : Effect t (.rmdir p) (t.erase p)
  | rename {p q : List ν} {node : Node β} (hp : t.get p = some node) (hpq : ¬ p <+: q)
      (hqp : ¬ q <+: p) (hparent : t.get q.dropLast = some .dir)
      (htarget : renameTarget t node q = .ok ()) : Effect t (.rename p q) (t.move p q)

variable {t : Tree ν β}

theorem run_mkdir (p : List ν) :
    (∃ e, run t (.mkdir p) = (.error e, t)) ∨ (run t (.mkdir p) = (.ok (), t.put p .dir) ∧
      t.get p = none ∧ t.get p.dropLast = some .dir) := by
  simp only [run, runMkdir]
  split
  · exact .inl ⟨_, rfl⟩
  · exact .inl ⟨_, rfl⟩
  · rename_i hdir hp
    exact .inr ⟨rfl, hp, Tree.get_of_checkDir hdir⟩

theorem run_replace (p : List ν) (content : β) :
    (∃ e, run t (.replace p content) = (.error e, t)) ∨
      (run t (.replace p content) = (.ok (), t.put p (.file content)) ∧ t.get p ≠ some .dir ∧
        t.get p.dropLast = some .dir) := by
  simp only [run, runReplace]
  split
  · exact .inl ⟨_, rfl⟩
  · exact .inl ⟨_, rfl⟩
  · rename_i hdir hp
    exact .inr ⟨rfl, hp, Tree.get_of_checkDir hdir⟩

theorem run_unlink (p : List ν) :
    (∃ e, run t (.unlink p) = (.error e, t)) ∨ (run t (.unlink p) = (.ok (), t.erase p) ∧
      ∃ node, t.get p = some node ∧ node ≠ .dir) := by
  simp only [run, runUnlink]
  split
  · exact .inl ⟨_, rfl⟩
  · exact .inl ⟨_, rfl⟩
  · exact .inl ⟨_, rfl⟩
  · rename_i node hnode _ hp
    exact .inr ⟨rfl, node, hp, hnode⟩

theorem run_rmdir (p : List ν) :
    (∃ e, run t (.rmdir p) = (.error e, t)) ∨ (run t (.rmdir p) = (.ok (), t.erase p) ∧
      p ≠ [] ∧ t.get p = some .dir ∧ t.children p = []) := by
  simp only [run, runRmdir]
  split
  · exact .inl ⟨_, rfl⟩
  · exact .inl ⟨_, rfl⟩
  · rename_i hp
    split
    · exact .inl ⟨_, rfl⟩
    split
    · rename_i hne hchildren
      exact .inr ⟨rfl, hne, hp, hchildren⟩
    · exact .inl ⟨_, rfl⟩
  · exact .inl ⟨_, rfl⟩

theorem run_rename {p q : List ν} (hne : p ≠ q) :
    (∃ e, run t (.rename p q) = (.error e, t)) ∨ (run t (.rename p q) = (.ok (), t.move p q) ∧
      ¬ p <+: q ∧ ¬ q <+: p ∧ t.get q.dropLast = some .dir ∧
      ∃ node, t.get p = some node ∧ renameTarget t node q = .ok ()) := by
  simp only [run]
  cases hdir : t.checkDir p.dropLast with
  | error e => exact .inl ⟨e, rfl⟩
  | ok u =>
    cases hdir' : t.checkDir q.dropLast with
    | error e => exact .inl ⟨e, rfl⟩
    | ok u =>
      simp only [bind, Except.bind, runRename]
      split
      · exact .inl ⟨_, rfl⟩
      · rename_i node hp
        rw [if_neg hne]
        split
        · exact .inl ⟨_, rfl⟩
        split
        · exact .inl ⟨_, rfl⟩
        rename_i hpq hqp
        cases htarget : renameTarget t node q with
        | error e => exact .inl ⟨e, rfl⟩
        | ok u => exact .inr ⟨rfl, hpq, hqp, Tree.get_of_checkDir hdir', node, hp, htarget⟩

theorem run_rename_self (p : List ν) : (run t (.rename p p)).2 = t := by
  simp only [run]
  cases t.checkDir p.dropLast with
  | error e => rfl
  | ok u =>
    simp only [bind, Except.bind, runRename]
    cases t.get p <;> simp [answer]

theorem run_effect (op : FsOp ν β) : Effect t op (run t op).2 := by
  cases op with
  | mkdir p =>
    rcases run_mkdir (t := t) p with ⟨e, h⟩ | ⟨h, hp, hparent⟩
    · rw [h]
      exact .same _
    · rw [h]
      exact .mkdir hp hparent
  | replace p content =>
    rcases run_replace (t := t) p content with ⟨e, h⟩ | ⟨h, hp, hparent⟩
    · rw [h]
      exact .same _
    · rw [h]
      exact .replace content hp hparent
  | unlink p =>
    rcases run_unlink (t := t) p with ⟨e, h⟩ | ⟨h, node, hp, hnode⟩
    · rw [h]
      exact .same _
    · rw [h]
      exact .unlink hp hnode
  | rmdir p =>
    rcases run_rmdir (t := t) p with ⟨e, h⟩ | ⟨h, hne, hp, hchildren⟩
    · rw [h]
      exact .same _
    · rw [h]
      exact .rmdir hne hp hchildren
  | rename p q =>
    by_cases hne : p = q
    · subst hne
      rw [run_rename_self]
      exact .same _
    · rcases run_rename (t := t) hne with ⟨e, h⟩ | ⟨h, hpq, hqp, hparent, node, hp, htarget⟩
      · rw [h]
        exact .same _
      · rw [h]
        exact .rename hp hpq hqp hparent htarget
  | openDir p | syncDir p | readDir p | stat p | readFile p | syncFile p => exact .same _

theorem ne_nil_of_get {p : List ν} (h : t.get p ≠ some .dir) : p ≠ [] := by
  rintro rfl
  exact h (Tree.get_nil t)

/-- Every call keeps the tree well formed. -/
theorem Effect.wf {op : FsOp ν β} {t' : Tree ν β} (h : Effect t op t') (hwf : t.Wf) : t'.Wf := by
  cases h with
  | same => exact hwf
  | mkdir hp hparent => exact hwf.put (ne_nil_of_get (t := t) (by simp [hp])) hparent (.inl rfl)
  | replace content hp hparent => exact hwf.put (ne_nil_of_get hp) hparent (.inr hp)
  | @unlink p node hp hnode =>
    have hne : t.get p ≠ some .dir := by simpa [hp] using hnode
    refine hwf.erase (ne_nil_of_get hne) fun name => ?_
    exact hwf.get_eq_none (List.prefix_append p [name]) (by simp) hne
  | rmdir hne hp hchildren =>
    exact hwf.erase hne (Tree.get_eq_none_of_children_nil hchildren)
  | rename hp hpq hqp hparent htarget => exact hwf.move hpq hqp hparent

/-- The paths at which a call can change something. -/
def Touches : FsOp ν β → List ν → Prop
  | .mkdir p, q | .replace p _, q | .unlink p, q | .rmdir p, q => q = p
  | .rename p p', q => p <+: q ∨ p' <+: q
  | _, _ => False

/-- What a call does not touch stays. -/
theorem Effect.get_of_not_touches {op : FsOp ν β} {t' : Tree ν β} {q : List ν}
    (h : Effect t op t') (hq : ¬ Touches op q) : t'.get q = t.get q := by
  cases h with
  | same => rfl
  | @mkdir p hp hparent =>
    have hqp : q ≠ p := hq
    rw [Tree.get_put t (ne_nil_of_get (t := t) (by simp [hp])), if_neg hqp]
  | @replace p content hp hparent =>
    have hqp : q ≠ p := hq
    rw [Tree.get_put t (ne_nil_of_get hp), if_neg hqp]
  | @unlink p node hp hnode =>
    have hqp : q ≠ p := hq
    have hne : t.get p ≠ some .dir := by simpa [hp] using hnode
    rw [Tree.get_erase t (ne_nil_of_get hne), if_neg hqp]
  | @rmdir p hne hp hchildren =>
    have hqp : q ≠ p := hq
    rw [Tree.get_erase t hne, if_neg hqp]
  | rename hp hpq hqp hparent htarget =>
    rw [Tree.get_move t hpq hqp, if_neg fun h => hq (.inr h), if_neg fun h => hq (.inl h)]

/-! ### Calls that only look -/

def Reads : FsOp ν β → Prop
  | .openDir _ | .syncDir _ | .readDir _ | .stat _ | .readFile _ | .syncFile _ => True
  | _ => False

theorem run_of_reads {op : FsOp ν β} (h : op.Reads) (t : Tree ν β) : (run t op).2 = t := by
  cases op with
  | openDir | syncDir | readDir | stat | readFile | syncFile => rfl
  | mkdir | replace | rename | unlink | rmdir => exact h.elim

theorem Effect.eq_of_reads {op : FsOp ν β} {t' : Tree ν β} (hop : op.Reads) (h : Effect t op t') :
    t' = t := by
  cases h with
  | same => rfl
  | mkdir | replace | unlink | rmdir | rename => exact hop.elim

/-- A fact that the other processes keep, in a contract that allows to look. -/
structure Steady (C : Contract (FsOp ν β) (Tree ν β)) (L : Tree ν β → Prop) : Prop where
  wf : ∀ {s}, C.inv s → s.Wf
  guar : ∀ {s op}, C.inv s → C.guar s op s
  rely : ∀ {pending s s'}, C.rely pending s s' → C.inv s' → L s → L s'

section Looking

variable {C : Contract (FsOp ν β) (Tree ν β)} {L : Tree ν β → Prop} {i : Pid} {δ : Type}
  {E : δ → Tree ν β → Prop} {s : Tree ν β}

theorem safe_look {op : FsOp ν β} {Q : op.Res → Tree ν β → Prop} (hop : op.Reads)
    (hL : Steady C L) (hs : L s) (hQ : ∀ s', C.inv s' → L s' → Q (run s' op).1 s') :
    SafeEx kernel i C (ExceptT.lift (Prog.perform op) : ExceptT δ _ _) Q E s := by
  refine SafeEx.lift fun s' hs' hinv _ r t hexec => ?_
  have hrun : run s' op = (r, t) := Option.some.inj hexec
  have ht : t = s' := by rw [← run_of_reads hop s', hrun]
  have hr : (run s' op).1 = r := by rw [hrun]
  subst ht hr
  exact ⟨hinv, hL.guar hinv, hQ _ hinv (hL.rely hs' hinv hs)⟩

end Looking

/-- The contract of a process that is alone and only looks. -/
def still (s : Tree ν β) : Contract (FsOp ν β) (Tree ν β) where
  inv t := t = s
  rely _ t u := t = u
  guar _ _ _ := True
  rely_refl _ _ := rfl
  rely_trans := Eq.trans

theorem still_steady {s : Tree ν β} (hwf : s.Wf) : Steady (still s) fun _ => True :=
  ⟨fun h => h ▸ hwf, fun _ => trivial, fun _ _ _ => trivial⟩

/-- What code returns that only looks and cannot fail. -/
theorem eval_still {s : Tree ν β} {δ α : Type} {p : ExceptT δ (Prog (FsOp ν β) Res) α}
    {Q : α → Tree ν β → Prop} (h : SafeEx kernel 0 (still s) p Q (fun _ _ => False) s) :
    ∃ a, (p.run.eval run s).1 = .ok a ∧ Q a s := by
  obtain ⟨hstate, hends⟩ := Safe.eval () (fun _ _ => rfl) rfl h.run
  have hstate' : (p.run.eval run s).2 = s := hstate
  rw [hstate'] at hends
  cases hr : (p.run.eval run s).1 with
  | error e =>
    rw [hr] at hends
    exact hends.elim
  | ok a =>
    rw [hr] at hends
    exact ⟨a, rfl, hends⟩

/-! ### Evaluating code that only looks -/

section Look

variable {δ α γ : Type}

/-- The result of the code on a tree that nobody changes. -/
def look (p : ExceptT δ (Prog (FsOp ν β) Res) α) (t : Tree ν β) : Except δ α :=
  (p.run.eval run t).1

theorem eval_snd_of_reads {p : Prog (FsOp ν β) Res α} (h : p.All Reads) (t : Tree ν β) :
    (p.eval run t).2 = t := by
  induction p generalizing t with
  | ret a => rfl
  | call op next ih =>
    have hsame := run_of_reads h.1 t
    refine (ih _ (h.2 _) _).trans hsame

theorem look_bind {p : ExceptT δ (Prog (FsOp ν β) Res) α}
    {f : α → ExceptT δ (Prog (FsOp ν β) Res) γ} (hp : Calls Reads p) (t : Tree ν β) :
    look (p >>= f) t = (look p t >>= fun a => look (f a) t) := by
  have heval := Prog.eval_bind run p.run (fun r => match r with
    | .ok a => (f a).run
    | .error e => pure (.error e)) t
  rw [eval_snd_of_reads hp t] at heval
  change (Prog.eval run _ t).1 = _
  refine (congrArg Prod.fst heval).trans ?_
  unfold look
  cases (Prog.eval run p.run t).1 with
  | error e => rfl
  | ok a => rfl

theorem look_bind_ok {p : ExceptT δ (Prog (FsOp ν β) Res) α}
    {f : α → ExceptT δ (Prog (FsOp ν β) Res) γ} {t : Tree ν β} {c : γ}
    (h : look (p >>= f) t = .ok c) (hp : Calls Reads p) :
    ∃ a, look p t = .ok a ∧ look (f a) t = .ok c := by
  rw [look_bind hp] at h
  cases hr : look p t with
  | error e => rw [hr] at h; cases h
  | ok a => rw [hr] at h; exact ⟨a, rfl, h⟩

end Look

end FsOp

end Kama.FileTree
