import Kama.Foundations.Bytes
import Kama.Foundations.FileTree

/-!
# Errors, names and paths of the artifact package

* `Err` is the error chain of `types.go`: a `failure` wraps its cause, and code looks at a chain
  with `Err.isNotExist` (`errors.Is(err, os.ErrNotExist)`) and `failureReason`.
* `validateRelativePath` is the path check of `path_linux.go`, with `path.Clean` under it. A clean
  relative path is its list of components, and `validatePath` is the same check on components:
  `validatePath_eq_ok` says that it is a check of each component.
* `operationIDPattern` and `validateOperationPrefix` bound the identifiers in file names.

An error text with arguments is kept as the format and its arguments.
-/

namespace Kama.Artifact

open Bytes FileTree

/-! ## Errors -/

inductive Reason
  | invalidSpec
  | unsafePath
  | sourceUnavailable
  | unauthorized
  | checksumMismatch
  | invalidGGUF
  | missingShard
  | insufficientStorage
  | ioFailure
  | publicationConflict
  deriving DecidableEq, Repr

inductive Err
  | errno (e : Errno)
  /-- `errors.New` and `fmt.Errorf` without a wrapped error -/
  | text (format : String) (arguments : List Bytes)
  /-- `fmt.Errorf` with a wrapped error -/
  | wrap (format : String) (arguments : List Bytes) (cause : Err)
  /-- `errors.Join` of two errors -/
  | join (left right : Err)
  /-- the `Error` of `types.go` -/
  | failure (reason : Reason) (op : String) (cause : Err)
  deriving DecidableEq, Repr

namespace Err

def new (message : String) : Err := text message []

/-- `errors.Is(err, target)` for an error number. -/
def is (target : Errno) : Err → Bool
  | errno e => e == target
  | text _ _ => false
  | wrap _ _ cause => cause.is target
  | join left right => left.is target || right.is target
  | failure _ _ cause => cause.is target

/-- `errors.Is(err, os.ErrNotExist)`. -/
def isNotExist (err : Err) : Bool := err.is .ENOENT

/-- The reason of the first `Error` in the chain. -/
def firstReason : Err → Option Reason
  | errno _ | text _ _ => none
  | wrap _ _ cause => cause.firstReason
  | join left right => left.firstReason <|> right.firstReason
  | failure reason _ _ => some reason

end Err

/-- `FailureReason`. -/
def failureReason (err : Err) : Reason := err.firstReason.getD .ioFailure

def classifyStorageError (op : String) (err : Err) : Err :=
  if err.is .ENOSPC || err.is .EDQUOT then .failure .insufficientStorage op err
  else .failure .ioFailure op err

def unsafePath (op : String) (e : Errno) : Err := .failure .unsafePath op (.errno e)

def ioFailure (op : String) (e : Errno) : Err := .failure .ioFailure op (.errno e)

def storageError (op : String) (e : Errno) : Err := classifyStorageError op (.errno e)

@[simp] theorem Err.isNotExist_failure (reason : Reason) (op : String) (cause : Err) :
    (Err.failure reason op cause).isNotExist = cause.isNotExist := rfl

@[simp] theorem Err.isNotExist_errno (e : Errno) :
    (Err.errno e).isNotExist = (e == .ENOENT) := rfl

@[simp] theorem isNotExist_classifyStorageError (op : String) (err : Err) :
    (classifyStorageError op err).isNotExist = err.isNotExist := by
  unfold classifyStorageError
  split <;> rfl

/-! ## Paths -/

/-- One component of `path.Clean`: empty and `.` components vanish and `..` takes the previous
component with it, where there is one. The components so far are in reverse order. -/
def cleanStep (rooted : Bool) (stack : List Bytes) (component : Bytes) : List Bytes :=
  if component = [] ∨ component = ascii "." then stack
  else if component = ascii ".." then
    match stack with
    | [] => if rooted then [] else [component]
    | top :: rest => if top = ascii ".." then component :: stack else rest
  else component :: stack

/-- `path.Clean`. -/
def clean (s : Bytes) : Bytes :=
  let rooted := decide (s.head? = some 47)
  let body := joinSlash ((splitSlash s).foldl (cleanStep rooted) []).reverse
  if rooted then 47 :: body else if body = [] then ascii "." else body

/-- `path.Join` of two elements: `path.Clean` of those that are not empty, with a slash between
them. -/
def joinPath (a b : Bytes) : Bytes :=
  if a = [] ∧ b = [] then []
  else if a = [] then clean b
  else if b = [] then clean a
  else clean (a ++ 47 :: b)

def validateRelativePath (value : Bytes) : Except Err Unit :=
  if value = [] then .error (.new "path is empty")
  else if 0 ∈ value then .error (.new "path contains NUL")
  else if 92 ∈ value then .error (.new "path contains a backslash")
  else if value.head? = some 47 then .error (.new "path is absolute")
  else if clean value ≠ value ∨ value = ascii "." then .error (.new "path is not clean")
  else if (splitSlash value).any fun part => part = [] ∨ part = ascii "." ∨ part = ascii ".." then
    .error (.new "path contains an unsafe component")
  else .ok ()

/-- A component that `validateRelativePath` accepts. -/
def validComponent (c : Bytes) : Bool :=
  decide (c ≠ [] ∧ c ≠ ascii "." ∧ c ≠ ascii ".." ∧ 0 ∉ c ∧ 92 ∉ c ∧ 47 ∉ c)

/-- A path below a root, as its components. -/
abbrev Path := List Bytes

/-- `ValidateRelativePath` of the path with these components. -/
def validatePath (p : Path) : Except Err Unit := validateRelativePath (joinSlash p)

/-- The check of a path at the beginning of a function. -/
def validate {Op : Type} {Res : Op → Type} (op : String) (p : Path) :
    ExceptT Err (Program.Prog Op Res) Unit :=
  Program.check (.failure .unsafePath op) (validatePath p)

/-- Ignore that something is already gone. -/
def unlessNotExist {Op : Type} {Res : Op → Type} (p : ExceptT Err (Program.Prog Op Res) Unit) :
    ExceptT Err (Program.Prog Op Res) Unit := do
  match ← Program.attempt p with
  | .ok () => pure ()
  | .error e => if e.isNotExist then pure () else throw e

/-- A component that stands for itself in `path.Clean`. -/
def Proper (c : Bytes) : Prop := c ≠ [] ∧ c ≠ ascii "." ∧ c ≠ ascii ".."

instance (c : Bytes) : Decidable (Proper c) := inferInstanceAs (Decidable (_ ∧ _))

theorem proper_of_validComponent {c : Bytes} (h : validComponent c = true) : Proper c := by
  simp only [validComponent, decide_eq_true_eq] at h
  exact ⟨h.1, h.2.1, h.2.2.1⟩

theorem foldl_cleanStep_of_proper {cs : List Bytes} (h : ∀ c ∈ cs, Proper c) (rooted : Bool)
    (stack : List Bytes) : cs.foldl (cleanStep rooted) stack = cs.reverse ++ stack := by
  induction cs generalizing stack with
  | nil => rfl
  | cons c cs ih =>
    obtain ⟨hne, hdot, hdots⟩ := h c List.mem_cons_self
    have hstep : cleanStep rooted stack c = c :: stack := by
      simp [cleanStep, hne, hdot, hdots]
    rw [List.foldl_cons, hstep, ih fun d hd => h d (List.mem_cons_of_mem c hd), List.reverse_cons,
      List.append_assoc, List.singleton_append]

theorem clean_of_valid {value : Bytes} (h : ∀ c ∈ splitSlash value, validComponent c = true)
    (hne : value ≠ []) (hhead : value.head? ≠ some 47) : clean value = value := by
  unfold clean
  simp [hhead, foldl_cleanStep_of_proper fun c hc => proper_of_validComponent (h c hc),
    joinSlash_splitSlash, hne]

/-- **A path is accepted when each of its components is.** -/
theorem validateRelativePath_eq_ok_iff (value : Bytes) :
    validateRelativePath value = .ok () ↔ ∀ c ∈ splitSlash value, validComponent c = true := by
  constructor
  · intro h c hc
    unfold validateRelativePath at h
    split at h
    · simp at h
    split at h
    · simp at h
    rename_i hnul
    split at h
    · simp at h
    rename_i hback
    split at h
    · simp at h
    split at h
    · simp at h
    split at h
    · simp at h
    rename_i hparts
    simp only [List.any_eq_true, decide_eq_true_eq, not_exists, not_and] at hparts
    have hpart := hparts c hc
    push Not at hpart
    simp only [validComponent, decide_eq_true_eq]
    refine ⟨hpart.1, hpart.2.1, hpart.2.2, fun h0 => hnul ?_, fun h92 => hback ?_,
      not_mem_of_mem_splitSlash hc⟩
    · exact (mem_iff_splitSlash (by decide)).2 ⟨c, hc, h0⟩
    · exact (mem_iff_splitSlash (by decide)).2 ⟨c, hc, h92⟩
  · intro h
    have hvalid : ∀ c ∈ splitSlash value, c ≠ [] ∧ c ≠ ascii "." ∧ c ≠ ascii ".." ∧
        0 ∉ c ∧ 92 ∉ c ∧ 47 ∉ c := fun c hc => by simpa [validComponent] using h c hc
    have hne : value ≠ [] := by
      rintro rfl
      exact (hvalid [] (by simp [splitSlash])).1 rfl
    have hhead : value.head? ≠ some 47 := by
      intro hhead
      obtain ⟨rest, rfl⟩ : ∃ rest, value = 47 :: rest := by
        cases value with
        | nil => simp at hhead
        | cons b rest => exact ⟨rest, by simpa using hhead⟩
      exact (hvalid [] (by simp [splitSlash])).1 rfl
    have hnul : (0 : UInt8) ∉ value := fun h0 => by
      obtain ⟨c, hc, hmem⟩ := (mem_iff_splitSlash (by decide)).1 h0
      exact (hvalid c hc).2.2.2.1 hmem
    have hback : (92 : UInt8) ∉ value := fun h92 => by
      obtain ⟨c, hc, hmem⟩ := (mem_iff_splitSlash (by decide)).1 h92
      exact (hvalid c hc).2.2.2.2.1 hmem
    have hdot : value ≠ ascii "." := by
      rintro rfl
      exact (hvalid (ascii ".") (by decide)).2.1 rfl
    have hparts : (splitSlash value).any (fun part =>
        part = [] ∨ part = ascii "." ∨ part = ascii "..") = false := by
      rw [List.any_eq_false]
      intro c hc
      simpa using ⟨(hvalid c hc).1, (hvalid c hc).2.1, (hvalid c hc).2.2.1⟩
    unfold validateRelativePath
    rw [if_neg hne, if_neg hnul, if_neg hback, if_neg hhead,
      if_neg (by simpa [clean_of_valid h hne hhead] using hdot), if_neg (by rw [hparts]; simp)]

theorem validatePath_eq_ok {p : Path} (hne : p ≠ []) (h : ∀ c ∈ p, validComponent c = true) :
    validatePath p = .ok () := by
  have hslash : ∀ c ∈ p, (47 : UInt8) ∉ c := fun c hc => by
    have hc := h c hc
    simp only [validComponent, decide_eq_true_eq] at hc
    exact hc.2.2.2.2.2
  rw [validatePath, validateRelativePath_eq_ok_iff, splitSlash_joinSlash hne hslash]
  exact h

/-! ## Operation identifiers -/

def isOperationByte (b : UInt8) : Bool := isAlphanumeric b || b == 95 || b == 46 || b == 45

/-- `^[A-Za-z0-9][A-Za-z0-9_.-]{0,127}$`. -/
def operationIDPattern (s : Bytes) : Bool :=
  match s with
  | [] => false
  | b :: rest => isAlphanumeric b && decide (rest.length ≤ 127) && rest.all isOperationByte

def validateOperationID (operationID : Bytes) : Except Err Unit :=
  if operationIDPattern operationID then .ok ()
  else .error (.failure .invalidSpec "validate operation ID" (.new
    ("operationID must be 1-128 letters, digits, dots, underscores, or hyphens " ++
      "and start with a letter or digit")))

def validateOperationPrefix (name : Bytes) : Except Err Unit :=
  let base := (cutSuffix name (ascii "-")).getD name
  if ¬ ascii "-" <:+ name ∨ base = [] ∨ 108 < name.length ∨ operationIDPattern base = false then
    .error (.failure .invalidSpec "validate operation prefix"
      (.new "operationPrefix must be a bounded operation identifier ending in a hyphen"))
  else .ok ()

end Kama.Artifact
