import Mathlib.Data.List.Sort
import Kama.Foundations.Reader
import Kama.Artifact.Manifest

/-!
# Selected files

`NormalizeSelectedFiles` of `manifest.go`. The files of a publication share a directory tree with
`manifest.json` and `READY`, so a set of names can be laid out only if none of them lies below
another (`LaidOut`).

The source reserves the two names as whole paths and looks at the extension of the last component
only. A path such as `READY/x.gguf` passes, and so do `a.gguf` and `a.gguf/b.gguf` together.
-/

namespace Kama.Artifact

open Bytes Reader

/-- `path.Ext`: the last component from its last dot on. -/
def pathExt (p : Bytes) : Bytes :=
  let base := (splitSlash p).getLastD []
  let tail := (base.reverse.takeWhile (· ≠ 46)).reverse
  if tail.length = base.length then [] else 46 :: tail

def toLower (b : UInt8) : UInt8 := if isUpper b then b + 32 else b

/-- `strings.EqualFold(path.Ext(name), ".gguf")`. No letter outside ASCII folds to one of these. -/
def isGGUF (name : Bytes) : Bool := (pathExt name).map toLower == ascii ".gguf"

def validateSelectedFile (name : Bytes) : Except Err Unit := do
  (validateRelativePath name).mapError fun err =>
    .failure .unsafePath "validate selected file" (.wrap "%q: %w" [name] err)
  if name = manifestFilename ∨ name = readyFilename then
    throw (.failure .unsafePath "validate selected file" (.text "%q is reserved" [name]))
  if isGGUF name = false then
    throw (.failure .invalidGGUF "validate selected file" (.text "%q is not a GGUF file" [name]))

def validateSelectedFiles : List Bytes → Except Err Unit
  | [] => .ok ()
  | name :: names => do
    validateSelectedFile name
    validateSelectedFiles names

/-- The files that are asked for: without a selection, the entrypoint. -/
def requested (entrypoint : Bytes) (selected : List Bytes) : List Bytes :=
  if selected = [] then [entrypoint] else selected

def tooManyFiles (n : Nat) : Err :=
  .failure .invalidSpec "validate selected files" (.text "selected %d files, maximum is %d"
    [Json.natDigits n, Json.natDigits maxSelectedFiles])

/-- The keys of a Go map that was filled from a list, in the order in which they are gone
through. -/
structure Iteration where
  keys : List Bytes → List Bytes
  perm : ∀ names, (keys names).Perm names.dedup

/-- The order in which the keys were listed last. -/
def Iteration.listed : Iteration := ⟨List.dedup, fun _ => .refl _⟩

/-- `NormalizeSelectedFiles`, with the order in which it goes through its map. -/
def normalizeSelectedFilesIn (order : Iteration) (entrypoint : Bytes) (selected : List Bytes) :
    Except Err (List Bytes) := do
  (validateRelativePath entrypoint).mapError (.failure .unsafePath "validate entrypoint")
  let selected := requested entrypoint selected
  if maxSelectedFiles < selected.length then throw (tooManyFiles selected.length)
  validateSelectedFiles selected
  let unique := order.keys selected
  if entrypoint ∉ unique then
    throw (.failure .invalidSpec "validate selected files" (.new "entrypoint is not selected"))
  if maxSelectedFiles < unique.length then throw (tooManyFiles unique.length)
  pure (unique.insertionSort (· ≤ ·))

/-- The order does not matter: `normalizeSelectedFilesIn_eq`. -/
def normalizeSelectedFiles (entrypoint : Bytes) (selected : List Bytes) :
    Except Err (List Bytes) :=
  normalizeSelectedFilesIn .listed entrypoint selected

/-- Sorting takes away the order that a list had. -/
theorem insertionSort_eq_of_perm {l l' : List Bytes} (h : l.Perm l') :
    l.insertionSort (· ≤ ·) = l'.insertionSort (· ≤ ·) := by
  have hperm := ((l.perm_insertionSort (· ≤ ·)).trans h).trans (l'.perm_insertionSort (· ≤ ·)).symm
  exact hperm.eq_of_pairwise' (l.pairwise_insertionSort _) (l'.pairwise_insertionSort _)

theorem normalizeSelectedFilesIn_eq (order : Iteration) (entrypoint : Bytes)
    (selected : List Bytes) :
    normalizeSelectedFilesIn order entrypoint selected =
      normalizeSelectedFiles entrypoint selected := by
  have hperm := (order.perm (requested entrypoint selected)).trans
    (Iteration.listed.perm (requested entrypoint selected)).symm
  simp only [normalizeSelectedFiles, normalizeSelectedFilesIn, hperm.mem_iff, hperm.length_eq,
    insertionSort_eq_of_perm hperm]

/-! ## Layout -/

/-- `a` is a directory above `b`. -/
def Above (a b : Bytes) : Prop := splitSlash a <+: splitSlash b ∧ a ≠ b

instance (a b : Bytes) : Decidable (Above a b) := inferInstanceAs (Decidable (_ ∧ _))

/-- The names of files that can exist next to each other in one directory tree. -/
def LaidOut (names : List Bytes) : Prop := names.Nodup ∧ ∀ a ∈ names, ∀ b ∈ names, ¬Above a b

instance (names : List Bytes) : Decidable (LaidOut names) := inferInstanceAs (Decidable (_ ∧ _))

def reservedNames : List Bytes := [manifestFilename, readyFilename]

/-- Paths that are clear of the reserved names and of one another: none starts with a reserved
component, and none is followed by a slash in another. -/
def Apart (paths : List Bytes) : Prop :=
  (∀ p ∈ paths, ∀ name ∈ reservedNames, (splitSlash p).head? ≠ some name) ∧
    ∀ p ∈ paths, ∀ q ∈ paths, ¬ p ++ [47] <+: q

instance (paths : List Bytes) : Decidable (Apart paths) := inferInstanceAs (Decidable (_ ∧ _))

theorem getLastD_mem_splitSlash (p : Bytes) : (splitSlash p).getLastD [] ∈ splitSlash p := by
  rw [List.getLastD_eq_getLast?, List.getLast?_eq_some_getLast (splitSlash_ne_nil p)]
  exact List.getLast_mem _

theorem isGGUF_getLastD (p : Bytes) : isGGUF ((splitSlash p).getLastD []) = isGGUF p := by
  have hsplit := splitSlash_of_not_mem (not_mem_of_mem_splitSlash (getLastD_mem_splitSlash p))
  rw [isGGUF, isGGUF, pathExt, hsplit]
  rfl

/-- A directory above a path is what precedes one of its slashes. -/
theorem above_iff {a b : Bytes} : Above a b ↔ a ++ [47] <+: b := by
  rw [Above, splitSlash_prefix_iff]
  constructor
  · rintro ⟨hab | hab, hne⟩
    · exact absurd hab hne
    · exact hab
  · intro hab
    refine ⟨.inr hab, ?_⟩
    rintro rfl
    have hlength := hab.length_le
    rw [List.length_append, List.length_singleton] at hlength
    omega

theorem splitSlash_reserved {name : Bytes} (h : name ∈ reservedNames) :
    splitSlash name = [name] := by
  revert h name
  decide

/-- Nothing lies above a single component. -/
theorem not_above_reserved {a b : Bytes} (hb : b ∈ reservedNames) : ¬Above a b := by
  intro hab
  have hslash : (47 : UInt8) ∈ b := (above_iff.1 hab).subset (by simp)
  exact not_mem_of_mem_splitSlash (splitSlash_reserved hb ▸ List.mem_singleton_self b) hslash

/-- A path starts with a reserved component when it is the reserved name or lies below it. -/
theorem head?_eq_reserved_iff {name p : Bytes} (h : name ∈ reservedNames) :
    (splitSlash p).head? = some name ↔ name = p ∨ Above name p := by
  have hhead : (splitSlash p).head? = some name ↔ splitSlash name <+: splitSlash p := by
    rw [splitSlash_reserved h]
    cases splitSlash p with
    | nil => simp
    | cons c cs => simp [eq_comm]
  rw [hhead, splitSlash_prefix_iff, above_iff]

/-- The part of the layout that the names alone decide. -/
theorem laidOut_iff_apart {names : List Bytes} (hnodup : names.Nodup) :
    LaidOut (names ++ reservedNames) ↔ Apart names := by
  constructor
  · rintro ⟨hdistinct, habove⟩
    refine ⟨fun p hp name hname hhead => ?_, fun p hp q hq hpq => ?_⟩
    · rcases (head?_eq_reserved_iff hname).1 hhead with rfl | hbelow
      · exact (List.nodup_append.1 hdistinct).2.2 name hp name hname rfl
      · exact habove name (List.mem_append_right _ hname) p (List.mem_append_left _ hp) hbelow
    · exact habove p (List.mem_append_left _ hp) q (List.mem_append_left _ hq) (above_iff.2 hpq)
  · rintro ⟨hreserved, hprefix⟩
    refine ⟨List.nodup_append.2 ⟨hnodup, by decide, ?_⟩, fun a ha b hb hab => ?_⟩
    · rintro p hp _ hname rfl
      exact hreserved p hp p hname ((head?_eq_reserved_iff hname).2 (.inl rfl))
    rcases List.mem_append.1 hb with hb | hb
    · rcases List.mem_append.1 ha with ha | ha
      · exact hprefix a ha b hb (above_iff.1 hab)
      · exact hreserved b hb a ha ((head?_eq_reserved_iff ha).2 (.inr hab))
    · exact not_above_reserved hb hab

/-- What `normalizeSelectedFiles` returns: the requested files, each once. -/
theorem normalizeSelectedFiles_ok {entrypoint : Bytes} {selected files : List Bytes}
    (h : normalizeSelectedFiles entrypoint selected = .ok files) :
    files.Nodup ∧ ∀ p, p ∈ files ↔ p ∈ requested entrypoint selected := by
  obtain ⟨_, -, h⟩ := except_bind_eq_ok.1 h
  obtain ⟨-, h⟩ := except_refuse_eq_ok.1 h
  obtain ⟨_, hvalid, h⟩ := except_bind_eq_ok.1 h
  obtain ⟨-, h⟩ := except_refuse_eq_ok.1 h
  obtain ⟨-, h⟩ := except_refuse_eq_ok.1 h
  cases h
  have hperm := (requested entrypoint selected).dedup.perm_insertionSort (· ≤ ·)
  have hmem : ∀ p, p ∈ (requested entrypoint selected).dedup.insertionSort (· ≤ ·) ↔
      p ∈ requested entrypoint selected := by
    intro p
    rw [hperm.mem_iff, List.mem_dedup]
  exact ⟨hperm.nodup_iff.2 (List.nodup_dedup _), hmem⟩

theorem Apart.congr {paths paths' : List Bytes} (h : ∀ p, p ∈ paths ↔ p ∈ paths') :
    Apart paths ↔ Apart paths' := by
  simp only [Apart, h]

/-- **Which accepted file sets can be laid out.** Of the sets that `NormalizeSelectedFiles` and
`ValidateManifest` accept, exactly those whose paths are clear of the reserved names and of one
another: the extension and the comparison of whole paths do not enter. -/
theorem laidOut_iff_of_accepted (entrypoint : Bytes) (selected files : List Bytes) (m : Manifest) :
    (normalizeSelectedFiles entrypoint selected = .ok files →
      (LaidOut (files ++ reservedNames) ↔ Apart (requested entrypoint selected))) ∧
    (validateManifest m = .ok () →
      (LaidOut (m.files.map FileRecord.path ++ reservedNames) ↔
        Apart (m.files.map FileRecord.path))) := by
  refine ⟨fun h => ?_, fun h => laidOut_iff_apart ?_⟩
  · obtain ⟨hnodup, hmem⟩ := normalizeSelectedFiles_ok h
    rw [laidOut_iff_apart hnodup, Apart.congr hmem]
  · refine (validateManifest_ok h).sorted.imp ?_
    rintro p _ hlt rfl
    exact List.lt_irrefl p hlt

/-- A manifest of one file at this path. -/
def manifestAt (path : Bytes) : Manifest :=
  ⟨schemaVersion, formatGGUF, path, [⟨path, 1, List.replicate 64 48⟩]⟩

/-- Two files in a directory of their own, one in a directory named like a file, and a manifest of a
file without the extension. -/
theorem laidOut_iff_of_accepted_small :
    LaidOut ([ascii "q/a.gguf", ascii "q/b.GGUF"] ++ reservedNames) ∧
      LaidOut ([ascii "x.gguf/y.gguf"] ++ reservedNames) ∧
      LaidOut ((manifestAt (ascii "a.bin")).files.map FileRecord.path ++ reservedNames) := by
  have hshards := laidOut_iff_of_accepted (ascii "q/a.gguf") [ascii "q/b.GGUF", ascii "q/a.gguf"]
    [ascii "q/a.gguf", ascii "q/b.GGUF"] (manifestAt (ascii "a.bin"))
  have hnested := laidOut_iff_of_accepted (ascii "x.gguf/y.gguf") [] [ascii "x.gguf/y.gguf"]
    (manifestAt (ascii "a.bin"))
  refine ⟨(hshards.1 ?_).2 ?_, (hnested.1 ?_).2 ?_, (hshards.2 ?_).2 ?_⟩ <;> decide +kernel

/-- Names below each other and below or at a reserved name are accepted. -/
theorem accepted_not_laidOut :
    (normalizeSelectedFiles (ascii "a.gguf") [ascii "a.gguf", ascii "a.gguf/b.gguf"] =
        .ok [ascii "a.gguf", ascii "a.gguf/b.gguf"] ∧
      ¬LaidOut ([ascii "a.gguf", ascii "a.gguf/b.gguf"] ++ reservedNames)) ∧
    (normalizeSelectedFiles (ascii "READY/x.gguf") [] = .ok [ascii "READY/x.gguf"] ∧
      ¬LaidOut ([ascii "READY/x.gguf"] ++ reservedNames)) ∧
    validateManifest (manifestAt (ascii "READY")) = .ok () ∧
      ¬LaidOut ((manifestAt (ascii "READY")).files.map FileRecord.path ++ reservedNames) := by
  refine ⟨⟨?_, ?_⟩, ⟨?_, ?_⟩, ?_, ?_⟩ <;> decide +kernel

end Kama.Artifact
