import Kama.Foundations.Utf8

/-!
# Matching paths against patterns

`pathMatch` is Go's `path.Match`: a pattern falls into chunks, each a row of literal bytes, `?`
and classes with stars in front of it, and the chunks are placed from left to right. The only
error is a malformed pattern, and a chunk is read to its end also where the name does not match.

* `readable`: a chunk of the pattern can be read.
* `isSome_pathMatch`: the pattern is an error for one name when it is an error for all.
* `isSome_pathMatch_of_plain`: a pattern without special characters is no error.
-/

namespace Kama.PathMatch

open Utf8

/-- A character of a class, with an optional backslash; something has to follow it. -/
def getEsc (chunk : Bytes) : Option (Nat × Bytes) :=
  match chunk with
  | [] => none
  | b :: rest =>
    if b = 45 ∨ b = 93 then none
    else
      match decodeRune (if b = 92 then rest else chunk) with
      | none => none
      | some (.bad _, _) => none
      | some (.char c, next) => if next = [] then none else some (codePoint c, next)

/-- One range of a class. -/
def getRange (chunk : Bytes) : Option ((Nat × Nat) × Bytes) := do
  let (low, chunk) ← getEsc chunk
  if chunk.head? = some 45 then
    let (high, chunk) ← getEsc chunk.tail
    pure ((low, high), chunk)
  else pure ((low, low), chunk)

/-- The ranges of a class up to its closing bracket, of which there is at least one, and what
follows. Each range takes a byte, so the length of the chunk is enough fuel. -/
def getClass : Nat → Bool → Bytes → Option (List (Nat × Nat) × Bytes)
  | 0, _, _ => none
  | fuel + 1, first, chunk =>
    if first = false ∧ chunk.head? = some 93 then some ([], chunk.tail)
    else do
      let (range, chunk) ← getRange chunk
      let (ranges, chunk) ← getClass fuel false chunk
      pure (range :: ranges, chunk)

/-- One element of a chunk. -/
inductive Element
  | byte (b : UInt8)
  | any
  | range (negated : Bool) (ranges : List (Nat × Nat))

/-- The first element of a chunk and what follows it; an error if it is malformed. -/
def getElement (b : UInt8) (rest : Bytes) : Option (Element × Bytes) :=
  if b = 91 then
    let negated := decide (rest.head? = some 94)
    let body := if negated then rest.tail else rest
    (getClass (body.length + 1) true body).map fun r => (.range negated r.1, r.2)
  else if b = 63 then some (.any, rest)
  else if b = 92 then
    match rest with
    | [] => none
    | c :: rest => some (.byte c, rest)
  else some (.byte b, rest)

/-- Match one element at the front of a name. -/
def Element.take : Element → Bytes → Option Bytes
  | .byte b, name => if name.head? = some b then some name.tail else none
  | .any, name =>
    if name.head? = some 47 then none else (decodeRune name).map Prod.snd
  | .range negated ranges, name =>
    match decodeRune name with
    | none => none
    | some (piece, name) =>
      let inside := ranges.any fun r => r.1 ≤ piece.rune ∧ piece.rune ≤ r.2
      if inside = negated then none else some name

/-- `matchChunk`: what is left of the name, or `none` when the chunk does not match. Once it has
failed, the rest of the chunk is still read. -/
def matchFrom : Nat → Bytes → Option Bytes → Option (Option Bytes)
  | 0, _, name => some name
  | _ + 1, [], name => some name
  | fuel + 1, b :: rest, name => do
    let (element, rest) ← getElement b rest
    matchFrom fuel rest (name.bind element.take)

def matchChunk (chunk name : Bytes) : Option (Option Bytes) :=
  matchFrom chunk.length chunk (some name)

/-- The chunk up to the next star outside of a class, and the rest of the pattern. -/
def scanBody (inrange : Bool) : Bytes → Bytes × Bytes
  | [] => ([], [])
  | b :: rest =>
    if b = 92 then
      match rest with
      | [] => ([b], [])
      | c :: rest => (b :: c :: (scanBody inrange rest).1, (scanBody inrange rest).2)
    else if b = 42 ∧ inrange = false then ([], b :: rest)
    else
      let inrange := if b = 91 then true else if b = 93 then false else inrange
      (b :: (scanBody inrange rest).1, (scanBody inrange rest).2)

/-- `scanChunk`: whether there are stars at the front, the chunk behind them, and the rest. -/
def scanChunk (pattern : Bytes) : Bool × Bytes × Bytes :=
  (decide (pattern.head? = some 42), scanBody false (pattern.dropWhile (· == 42)))

/-- The places behind a star: the chunk is tried after every byte of the name up to a slash. The
last chunk has to match to the end. -/
def matchLater (chunk : Bytes) (last : Bool) : Bytes → Option (Option Bytes)
  | [] => some none
  | b :: name =>
    if b = 47 then some none
    else do
      match ← matchChunk chunk name with
      | some rest => if last ∧ rest ≠ [] then matchLater chunk last name else some (some rest)
      | none => matchLater chunk last name

/-- The chunks of a pattern that were not reached. -/
def checkRest : Nat → Bytes → Option Unit
  | 0, _ => some ()
  | fuel + 1, pattern =>
    if pattern = [] then some ()
    else do
      let (_, chunk, rest) := scanChunk pattern
      let _ ← matchChunk chunk []
      checkRest fuel rest

/-- `path.Match`, with `none` for `ErrBadPattern`. Each round takes a byte of the pattern. -/
def matchPattern : Nat → Bytes → Bytes → Option Bool
  | 0, _, name => some (decide (name = []))
  | fuel + 1, pattern, name =>
    if pattern = [] then some (decide (name = []))
    else
      let (star, chunk, rest) := scanChunk pattern
      if star ∧ chunk = [] then some (decide (47 ∉ name))
      else do
        let here ← matchChunk chunk name
        match here.filter fun left => decide (left = [] ∨ rest ≠ []) with
        | some left => matchPattern fuel rest left
        | none =>
          let later ← if star then matchLater chunk (decide (rest = [])) name else some none
          match later with
          | some left => matchPattern fuel rest left
          | none => do
            checkRest fuel rest
            pure false

def pathMatch (pattern name : Bytes) : Option Bool := matchPattern pattern.length pattern name

/-! ## Malformed patterns -/

/-- The elements of the chunk can be read. -/
def readable : Nat → Bytes → Bool
  | 0, _ => true
  | _ + 1, [] => true
  | fuel + 1, b :: rest =>
    match getElement b rest with
    | none => false
    | some (_, rest) => readable fuel rest

theorem isSome_matchFrom (fuel : Nat) (chunk : Bytes) (name : Option Bytes) :
    (matchFrom fuel chunk name).isSome = readable fuel chunk := by
  induction fuel generalizing chunk name with
  | zero => rfl
  | succ fuel ih =>
    cases chunk with
    | nil => rfl
    | cons b rest =>
      rw [matchFrom, readable]
      cases getElement b rest with
      | none => rfl
      | some r => exact ih r.2 _

theorem isSome_matchChunk (chunk name : Bytes) :
    (matchChunk chunk name).isSome = readable chunk.length chunk :=
  isSome_matchFrom _ _ _

theorem isSome_matchLater {chunk : Bytes} {last : Bool} {name : Bytes}
    (h : readable chunk.length chunk = true) : (matchLater chunk last name).isSome = true := by
  induction name with
  | nil => rfl
  | cons b name ih =>
    rw [matchLater]
    split
    · rfl
    · obtain ⟨r, hr⟩ := Option.isSome_iff_exists.1 ((isSome_matchChunk chunk name).trans h)
      rw [hr]
      cases r with
      | none => exact ih
      | some rest =>
        simp only [Option.bind_eq_bind, Option.bind_some]
        split
        · exact ih
        · rfl

/-- Behind stars alone there is nothing left. -/
theorem scanChunk_rest {pattern rest : Bytes} {star : Bool}
    (h : scanChunk pattern = (star, [], rest)) : rest = [] := by
  obtain ⟨-, hscan⟩ := Prod.mk.inj h
  cases hbody : pattern.dropWhile (· == 42) with
  | nil =>
    rw [hbody] at hscan
    exact (Prod.mk.inj hscan).2.symm
  | cons b body =>
    have hb : b ≠ 42 := by
      have hhead := List.head?_dropWhile_not (· == (42 : UInt8)) pattern
      rw [hbody] at hhead
      simpa using hhead
    rw [hbody, scanBody.eq_def] at hscan
    simp only at hscan
    split at hscan
    · split at hscan <;> cases (Prod.mk.inj hscan).1
    split at hscan
    · rename_i hstar
      exact absurd hstar.1 hb
    · cases (Prod.mk.inj hscan).1

theorem isSome_checkRest_nil (fuel : Nat) : (checkRest fuel []).isSome = true := by
  cases fuel <;> rfl

/-- The error does not depend on the name. -/
theorem isSome_matchPattern (fuel : Nat) (pattern name : Bytes) :
    (matchPattern fuel pattern name).isSome = (checkRest fuel pattern).isSome := by
  induction fuel generalizing pattern name with
  | zero => rfl
  | succ fuel ih =>
    rw [matchPattern, checkRest]
    split
    · rfl
    obtain ⟨star, chunk, rest, hscan⟩ :
        ∃ star chunk rest, scanChunk pattern = (star, chunk, rest) := ⟨_, _, _, rfl⟩
    simp only [hscan, Option.bind_eq_bind]
    have hread := isSome_matchChunk chunk
    split
    · rename_i hstar
      obtain ⟨-, rfl⟩ := hstar
      rw [scanChunk_rest hscan]
      exact (isSome_checkRest_nil fuel).symm
    · cases hreadable : readable chunk.length chunk with
      | false =>
        simp only [hreadable, Option.isSome_eq_false_iff, Option.isNone_iff_eq_none] at hread
        rw [hread, hread]
        rfl
      | true =>
        simp only [hreadable, Option.isSome_iff_exists] at hread
        obtain ⟨here, hhere⟩ := hread name
        obtain ⟨empty, hempty⟩ := hread []
        simp only [hhere, hempty, Option.bind_some]
        split
        · exact ih rest _
        · have hrest : ((checkRest fuel rest).bind fun _ => pure false).isSome =
              (checkRest fuel rest).isSome := by cases checkRest fuel rest <;> rfl
          split
          · obtain ⟨later, hlater⟩ := Option.isSome_iff_exists.1
              (isSome_matchLater hreadable)
            rw [hlater, Option.bind_some]
            cases later with
            | none => exact hrest
            | some left => exact ih rest left
          · exact hrest

/-- **A pattern is malformed for one name when it is for all.** -/
theorem isSome_pathMatch (pattern name name' : Bytes) :
    (pathMatch pattern name).isSome = (pathMatch pattern name').isSome :=
  (isSome_matchPattern _ _ _).trans (isSome_matchPattern _ _ _).symm

/-- A byte that stands for itself. -/
def isPlain (b : UInt8) : Bool := b != 42 && b != 63 && b != 91 && b != 92

theorem getElement_of_plain {b : UInt8} (h : isPlain b = true) (rest : Bytes) :
    getElement b rest = some (.byte b, rest) := by
  simp only [isPlain, Bool.and_eq_true, bne_iff_ne] at h
  rw [getElement.eq_def, if_neg h.1.2, if_neg h.1.1.2, if_neg h.2]

theorem readable_of_plain {chunk : Bytes} (h : chunk.all isPlain = true) (fuel : Nat) :
    readable fuel chunk = true := by
  induction fuel generalizing chunk with
  | zero => rfl
  | succ fuel ih =>
    cases chunk with
    | nil => rfl
    | cons b rest =>
      simp only [List.all_cons, Bool.and_eq_true] at h
      rw [readable, getElement_of_plain h.1]
      exact ih h.2

theorem scanBody_of_plain {pattern : Bytes} (h : pattern.all isPlain = true) (inrange : Bool) :
    scanBody inrange pattern = (pattern, []) := by
  induction pattern generalizing inrange with
  | nil => rfl
  | cons b rest ih =>
    simp only [List.all_cons, Bool.and_eq_true] at h
    have hb := h.1
    simp only [isPlain, Bool.and_eq_true, bne_iff_ne] at hb
    rw [scanBody.eq_def]
    simp only [if_neg hb.2]
    rw [if_neg fun hstar => hb.1.1.1 hstar.1, ih h.2]

/-- A pattern of plain bytes is well formed. -/
theorem isSome_pathMatch_of_plain {pattern : Bytes} (h : pattern.all isPlain = true)
    (name : Bytes) : (pathMatch pattern name).isSome = true := by
  rw [pathMatch, isSome_matchPattern]
  cases pattern with
  | nil => rfl
  | cons b rest =>
    have hb : (b == 42) = false := by
      simp only [List.all_cons, Bool.and_eq_true, isPlain, bne_iff_ne] at h
      simpa using h.1.1.1.1
    have hscan : scanChunk (b :: rest) = (false, b :: rest, []) := by
      rw [scanChunk, List.dropWhile_cons_of_neg (by simp [hb]), scanBody_of_plain h]
      simpa using hb
    obtain ⟨left, hleft⟩ := Option.isSome_iff_exists.1
      ((isSome_matchChunk (b :: rest) []).trans (readable_of_plain h _))
    rw [List.length_cons, checkRest, if_neg (by simp), hscan]
    simp only [hleft, Option.bind_eq_bind, Option.bind_some]
    exact isSome_checkRest_nil _

end Kama.PathMatch
