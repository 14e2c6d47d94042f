import Mathlib.Algebra.Order.Ring.Int
import Mathlib.Data.List.Basic

/-!
# Regular expressions with captures

Expressions over an arbitrary alphabet, as far as log patterns need them: repeated classes of
letters, which may be captured, in sequence, some parts optional. `Re.run` finds the match that a
backtracking search that prefers more to less finds first, and answers what was captured, in order.

`Re.find` matches at the start of the text, as an expression that starts with `^` does.
-/

namespace Kama.Regex

variable {α : Type}

inductive Re (α : Type)
  /-- at least `least` and at most `most` letters of the class -/
  | many (letter : α → Bool) (least : Nat) (most : Option Nat)
  /-- the same, captured -/
  | capture (letter : α → Bool) (least : Nat) (most : Option Nat)
  | opt (r : Re α)
  | seq (r r' : Re α)
  /-- the end of the text -/
  | eot

/-- One letter. -/
def Re.one (letter : α → Bool) : Re α := .many letter 1 (some 1)

/-- The letters of a word, each as a class. -/
def Re.word : List (α → Bool) → Re α
  | [] => .many (fun _ => false) 0 none
  | letter :: letters => .seq (.one letter) (Re.word letters)

def Re.seqs : List (Re α) → Re α
  | [] => .many (fun _ => false) 0 none
  | r :: rs => .seq r (Re.seqs rs)

/-- How many letters of the class are at the start, up to a limit. -/
def leading (letter : α → Bool) (most : Option Nat) (s : List α) : Nat :=
  let n := (s.takeWhile letter).length
  most.elim n (min n)

/-- The first success for a number from `n` down to `least`. -/
def downFrom {β : Type} (least : Nat) (f : Nat → Option β) : Nat → Option β
  | 0 => if least = 0 then f 0 else none
  | n + 1 => if n + 1 < least then none else (f (n + 1)).or (downFrom least f n)

/-- Match at the start of `s` and go on with `k`. -/
def Re.run : Re α → (List α → Option (List (List α))) → List α → Option (List (List α))
  | .many letter least most, k, s =>
    downFrom least (fun n => k (s.drop n)) (leading letter most s)
  | .capture letter least most, k, s =>
    downFrom least (fun n => (k (s.drop n)).map fun rest => s.take n :: rest)
      (leading letter most s)
  | .opt r, k, s => (r.run k s).or (k s)
  | .seq r r', k, s => r.run (r'.run k) s
  | .eot, k, s => if s.isEmpty then k s else none

/-- What an expression captures at the start of the text. -/
def Re.find (r : Re α) (s : List α) : Option (List (List α)) := r.run (fun _ => some []) s

end Kama.Regex
