import Kama.Foundations.Bytes

/-!
# SHA-256

The hash function on byte strings, with words as natural numbers below `2 ^ 32` so that the kernel
evaluates it. Nothing in this development rests on a property of the function other than the length
of a digest; that it is the real one keeps the evaluated runs of the model real.
-/

namespace Kama.Sha256

open Bytes

/-- The round constants. -/
def roundConstants : List Nat :=
  [0x428a2f98, 0x71374491, 0xb5c0fbcf, 0xe9b5dba5, 0x3956c25b, 0x59f111f1, 0x923f82a4, 0xab1c5ed5,
    0xd807aa98, 0x12835b01, 0x243185be, 0x550c7dc3, 0x72be5d74, 0x80deb1fe, 0x9bdc06a7, 0xc19bf174,
    0xe49b69c1, 0xefbe4786, 0x0fc19dc6, 0x240ca1cc, 0x2de92c6f, 0x4a7484aa, 0x5cb0a9dc, 0x76f988da,
    0x983e5152, 0xa831c66d, 0xb00327c8, 0xbf597fc7, 0xc6e00bf3, 0xd5a79147, 0x06ca6351, 0x14292967,
    0x27b70a85, 0x2e1b2138, 0x4d2c6dfc, 0x53380d13, 0x650a7354, 0x766a0abb, 0x81c2c92e, 0x92722c85,
    0xa2bfe8a1, 0xa81a664b, 0xc24b8b70, 0xc76c51a3, 0xd192e819, 0xd6990624, 0xf40e3585, 0x106aa070,
    0x19a4c116, 0x1e376c08, 0x2748774c, 0x34b0bcb5, 0x391c0cb3, 0x4ed8aa4a, 0x5b9cca4f, 0x682e6ff3,
    0x748f82ee, 0x78a5636f, 0x84c87814, 0x8cc70208, 0x90befffa, 0xa4506ceb, 0xbef9a3f7, 0xc67178f2]

/-- The eight working words. -/
structure Words where
  a : Nat
  b : Nat
  c : Nat
  d : Nat
  e : Nat
  f : Nat
  g : Nat
  h : Nat

def initial : Words :=
  ⟨0x6a09e667, 0xbb67ae85, 0x3c6ef372, 0xa54ff53a, 0x510e527f, 0x9b05688c, 0x1f83d9ab, 0x5be0cd19⟩

def add32 (x y : Nat) : Nat := (x + y) % 2 ^ 32

def rotr (n x : Nat) : Nat := (x >>> n ||| x <<< (32 - n)) % 2 ^ 32

/-- The next word of the message schedule; the list holds the last words, latest first. -/
def nextWord (w : List Nat) : Nat :=
  let x := w.getD 14 0
  let y := w.getD 1 0
  let s0 := rotr 7 x ^^^ rotr 18 x ^^^ x >>> 3
  let s1 := rotr 17 y ^^^ rotr 19 y ^^^ y >>> 10
  add32 (add32 (w.getD 15 0) s0) (add32 (w.getD 6 0) s1)

/-- Extend the schedule by `n` words. -/
def extend : Nat → List Nat → List Nat
  | 0, w => w
  | n + 1, w => extend n (nextWord w :: w)

def round (s : Words) (kw : Nat × Nat) : Words :=
  let s1 := rotr 6 s.e ^^^ rotr 11 s.e ^^^ rotr 25 s.e
  let ch := (s.e &&& s.f) ^^^ ((s.e ^^^ 0xffffffff) &&& s.g)
  let t1 := add32 (add32 s.h s1) (add32 ch (add32 kw.1 kw.2))
  let s0 := rotr 2 s.a ^^^ rotr 13 s.a ^^^ rotr 22 s.a
  let maj := (s.a &&& s.b) ^^^ (s.a &&& s.c) ^^^ (s.b &&& s.c)
  ⟨add32 t1 (add32 s0 maj), s.a, s.b, s.c, add32 s.d t1, s.e, s.f, s.g⟩

/-- Four bytes as a word, most significant first. -/
def wordsOf : Bytes → List Nat
  | a :: b :: c :: d :: rest =>
    (((a.toNat * 256 + b.toNat) * 256 + c.toNat) * 256 + d.toNat) :: wordsOf rest
  | _ => []

def compress (s : Words) (block : Bytes) : Words :=
  let schedule := (extend 48 (wordsOf block).reverse).reverse
  let t := (roundConstants.zip schedule).foldl round s
  ⟨add32 s.a t.a, add32 s.b t.b, add32 s.c t.c, add32 s.d t.d, add32 s.e t.e, add32 s.f t.f,
    add32 s.g t.g, add32 s.h t.h⟩

/-- The `n` low bytes of a number, most significant first. -/
def bigEndian : Nat → Nat → Bytes
  | 0, _ => []
  | n + 1, x => bigEndian n (x / 256) ++ [(x % 256).toUInt8]

/-- The message with its padding: a one bit, zeros, and the length in bits. -/
def pad (m : Bytes) : Bytes :=
  m ++ 128 :: List.replicate ((119 - m.length % 64) % 64) 0 ++ bigEndian 8 (8 * m.length)

/-- The compressions of `n` blocks. -/
def blocks : Nat → Words → Bytes → Words
  | 0, s, _ => s
  | n + 1, s, m => blocks n (compress s (m.take 64)) (m.drop 64)

/-- `sha256.Sum256`. -/
def sha256 (m : Bytes) : Bytes :=
  let padded := pad m
  let s := blocks (padded.length / 64) initial padded
  [s.a, s.b, s.c, s.d, s.e, s.f, s.g, s.h].flatMap (bigEndian 4)

theorem length_bigEndian (n x : Nat) : (bigEndian n x).length = n := by
  induction n generalizing x with
  | zero => rfl
  | succ n ih => simp [bigEndian, ih]

theorem length_sha256 (m : Bytes) : (sha256 m).length = 32 := by
  simp [sha256, length_bigEndian]

example : hexEncode (sha256 (ascii "abc")) =
    ascii "ba7816bf8f01cfea414140de5dae2223b00361a396177a9cb410ff61f20015ad" := by
  decide +kernel

end Kama.Sha256
