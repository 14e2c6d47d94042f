import Kama.Foundations.Regex
import Kama.Runtime.Config

/-!
# What a line of the log reports

The four patterns of `observeStartupLog` and the sanitizing of device names, of `supervisor.go`.
The patterns ignore case, by simple folding: two letters outside ASCII fold to `k` and to `s`.
`logFacts` is what the patterns find in one line.
-/

namespace Kama.Runtime

open Bytes Regex

/-! ## Classes -/

/-- A letter of a pattern, without its case. -/
def foldsTo (b : UInt8) (r : Nat) : Bool :=
  r == b.toNat || (isUpper b && r == b.toNat + 32) || (isLower b && r + 32 == b.toNat) ||
    ((b == 107 || b == 75) && r == 0x212A) || ((b == 115 || b == 83) && r == 0x17F)

/-- `[0-9]`. -/
def digitRune (r : Nat) : Bool := decide (48 ≤ r ∧ r ≤ 57)

/-- `[1-9]`. -/
def positiveDigitRune (r : Nat) : Bool := decide (49 ≤ r ∧ r ≤ 57)

/-- `[[:space:]]`. -/
def spaceRune (r : Nat) : Bool := decide (9 ≤ r ∧ r ≤ 13 ∨ r = 32)

/-- `[[:alnum:]]`, without case. -/
def alnumRune (r : Nat) : Bool :=
  digitRune r || decide (65 ≤ r ∧ r ≤ 90 ∨ 97 ≤ r ∧ r ≤ 122 ∨ r = 0x17F ∨ r = 0x212A)

/-- `[[:alnum:]]`, a blank and the marks of a name: dot, underscore, plus, slash and minus. -/
def nameRune (r : Nat) : Bool :=
  alnumRune r || r == 32 || r == 46 || r == 95 || r == 43 || r == 47 || r == 45

/-- A word of a pattern. -/
def literal (word : String) : Re Nat := .word ((ascii word).map foldsTo)

def spaces : Re Nat := .many spaceRune 0 none
def someSpaces : Re Nat := .many spaceRune 1 none
def digits : Re Nat := .many digitRune 1 none

/-! ## Patterns -/

/-- `^ggml_cuda_init: found ([0-9]+) CUDA devices`. -/
def cudaCountPattern : Re Nat :=
  .seqs [literal "ggml_cuda_init: found ", .capture digitRune 1 none, literal " CUDA devices"]

/-- `^(?:llm_)?load_tensors: offloaded ([0-9]+)/([1-9][0-9]*) layers to GPU`. The second group is
captured in two parts. -/
def offloadPattern : Re Nat :=
  .seqs [.opt (literal "llm_"), literal "load_tensors: offloaded ", .capture digitRune 1 none,
    literal "/", .capture positiveDigitRune 1 (some 1), .capture digitRune 0 none,
    literal " layers to GPU"]

/-- `^[[:space:]]*Device ([0-9]{1,3}):[[:space:]]*([^,;]{1,96}),[[:space:]]*compute capability`. -/
def legacyDevicePattern : Re Nat :=
  .seqs [spaces, literal "Device ", .capture digitRune 1 (some 3), literal ":", spaces,
    .capture (fun r => r != 44 && r != 59) 1 (some 96), literal ",", spaces,
    literal "compute capability"]

/-- The inventory line of a device: `- CUDA0: name (24564 MiB, 23456 MiB free)`. -/
def deviceInventoryPattern : Re Nat :=
  .seqs [spaces, .opt (.seqs [literal "cmn", someSpaces, literal "common_param:", someSpaces]),
    literal "-", someSpaces, literal "CUDA", .capture digitRune 1 (some 3), spaces, literal ":",
    spaces, .capture alnumRune 1 (some 1), .capture nameRune 0 (some 95), someSpaces, literal "(",
    digits, literal " MiB,", spaces, digits, literal " MiB free)", spaces, .eot]

/-! ## Names -/

/-- The bytes of a code point that was read from a string. -/
def runeText (r : Nat) : Bytes := Utf8.encodeRune r

/-- `strings.Fields`, on code points; `field` is the one that is being read, backwards. -/
def fieldsOf (field : List Nat) : List Nat → List (List Nat)
  | [] => if field = [] then [] else [field.reverse]
  | r :: rs =>
    if Utf8.isSpace r then
      if field = [] then fieldsOf [] rs else field.reverse :: fieldsOf [] rs
    else fieldsOf (r :: field) rs

/-- The mapping of `sanitizeMessage`: white space becomes a blank and other control characters
vanish. -/
def sanitizeRune (r : Nat) : Option Nat :=
  if r = 10 ∨ r = 13 ∨ r = 9 then some 32 else if r < 0x20 ∨ r = 0x7F then none else some r

/-- `sanitizeMessage`. -/
def sanitizeMessage (value : List Nat) : Bytes :=
  let text := [(32 : UInt8)].intercalate
    ((fieldsOf [] (value.filterMap sanitizeRune)).map fun field => field.flatMap runeText)
  if 512 < text.length then text.take 512 ++ ascii "...[truncated]" else text

def sanitizeDevice (value : List Nat) : Bytes := (sanitizeMessage value).take 96

/-! ## Facts -/

/-- `strconv.ParseInt` of digits, before the bound is checked. -/
def decimalValue (captured : List Nat) : Nat :=
  captured.foldl (fun value r => value * 10 + (r - 48)) 0

def deviceFact (captured : List Nat) (name : List Nat) : Nat × String :=
  (decimalValue captured, byteText (sanitizeDevice name))

/-- What the patterns find in a line. -/
def logFacts (line : Bytes) : LogFacts :=
  let runes := (Utf8.pieces line).map Utf8.Piece.rune
  { cudaCount :=
      match cudaCountPattern.find runes with
      | some [count] => some (decimalValue count)
      | _ => none
    offload :=
      match offloadPattern.find runes with
      | some [offloaded, first, rest] => some (decimalValue offloaded, decimalValue (first ++ rest))
      | _ => none
    legacyDevice :=
      match legacyDevicePattern.find runes with
      | some [index, name] => some (deviceFact index name)
      | _ => none
    inventoryDevice :=
      match deviceInventoryPattern.find runes with
      | some [index, first, rest] => some (deviceFact index (first ++ rest))
      | _ => none }

example : logFacts (ascii "ggml_cuda_init: found 2 CUDA devices:") =
    ⟨some 2, none, none, none⟩ := by
  decide +kernel

example : logFacts (ascii "load_tensors: offloaded 33/33 layers to GPU") =
    ⟨none, some (33, 33), none, none⟩ := by
  decide +kernel

example : logFacts (ascii "  - CUDA0 : NVIDIA L4 (22563 MiB, 22000 MiB free)") =
    ⟨none, none, none, some (0, "NVIDIA L4")⟩ := by
  decide +kernel

end Kama.Runtime
