import Mathlib.Algebra.Order.Ring.Int
import Mathlib.Data.List.Basic

/-!
# Byte strings

A string of the modelled code is a list of bytes: it need not be valid UTF-8, it is compared byte
by byte, and its length is the number of bytes.

* `ascii` writes a literal.
* `splitSlash` and `joinSlash` are inverse on components without a slash
  (`splitSlash_joinSlash`, `joinSlash_splitSlash`).
* `hexEncode` is the lower-case hexadecimal encoding.
-/

namespace Kama

abbrev Bytes := List UInt8

/-- Named, so that a test for membership refers to it wherever it stands. -/
instance instLawfulBEqBytes : LawfulBEq Bytes := List.instLawfulBEq

namespace Bytes

/-- The bytes of an ASCII literal. -/
def ascii (s : String) : Bytes := s.toList.map fun c => c.toNat.toUInt8

def isDigit (b : UInt8) : Bool := decide (48 ≤ b ∧ b ≤ 57)

def isUpper (b : UInt8) : Bool := decide (65 ≤ b ∧ b ≤ 90)

def isLower (b : UInt8) : Bool := decide (97 ≤ b ∧ b ≤ 122)

def isAlphanumeric (b : UInt8) : Bool := isDigit b || isUpper b || isLower b

/-- A lower-case hexadecimal digit. -/
def isHexLower (b : UInt8) : Bool := isDigit b || decide (97 ≤ b ∧ b ≤ 102)

/-- A hexadecimal digit of either case. -/
def isHex (b : UInt8) : Bool := isHexLower b || decide (65 ≤ b ∧ b ≤ 70)

/-- `strings.CutSuffix`. -/
def cutSuffix (s suffix : Bytes) : Option Bytes :=
  if suffix <:+ s then some (s.take (s.length - suffix.length)) else none

/-! ## Hexadecimal -/

def hexDigit (n : UInt8) : UInt8 := if n < 10 then 48 + n else 87 + n

def hexEncode (bs : Bytes) : Bytes := bs.flatMap fun b => [hexDigit (b / 16), hexDigit (b % 16)]

theorem div_lt_sixteen (b : UInt8) : b / 16 < 16 := by
  rw [UInt8.lt_iff_toNat_lt, UInt8.toNat_div]
  have := b.toNat_lt
  simp only [UInt8.reduceToNat]
  omega

theorem mod_lt_sixteen (b : UInt8) : b % 16 < 16 := by
  rw [UInt8.lt_iff_toNat_lt, UInt8.toNat_mod]
  simp only [UInt8.reduceToNat]
  omega

theorem isHexLower_hexDigit {n : UInt8} (h : n < 16) : isHexLower (hexDigit n) = true := by
  unfold hexDigit
  split
  · simp only [isHexLower, isDigit, Bool.or_eq_true, decide_eq_true_eq, UInt8.le_iff_toNat_le,
      UInt8.lt_iff_toNat_lt, UInt8.toNat_add, UInt8.reduceToNat] at *
    omega
  · simp only [isHexLower, isDigit, Bool.or_eq_true, decide_eq_true_eq, UInt8.le_iff_toNat_le,
      UInt8.lt_iff_toNat_lt, UInt8.toNat_add, UInt8.reduceToNat] at *
    omega

theorem length_hexEncode (bs : Bytes) : (hexEncode bs).length = 2 * bs.length := by
  induction bs with
  | nil => rfl
  | cons b bs ih =>
    simp only [hexEncode, List.flatMap_cons, List.length_append, List.length_cons] at ih ⊢
    simp only [ih, List.length_nil]
    omega

theorem isHexLower_of_mem_hexEncode {bs : Bytes} {c : UInt8} (h : c ∈ hexEncode bs) :
    isHexLower c = true := by
  simp only [hexEncode, List.mem_flatMap, List.mem_cons, List.not_mem_nil, or_false] at h
  obtain ⟨b, -, rfl | rfl⟩ := h
  · exact isHexLower_hexDigit (div_lt_sixteen b)
  · exact isHexLower_hexDigit (mod_lt_sixteen b)

theorem hexDigit_injective {m n : UInt8} (hm : m < 16) (hn : n < 16)
    (h : hexDigit m = hexDigit n) : m = n := by
  unfold hexDigit at h
  rw [← UInt8.toNat_inj] at h ⊢
  split at h <;> split at h <;>
    simp only [UInt8.lt_iff_toNat_lt, UInt8.toNat_add, UInt8.reduceToNat] at * <;> omega

theorem hexEncode_injective {as bs : Bytes} (h : hexEncode as = hexEncode bs) : as = bs := by
  induction as generalizing bs with
  | nil =>
    cases bs with
    | nil => rfl
    | cons b bs => cases h
  | cons a as ih =>
    cases bs with
    | nil => cases h
    | cons b bs =>
      simp only [hexEncode, List.flatMap_cons, List.cons_append, List.nil_append,
        List.cons.injEq] at h
      obtain ⟨hdiv, hmod, hrest⟩ := h
      have hdiv := hexDigit_injective (div_lt_sixteen a) (div_lt_sixteen b) hdiv
      have hmod := hexDigit_injective (mod_lt_sixteen a) (mod_lt_sixteen b) hmod
      have hab : a = b := by
        rw [← UInt8.toNat_inj] at hdiv hmod ⊢
        simp only [UInt8.toNat_div, UInt8.toNat_mod, UInt8.reduceToNat] at hdiv hmod
        omega
      rw [hab, ih hrest]

/-! ## Slash-separated components -/

/-- `strings.Split(s, "/")`. -/
def splitSlash : Bytes → List Bytes
  | [] => [[]]
  | b :: bs =>
    if b = 47 then [] :: splitSlash bs
    else
      match splitSlash bs with
      | [] => [[b]]
      | c :: cs => (b :: c) :: cs

/-- `strings.Join(components, "/")`. -/
def joinSlash : List Bytes → Bytes
  | [] => []
  | [c] => c
  | c :: cs => c ++ 47 :: joinSlash cs

/-- `strings.TrimRight(s, "/")`. -/
def trimRightSlash (s : Bytes) : Bytes := (s.reverse.dropWhile (· == 47)).reverse

theorem splitSlash_ne_nil (s : Bytes) : splitSlash s ≠ [] := by
  cases s with
  | nil => simp [splitSlash]
  | cons b bs =>
    simp only [splitSlash]
    split
    · simp
    · split <;> simp

theorem joinSlash_cons {c : Bytes} {cs : List Bytes} (h : cs ≠ []) :
    joinSlash (c :: cs) = c ++ 47 :: joinSlash cs := by
  cases cs with
  | nil => exact absurd rfl h
  | cons d ds => rfl

theorem joinSlash_splitSlash (s : Bytes) : joinSlash (splitSlash s) = s := by
  induction s with
  | nil => rfl
  | cons b bs ih =>
    simp only [splitSlash]
    split
    · rename_i hb
      rw [joinSlash_cons (splitSlash_ne_nil bs), ih, hb]
      rfl
    · split
      · rename_i hnil
        exact absurd hnil (splitSlash_ne_nil bs)
      · rename_i c cs hcs
        rw [hcs] at ih
        rw [← ih]
        cases cs <;> rfl

theorem splitSlash_of_not_mem {c : Bytes} (h : (47 : UInt8) ∉ c) : splitSlash c = [c] := by
  induction c with
  | nil => rfl
  | cons b bs ih =>
    simp only [List.mem_cons, not_or] at h
    simp [splitSlash, ih h.2, Ne.symm h.1]

theorem splitSlash_append {c : Bytes} (h : (47 : UInt8) ∉ c) (s : Bytes) :
    splitSlash (c ++ 47 :: s) = c :: splitSlash s := by
  induction c with
  | nil => simp [splitSlash]
  | cons b bs ih =>
    simp only [List.mem_cons, not_or] at h
    simp [splitSlash, ih h.2, Ne.symm h.1]

theorem splitSlash_joinSlash {cs : List Bytes} (hne : cs ≠ [])
    (h : ∀ c ∈ cs, (47 : UInt8) ∉ c) : splitSlash (joinSlash cs) = cs := by
  induction cs with
  | nil => exact absurd rfl hne
  | cons c cs ih =>
    have hc := h c List.mem_cons_self
    rcases eq_or_ne cs [] with rfl | hcs
    · exact splitSlash_of_not_mem hc
    · rw [joinSlash_cons hcs, splitSlash_append hc,
        ih hcs fun d hd => h d (List.mem_cons_of_mem c hd)]

theorem splitSlash_append_slash (a b : Bytes) :
    splitSlash (a ++ 47 :: b) = splitSlash a ++ splitSlash b := by
  induction a with
  | nil => simp [splitSlash]
  | cons x a ih =>
    rw [List.cons_append, splitSlash, splitSlash, ih]
    split
    · rfl
    · cases hsplit : splitSlash a with
      | nil => exact absurd hsplit (splitSlash_ne_nil a)
      | cons c cs => rfl

theorem joinSlash_append {cs ds : List Bytes} (hcs : cs ≠ []) (hds : ds ≠ []) :
    joinSlash (cs ++ ds) = joinSlash cs ++ 47 :: joinSlash ds := by
  induction cs with
  | nil => exact absurd rfl hcs
  | cons c cs ih =>
    rcases eq_or_ne cs [] with rfl | hcs
    · exact joinSlash_cons hds
    · rw [List.cons_append, joinSlash_cons (List.append_ne_nil_of_left_ne_nil hcs ds), ih hcs,
        joinSlash_cons hcs, List.append_assoc, List.cons_append]

/-- A list of components continues another one when the text does, after a slash. -/
theorem splitSlash_prefix_iff {a b : Bytes} :
    splitSlash a <+: splitSlash b ↔ a = b ∨ a ++ [47] <+: b := by
  constructor
  · rintro ⟨rest, hrest⟩
    rw [← joinSlash_splitSlash b, ← hrest]
    rcases eq_or_ne rest [] with rfl | hne
    · rw [List.append_nil, joinSlash_splitSlash]
      exact .inl rfl
    · rw [joinSlash_append (splitSlash_ne_nil a) hne, joinSlash_splitSlash]
      exact .inr ⟨joinSlash rest, by simp⟩
  · rintro (rfl | ⟨rest, rfl⟩)
    · exact List.prefix_refl _
    · rw [List.append_assoc, List.singleton_append, splitSlash_append_slash]
      exact List.prefix_append _ _

/-- The bytes of a string are its slashes and the bytes of its components. -/
theorem mem_iff_splitSlash {s : Bytes} {b : UInt8} (hb : b ≠ 47) :
    b ∈ s ↔ ∃ c ∈ splitSlash s, b ∈ c := by
  induction s with
  | nil => simp [splitSlash]
  | cons a s ih =>
    simp only [splitSlash, List.mem_cons, ih]
    split
    · rename_i ha
      simp [ha, hb]
    · split
      · rename_i hnil
        exact absurd hnil (splitSlash_ne_nil s)
      · rename_i c cs hcs
        simp [hcs, or_assoc]

theorem not_mem_of_mem_splitSlash {s c : Bytes} (h : c ∈ splitSlash s) : (47 : UInt8) ∉ c := by
  induction s generalizing c with
  | nil =>
    obtain rfl : c = [] := by simpa [splitSlash] using h
    simp
  | cons b bs ih =>
    simp only [splitSlash] at h
    split at h
    · rcases List.mem_cons.1 h with rfl | h
      · simp
      · exact ih h
    · rename_i hb
      split at h
      · obtain rfl : c = [b] := by simpa using h
        simpa using Ne.symm hb
      · rename_i d ds hds
        rw [hds] at ih
        rcases List.mem_cons.1 h with rfl | h
        · simpa [Ne.symm hb] using ih List.mem_cons_self
        · exact ih (List.mem_cons_of_mem d h)

/-- A text without a slash is found in one of the components. -/
theorem exists_infix_of_splitSlash {p s : Bytes} (hp : (47 : UInt8) ∉ p) (h : p <:+: s) :
    ∃ c ∈ splitSlash s, p <:+: c := by
  obtain ⟨front, back, rfl⟩ := h
  induction front with
  | nil =>
    rw [List.nil_append]
    by_cases hback : (47 : UInt8) ∈ back
    · obtain ⟨a, b, rfl, ha⟩ := List.eq_append_cons_of_mem hback
      refine ⟨p ++ a, ?_, (List.prefix_append p a).isInfix⟩
      rw [← List.append_assoc, splitSlash_append (by simp [hp, ha])]
      exact List.mem_cons_self
    · refine ⟨p ++ back, ?_, (List.prefix_append p back).isInfix⟩
      rw [splitSlash_of_not_mem (by simp [hp, hback])]
      exact List.mem_singleton_self _
  | cons b front ih =>
    obtain ⟨c, hc, hinfix⟩ := ih
    simp only [List.cons_append, splitSlash]
    split
    · exact ⟨c, List.mem_cons_of_mem _ hc, hinfix⟩
    · cases hsplit : splitSlash (front ++ p ++ back) with
      | nil => exact absurd hsplit (splitSlash_ne_nil _)
      | cons d ds =>
        rw [hsplit] at hc
        rcases List.mem_cons.1 hc with rfl | hc
        · exact ⟨b :: c, List.mem_cons_self, hinfix.trans (List.suffix_cons b c).isInfix⟩
        · exact ⟨c, List.mem_cons_of_mem _ hc, hinfix⟩

end Bytes

end Kama
