import Kama.Foundations.Bytes

/-!
# UTF-8 in byte strings

A byte string falls into pieces: valid characters and single bytes that do not start one
(`pieces`). This is how Go iterates over a string, and it is total: invalid bytes are pieces of
their own.

* `Valid s`: the string is a sequence of characters; `valid_iff` decides it by the pieces.
* `pieces_append`: a character in front of a string is its first piece.
* `toValid` puts U+FFFD in the place of every invalid byte.
* `encodeRune` writes a code point.
-/

namespace Kama.Utf8

/-- A continuation byte. -/
def isTail (b : UInt8) : Bool := decide (0x80 ≤ b ∧ b ≤ 0xBF)

/-- The second byte of a character excludes overlong encodings, surrogates and code points
beyond the last. -/
def secondOk (a b : UInt8) : Bool :=
  if a = 0xE0 then decide (0xA0 ≤ b ∧ b ≤ 0xBF)
  else if a = 0xED then decide (0x80 ≤ b ∧ b ≤ 0x9F)
  else if a = 0xF0 then decide (0x90 ≤ b ∧ b ≤ 0xBF)
  else if a = 0xF4 then decide (0x80 ≤ b ∧ b ≤ 0x8F)
  else isTail b

/-- The length of a character by its first byte; `0` for a byte that starts none. -/
def charSize (b : UInt8) : Nat :=
  if b < 0x80 then 1
  else if b < 0xC2 then 0
  else if b < 0xE0 then 2
  else if b < 0xF0 then 3
  else if b < 0xF5 then 4
  else 0

def isChar : Bytes → Bool
  | [a] => charSize a == 1
  | [a, b] => charSize a == 2 && secondOk a b
  | [a, b, c] => charSize a == 3 && secondOk a b && isTail c
  | [a, b, c, d] => charSize a == 4 && secondOk a b && isTail c && isTail d
  | _ => false

/-- A character, or a byte that belongs to none. -/
inductive Piece
  | char (c : Bytes)
  | bad (b : UInt8)
  deriving DecidableEq, Repr

def Piece.ok : Piece → Bool
  | .char _ => true
  | .bad _ => false

/-- The pieces of the string, at most `fuel` of them. -/
def piecesFrom : Nat → Bytes → List Piece
  | 0, _ => []
  | _ + 1, [] => []
  | fuel + 1, b :: rest =>
    let c := (b :: rest).take (charSize b)
    if isChar c then .char c :: piecesFrom fuel ((b :: rest).drop (charSize b))
    else .bad b :: piecesFrom fuel rest

def pieces (s : Bytes) : List Piece := piecesFrom s.length s

/-- `utf8.ValidString`. -/
def validString (s : Bytes) : Bool := (pieces s).all Piece.ok

/-- A sequence of characters. -/
def Valid (s : Bytes) : Prop := ∃ cs : List Bytes, (∀ c ∈ cs, isChar c = true) ∧ s = cs.flatten

/-- The code point of a character. -/
def codePoint : Bytes → Nat
  | [a] => a.toNat
  | [a, b] => (a.toNat - 0xC0) * 0x40 + (b.toNat - 0x80)
  | [a, b, c] => ((a.toNat - 0xE0) * 0x40 + (b.toNat - 0x80)) * 0x40 + (c.toNat - 0x80)
  | [a, b, c, d] =>
    (((a.toNat - 0xF0) * 0x40 + (b.toNat - 0x80)) * 0x40 + (c.toNat - 0x80)) * 0x40 +
      (d.toNat - 0x80)
  | _ => 0xFFFD

/-- What iteration over a string yields for a piece: U+FFFD for a byte that belongs to no
character. -/
def Piece.rune : Piece → Nat
  | .char c => codePoint c
  | .bad _ => 0xFFFD

/-- `utf8.DecodeRuneInString`: the first piece and what follows it. -/
def decodeRune : Bytes → Option (Piece × Bytes)
  | [] => none
  | b :: rest =>
    let c := (b :: rest).take (charSize b)
    if isChar c then some (.char c, (b :: rest).drop (charSize b)) else some (.bad b, rest)

/-- `unicode.IsControl`. -/
def isControl (r : Nat) : Bool := decide (r < 0x20 ∨ 0x7F ≤ r ∧ r < 0xA0)

/-- `unicode.IsSpace`. -/
def isSpace (r : Nat) : Bool :=
  decide (0x09 ≤ r ∧ r ≤ 0x0D ∨ r = 0x20 ∨ r = 0x85 ∨ r = 0xA0 ∨ r = 0x1680 ∨
    0x2000 ≤ r ∧ r ≤ 0x200A ∨ r = 0x2028 ∨ r = 0x2029 ∨ r = 0x202F ∨ r = 0x205F ∨ r = 0x3000)

/-- The bytes of a piece. -/
def Piece.raw : Piece → Bytes
  | .char c => c
  | .bad b => [b]

def Piece.isSpace (p : Piece) : Bool := Utf8.isSpace p.rune

/-- `strings.TrimSpace`. -/
def trimSpace (s : Bytes) : Bytes :=
  (((pieces s).dropWhile Piece.isSpace).reverse.dropWhile Piece.isSpace).reverse.flatMap Piece.raw

/-- `utf8.AppendRune`, for code points that have an encoding. -/
def encodeRune (n : Nat) : Bytes :=
  if n < 0x80 then [n.toUInt8]
  else if n < 0x800 then [(0xC0 + n / 0x40).toUInt8, (0x80 + n % 0x40).toUInt8]
  else if n < 0x10000 then
    [(0xE0 + n / 0x1000).toUInt8, (0x80 + n / 0x40 % 0x40).toUInt8, (0x80 + n % 0x40).toUInt8]
  else
    [(0xF0 + n / 0x40000).toUInt8, (0x80 + n / 0x1000 % 0x40).toUInt8,
      (0x80 + n / 0x40 % 0x40).toUInt8, (0x80 + n % 0x40).toUInt8]

/-- The encoding of U+FFFD. -/
def replacement : Bytes := [0xEF, 0xBF, 0xBD]

/-- What stands for a piece in a valid string. -/
def Piece.text : Piece → Bytes
  | .char c => c
  | .bad _ => replacement

/-- The string with every invalid byte replaced. -/
def toValid (s : Bytes) : Bytes := (pieces s).flatMap Piece.text

/-! ## Characters -/

/-- The first byte of a character tells its length. -/
theorem isChar_cons {c : Bytes} (h : isChar c = true) :
    ∃ b rest, c = b :: rest ∧ charSize b = c.length := by
  unfold isChar at h
  split at h
  all_goals simp only [Bool.and_eq_true, beq_iff_eq, Bool.false_eq_true] at h
  · exact ⟨_, _, rfl, h⟩
  · exact ⟨_, _, rfl, h.1⟩
  · exact ⟨_, _, rfl, h.1.1⟩
  · exact ⟨_, _, rfl, h.1.1.1⟩

theorem isChar_ne_nil {c : Bytes} (h : isChar c = true) : c ≠ [] := by
  rintro rfl
  simp [isChar] at h

theorem isChar_singleton {b : UInt8} : isChar [b] = true ↔ b < 0x80 := by
  rw [isChar, beq_iff_eq, charSize]
  split
  case isTrue h => simpa using h
  case isFalse h =>
    simp only [h, iff_false]
    split_ifs <;> simp

theorem le_of_isTail {b : UInt8} (h : isTail b = true) : 0x80 ≤ b := by
  simp only [isTail, decide_eq_true_eq] at h
  exact h.1

theorem le_of_secondOk {a b : UInt8} (h : secondOk a b = true) : 0x80 ≤ b := by
  simp only [secondOk] at h
  split_ifs at h
  case neg => exact le_of_isTail h
  all_goals
    simp only [decide_eq_true_eq] at h
    exact UInt8.le_trans (by decide) h.1

/-- All bytes of a character but the first are beyond ASCII. -/
theorem le_of_mem_char {b a : UInt8} {c : Bytes} (h : isChar (b :: c) = true) (ha : a ∈ c) :
    0x80 ≤ a := by
  match c, h, ha with
  | [_], h, ha =>
    simp only [isChar, Bool.and_eq_true] at h
    rw [List.mem_singleton.1 ha]
    exact le_of_secondOk h.2
  | [_, _], h, ha =>
    simp only [isChar, Bool.and_eq_true] at h
    simp only [List.mem_cons, List.not_mem_nil, or_false] at ha
    rcases ha with rfl | rfl
    · exact le_of_secondOk h.1.2
    · exact le_of_isTail h.2
  | [_, _, _], h, ha =>
    simp only [isChar, Bool.and_eq_true] at h
    simp only [List.mem_cons, List.not_mem_nil, or_false] at ha
    rcases ha with rfl | rfl | rfl
    · exact le_of_secondOk h.1.1.2
    · exact le_of_isTail h.1.2
    · exact le_of_isTail h.2

theorem charSize_le_of_isChar {b : UInt8} {rest : Bytes}
    (h : isChar ((b :: rest).take (charSize b)) = true) : charSize b ≤ (b :: rest).length := by
  obtain ⟨b', c, hc, hsize⟩ := isChar_cons h
  cases hb : charSize b with
  | zero => exact Nat.zero_le _
  | succ n =>
    rw [hb, List.take_succ_cons] at hc
    rw [← (List.cons.inj hc).1, hb, List.length_take] at hsize
    omega

theorem take_charSize {b : UInt8} {c rest : Bytes} (h : isChar (b :: c) = true) :
    (b :: (c ++ rest)).take (charSize b) = b :: c ∧
      (b :: (c ++ rest)).drop (charSize b) = rest := by
  obtain ⟨b', c', heq, hsize⟩ := isChar_cons h
  obtain ⟨rfl, rfl⟩ := List.cons.inj heq
  rw [hsize, ← List.cons_append]
  exact ⟨List.take_left, List.drop_left⟩

/-! ## Pieces -/

theorem piecesFrom_char {c rest : Bytes} (h : isChar c = true) (fuel : Nat) :
    piecesFrom (fuel + 1) (c ++ rest) = .char c :: piecesFrom fuel rest := by
  obtain ⟨b, c', rfl, -⟩ := isChar_cons h
  obtain ⟨htake, hdrop⟩ := @take_charSize b c' rest h
  rw [List.cons_append, piecesFrom]
  simp only [htake, hdrop, h, if_true]

/-- Fuel beyond the length of the string makes no difference. -/
theorem piecesFrom_eq {fuel fuel' : Nat} {s : Bytes} (h : s.length ≤ fuel) (h' : s.length ≤ fuel') :
    piecesFrom fuel s = piecesFrom fuel' s := by
  induction fuel generalizing fuel' s with
  | zero =>
    obtain rfl : s = [] := List.length_eq_zero_iff.1 (Nat.le_zero.1 h)
    cases fuel' <;> rfl
  | succ fuel ih =>
    cases s with
    | nil => cases fuel' <;> rfl
    | cons b rest =>
      obtain ⟨fuel', rfl⟩ : ∃ k, fuel' = k + 1 := Nat.exists_eq_succ_of_ne_zero (by
        simp only [List.length_cons] at h'
        omega)
      simp only [List.length_cons, Nat.add_le_add_iff_right] at h h'
      simp only [piecesFrom]
      split
      · rename_i hchar
        obtain ⟨b', c', heq, hsize⟩ := isChar_cons hchar
        have hlen : ((b :: rest).drop (charSize b)).length ≤ rest.length := by
          have hpos : 0 < charSize b := by
            rcases Nat.eq_zero_or_pos (charSize b) with hzero | hpos
            · simp [hzero] at heq
            · exact hpos
          rw [List.length_drop, List.length_cons]
          omega
        rw [ih (Nat.le_trans hlen h) (Nat.le_trans hlen h')]
      · rw [ih h h']

/-- A character in front of a string is its first piece. -/
theorem pieces_append {c rest : Bytes} (h : isChar c = true) :
    pieces (c ++ rest) = .char c :: pieces rest := by
  have hlen : 0 < c.length := List.length_pos_iff.2 (isChar_ne_nil h)
  obtain ⟨k, hk⟩ : ∃ k, (c ++ rest).length = k + 1 :=
    Nat.exists_eq_succ_of_ne_zero (by rw [List.length_append]; omega)
  rw [pieces, hk, piecesFrom_char h, pieces, piecesFrom_eq _ (Nat.le_refl _)]
  rw [List.length_append] at hk
  omega

theorem pieces_flatten {cs : List Bytes} (h : ∀ c ∈ cs, isChar c = true) :
    pieces cs.flatten = cs.map .char := by
  induction cs with
  | nil => rfl
  | cons c cs ih =>
    rw [List.flatten_cons, pieces_append (h c List.mem_cons_self),
      ih fun c hc => h c (List.mem_cons_of_mem _ hc), List.map_cons]

/-- A piece that is a character is one. -/
def Piece.Sound : Piece → Prop
  | .char c => isChar c = true
  | .bad _ => True

theorem sound_of_mem_piecesFrom {fuel : Nat} {s : Bytes} {p : Piece} (h : p ∈ piecesFrom fuel s) :
    p.Sound := by
  induction fuel generalizing s with
  | zero => cases h
  | succ fuel ih =>
    cases s with
    | nil => cases h
    | cons b rest =>
      simp only [piecesFrom] at h
      split at h
      · rename_i hchar
        rcases List.mem_cons.1 h with rfl | h
        · exact hchar
        · exact ih h
      · rcases List.mem_cons.1 h with rfl | h
        · trivial
        · exact ih h

theorem toValid_of_valid {s : Bytes} (h : Valid s) : toValid s = s := by
  obtain ⟨cs, hcs, rfl⟩ := h
  rw [toValid, pieces_flatten hcs, List.flatMap_map, List.flatten_eq_flatMap]
  rfl

/-- Replacing every invalid byte makes a string valid. -/
theorem valid_toValid (s : Bytes) : Valid (toValid s) := by
  refine ⟨(pieces s).map Piece.text, fun c hc => ?_, List.flatMap_def⟩
  obtain ⟨p, hp, rfl⟩ := List.mem_map.1 hc
  cases p with
  | char c => exact sound_of_mem_piecesFrom hp
  | bad b => rfl

theorem toValid_eq_nil_iff {s : Bytes} : toValid s = [] ↔ s = [] := by
  refine ⟨fun h => ?_, by rintro rfl; rfl⟩
  by_contra hne
  obtain ⟨b, rest, rfl⟩ := List.exists_cons_of_ne_nil hne
  rw [toValid, List.flatMap_eq_nil_iff] at h
  -- a string has a first piece, and a piece has a text
  have hfirst : ∃ p, p ∈ pieces (b :: rest) := by
    simp only [pieces, List.length_cons, piecesFrom]
    split <;> exact ⟨_, List.mem_cons_self⟩
  obtain ⟨p, hp⟩ := hfirst
  have hsound := sound_of_mem_piecesFrom hp
  have htext := h p hp
  cases p with
  | char c => exact isChar_ne_nil hsound htext
  | bad b => cases htext

theorem valid_of_piecesFrom {fuel : Nat} {s : Bytes} (hlen : s.length ≤ fuel)
    (h : (piecesFrom fuel s).all Piece.ok = true) : Valid s := by
  induction fuel generalizing s with
  | zero => exact ⟨[], by simp, List.length_eq_zero_iff.1 (Nat.le_zero.1 hlen)⟩
  | succ fuel ih =>
    cases s with
    | nil => exact ⟨[], by simp, rfl⟩
    | cons b rest =>
      simp only [piecesFrom] at h
      split at h
      · rename_i hchar
        rw [List.all_cons, Bool.and_eq_true] at h
        have hdrop : ((b :: rest).drop (charSize b)).length ≤ fuel := by
          have hpos : charSize b ≠ 0 := by
            intro hzero
            simp [hzero, isChar] at hchar
          rw [List.length_drop]
          omega
        obtain ⟨cs, hcs, heq⟩ := ih hdrop h.2
        refine ⟨(b :: rest).take (charSize b) :: cs, ?_, ?_⟩
        · rintro c (_ | ⟨_, hc⟩)
          · exact hchar
          · exact hcs c hc
        · rw [List.flatten_cons, ← heq, List.take_append_drop]
      · simp [Piece.ok] at h

theorem valid_iff {s : Bytes} : Valid s ↔ validString s = true := by
  constructor
  · rintro ⟨cs, hcs, rfl⟩
    rw [validString, pieces_flatten hcs, List.all_map]
    exact List.all_eq_true.2 fun _ _ => rfl
  · exact valid_of_piecesFrom (Nat.le_refl _)

instance (s : Bytes) : Decidable (Valid s) := decidable_of_iff _ valid_iff.symm

theorem valid_of_ascii {s : Bytes} (h : ∀ b ∈ s, b < 0x80) : Valid s := by
  refine ⟨s.map fun b => [b], fun c hc => ?_, ?_⟩
  · obtain ⟨b, hb, rfl⟩ := List.mem_map.1 hc
    simp [isChar, charSize, h b hb]
  · induction s with
    | nil => rfl
    | cons b s ih =>
      rw [List.map_cons, List.flatten_cons, ← ih fun c hc => h c (List.mem_cons_of_mem _ hc)]
      rfl

theorem valid_of_all {s : Bytes} (h : s.all (fun b => decide (b < 0x80)) = true) : Valid s :=
  valid_of_ascii fun b hb => by simpa using List.all_eq_true.1 h b hb

theorem charSize_of_ascii {b : UInt8} (hb : b < 0x80) : charSize b = 1 := by
  obtain ⟨b', c, heq, hsize⟩ := isChar_cons (isChar_singleton.2 hb)
  obtain ⟨rfl, rfl⟩ := List.cons.inj heq
  exact hsize

/-- An ASCII byte of a string is one of its pieces. -/
theorem mem_piecesFrom_of_ascii {fuel : Nat} {s : Bytes} {b : UInt8} (hlen : s.length ≤ fuel)
    (hb : b < 0x80) (h : b ∈ s) : Piece.char [b] ∈ piecesFrom fuel s := by
  induction fuel generalizing s with
  | zero =>
    rw [List.length_eq_zero_iff.1 (Nat.le_zero.1 hlen)] at h
    cases h
  | succ fuel ih =>
    cases s with
    | nil => cases h
    | cons a rest =>
      have hlen : rest.length ≤ fuel := Nat.le_of_succ_le_succ hlen
      rw [piecesFrom]
      split
      case isTrue hchar =>
        obtain ⟨a', c, hc, -⟩ := isChar_cons hchar
        have hsplit : a :: rest = (a' :: c) ++ (a :: rest).drop (charSize a) := by
          rw [← hc, List.take_append_drop]
        rw [hc] at hchar ⊢
        rw [hsplit, List.cons_append, List.mem_cons, List.mem_append] at h
        rcases h with rfl | h | h
        · have hone : c = [] := by
            obtain ⟨b', c', heq, hsize⟩ := isChar_cons hchar
            obtain ⟨rfl, rfl⟩ := List.cons.inj heq
            rw [charSize_of_ascii hb] at hsize
            simpa using hsize.symm
          rw [hone]
          exact List.mem_cons_self
        · exact absurd (le_of_mem_char hchar h) (UInt8.not_le.2 hb)
        · refine List.mem_cons_of_mem _ (ih ?_ h)
          have := congrArg List.length hsplit
          simp only [List.length_cons, List.length_append] at this
          omega
      case isFalse hchar =>
        rcases List.mem_cons.1 h with rfl | h
        · rw [charSize_of_ascii hb] at hchar
          exact absurd (isChar_singleton.2 hb) hchar
        · exact List.mem_cons_of_mem _ (ih hlen h)

theorem mem_pieces_of_ascii {s : Bytes} {b : UInt8} (hb : b < 0x80) (h : b ∈ s) :
    Piece.char [b] ∈ pieces s :=
  mem_piecesFrom_of_ascii (Nat.le_refl _) hb h

end Kama.Utf8
