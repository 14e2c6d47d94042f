import Kama.Foundations.Utf8

/-!
# JSON as Go reads and writes it

* `encode` is the compact form of `encoding/json`: strings are escaped for HTML, and a byte that
  is not part of a character becomes the escape of U+FFFD.
* `parse` reads one value, with the whitespace, escapes and numbers of the grammar; invalid bytes
  in a string are replaced. It takes `fuel`, one unit for each step down or along.
* `parse_encode_clean`: what `encode` writes, `parse` reads back up to the replacement of invalid
  bytes (`clean`), and so exactly for values whose strings are valid UTF-8 (`Sound`,
  `parse_encode`).
* `decodeStruct` assigns the members of an object to the fields of a structure, with Go's matching
  of names.
-/

namespace Kama

open Bytes Utf8

inductive Json
  | null
  | bool (b : Bool)
  | num (literal : Bytes)
  | str (s : Bytes)
  | arr (items : List Json)
  | obj (members : List (Bytes × Json))

namespace Json

/-! ## Writing -/

def escapeByte (b : UInt8) : Bytes :=
  if b = 34 ∨ b = 92 then [92, b]
  else if b = 8 then [92, 98]
  else if b = 12 then [92, 102]
  else if b = 10 then [92, 110]
  else if b = 13 then [92, 114]
  else if b = 9 then [92, 116]
  else if b < 32 ∨ b = 38 ∨ b = 60 ∨ b = 62 then
    [92, 117, 48, 48, hexDigit (b / 16), hexDigit (b % 16)]
  else [b]

def quotePiece : Piece → Bytes
  | .bad _ => [92, 117, 102, 102, 102, 100]
  | .char [b] => escapeByte b
  | .char c =>
    -- U+2028 and U+2029 would end a line of JavaScript
    if c = [0xE2, 0x80, 0xA8] then [92, 117, 50, 48, 50, 56]
    else if c = [0xE2, 0x80, 0xA9] then [92, 117, 50, 48, 50, 57]
    else c

def quoteBody (s : Bytes) : Bytes := (pieces s).flatMap quotePiece

def quote (s : Bytes) : Bytes := 34 :: quoteBody s ++ [34]

mutual

def encode : Json → Bytes
  | .null => [110, 117, 108, 108]
  | .bool true => [116, 114, 117, 101]
  | .bool false => [102, 97, 108, 115, 101]
  | .num literal => literal
  | .str s => quote s
  | .arr [] => [91, 93]
  | .arr (j :: js) => 91 :: encode j ++ encodeItems js
  | .obj [] => [123, 125]
  | .obj ((name, j) :: ms) => 123 :: quote name ++ 58 :: encode j ++ encodeMembers ms

/-- The elements of an array after the first, up to its end. -/
def encodeItems : List Json → Bytes
  | [] => [93]
  | j :: js => 44 :: encode j ++ encodeItems js

/-- The members of an object after the first, up to its end. -/
def encodeMembers : List (Bytes × Json) → Bytes
  | [] => [125]
  | (name, j) :: ms => 44 :: quote name ++ 58 :: encode j ++ encodeMembers ms

end

/-- The digits of a number in front of `acc`. -/
def digitsFrom : Nat → Nat → Bytes → Bytes
  | 0, _, acc => acc
  | fuel + 1, n, acc =>
    let acc := (48 + n % 10).toUInt8 :: acc
    if n < 10 then acc else digitsFrom fuel (n / 10) acc

def natDigits (n : Nat) : Bytes := digitsFrom (n + 1) n []

/-- `strconv.FormatInt(i, 10)`. -/
def decimal : Int → Bytes
  | .ofNat n => natDigits n
  | .negSucc n => 45 :: natDigits (n + 1)

/-! ## Reading -/

def isSpace (b : UInt8) : Bool := b == 32 || b == 9 || b == 10 || b == 13

def skipSpace (s : Bytes) : Bytes := s.dropWhile isSpace

def hexValue (b : UInt8) : Option Nat :=
  if isDigit b then some (b.toNat - 48)
  else if 97 ≤ b ∧ b ≤ 102 then some (b.toNat - 87)
  else if 65 ≤ b ∧ b ≤ 70 then some (b.toNat - 55)
  else none

def hex4 : Bytes → Option (Nat × Bytes)
  | a :: b :: c :: d :: rest => do
    let a ← hexValue a
    let b ← hexValue b
    let c ← hexValue c
    let d ← hexValue d
    some (((a * 16 + b) * 16 + c) * 16 + d, rest)
  | _ => none

/-- The second half of a surrogate pair, if it is there. -/
def lowSurrogate : Bytes → Option (Nat × Bytes)
  | 92 :: 117 :: rest => (hex4 rest).filter fun r => 0xDC00 ≤ r.1 ∧ r.1 < 0xE000
  | _ => none

/-- What a backslash stands for, together with what follows it. -/
def parseEscape : Bytes → Option (Bytes × Bytes)
  | 34 :: rest => some ([34], rest)
  | 92 :: rest => some ([92], rest)
  | 47 :: rest => some ([47], rest)
  | 98 :: rest => some ([8], rest)
  | 102 :: rest => some ([12], rest)
  | 110 :: rest => some ([10], rest)
  | 114 :: rest => some ([13], rest)
  | 116 :: rest => some ([9], rest)
  | 117 :: rest => do
    let (n, rest) ← hex4 rest
    if 0xD800 ≤ n ∧ n < 0xE000 then
      if n < 0xDC00 then
        match lowSurrogate rest with
        | some (m, rest) => some (encodeRune (0x10000 + (n - 0xD800) * 0x400 + (m - 0xDC00)), rest)
        | none => some (replacement, rest)
      else some (replacement, rest)
    else some (encodeRune n, rest)
  | _ => none

/-- The rest of a string after its opening quote. -/
def parseBody : Nat → Bytes → Option (Bytes × Bytes)
  | 0, _ => none
  | _ + 1, [] => none
  | fuel + 1, b :: rest =>
    if b = 34 then some ([], rest)
    else if b = 92 then do
      let (c, rest) ← parseEscape rest
      let (s, rest) ← parseBody fuel rest
      some (c ++ s, rest)
    else if b < 32 then none
    else
      let c := (b :: rest).take (charSize b)
      if isChar c then do
        let (s, rest) ← parseBody fuel ((b :: rest).drop (charSize b))
        some (c ++ s, rest)
      else do
        let (s, rest) ← parseBody fuel rest
        some (replacement ++ s, rest)

def parseExponent (literal : Bytes) : Bytes → Option (Bytes × Bytes)
  | [] => some (literal, [])
  | e :: rest =>
    if e = 101 ∨ e = 69 then
      let (sign, rest) : Bytes × Bytes := match rest with
        | 43 :: rest => ([43], rest)
        | 45 :: rest => ([45], rest)
        | rest => ([], rest)
      match rest.takeWhile isDigit with
      | [] => none
      | digits => some (literal ++ e :: sign ++ digits, rest.dropWhile isDigit)
    else some (literal, e :: rest)

def parseFraction (literal : Bytes) : Bytes → Option (Bytes × Bytes)
  | 46 :: rest =>
    match rest.takeWhile isDigit with
    | [] => none
    | digits => parseExponent (literal ++ 46 :: digits) (rest.dropWhile isDigit)
  | rest => parseExponent literal rest

/-- A number without its sign. -/
def parseUnsigned (sign : Bytes) : Bytes → Option (Bytes × Bytes)
  | 48 :: rest => parseFraction (sign ++ [48]) rest
  | s =>
    match s.takeWhile isDigit with
    | [] => none
    | digits => parseFraction (sign ++ digits) (s.dropWhile isDigit)

def parseNumber : Bytes → Option (Bytes × Bytes)
  | 45 :: rest => parseUnsigned [45] rest
  | s => parseUnsigned [] s

mutual

def parseValue : Nat → Bytes → Option (Json × Bytes)
  | 0, _ => none
  | fuel + 1, s =>
    match skipSpace s with
    | 110 :: 117 :: 108 :: 108 :: rest => some (.null, rest)
    | 116 :: 114 :: 117 :: 101 :: rest => some (.bool true, rest)
    | 102 :: 97 :: 108 :: 115 :: 101 :: rest => some (.bool false, rest)
    | 34 :: rest => (parseBody (rest.length + 1) rest).map fun r => (.str r.1, r.2)
    | 91 :: rest =>
      match skipSpace rest with
      | 93 :: rest => some (.arr [], rest)
      | rest => do
        let (j, rest) ← parseValue fuel rest
        let (js, rest) ← parseItems fuel rest
        some (.arr (j :: js), rest)
    | 123 :: rest =>
      match skipSpace rest with
      | 125 :: rest => some (.obj [], rest)
      | rest => do
        let (m, rest) ← parseMember fuel rest
        let (ms, rest) ← parseMembers fuel rest
        some (.obj (m :: ms), rest)
    | s => (parseNumber s).map fun r => (.num r.1, r.2)

/-- The rest of an array after an element. -/
def parseItems : Nat → Bytes → Option (List Json × Bytes)
  | 0, _ => none
  | fuel + 1, s =>
    match skipSpace s with
    | 93 :: rest => some ([], rest)
    | 44 :: rest => do
      let (j, rest) ← parseValue fuel rest
      let (js, rest) ← parseItems fuel rest
      some (j :: js, rest)
    | _ => none

def parseMember : Nat → Bytes → Option ((Bytes × Json) × Bytes)
  | 0, _ => none
  | fuel + 1, s =>
    match skipSpace s with
    | 34 :: rest => do
      let (name, rest) ← parseBody (rest.length + 1) rest
      match skipSpace rest with
      | 58 :: rest => do
        let (j, rest) ← parseValue fuel rest
        some ((name, j), rest)
      | _ => none
    | _ => none

/-- The rest of an object after a member. -/
def parseMembers : Nat → Bytes → Option (List (Bytes × Json) × Bytes)
  | 0, _ => none
  | fuel + 1, s =>
    match skipSpace s with
    | 125 :: rest => some ([], rest)
    | 44 :: rest => do
      let (m, rest) ← parseMember fuel rest
      let (ms, rest) ← parseMembers fuel rest
      some (m :: ms, rest)
    | _ => none

end

/-- The first value of the text. -/
def parse (s : Bytes) : Option (Json × Bytes) := parseValue (s.length + 1) s

/-! ## Strings are read back -/

theorem hexValue_hexDigit {n : UInt8} (h : n < 16) : hexValue (hexDigit n) = some n.toNat := by
  rw [UInt8.lt_iff_toNat_lt] at h
  unfold hexDigit
  split
  case isTrue hlt =>
    rw [UInt8.lt_iff_toNat_lt] at hlt
    have hvalue : (48 + n).toNat = 48 + n.toNat := by
      rw [UInt8.toNat_add]
      simp only [UInt8.reduceToNat] at *
      omega
    rw [hexValue, if_pos, hvalue, Nat.add_sub_cancel_left]
    simp only [isDigit, decide_eq_true_eq, UInt8.le_iff_toNat_le, hvalue, UInt8.reduceToNat] at *
    omega
  case isFalse hge =>
    rw [UInt8.lt_iff_toNat_lt] at hge
    have hvalue : (87 + n).toNat = 87 + n.toNat := by
      rw [UInt8.toNat_add]
      simp only [UInt8.reduceToNat] at *
      omega
    rw [hexValue, if_neg, if_pos, hvalue, Nat.add_sub_cancel_left]
    · simp only [UInt8.le_iff_toNat_le, hvalue, UInt8.reduceToNat] at *
      omega
    · simp only [isDigit, decide_eq_true_eq, UInt8.le_iff_toNat_le, hvalue,
        UInt8.reduceToNat] at *
      omega

theorem hexValue_hexDigit_div (b : UInt8) : hexValue (hexDigit (b / 16)) = some (b.toNat / 16) := by
  rw [hexValue_hexDigit (div_lt_sixteen b), UInt8.toNat_div]
  rfl

theorem hexValue_hexDigit_mod (b : UInt8) : hexValue (hexDigit (b % 16)) = some (b.toNat % 16) := by
  rw [hexValue_hexDigit (mod_lt_sixteen b), UInt8.toNat_mod]
  rfl

theorem ne_of_isDigit {b c : UInt8} (hb : isDigit b = true) (hc : isDigit c = false) : b ≠ c := by
  rintro rfl
  rw [hb] at hc
  cases hc

theorem not_isSpace_of_isDigit {b : UInt8} (hb : isDigit b = true) : isSpace b = false := by
  simp [isSpace, ne_of_isDigit hb (c := 32) rfl, ne_of_isDigit hb (c := 9) rfl,
    ne_of_isDigit hb (c := 10) rfl, ne_of_isDigit hb (c := 13) rfl]

theorem parseEscape_hex {b : UInt8} (hb : b < 0x80) (rest : Bytes) :
    parseEscape (117 :: 48 :: 48 :: hexDigit (b / 16) :: hexDigit (b % 16) :: rest) =
      some ([b], rest) := by
  have hlt : b.toNat < 128 := hb
  have hzero : hexValue 48 = some 0 := rfl
  have hvalue : ((0 * 16 + 0) * 16 + b.toNat / 16) * 16 + b.toNat % 16 = b.toNat := by omega
  have hchar : ¬ (0xD800 ≤ b.toNat ∧ b.toNat < 0xE000) := by omega
  simp only [parseEscape, hex4, hzero, hexValue_hexDigit_div, hexValue_hexDigit_mod,
    Option.bind_eq_bind, Option.bind_some, hvalue, hchar, if_false, encodeRune, hlt, if_true]
  simp

/-- A string that starts with an escape, or with a character that is not one. -/
theorem parseBody_escape {c rest rest' : Bytes} (h : parseEscape rest = some (c, rest'))
    (fuel : Nat) :
    parseBody (fuel + 1) (92 :: rest) = (parseBody fuel rest').map fun r => (c ++ r.1, r.2) := by
  simp only [parseBody, h, Option.bind_eq_bind, Option.bind_some]
  cases parseBody fuel rest' <;> rfl

theorem parseBody_char {b : UInt8} {c rest : Bytes} (h : isChar (b :: c) = true) (hquote : b ≠ 34)
    (hescape : b ≠ 92) (hcontrol : ¬ b < 32) (fuel : Nat) :
    parseBody (fuel + 1) (b :: (c ++ rest)) =
      (parseBody fuel rest).map fun r => (b :: c ++ r.1, r.2) := by
  obtain ⟨htake, hdrop⟩ := @take_charSize b c rest h
  simp only [parseBody, hquote, hescape, hcontrol, if_false, htake, hdrop, h, if_true]
  cases parseBody fuel rest <;> rfl

theorem parseBody_escapeByte {b : UInt8} (hb : b < 0x80) (rest : Bytes) (fuel : Nat) :
    parseBody (fuel + 1) (escapeByte b ++ rest) =
      (parseBody fuel rest).map fun r => ([b] ++ r.1, r.2) := by
  have hchar : isChar [b] = true := by simp [isChar, charSize, hb]
  unfold escapeByte
  split
  · rename_i h
    rcases h with rfl | rfl
    · exact parseBody_escape rfl fuel
    · exact parseBody_escape rfl fuel
  split
  · subst b
    exact parseBody_escape rfl fuel
  split
  · subst b
    exact parseBody_escape rfl fuel
  split
  · subst b
    exact parseBody_escape rfl fuel
  split
  · subst b
    exact parseBody_escape rfl fuel
  split
  · subst b
    exact parseBody_escape rfl fuel
  split
  · exact parseBody_escape (parseEscape_hex hb rest) fuel
  · rename_i hq _ _ _ _ _ hplain
    push Not at hq hplain
    exact parseBody_char hchar hq.1 hq.2 hplain.1 fuel

theorem parseBody_quotePiece {c : Bytes} (h : isChar c = true) (rest : Bytes) (fuel : Nat) :
    parseBody (fuel + 1) (quotePiece (.char c) ++ rest) =
      (parseBody fuel rest).map fun r => (c ++ r.1, r.2) := by
  obtain ⟨b, c', rfl, hsize⟩ := isChar_cons h
  cases c' with
  | nil => exact parseBody_escapeByte (isChar_singleton.1 h) rest fuel
  | cons d c' =>
    have hb : ¬ b < 0x80 := by
      intro hb
      simp [charSize, hb] at hsize
    have hge : 128 ≤ b.toNat := Nat.le_of_not_lt hb
    rw [quotePiece]
    split
    · rename_i heq
      rw [heq]
      exact parseBody_escape rfl fuel
    split
    · rename_i heq
      rw [heq]
      exact parseBody_escape rfl fuel
    · refine parseBody_char h ?_ ?_ ?_ fuel
      · rintro rfl
        simp at hge
      · rintro rfl
        simp at hge
      · intro hlt
        have : b.toNat < 32 := hlt
        omega
    · simp

theorem parseBody_piece {p : Piece} (hp : p.Sound) (rest : Bytes) (fuel : Nat) :
    parseBody (fuel + 1) (quotePiece p ++ rest) =
      (parseBody fuel rest).map fun r => (p.text ++ r.1, r.2) := by
  cases p with
  | char c => exact parseBody_quotePiece hp rest fuel
  | bad b => exact parseBody_escape rfl fuel

theorem quotePiece_ne_nil {p : Piece} (hp : p.Sound) : quotePiece p ≠ [] := by
  match p, hp with
  | .bad b, _ => simp [quotePiece]
  | .char c, h =>
    obtain ⟨b, c', rfl, -⟩ := isChar_cons h
    cases c' with
    | nil =>
      rw [quotePiece]
      unfold escapeByte
      (repeat' split) <;> simp
    | cons d c' =>
      rw [quotePiece]
      · (repeat' split) <;> simp
      · simp

/-- The body of a quoted string is read back up to its closing quote. -/
theorem parseBody_quoteBody (s rest : Bytes) {fuel : Nat} (hfuel : (quoteBody s).length < fuel) :
    parseBody fuel (quoteBody s ++ 34 :: rest) = some (toValid s, rest) := by
  have hsound : ∀ p ∈ pieces s, p.Sound := fun p => sound_of_mem_piecesFrom
  unfold quoteBody at hfuel
  unfold quoteBody toValid
  generalize pieces s = ps at hsound hfuel ⊢
  induction ps generalizing fuel with
  | nil =>
    obtain ⟨fuel, rfl⟩ := Nat.exists_eq_succ_of_ne_zero (Nat.ne_of_gt hfuel)
    simp [parseBody]
  | cons p ps ih =>
    have hp := hsound p List.mem_cons_self
    have hps := fun p hp => hsound p (List.mem_cons_of_mem _ hp)
    simp only [List.flatMap_cons, List.length_append, List.append_assoc] at hfuel ⊢
    have hpos : 0 < (quotePiece p).length := List.length_pos_iff.2 (quotePiece_ne_nil hp)
    obtain ⟨fuel, rfl⟩ : ∃ k, fuel = k + 1 := Nat.exists_eq_succ_of_ne_zero (by omega)
    rw [parseBody_piece hp, ih hps (by omega)]
    rfl

/-! ## Numbers are read back -/

/-- The number that a string of digits writes. -/
def ofDigits (s : Bytes) : Nat := s.foldl (fun n b => n * 10 + (b.toNat - 48)) 0

theorem isDigit_digit {d : Nat} (hd : d < 10) : isDigit (48 + d).toUInt8 = true := by
  revert d
  decide

theorem toNat_digit {d : Nat} (hd : d < 10) : (48 + d).toUInt8.toNat - 48 = d := by
  revert d
  decide

theorem digit_ne_zero {d : Nat} (hd : d < 10) (h0 : d ≠ 0) : (48 + d).toUInt8 ≠ 48 := by
  revert d
  decide

theorem digitsFrom_append (fuel n : Nat) (acc : Bytes) :
    digitsFrom fuel n acc = digitsFrom fuel n [] ++ acc := by
  induction fuel generalizing n acc with
  | zero => rfl
  | succ fuel ih =>
    simp only [digitsFrom]
    split
    · rfl
    · rw [ih, ih _ [_], List.append_assoc]
      rfl

/-- The digits of a number: all of them digits, the first not zero unless the number is, and
together the number. -/
theorem digitsFrom_spec {fuel n : Nat} (h : n < fuel) :
    (∀ b ∈ digitsFrom fuel n [], isDigit b = true) ∧ ofDigits (digitsFrom fuel n []) = n ∧
      ∃ b rest, digitsFrom fuel n [] = b :: rest ∧ (b = 48 → n = 0 ∧ rest = []) := by
  induction fuel generalizing n with
  | zero => omega
  | succ fuel ih =>
    have hd : n % 10 < 10 := Nat.mod_lt _ (by decide)
    simp only [digitsFrom]
    split
    · rename_i hlt
      have hmod : n % 10 = n := Nat.mod_eq_of_lt hlt
      refine ⟨?_, ?_, _, _, rfl, fun heq => ⟨?_, rfl⟩⟩
      · intro b hb
        rw [List.mem_singleton.1 hb]
        exact isDigit_digit hd
      · simp only [ofDigits, List.foldl_cons, List.foldl_nil, toNat_digit hd]
        omega
      · by_contra hn
        exact digit_ne_zero hd (by omega) heq
    · rename_i hge
      obtain ⟨hall, hvalue, b, rest, heq, hzero⟩ := ih (n := n / 10) (by omega)
      rw [digitsFrom_append]
      refine ⟨?_, ?_, b, rest ++ [(48 + n % 10).toUInt8], by rw [heq]; rfl, fun hb => ?_⟩
      · intro b hb
        rcases List.mem_append.1 hb with hb | hb
        · exact hall b hb
        · rw [List.mem_singleton.1 hb]
          exact isDigit_digit hd
      · rw [ofDigits, List.foldl_append, ← ofDigits, hvalue]
        simp only [List.foldl_cons, List.foldl_nil, toNat_digit hd]
        omega
      · have := (hzero hb).1
        omega

theorem ofDigits_natDigits (n : Nat) : ofDigits (natDigits n) = n :=
  (digitsFrom_spec (Nat.lt_succ_self n)).2.1

theorem isDigit_of_mem_natDigits {n : Nat} {b : UInt8} (hb : b ∈ natDigits n) :
    isDigit b = true :=
  (digitsFrom_spec (Nat.lt_succ_self n)).1 b hb

/-- What follows is not a continuation of a number. -/
def Stops : Bytes → Prop
  | [] => True
  | b :: _ => isDigit b = false ∧ b ≠ 46 ∧ b ≠ 101 ∧ b ≠ 69

theorem parseFraction_stops {literal rest : Bytes} (h : Stops rest) :
    parseFraction literal rest = some (literal, rest) := by
  cases rest with
  | nil => rfl
  | cons b rest =>
    obtain ⟨-, hdot, he, hE⟩ := h
    unfold parseFraction
    split
    · rename_i heq
      exact absurd (List.cons.inj heq).1 hdot
    · simp [parseExponent, he, hE]

theorem takeWhile_digits {ds rest : Bytes} (hds : ∀ b ∈ ds, isDigit b = true) (h : Stops rest) :
    (ds ++ rest).takeWhile isDigit = ds ∧ (ds ++ rest).dropWhile isDigit = rest := by
  rw [List.takeWhile_append_of_pos hds, List.dropWhile_append_of_pos hds]
  cases rest with
  | nil => simp
  | cons b rest => simp [h.1]

theorem parseUnsigned_natDigits (sign : Bytes) (n : Nat) {rest : Bytes} (h : Stops rest) :
    parseUnsigned sign (natDigits n ++ rest) = some (sign ++ natDigits n, rest) := by
  obtain ⟨hall, -, b, ds, heq, hzero⟩ := digitsFrom_spec (Nat.lt_succ_self n)
  rw [show digitsFrom (n + 1) n [] = natDigits n from rfl] at hall heq
  obtain ⟨htake, hdrop⟩ := takeWhile_digits hall h
  unfold parseUnsigned
  split
  · rename_i rest' hcons
    rw [heq, List.cons_append] at hcons
    obtain ⟨hb, hrest⟩ := List.cons.inj hcons
    obtain ⟨-, rfl⟩ := hzero hb
    rw [← hrest, List.nil_append, parseFraction_stops h, heq, hb]
  · rw [htake, hdrop]
    split
    · rename_i hnil
      simp [heq] at hnil
    · exact parseFraction_stops h

theorem parseNumber_decimal (i : Int) {rest : Bytes} (h : Stops rest) :
    parseNumber (decimal i ++ rest) = some (decimal i, rest) := by
  cases i with
  | ofNat n =>
    have hnat := parseUnsigned_natDigits [] n h
    simp only [decimal, List.nil_append] at hnat ⊢
    unfold parseNumber
    split
    · rename_i heq
      -- a digit is not a sign
      obtain ⟨hall, -, b, ds, hds, -⟩ := digitsFrom_spec (Nat.lt_succ_self n)
      have hb := hall b (by rw [hds]; exact List.mem_cons_self)
      rw [natDigits, hds, List.cons_append] at heq
      rw [(List.cons.inj heq).1] at hb
      simp [isDigit] at hb
    · exact hnat
  | negSucc n => exact parseUnsigned_natDigits [45] (n + 1) h

/-- The sign of a literal and its digits. -/
def splitSign : Bytes → Bool × Bytes
  | 45 :: rest => (true, rest)
  | s => (false, s)

/-- `strconv.ParseInt(literal, 10, 64)`. -/
def parseInt64 (literal : Bytes) : Option Int :=
  let (negative, digits) := splitSign literal
  if digits = [] ∨ digits.all isDigit = false then none
  else
    let i : Int := if negative then -(ofDigits digits : Int) else ofDigits digits
    if -(2 ^ 63) ≤ i ∧ i < 2 ^ 63 then some i else none

theorem parseInt64_decimal {i : Int} (h : -(2 ^ 63) ≤ i ∧ i < 2 ^ 63) :
    parseInt64 (decimal i) = some i := by
  have hdigits : ∀ n, ¬ (natDigits n = [] ∨ (natDigits n).all isDigit = false) := by
    intro n
    obtain ⟨hall, -, b, ds, hds, -⟩ := digitsFrom_spec (Nat.lt_succ_self n)
    rw [show digitsFrom (n + 1) n [] = natDigits n from rfl] at hall hds
    rintro (hnil | hfalse)
    · simp [hds] at hnil
    · simp [List.all_eq_true.2 hall] at hfalse
  cases i with
  | ofNat n =>
    have hsign : splitSign (natDigits n) = (false, natDigits n) := by
      unfold splitSign
      split
      · rename_i heq
        have hdigit := isDigit_of_mem_natDigits (n := n) (by rw [heq]; exact List.mem_cons_self)
        simp [isDigit] at hdigit
      · rfl
    simp only [decimal, parseInt64, hsign, hdigits, if_false, ofDigits_natDigits]
    simpa using h
  | negSucc n =>
    have hneg : (Int.negSucc n : Int) = -((n + 1 : Nat) : Int) := rfl
    simp only [decimal, parseInt64, splitSign, hdigits, if_false, ofDigits_natDigits, if_true]
    rw [← hneg, if_pos h]

/-- An integer field is read back. -/
theorem parseInt64_toInt (i : Int64) : parseInt64 (decimal i.toInt) = some i.toInt :=
  parseInt64_decimal ⟨i.le_toInt, i.toInt_lt⟩

/-! ## Values are read back -/

mutual

/-- The strings are valid and the numbers are integers. -/
def Sound : Json → Prop
  | .null => True
  | .bool _ => True
  | .num literal => ∃ i, literal = decimal i
  | .str s => Valid s
  | .arr js => SoundItems js
  | .obj ms => SoundMembers ms

def SoundItems : List Json → Prop
  | [] => True
  | j :: js => Sound j ∧ SoundItems js

def SoundMembers : List (Bytes × Json) → Prop
  | [] => True
  | (name, j) :: ms => Valid name ∧ Sound j ∧ SoundMembers ms

end

mutual

/-- The numbers are integers. -/
def Literal : Json → Prop
  | .num literal => ∃ i, literal = decimal i
  | .arr js => LiteralItems js
  | .obj ms => LiteralMembers ms
  | _ => True

def LiteralItems : List Json → Prop
  | [] => True
  | j :: js => Literal j ∧ LiteralItems js

def LiteralMembers : List (Bytes × Json) → Prop
  | [] => True
  | (_, j) :: ms => Literal j ∧ LiteralMembers ms

end

mutual

/-- The value with every invalid byte of a string replaced. -/
def clean : Json → Json
  | .str s => .str (toValid s)
  | .arr js => .arr (cleanItems js)
  | .obj ms => .obj (cleanMembers ms)
  | j => j

def cleanItems : List Json → List Json
  | [] => []
  | j :: js => clean j :: cleanItems js

def cleanMembers : List (Bytes × Json) → List (Bytes × Json)
  | [] => []
  | (name, j) :: ms => (toValid name, clean j) :: cleanMembers ms

end

mutual

theorem Sound.literal : {j : Json} → Sound j → Literal j
  | .null, _ => by simp [Literal]
  | .bool _, _ => by simp [Literal]
  | .num _, h => h
  | .str _, _ => by simp [Literal]
  | .arr _, h => SoundItems.literal h
  | .obj _, h => SoundMembers.literal h

theorem SoundItems.literal : {js : List Json} → SoundItems js → LiteralItems js
  | [], _ => trivial
  | _ :: _, h => ⟨h.1.literal, h.2.literal⟩

theorem SoundMembers.literal : {ms : List (Bytes × Json)} → SoundMembers ms → LiteralMembers ms
  | [], _ => trivial
  | (_, _) :: _, h => ⟨h.2.1.literal, h.2.2.literal⟩

end

mutual

theorem Sound.clean : {j : Json} → Sound j → clean j = j
  | .null, _ => rfl
  | .bool _, _ => rfl
  | .num _, _ => rfl
  | .str _, h => congrArg Json.str (toValid_of_valid h)
  | .arr _, h => congrArg Json.arr (SoundItems.clean h)
  | .obj _, h => congrArg Json.obj (SoundMembers.clean h)

theorem SoundItems.clean : {js : List Json} → SoundItems js → cleanItems js = js
  | [], _ => rfl
  | _ :: _, h => by rw [cleanItems, h.1.clean, h.2.clean]

theorem SoundMembers.clean : {ms : List (Bytes × Json)} → SoundMembers ms → cleanMembers ms = ms
  | [], _ => rfl
  | (_, _) :: _, h => by rw [cleanMembers, toValid_of_valid h.1, h.2.1.clean, h.2.2.clean]

end

mutual

theorem literal_of_clean : {j : Json} → Literal (clean j) → Literal j
  | .null, _ => by simp [Literal]
  | .bool _, _ => by simp [Literal]
  | .num _, h => h
  | .str _, _ => by simp [Literal]
  | .arr _, h => literalItems_of_clean h
  | .obj _, h => literalMembers_of_clean h

theorem literalItems_of_clean : {js : List Json} → LiteralItems (cleanItems js) → LiteralItems js
  | [], _ => trivial
  | _ :: _, h => ⟨literal_of_clean h.1, literalItems_of_clean h.2⟩

theorem literalMembers_of_clean :
    {ms : List (Bytes × Json)} → LiteralMembers (cleanMembers ms) → LiteralMembers ms
  | [], _ => trivial
  | (_, _) :: _, h => ⟨literal_of_clean h.1, literalMembers_of_clean h.2⟩

end

theorem skipSpace_cons {b : UInt8} (h : isSpace b = false) (rest : Bytes) :
    skipSpace (b :: rest) = b :: rest := by
  simp [skipSpace, h]

/-- The first byte of a value is none of those that end a list or separate its elements. -/
theorem encode_head {j : Json} (h : Literal j) : ∃ b rest, encode j = b :: rest ∧
    isSpace b = false ∧ b ≠ 93 ∧ b ≠ 125 := by
  cases j with
  | null => exact ⟨_, _, rfl, by decide⟩
  | bool b => cases b <;> exact ⟨_, _, rfl, by decide⟩
  | str s => exact ⟨_, _, rfl, by decide⟩
  | arr js => cases js <;> exact ⟨_, _, by simp only [encode]; rfl, by decide⟩
  | obj ms => cases ms <;> exact ⟨_, _, by simp only [encode]; rfl, by decide⟩
  | num literal =>
    obtain ⟨i, rfl⟩ := h
    cases i with
    | negSucc n => exact ⟨_, _, rfl, by decide⟩
    | ofNat n =>
      obtain ⟨hall, -, b, ds, hds, -⟩ := digitsFrom_spec (Nat.lt_succ_self n)
      have hb := hall b (by rw [hds]; exact List.mem_cons_self)
      exact ⟨b, ds, hds, not_isSpace_of_isDigit hb, ne_of_isDigit hb rfl, ne_of_isDigit hb rfl⟩

theorem stops_items (js : List Json) (rest : Bytes) : Stops (encodeItems js ++ rest) := by
  cases js <;> simp [encodeItems, Stops, isDigit]

theorem stops_members (ms : List (Bytes × Json)) (rest : Bytes) :
    Stops (encodeMembers ms ++ rest) := by
  rcases ms with _ | ⟨⟨name, j⟩, ms⟩ <;> simp [encodeMembers, Stops, isDigit]

theorem parseBody_quote (s rest : Bytes) :
    parseBody ((quoteBody s ++ 34 :: rest).length + 1) (quoteBody s ++ 34 :: rest) =
      some (toValid s, rest) := by
  refine parseBody_quoteBody s rest ?_
  rw [List.length_append]
  omega

theorem parseValue_decimal (i : Int) (fuel : Nat) {rest : Bytes} (h : Stops rest) :
    parseValue (fuel + 1) (decimal i ++ rest) = some (.num (decimal i), rest) := by
  have hhead : ∃ b ds, decimal i = b :: ds ∧ isSpace b = false ∧ b ≠ 110 ∧ b ≠ 116 ∧ b ≠ 102 ∧
      b ≠ 34 ∧ b ≠ 91 ∧ b ≠ 123 := by
    cases i with
    | negSucc n => exact ⟨_, _, rfl, by decide⟩
    | ofNat n =>
      obtain ⟨hall, -, b, ds, hds, -⟩ := digitsFrom_spec (Nat.lt_succ_self n)
      have hb := hall b (by rw [hds]; exact List.mem_cons_self)
      exact ⟨b, ds, hds, not_isSpace_of_isDigit hb, ne_of_isDigit hb rfl, ne_of_isDigit hb rfl,
        ne_of_isDigit hb rfl, ne_of_isDigit hb rfl, ne_of_isDigit hb rfl, ne_of_isDigit hb rfl⟩
  have hnumber := parseNumber_decimal i h
  obtain ⟨b, ds, hds, hspace, h110, h116, h102, h34, h91, h123⟩ := hhead
  rw [hds, List.cons_append] at hnumber ⊢
  rw [parseValue, skipSpace_cons hspace]
  split
  · rename_i heq
    exact absurd (List.cons.inj heq).1 h110
  · rename_i heq
    exact absurd (List.cons.inj heq).1 h116
  · rename_i heq
    exact absurd (List.cons.inj heq).1 h102
  · rename_i heq
    exact absurd (List.cons.inj heq).1 h34
  · rename_i heq
    exact absurd (List.cons.inj heq).1 h91
  · rename_i heq
    exact absurd (List.cons.inj heq).1 h123
  · rw [hnumber]
    rfl

theorem parseMember_encode (name : Bytes) {j : Json} {fuel : Nat} {rest : Bytes}
    (hj : parseValue fuel (encode j ++ rest) = some (clean j, rest)) :
    parseMember (fuel + 1) (quote name ++ 58 :: (encode j ++ rest)) =
      some ((toValid name, clean j), rest) := by
  have hbody := parseBody_quote name (58 :: (encode j ++ rest))
  have hquote : quote name ++ 58 :: (encode j ++ rest) =
      34 :: (quoteBody name ++ 34 :: 58 :: (encode j ++ rest)) := by simp [quote]
  rw [hquote, parseMember, skipSpace_cons (by decide)]
  simp only [hbody, Option.bind_eq_bind, Option.bind_some]
  rw [skipSpace_cons (by decide)]
  simp only [hj, Option.bind_some]

mutual

/-- **What `encode` writes, `parseValue` reads back.** -/
theorem parseValue_encode (j : Json) (h : Literal j) {fuel : Nat} {rest : Bytes}
    (hfuel : (encode j).length ≤ fuel) (hstop : Stops rest) :
    parseValue fuel (encode j ++ rest) = some (clean j, rest) := by
  obtain ⟨fuel, rfl⟩ : ∃ k, fuel = k + 1 := Nat.exists_eq_succ_of_ne_zero (by
    obtain ⟨b, ds, hds, -⟩ := encode_head h
    rw [hds, List.length_cons] at hfuel
    omega)
  match j, h, hfuel with
  | .null, _, _ => rfl
  | .bool true, _, _ => rfl
  | .bool false, _, _ => rfl
  | .num literal, h, _ =>
    obtain ⟨i, rfl⟩ := h
    exact parseValue_decimal i fuel hstop
  | .str s, _, _ =>
    have hquote : encode (.str s) ++ rest = 34 :: (quoteBody s ++ 34 :: rest) := by
      simp [encode, quote]
    rw [hquote, parseValue, skipSpace_cons (by decide)]
    simp only [parseBody_quote s rest, Option.map_some, clean]
  | .arr [], _, _ => rfl
  | .arr (j :: js), h, hfuel =>
    obtain ⟨hj, hjs⟩ := h
    simp only [encode, List.length_cons, List.length_append, List.cons_append,
      List.append_assoc] at hfuel ⊢
    obtain ⟨b, ds, hds, hspace, hclose, -⟩ := encode_head hj
    have hvalue : parseValue fuel (encode j ++ (encodeItems js ++ rest)) =
        some (clean j, encodeItems js ++ rest) :=
      parseValue_encode j hj (by omega) (stops_items js rest)
    have hitems : parseItems fuel (encodeItems js ++ rest) = some (cleanItems js, rest) :=
      parseItems_encode js hjs (by omega)
    rw [parseValue, skipSpace_cons (by decide)]
    rw [hds, List.cons_append] at hvalue ⊢
    simp only [skipSpace_cons hspace]
    split
    · rename_i heq
      exact absurd (List.cons.inj heq).1 hclose
    · simp only [hvalue, hitems, Option.bind_eq_bind, Option.bind_some, clean, cleanItems]
  | .obj [], _, _ => rfl
  | .obj ((name, j) :: ms), h, hfuel =>
    obtain ⟨hj, hms⟩ := h
    simp only [encode, List.length_cons, List.length_append, List.cons_append,
      List.append_assoc] at hfuel ⊢
    obtain ⟨fuel, rfl⟩ : ∃ k, fuel = k + 1 := Nat.exists_eq_succ_of_ne_zero (by omega)
    have hvalue : parseValue fuel (encode j ++ (encodeMembers ms ++ rest)) =
        some (clean j, encodeMembers ms ++ rest) :=
      parseValue_encode j hj (by omega) (stops_members ms rest)
    have hmember := parseMember_encode name hvalue
    have hmembers :
        parseMembers (fuel + 1) (encodeMembers ms ++ rest) = some (cleanMembers ms, rest) :=
      parseMembers_encode ms hms (by omega)
    rw [parseValue, skipSpace_cons (by decide)]
    have hquote : ∀ t, quote name ++ t = 34 :: (quoteBody name ++ 34 :: t) := by simp [quote]
    rw [hquote] at hmember ⊢
    simp only [skipSpace_cons (show isSpace 34 = false by decide)]
    split
    · rename_i heq
      exact absurd (List.cons.inj heq).1 (by decide)
    · simp only [hmember, hmembers, Option.bind_eq_bind, Option.bind_some, clean, cleanMembers]

theorem parseItems_encode (js : List Json) (h : LiteralItems js) {fuel : Nat} {rest : Bytes}
    (hfuel : (encodeItems js).length ≤ fuel) :
    parseItems fuel (encodeItems js ++ rest) = some (cleanItems js, rest) := by
  match js, h, hfuel with
  | [], _, hfuel =>
    obtain ⟨fuel, rfl⟩ := Nat.exists_eq_succ_of_ne_zero (Nat.ne_of_gt hfuel)
    rfl
  | j :: js, h, hfuel =>
    obtain ⟨hj, hjs⟩ := h
    simp only [encodeItems, List.length_cons, List.length_append, List.cons_append,
      List.append_assoc] at hfuel ⊢
    obtain ⟨fuel, rfl⟩ : ∃ k, fuel = k + 1 := Nat.exists_eq_succ_of_ne_zero (by omega)
    have hvalue : parseValue fuel (encode j ++ (encodeItems js ++ rest)) =
        some (clean j, encodeItems js ++ rest) :=
      parseValue_encode j hj (by omega) (stops_items js rest)
    have hitems : parseItems fuel (encodeItems js ++ rest) = some (cleanItems js, rest) :=
      parseItems_encode js hjs (by omega)
    rw [parseItems, skipSpace_cons (by decide)]
    simp only [hvalue, hitems, Option.bind_eq_bind, Option.bind_some, cleanItems]

theorem parseMembers_encode (ms : List (Bytes × Json)) (h : LiteralMembers ms) {fuel : Nat}
    {rest : Bytes} (hfuel : (encodeMembers ms).length ≤ fuel) :
    parseMembers fuel (encodeMembers ms ++ rest) = some (cleanMembers ms, rest) := by
  match ms, h, hfuel with
  | [], _, hfuel =>
    obtain ⟨fuel, rfl⟩ := Nat.exists_eq_succ_of_ne_zero (Nat.ne_of_gt hfuel)
    rfl
  | (name, j) :: ms, h, hfuel =>
    obtain ⟨hj, hms⟩ := h
    simp only [encodeMembers, List.length_cons, List.length_append, List.cons_append,
      List.append_assoc] at hfuel ⊢
    obtain ⟨fuel, rfl⟩ : ∃ k, fuel = k + 2 := ⟨fuel - 2, by omega⟩
    have hvalue : parseValue fuel (encode j ++ (encodeMembers ms ++ rest)) =
        some (clean j, encodeMembers ms ++ rest) :=
      parseValue_encode j hj (by omega) (stops_members ms rest)
    have hmember := parseMember_encode name hvalue
    have hmembers :
        parseMembers (fuel + 1) (encodeMembers ms ++ rest) = some (cleanMembers ms, rest) :=
      parseMembers_encode ms hms (by omega)
    rw [parseMembers, skipSpace_cons (by decide)]
    simp only [hmember, hmembers, Option.bind_eq_bind, Option.bind_some, cleanMembers]

end

/-- A value is read back with its invalid bytes replaced. -/
theorem parse_encode_clean {j : Json} (h : Literal j) : parse (encode j) = some (clean j, []) := by
  have hvalue : parseValue ((encode j).length + 1) (encode j ++ []) = some (clean j, []) :=
    parseValue_encode j h (Nat.le_succ _) trivial
  rwa [List.append_nil] at hvalue

theorem parse_encode {j : Json} (h : Sound j) : parse (encode j) = some (j, []) := by
  rw [parse_encode_clean h.literal, h.clean]

/-! ## Structures -/

/-- `foldName`: the letters that Go compares without case. -/
def foldName : Bytes → Bytes
  -- the Kelvin sign and the long s fold to letters
  | 0xE2 :: 0x84 :: 0xAA :: rest => 107 :: foldName rest
  | 0xC5 :: 0xBF :: rest => 115 :: foldName rest
  | b :: rest => (if isUpper b then b + 32 else b) :: foldName rest
  | [] => []

/-- How the fields of a structure are set from values, by name. -/
abbrev Fields (σ : Type) := List (Bytes × (Json → σ → Option σ))

/-- The field for a name: an exact match, or else one up to case. -/
def Fields.find {σ : Type} (fields : Fields σ) (name : Bytes) : Option (Json → σ → Option σ) :=
  match fields.lookup name with
  | some set => some set
  | none => (fields.find? fun f => foldName f.1 = foldName name).map Prod.snd

/-- Assign the members one after the other; a member without a field is an error. -/
def assign {σ : Type} (fields : Fields σ) : List (Bytes × Json) → σ → Option σ
  | [], s => some s
  | (name, j) :: ms, s => do
    let set ← fields.find name
    let s ← set j s
    assign fields ms s

/-- Assign the members that have a field. -/
def assignKnown {σ : Type} (fields : Fields σ) : List (Bytes × Json) → σ → Option σ
  | [], s => some s
  | (name, j) :: ms, s =>
    match fields.find name with
    | none => assignKnown fields ms s
    | some set => do
      let s ← set j s
      assignKnown fields ms s

/-- `json.Unmarshal` into a structure that holds `zero`. -/
def unmarshal {σ : Type} (fields : Fields σ) (zero : σ) (s : Bytes) : Option σ := do
  let (j, rest) ← parse s
  if skipSpace rest ≠ [] then none
  else
    match j with
    | .null => some zero
    | .obj members => assignKnown fields members zero
    | _ => none

/-- `Decoder.Decode` with `DisallowUnknownFields` into a structure that holds `zero`. -/
def decodeStruct {σ : Type} (fields : Fields σ) (zero : σ) : Json → Option σ
  | .null => some zero
  | .obj members => assign fields members zero
  | _ => none

def setString {σ : Type} (set : Bytes → σ → σ) : Json → σ → Option σ
  | .null, s => some s
  | .str b, s => some (set b s)
  | _, _ => none

def setInt {σ : Type} (set : Int → σ → σ) : Json → σ → Option σ
  | .null, s => some s
  | .num literal, s => (parseInt64 literal).map fun i => set i s
  | _, _ => none

/-- The elements of a slice, each decoded on its own. -/
def decodeItems {τ : Type} (decode : Json → Option τ) : List Json → Option (List τ)
  | [] => some []
  | j :: js => do
    let t ← decode j
    let ts ← decodeItems decode js
    some (t :: ts)

/-- A member that is an array. Each element is decoded on its own, so where a member is repeated
the last one stands: `encoding/json` decodes a repeated array into the elements that are already
there, which shows where these are structures and the later ones leave fields out. -/
def setSlice {σ τ : Type} (decode : Json → Option τ) (set : List τ → σ → σ) :
    Json → σ → Option σ
  | .null, s => some (set [] s)
  | .arr items, s => (decodeItems decode items).map fun ts => set ts s
  | _, _ => none

/-- `strconv.ParseUint(literal, 10, bits)`. -/
def parseUint (bits : Nat) (literal : Bytes) : Option Nat :=
  if literal = [] ∨ literal.all isDigit = false then none
  else if ofDigits literal < 2 ^ bits then some (ofDigits literal) else none

def setUint {σ : Type} (bits : Nat) (set : Nat → σ → σ) : Json → σ → Option σ
  | .null, s => some s
  | .num literal, s => (parseUint bits literal).map fun n => set n s
  | _, _ => none

def setBool {σ : Type} (set : Bool → σ → σ) : Json → σ → Option σ
  | .null, s => some s
  | .bool b, s => some (set b s)
  | _, _ => none

/-- A pointer to an integer. -/
def setIntPointer {σ : Type} (set : Option Int → σ → σ) : Json → σ → Option σ
  | .null, s => some (set none s)
  | .num literal, s => (parseInt64 literal).map fun i => set (some i) s
  | _, _ => none

/-- A structure inside of the structure. -/
def setStruct {σ τ : Type} (fields : Fields τ) (get : σ → τ) (set : τ → σ → σ) :
    Json → σ → Option σ
  | .null, s => some s
  | .obj members, s => (assign fields members (get s)).map fun t => set t s
  | _, _ => none

/-- A pointer to a structure, which is made if there is none. -/
def setPointer {σ τ : Type} (fields : Fields τ) (zero : τ) (get : σ → Option τ)
    (set : Option τ → σ → σ) : Json → σ → Option σ
  | .null, s => some (set none s)
  | .obj members, s =>
    (assign fields members ((get s).getD zero)).map fun t => set (some t) s
  | _, _ => none

/-- An element of a slice of strings. -/
def decodeString : Json → Option Bytes
  | .null => some []
  | .str b => some b
  | _ => none

/-- A member with `omitempty`. -/
def omitempty (empty : Prop) [Decidable empty] (name : Bytes) (j : Json) : List (Bytes × Json) :=
  if empty then [] else [(name, j)]

/-- A string with `omitempty`. -/
def omitString (name : String) (value : Bytes) : List (Bytes × Json) :=
  omitempty (value = []) (ascii name) (.str value)

/-- An integer with `omitempty`. -/
def omitInt (name : String) (value : Int64) : List (Bytes × Json) :=
  omitempty (value = 0) (ascii name) (.num (decimal value.toInt))

def intJson (value : Int64) : Json := .num (decimal value.toInt)

/-- A pointer with `omitempty`. -/
def optional {α : Type} (name : Bytes) (toJson : α → Json) : Option α → List (Bytes × Json)
  | none => []
  | some a => [(name, toJson a)]

/-- A slice of strings; without elements it is nil. -/
def strings (l : List Bytes) : Json := if l = [] then .null else .arr (l.map .str)

inductive DocumentError
  /-- no value, or one that does not fit the structure -/
  | decode
  /-- something after the value -/
  | trailing
  deriving DecidableEq, Repr

/-- Decode the only value of a text into a structure. -/
def decodeDocument {σ : Type} (fields : Fields σ) (zero : σ) (s : Bytes) :
    Except DocumentError σ :=
  match parse s with
  | none => .error .decode
  | some (j, rest) =>
    match decodeStruct fields zero j with
    | none => .error .decode
    | some v => if skipSpace rest = [] then .ok v else .error .trailing

/-- What is encoded is decoded with its invalid bytes replaced. -/
theorem decodeDocument_encode_clean {σ : Type} {fields : Fields σ} {zero v : σ} {j : Json}
    (hliteral : Literal j) (hv : decodeStruct fields zero (clean j) = some v) :
    decodeDocument fields zero (encode j) = .ok v := by
  simp [decodeDocument, parse_encode_clean hliteral, hv, skipSpace]

theorem decodeDocument_encode {σ : Type} {fields : Fields σ} {zero v : σ} {j : Json}
    (hsound : Sound j) (hv : decodeStruct fields zero j = some v) :
    decodeDocument fields zero (encode j) = .ok v :=
  decodeDocument_encode_clean hsound.literal (by rwa [hsound.clean])

theorem decodeItems_map {τ : Type} {decode : Json → Option τ} {toJson : τ → Json} {ts : List τ}
    (h : ∀ t ∈ ts, decode (toJson t) = some t) :
    decodeItems decode (ts.map toJson) = some ts := by
  induction ts with
  | nil => rfl
  | cons t ts ih =>
    have htail := ih fun t ht => h t (List.mem_cons_of_mem _ ht)
    simp only [List.map_cons, decodeItems, h t List.mem_cons_self, htail, Option.bind_eq_bind,
      Option.bind_some]

/-- The members are assigned and change the structure from `s` to `t`. -/
def Assigns {σ : Type} (fields : Fields σ) (ms : List (Bytes × Json)) (s t : σ) : Prop :=
  assign fields ms s = some t

namespace Assigns

variable {σ : Type} {fields : Fields σ} {name : Bytes} {set : Json → σ → Option σ}

theorem nil (s : σ) : Assigns fields [] s s := rfl

theorem append {ms ms' : List (Bytes × Json)} {s t u : σ} (h : Assigns fields ms s t)
    (h' : Assigns fields ms' t u) : Assigns fields (ms ++ ms') s u := by
  induction ms generalizing s with
  | nil =>
    obtain rfl : s = t := Option.some.inj h
    exact h'
  | cons m ms ih =>
    obtain ⟨set, hset, hrest⟩ := Option.bind_eq_some_iff.1 h
    obtain ⟨s', hs', hrest⟩ := Option.bind_eq_some_iff.1 hrest
    have hmore : assign fields (ms ++ ms') s' = some u := ih hrest
    simp only [Assigns, List.cons_append, assign, hset, hs', hmore, Option.bind_eq_bind,
      Option.bind_some]

theorem cons {m : Bytes × Json} {ms : List (Bytes × Json)} {s t u : σ}
    (h : Assigns fields [m] s t) (h' : Assigns fields ms t u) : Assigns fields (m :: ms) s u :=
  h.append h'

theorem single (hfind : fields.find name = some set) {j : Json} {s t : σ}
    (hset : set j s = some t) : Assigns fields [(name, j)] s t := by
  simp only [Assigns, assign, hfind, hset, Option.bind_eq_bind, Option.bind_some]

/-- A member that was left out has nothing to say. -/
theorem omitempty {empty : Prop} [Decidable empty] (hfind : fields.find name = some set)
    {j : Json} {s t : σ} (hset : set j s = some t) (hempty : empty → s = t) :
    Assigns fields (Json.omitempty empty name j) s t := by
  unfold Json.omitempty
  split
  · rename_i h
    rw [hempty h]
    exact nil t
  · exact single hfind hset

theorem optional {α : Type} {toJson : α → Json} {o : Option α} {s t : σ}
    (hfind : fields.find name = some set) (hnone : o = none → s = t)
    (hsome : ∀ a, o = some a → set (toJson a) s = some t) :
    Assigns fields (Json.optional name toJson o) s t := by
  cases o with
  | none => exact hnone rfl ▸ nil s
  | some a => exact single hfind (hsome a rfl)

end Assigns

theorem soundMembers_append {ms ms' : List (Bytes × Json)} (h : SoundMembers ms)
    (h' : SoundMembers ms') : SoundMembers (ms ++ ms') := by
  induction ms with
  | nil => exact h'
  | cons m ms ih => exact ⟨h.1, h.2.1, ih h.2.2⟩

theorem soundMembers_omitempty {empty : Prop} [Decidable empty] {name : Bytes} {j : Json}
    (hname : Valid name) (hj : Sound j) : SoundMembers (omitempty empty name j) := by
  unfold omitempty
  split
  · trivial
  · exact ⟨hname, hj, trivial⟩

theorem soundMembers_optional {α : Type} {name : Bytes} {toJson : α → Json} {o : Option α}
    (hname : Valid name) (hj : ∀ a, o = some a → Sound (toJson a)) :
    SoundMembers (optional name toJson o) := by
  cases o with
  | none => trivial
  | some a => exact ⟨hname, hj a rfl, trivial⟩

theorem sound_strings {l : List Bytes} (h : ∀ s ∈ l, Valid s) : Sound (strings l) := by
  unfold strings
  split
  · trivial
  · show SoundItems (l.map .str)
    clear * - h
    induction l with
    | nil => trivial
    | cons s l ih =>
      exact ⟨h s List.mem_cons_self, ih fun s hs => h s (List.mem_cons_of_mem _ hs)⟩

section Clean

variable {name : Bytes}

theorem cleanMembers_append (ms ms' : List (Bytes × Json)) :
    cleanMembers (ms ++ ms') = cleanMembers ms ++ cleanMembers ms' := by
  induction ms with
  | nil => rfl
  | cons m ms ih => simp only [List.cons_append, cleanMembers, ih]

theorem cleanMembers_single (hname : Valid name) (j : Json) :
    cleanMembers [(name, j)] = [(name, clean j)] := by
  simp only [cleanMembers, toValid_of_valid hname]

theorem cleanMembers_omitempty {p q : Prop} [Decidable p] [Decidable q] (hname : Valid name)
    (hpq : p ↔ q) (j : Json) :
    cleanMembers (omitempty p name j) = omitempty q name (clean j) := by
  unfold omitempty
  by_cases hp : p
  · rw [if_pos hp, if_pos (hpq.1 hp)]
    rfl
  · rw [if_neg hp, if_neg fun hq => hp (hpq.2 hq), cleanMembers_single hname]

theorem cleanMembers_optional {α : Type} (toJson : α → Json) {f : α → α} (hname : Valid name)
    (h : ∀ a, clean (toJson a) = toJson (f a)) (o : Option α) :
    cleanMembers (optional name toJson o) = optional name toJson (o.map f) := by
  cases o with
  | none => rfl
  | some a => simp only [optional, Option.map_some, cleanMembers_single hname, h]

theorem clean_strings (l : List Bytes) : clean (strings l) = strings (l.map toValid) := by
  have hitems : ∀ l : List Bytes, cleanItems (l.map .str) = (l.map toValid).map .str := by
    intro l
    induction l with
    | nil => rfl
    | cons s l ih => simp only [List.map_cons, cleanItems, clean, ih]
  unfold strings
  by_cases hl : l = []
  · rw [if_pos hl, hl]
    rfl
  · rw [if_neg hl, if_neg (by simpa using hl), clean, hitems]

end Clean

theorem setSlice_strings {σ : Type} {set : List Bytes → σ → σ} (l : List Bytes) (s : σ) :
    setSlice decodeString set (strings l) s = some (set l s) := by
  unfold strings
  split
  · rename_i h
    rw [h]
    rfl
  · have hitems : decodeItems decodeString (l.map .str) = some l :=
      decodeItems_map fun s _ => rfl
    simp only [setSlice, hitems, Option.map_some]

section Members

variable {σ : Type} {fields : Fields σ} {name : String} {s t : σ}

theorem assigns_string {set : Bytes → σ → σ} {b : Bytes}
    (hfind : fields.find (ascii name) = some (setString set)) (ht : set b s = t) :
    Assigns fields [(ascii name, .str b)] s t :=
  Assigns.single hfind (congrArg some ht)

theorem assigns_strings {set : List Bytes → σ → σ} {l : List Bytes}
    (hfind : fields.find (ascii name) = some (setSlice decodeString set)) (ht : set l s = t) :
    Assigns fields [(ascii name, strings l)] s t :=
  Assigns.single hfind (ht ▸ setSlice_strings l s)

theorem assigns_omitString {set : Bytes → σ → σ} {b : Bytes}
    (hfind : fields.find (ascii name) = some (setString set)) (hs : set [] s = s)
    (ht : set b s = t) : Assigns fields (omitString name b) s t :=
  Assigns.omitempty hfind (congrArg some ht) fun h => by rw [← ht, h, hs]

theorem assigns_omitStrings {set : List Bytes → σ → σ} {l : List Bytes}
    (hfind : fields.find (ascii name) = some (setSlice decodeString set)) (hs : set [] s = s)
    (ht : set l s = t) : Assigns fields (omitempty (l = []) (ascii name) (strings l)) s t :=
  Assigns.omitempty hfind (ht ▸ setSlice_strings l s) fun h => by rw [← ht, h, hs]

theorem assigns_int (set : Int64 → σ → σ) {i : Int64}
    (hfind : fields.find (ascii name) = some (setInt fun i => set (Int64.ofInt i)))
    (ht : set i s = t) : Assigns fields [(ascii name, intJson i)] s t :=
  Assigns.single hfind (by simp [setInt, intJson, parseInt64_toInt, ht])

theorem assigns_omitInt (set : Int64 → σ → σ) {i : Int64}
    (hfind : fields.find (ascii name) = some (setInt fun i => set (Int64.ofInt i)))
    (hs : set 0 s = s) (ht : set i s = t) : Assigns fields (omitInt name i) s t :=
  Assigns.omitempty hfind (by simp [setInt, parseInt64_toInt, ht]) fun h => by rw [← ht, h, hs]

theorem assigns_pointer {τ : Type} {inner : Fields τ} {zero : τ} {get : σ → Option τ}
    {set : Option τ → σ → σ} {members : τ → List (Bytes × Json)} {o : Option τ}
    (hfind : fields.find (ascii name) = some (setPointer inner zero get set))
    (hget : get s = none) (hs : set none s = s) (h : ∀ a, Assigns inner (members a) zero a)
    (ht : set o s = t) :
    Assigns fields (optional (ascii name) (fun a => .obj (members a)) o) s t := by
  refine Assigns.optional hfind (fun hnone => by rw [← ht, hnone, hs]) fun a ha => ?_
  have hassign : assign inner (members a) zero = some a := h a
  simp only [setPointer, hget, Option.getD_none, hassign, Option.map_some, ← ht, ha]

end Members

end Json

end Kama
