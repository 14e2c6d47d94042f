import Mathlib.Algebra.Order.BigOperators.Group.List
import Mathlib.Algebra.Order.Group.Nat
import Kama.Foundations.Json

/-!
# A JSON text cut short

Reading is stable under more input: a string, an array or an object that is read from a text is
read the same way from every longer text (`parse_append`). A number is different, because
only what follows shows that it has ended. So an encoded array or object that is cut short is not
a value at all (`parse_truncated`).

`length_encode_obj` and `length_encode_arr` give the length of an encoding by the lengths of its
parts (`objectBytes`, `arrayBytes`), `length_quote_plain` that of a string with nothing to escape.
-/

namespace Kama.Json

open Bytes Utf8

/-! ## Strings -/

theorem hex4_append {s r t : Bytes} {n : Nat} (h : hex4 s = some (n, r)) :
    hex4 (s ++ t) = some (n, r ++ t) := by
  match s, h with
  | a :: b :: c :: d :: rest, h =>
    simp only [hex4, List.cons_append, Option.bind_eq_bind, Option.bind_eq_some_iff,
      Option.some.injEq, Prod.mk.injEq] at h ⊢
    obtain ⟨a', ha, b', hb, c', hc, d', hd, hn, hr⟩ := h
    exact ⟨a', ha, b', hb, c', hc, d', hd, hn, by rw [hr]⟩

/-- How the rest of a string is read, by its first byte. -/
inductive Reads (fuel : Nat) : Bytes → Bytes → Bytes → Prop
  | quote (rest : Bytes) : Reads fuel (34 :: rest) [] rest
  | escape {rest c rest' v r : Bytes} (hescape : parseEscape rest = some (c, rest'))
      (hbody : parseBody fuel rest' = some (v, r)) : Reads fuel (92 :: rest) (c ++ v) r
  | char {b : UInt8} {rest v r : Bytes} (hquote : b ≠ 34) (hback : b ≠ 92) (hcontrol : ¬b < 32)
      (hchar : isChar ((b :: rest).take (charSize b)) = true)
      (hbody : parseBody fuel ((b :: rest).drop (charSize b)) = some (v, r)) :
      Reads fuel (b :: rest) ((b :: rest).take (charSize b) ++ v) r
  | bad {b : UInt8} {rest v r : Bytes} (hquote : b ≠ 34) (hback : b ≠ 92) (hcontrol : ¬b < 32)
      (hchar : isChar ((b :: rest).take (charSize b)) = false)
      (hbody : parseBody fuel rest = some (v, r)) : Reads fuel (b :: rest) (replacement ++ v) r

theorem parseBody_eq_some {fuel : Nat} {s v r : Bytes} :
    parseBody (fuel + 1) s = some (v, r) ↔ Reads fuel s v r := by
  constructor
  · intro h
    cases s with
    | nil => cases h
    | cons b rest =>
      rw [parseBody] at h
      split at h
      · rename_i hb
        obtain ⟨rfl, rfl⟩ := Prod.mk.inj (Option.some.inj h)
        exact hb ▸ .quote rest
      split at h
      · rename_i hb
        simp only [Option.bind_eq_bind, Option.bind_eq_some_iff, Option.some.injEq,
          Prod.mk.injEq] at h
        obtain ⟨⟨c, rest'⟩, hescape, ⟨v', r'⟩, hbody, rfl, rfl⟩ := h
        exact hb ▸ .escape hescape hbody
      split at h
      · cases h
      rename_i hquote hback hcontrol
      simp only [Option.bind_eq_bind] at h
      split at h
      all_goals
        rename_i hchar
        simp only [Option.bind_eq_some_iff, Option.some.injEq, Prod.mk.injEq] at h
        obtain ⟨⟨v', r'⟩, hbody, rfl, rfl⟩ := h
      · exact .char hquote hback hcontrol hchar hbody
      · exact .bad hquote hback hcontrol (eq_false_of_ne_true hchar) hbody
  · rintro (_ | ⟨hescape, hbody⟩ | ⟨hquote, hback, hcontrol, hchar, hbody⟩ |
      ⟨hquote, hback, hcontrol, hchar, hbody⟩)
    · rfl
    · simp [parseBody, hescape, hbody]
    · simp [parseBody, hquote, hback, hcontrol, hchar, hbody]
    · simp [parseBody, hquote, hback, hcontrol, hchar, hbody]

theorem parseBody_zero (s : Bytes) : parseBody 0 s = none := by
  cases s <;> rfl

/-- Bytes beyond ASCII do not close a string. -/
theorem parseBody_high {fuel : Nat} {s : Bytes} (h : ∀ b ∈ s, 0x80 ≤ b) :
    parseBody fuel s = none := by
  induction fuel generalizing s with
  | zero => exact parseBody_zero s
  | succ fuel ih =>
    by_contra hsome
    obtain ⟨⟨v, r⟩, hv⟩ := Option.ne_none_iff_exists'.1 hsome
    cases parseBody_eq_some.1 hv with
    | quote => exact absurd (h 34 List.mem_cons_self) (by decide)
    | escape => exact absurd (h 92 List.mem_cons_self) (by decide)
    | char _ _ _ _ hbody =>
      rw [ih fun b hb => h b (List.mem_of_mem_drop hb)] at hbody
      cases hbody
    | bad _ _ _ _ hbody =>
      rw [ih fun b hb => h b (List.mem_cons_of_mem _ hb)] at hbody
      cases hbody

theorem lowSurrogate_append {s r t : Bytes} {n : Nat} (h : lowSurrogate s = some (n, r)) :
    lowSurrogate (s ++ t) = some (n, r ++ t) := by
  unfold lowSurrogate at h
  split at h
  · rename_i rest
    obtain ⟨hhex, hlow⟩ := Option.filter_eq_some_iff.1 h
    simp only [lowSurrogate, List.cons_append]
    exact Option.filter_eq_some_iff.2 ⟨hex4_append hhex, hlow⟩
  · cases h

/-- A string that is read to its end has no half of a surrogate pair at the cut. -/
theorem lowSurrogate_append_none {fuel : Nat} {s v r t : Bytes}
    (hbody : parseBody fuel s = some (v, r)) (h : lowSurrogate s = none) :
    lowSurrogate (s ++ t) = none := by
  cases fuel with
  | zero => rw [parseBody_zero] at hbody; cases hbody
  | succ fuel =>
    cases parseBody_eq_some.1 hbody with
    | quote rest => rfl
    | escape hescape _ =>
      rename_i rest c rest' v'
      unfold parseEscape at hescape
      split at hescape
      case h_9 digits =>
        obtain ⟨⟨n, after⟩, hhex, -⟩ := Option.bind_eq_some_iff.1 hescape
        simp only [lowSurrogate, hhex, List.cons_append, hex4_append hhex] at h ⊢
        simpa [Option.filter_some] using h
      all_goals first | rfl | cases hescape
    | char hquote hback | bad hquote hback =>
      unfold lowSurrogate
      split
      · rename_i heq
        exact absurd (List.cons.inj heq).1 hback
      · rfl

theorem parseEscape_append {fuel : Nat} {s c r v r' t : Bytes}
    (h : parseEscape s = some (c, r)) (hbody : parseBody fuel r = some (v, r')) :
    parseEscape (s ++ t) = some (c, r ++ t) := by
  unfold parseEscape at h
  split at h
  case h_9 digits =>
    obtain ⟨⟨n, after⟩, hhex, h⟩ := Option.bind_eq_some_iff.1 h
    simp only [parseEscape, List.cons_append, hex4_append hhex, Option.bind_eq_bind,
      Option.bind_some]
    simp only at h
    split at h
    · rename_i hsurrogate
      rw [if_pos hsurrogate]
      split at h
      · rename_i hhigh
        rw [if_pos hhigh]
        split at h
        · rename_i m rest hlow
          obtain ⟨rfl, rfl⟩ := Prod.mk.inj (Option.some.inj h)
          simp only [lowSurrogate_append hlow]
        · rename_i hlow
          obtain ⟨rfl, rfl⟩ := Prod.mk.inj (Option.some.inj h)
          simp only [lowSurrogate_append_none hbody hlow]
      · rename_i hhigh
        rw [if_neg hhigh]
        obtain ⟨rfl, rfl⟩ := Prod.mk.inj (Option.some.inj h)
        rfl
    · rename_i hsurrogate
      rw [if_neg hsurrogate]
      obtain ⟨rfl, rfl⟩ := Prod.mk.inj (Option.some.inj h)
      rfl
  case h_10 => cases h
  all_goals
    cases h
    rfl

theorem parseBody_append {fuel fuel' : Nat} {s v r t : Bytes}
    (h : parseBody fuel s = some (v, r)) (hfuel : fuel ≤ fuel') :
    parseBody fuel' (s ++ t) = some (v, r ++ t) := by
  induction fuel generalizing fuel' s v with
  | zero => rw [parseBody_zero] at h; cases h
  | succ fuel ih =>
    obtain ⟨fuel', rfl⟩ : ∃ k, fuel' = k + 1 := ⟨fuel' - 1, by omega⟩
    have hfuel : fuel ≤ fuel' := by omega
    rw [parseBody_eq_some]
    cases parseBody_eq_some.1 h with
    | quote => exact .quote (r ++ t)
    | escape hescape hbody => exact .escape (parseEscape_append hescape hbody) (ih hbody hfuel)
    | char hquote hback hcontrol hchar hbody =>
      rename_i b rest v
      have hlen : charSize b ≤ (b :: rest).length := charSize_le_of_isChar hchar
      have htake : ((b :: rest) ++ t).take (charSize b) = (b :: rest).take (charSize b) :=
        List.take_append_of_le_length hlen
      have hdrop : ((b :: rest) ++ t).drop (charSize b) = (b :: rest).drop (charSize b) ++ t :=
        List.drop_append_of_le_length hlen
      rw [← htake]
      exact .char hquote hback hcontrol (htake ▸ hchar) (hdrop ▸ ih hbody hfuel)
    | bad hquote hback hcontrol hchar hbody =>
      rename_i b rest v
      refine .bad hquote hback hcontrol ?_ (ih hbody hfuel)
      -- a character across the cut would leave no closing quote before it
      refine eq_false_of_ne_true
        fun (hacross : isChar (((b :: rest) ++ t).take (charSize b)) = true) => ?_
      by_cases hlen : charSize b ≤ (b :: rest).length
      · rw [List.take_append_of_le_length hlen, hchar] at hacross
        cases hacross
      · obtain ⟨k, hk⟩ : ∃ k, charSize b = (k + rest.length) + 1 :=
          ⟨charSize b - (rest.length + 1), by simp only [List.length_cons] at hlen; omega⟩
        rw [List.cons_append, hk, List.take_succ_cons] at hacross
        have hhigh : ∀ a ∈ rest, 0x80 ≤ a := fun a ha =>
          le_of_mem_char hacross (by
            rw [Nat.add_comm, List.take_length_add_append]
            exact List.mem_append_left _ ha)
        rw [parseBody_high hhigh] at hbody
        cases hbody

/-! ## Numbers -/

theorem dropWhile_append_of_ne_nil {p : UInt8 → Bool} {s t : Bytes} (h : s.dropWhile p ≠ []) :
    (s ++ t).takeWhile p = s.takeWhile p ∧ (s ++ t).dropWhile p = s.dropWhile p ++ t := by
  induction s with
  | nil => exact absurd rfl h
  | cons b s ih =>
    cases hb : p b with
    | false => simp [hb]
    | true =>
      simp only [List.dropWhile_cons, hb, if_true] at h
      simp [hb, ih h]

/-- The digits at the front, if there are any, and what follows them. -/
def digits (front s : Bytes) : Option (Bytes × Bytes) :=
  match s.takeWhile isDigit with
  | [] => none
  | ds => some (front ++ ds, s.dropWhile isDigit)

theorem digits_append {front s l r t : Bytes} (hr : r ≠ []) (h : digits front s = some (l, r)) :
    digits front (s ++ t) = some (l, r ++ t) := by
  unfold digits at h
  split at h
  · cases h
  · obtain ⟨rfl, rfl⟩ := Prod.mk.inj (Option.some.inj h)
    obtain ⟨htake, hdrop⟩ := dropWhile_append_of_ne_nil (t := t) hr
    simp only [digits, htake, hdrop]

/-- An exponent with its optional sign. -/
theorem parseExponent_cons {literal rest : Bytes} {e b : UInt8} (he : e = 101 ∨ e = 69) :
    parseExponent literal (e :: b :: rest) =
      if b = 43 then digits (literal ++ e :: [43]) rest
      else if b = 45 then digits (literal ++ e :: [45]) rest
      else digits (literal ++ e :: []) (b :: rest) := by
  simp only [parseExponent, if_pos he]
  split_ifs with hplus hminus
  · subst hplus
    rfl
  · subst hminus
    rfl
  · refine congrArg (fun p : Bytes × Bytes => digits (literal ++ e :: p.1) p.2)
      (?_ : _ = (([] : Bytes), b :: rest))
    -- neither pattern of the sign applies
    split
    · rename_i heq
      exact absurd (List.cons.inj heq).1 hplus
    · rename_i heq
      exact absurd (List.cons.inj heq).1 hminus
    · rfl

theorem parseExponent_append {literal s l r t : Bytes} (hr : r ≠ [])
    (h : parseExponent literal s = some (l, r)) :
    parseExponent literal (s ++ t) = some (l, r ++ t) := by
  match s, h with
  | [], h =>
    obtain ⟨-, rfl⟩ := Prod.mk.inj (Option.some.inj h)
    exact absurd rfl hr
  | e :: rest, h =>
    by_cases he : e = 101 ∨ e = 69
    · match rest, h with
      | [], h =>
        simp only [parseExponent, if_pos he] at h
        cases h
      | b :: rest, h =>
        simp only [List.cons_append, parseExponent_cons he] at h ⊢
        split_ifs at h ⊢
        · exact digits_append hr h
        · exact digits_append hr h
        · exact digits_append hr h
    · simp only [parseExponent, if_neg he, List.cons_append, Option.some.injEq,
        Prod.mk.injEq] at h ⊢
      exact ⟨h.1, by rw [← h.2]; rfl⟩

theorem parseFraction_dot {literal rest : Bytes} :
    parseFraction literal (46 :: rest) =
      (digits (literal ++ [46]) rest).bind fun p => parseExponent p.1 p.2 := by
  simp only [parseFraction, digits]
  cases rest.takeWhile isDigit with
  | nil => rfl
  | cons d ds => simp

theorem parseFraction_append {literal s l r t : Bytes} (hr : r ≠ [])
    (h : parseFraction literal s = some (l, r)) :
    parseFraction literal (s ++ t) = some (l, r ++ t) := by
  have hexponent : ∀ {l' s'}, parseExponent l' s' = some (l, r) → s' ≠ [] := by
    rintro l' s' h rfl
    obtain ⟨-, rfl⟩ := Prod.mk.inj (Option.some.inj h)
    exact hr rfl
  match s, h with
  | [], h => exact absurd rfl (hexponent h)
  | b :: rest, h =>
    rw [List.cons_append]
    by_cases hdot : b = 46
    · subst hdot
      rw [parseFraction_dot] at h ⊢
      obtain ⟨⟨l', s'⟩, hdigits, hrest⟩ := Option.bind_eq_some_iff.1 h
      rw [digits_append (hexponent hrest) hdigits]
      exact parseExponent_append hr hrest
    · have hother : ∀ u, parseFraction literal (b :: u) = parseExponent literal (b :: u) := by
        intro u
        unfold parseFraction
        split
        · rename_i heq
          exact absurd (List.cons.inj heq).1 hdot
        · rfl
      rw [hother] at h ⊢
      exact parseExponent_append hr h

theorem parseUnsigned_append {sign s l r t : Bytes} (hr : r ≠ [])
    (h : parseUnsigned sign s = some (l, r)) :
    parseUnsigned sign (s ++ t) = some (l, r ++ t) := by
  match s, h with
  | [], h => cases h
  | b :: rest, h =>
    rw [List.cons_append]
    by_cases hzero : b = 48
    · subst hzero
      exact parseFraction_append hr h
    · have hother : ∀ u, parseUnsigned sign (b :: u) =
          (digits sign (b :: u)).bind fun p => parseFraction p.1 p.2 := by
        intro u
        unfold parseUnsigned digits
        split
        · rename_i heq
          exact absurd (List.cons.inj heq).1 hzero
        · cases (b :: u).takeWhile isDigit <;> rfl
      rw [hother] at h ⊢
      obtain ⟨⟨l', s'⟩, hdigits, hrest⟩ := Option.bind_eq_some_iff.1 h
      have hs' : s' ≠ [] := by
        rintro rfl
        obtain ⟨-, rfl⟩ := Prod.mk.inj (Option.some.inj hrest)
        exact hr rfl
      rw [← List.cons_append, digits_append hs' hdigits]
      exact parseFraction_append hr hrest

theorem parseNumber_append {s l r t : Bytes} (hr : r ≠ []) (h : parseNumber s = some (l, r)) :
    parseNumber (s ++ t) = some (l, r ++ t) := by
  match s, h with
  | [], h => cases h
  | b :: rest, h =>
    rw [List.cons_append]
    by_cases hminus : b = 45
    · subst hminus
      exact parseUnsigned_append hr h
    · have hother : ∀ u, parseNumber (b :: u) = parseUnsigned [] (b :: u) := by
        intro u
        unfold parseNumber
        split
        · rename_i heq
          exact absurd (List.cons.inj heq).1 hminus
        · rfl
      rw [hother] at h ⊢
      exact parseUnsigned_append hr h

theorem number_head {s : Bytes} {v : Bytes × Bytes} (h : parseNumber s = some v) :
    ∃ b rest, s = b :: rest ∧ (isDigit b = true ∨ b = 45) := by
  match s, h with
  | [], h => cases h
  | b :: rest, h =>
    refine ⟨b, rest, rfl, ?_⟩
    by_contra hb
    obtain ⟨hdigit, hminus⟩ := not_or.1 hb
    have htake : (b :: rest).takeWhile isDigit = [] := by simp [hdigit]
    have hzero : b ≠ 48 := by
      rintro rfl
      exact hdigit (by decide)
    unfold parseNumber at h
    split at h
    · rename_i heq
      exact hminus (List.cons.inj heq).1
    · unfold parseUnsigned at h
      split at h
      · rename_i heq
        exact hzero (List.cons.inj heq).1
      · rw [htake] at h
        cases h

/-! ## Values -/

theorem skipSpace_append {s rest t : Bytes} {b : UInt8} (h : skipSpace s = b :: rest) :
    skipSpace (s ++ t) = b :: (rest ++ t) := by
  have hne : s.dropWhile isSpace ≠ [] := by
    intro hnil
    rw [skipSpace, hnil] at h
    cases h
  rw [skipSpace, (dropWhile_append_of_ne_nil hne).2, ← skipSpace, h, List.cons_append]

theorem parseValue_number {fuel : Nat} {s rest : Bytes} {b : UInt8} (hs : skipSpace s = b :: rest)
    (hb : isDigit b = true ∨ b = 45) :
    parseValue (fuel + 1) s = (parseNumber (b :: rest)).map fun r => (.num r.1, r.2) := by
  have hhead : b ≠ 110 ∧ b ≠ 116 ∧ b ≠ 102 ∧ b ≠ 34 ∧ b ≠ 91 ∧ b ≠ 123 := by
    rcases hb with hb | rfl
    · refine ⟨?_, ?_, ?_, ?_, ?_, ?_⟩ <;>
        · rintro rfl
          revert hb
          decide
    · decide
  obtain ⟨h110, h116, h102, h34, h91, h123⟩ := hhead
  rw [parseValue, hs]
  split
  · rename_i heq
    exact absurd (List.cons.inj heq).1 h110
  · rename_i heq
    exact absurd (List.cons.inj heq).1 h116
  · rename_i heq
    exact absurd (List.cons.inj heq).1 h102
  · rename_i heq
    exact absurd (List.cons.inj heq).1 h34
  · rename_i heq
    exact absurd (List.cons.inj heq).1 h91
  · rename_i heq
    exact absurd (List.cons.inj heq).1 h123
  · rfl

/-- What is read with this fuel is read with more fuel and more input. A number that ends the
text is left out. -/
structure Stable (fuel : Nat) : Prop where
  value : ∀ {fuel' s j r t}, fuel ≤ fuel' → (r ≠ [] ∨ ∀ l, j ≠ .num l) →
    parseValue fuel s = some (j, r) → parseValue fuel' (s ++ t) = some (j, r ++ t)
  items : ∀ {fuel' s js r t}, fuel ≤ fuel' →
    parseItems fuel s = some (js, r) → parseItems fuel' (s ++ t) = some (js, r ++ t)
  member : ∀ {fuel' s m r t}, fuel ≤ fuel' → r ≠ [] →
    parseMember fuel s = some (m, r) → parseMember fuel' (s ++ t) = some (m, r ++ t)
  members : ∀ {fuel' s ms r t}, fuel ≤ fuel' →
    parseMembers fuel s = some (ms, r) → parseMembers fuel' (s ++ t) = some (ms, r ++ t)

theorem parseValue_nil (fuel : Nat) : parseValue fuel [] = none := by
  cases fuel <;> rfl

theorem parseMember_nil (fuel : Nat) : parseMember fuel [] = none := by
  cases fuel <;> rfl

theorem parseItems_nil (fuel : Nat) : parseItems fuel [] = none := by
  cases fuel <;> rfl

theorem parseMembers_nil (fuel : Nat) : parseMembers fuel [] = none := by
  cases fuel <;> rfl

theorem parseBody_length_append {rest v r t : Bytes}
    (h : parseBody (rest.length + 1) rest = some (v, r)) :
    parseBody ((rest ++ t).length + 1) (rest ++ t) = some (v, r ++ t) :=
  parseBody_append h (by rw [List.length_append]; omega)

section Step

variable {fuel fuel' : Nat} (ih : Stable fuel) (hfuel : fuel ≤ fuel')
include ih hfuel

theorem parseItems_succ_append {s r t : Bytes} {js : List Json}
    (h : parseItems (fuel + 1) s = some (js, r)) :
    parseItems (fuel' + 1) (s ++ t) = some (js, r ++ t) := by
  rw [parseItems] at h
  split at h
  · rename_i hs
    obtain ⟨rfl, rfl⟩ := Prod.mk.inj (Option.some.inj h)
    rw [parseItems, skipSpace_append hs]
    rfl
  · rename_i rest hs
    simp only [Option.bind_eq_bind, Option.bind_eq_some_iff, Option.some.injEq,
      Prod.mk.injEq] at h
    obtain ⟨⟨j, r'⟩, hvalue, ⟨js', r''⟩, hitems, rfl, rfl⟩ := h
    have hne : r' ≠ [] := by
      rintro rfl
      rw [parseItems_nil] at hitems
      cases hitems
    rw [parseItems, skipSpace_append hs]
    simp only [ih.value hfuel (.inl hne) hvalue, ih.items hfuel hitems, Option.bind_eq_bind,
      Option.bind_some]
  · cases h

theorem parseMember_succ_append {s r t : Bytes} {m : Bytes × Json} (hr : r ≠ [])
    (h : parseMember (fuel + 1) s = some (m, r)) :
    parseMember (fuel' + 1) (s ++ t) = some (m, r ++ t) := by
  rw [parseMember] at h
  split at h
  · rename_i rest hs
    obtain ⟨⟨name, after⟩, hname, h⟩ := Option.bind_eq_some_iff.1 h
    simp only at h
    split at h
    · rename_i rest' hs'
      obtain ⟨⟨j, r'⟩, hvalue, h⟩ := Option.bind_eq_some_iff.1 h
      obtain ⟨rfl, rfl⟩ := Prod.mk.inj (Option.some.inj h)
      rw [parseMember, skipSpace_append hs]
      simp only [parseBody_length_append hname, Option.bind_eq_bind, Option.bind_some,
        skipSpace_append hs', ih.value hfuel (.inl hr) hvalue]
    · cases h
  · cases h

theorem parseMembers_succ_append {s r t : Bytes} {ms : List (Bytes × Json)}
    (h : parseMembers (fuel + 1) s = some (ms, r)) :
    parseMembers (fuel' + 1) (s ++ t) = some (ms, r ++ t) := by
  rw [parseMembers] at h
  split at h
  · rename_i hs
    obtain ⟨rfl, rfl⟩ := Prod.mk.inj (Option.some.inj h)
    rw [parseMembers, skipSpace_append hs]
    rfl
  · rename_i rest hs
    simp only [Option.bind_eq_bind, Option.bind_eq_some_iff, Option.some.injEq,
      Prod.mk.injEq] at h
    obtain ⟨⟨m, r'⟩, hmember, ⟨ms', r''⟩, hmembers, rfl, rfl⟩ := h
    have hne : r' ≠ [] := by
      rintro rfl
      rw [parseMembers_nil] at hmembers
      cases hmembers
    rw [parseMembers, skipSpace_append hs]
    simp only [ih.member hfuel hne hmember, ih.members hfuel hmembers, Option.bind_eq_bind,
      Option.bind_some]
  · cases h

theorem parseValue_succ_append {s r t : Bytes} {j : Json} (hr : r ≠ [] ∨ ∀ l, j ≠ .num l)
    (h : parseValue (fuel + 1) s = some (j, r)) :
    parseValue (fuel' + 1) (s ++ t) = some (j, r ++ t) := by
  rw [parseValue] at h
  split at h
  case h_4 rest hs =>
    obtain ⟨⟨v, r'⟩, hbody, heq⟩ := Option.map_eq_some_iff.1 h
    obtain ⟨rfl, rfl⟩ := Prod.mk.inj heq
    rw [parseValue, skipSpace_append hs]
    simp only [parseBody_length_append hbody, Option.map_some]
  case h_5 rest hs =>
    rw [parseValue, skipSpace_append hs]
    simp only
    split at h
    · rename_i hs'
      obtain ⟨rfl, rfl⟩ := Prod.mk.inj (Option.some.inj h)
      rw [skipSpace_append hs']
      rfl
    · rename_i hclose
      simp only [Option.bind_eq_bind, Option.bind_eq_some_iff, Option.some.injEq,
        Prod.mk.injEq] at h
      obtain ⟨⟨j, r'⟩, hvalue, ⟨js', r''⟩, hitems, rfl, rfl⟩ := h
      have hne : r' ≠ [] := by
        rintro rfl
        rw [parseItems_nil] at hitems
        cases hitems
      obtain ⟨b, rest', hs'⟩ := List.exists_cons_of_ne_nil fun hnil : skipSpace rest = [] => by
        rw [hnil, parseValue_nil] at hvalue
        cases hvalue
      have hvalue := ih.value (t := t) hfuel (.inl hne) hvalue
      rw [hs', List.cons_append] at hvalue
      rw [skipSpace_append hs']
      split
      · rename_i heq
        obtain ⟨rfl, -⟩ := List.cons.inj heq
        exact absurd hs' (hclose rest')
      · simp only [hvalue, ih.items hfuel hitems, Option.bind_eq_bind, Option.bind_some]
  case h_6 rest hs =>
    rw [parseValue, skipSpace_append hs]
    simp only
    split at h
    · rename_i hs'
      obtain ⟨rfl, rfl⟩ := Prod.mk.inj (Option.some.inj h)
      rw [skipSpace_append hs']
      rfl
    · rename_i hclose
      simp only [Option.bind_eq_bind, Option.bind_eq_some_iff, Option.some.injEq,
        Prod.mk.injEq] at h
      obtain ⟨⟨m, r'⟩, hmember, ⟨ms, r''⟩, hmembers, rfl, rfl⟩ := h
      have hne : r' ≠ [] := by
        rintro rfl
        rw [parseMembers_nil] at hmembers
        cases hmembers
      obtain ⟨b, rest', hs'⟩ := List.exists_cons_of_ne_nil fun hnil : skipSpace rest = [] => by
        rw [hnil, parseMember_nil] at hmember
        cases hmember
      have hmember := ih.member (t := t) hfuel hne hmember
      rw [hs', List.cons_append] at hmember
      rw [skipSpace_append hs']
      split
      · rename_i heq
        obtain ⟨rfl, -⟩ := List.cons.inj heq
        exact absurd hs' (hclose rest')
      · simp only [hmember, ih.members hfuel hmembers, Option.bind_eq_bind, Option.bind_some]
  case h_7 =>
    obtain ⟨⟨l, r'⟩, hnumber, heq⟩ := Option.map_eq_some_iff.1 h
    obtain ⟨rfl, rfl⟩ := Prod.mk.inj heq
    obtain ⟨b, rest, hs, hb⟩ := number_head hnumber
    have hne : r' ≠ [] := hr.resolve_right fun hnum => hnum l rfl
    rw [hs] at hnumber
    rw [parseValue_number (skipSpace_append hs) hb, ← List.cons_append,
      parseNumber_append hne hnumber]
    rfl
  all_goals
    rename_i hs
    obtain ⟨rfl, rfl⟩ := Prod.mk.inj (Option.some.inj h)
    rw [parseValue, skipSpace_append hs]
    rfl

end Step

theorem stable (fuel : Nat) : Stable fuel := by
  induction fuel with
  | zero => exact ⟨fun _ _ h => (nomatch h), fun _ h => (nomatch h), fun _ _ h => (nomatch h),
      fun _ h => (nomatch h)⟩
  | succ fuel ih =>
    have hsucc : ∀ {fuel'}, fuel + 1 ≤ fuel' → ∃ k, fuel' = k + 1 ∧ fuel ≤ k :=
      fun {fuel'} h => ⟨fuel' - 1, by omega, by omega⟩
    refine ⟨fun h hr hvalue => ?_, fun h hitems => ?_, fun h hr hmember => ?_,
      fun h hmembers => ?_⟩
    all_goals obtain ⟨fuel', rfl, hfuel⟩ := hsucc h
    · exact parseValue_succ_append ih hfuel hr hvalue
    · exact parseItems_succ_append ih hfuel hitems
    · exact parseMember_succ_append ih hfuel hr hmember
    · exact parseMembers_succ_append ih hfuel hmembers

/-- **Reading is stable.** A value that is read from a text is read from every longer text, except
for a number at the end of it. -/
theorem parse_append {s r t : Bytes} {j : Json} (hr : r ≠ [] ∨ ∀ l, j ≠ .num l)
    (h : parse s = some (j, r)) : parse (s ++ t) = some (j, r ++ t) :=
  (stable _).value (by rw [List.length_append]; omega) hr h

theorem parse_brace {rest r : Bytes} {j : Json} (h : parse (123 :: rest) = some (j, r)) :
    ∃ ms, j = .obj ms := by
  rw [parse, parseValue, skipSpace_cons (by decide)] at h
  simp only at h
  split at h
  · obtain ⟨rfl, -⟩ := Prod.mk.inj (Option.some.inj h)
    exact ⟨[], rfl⟩
  · simp only [Option.bind_eq_bind, Option.bind_eq_some_iff, Option.some.injEq,
      Prod.mk.injEq] at h
    obtain ⟨⟨m, r'⟩, -, ⟨ms, r''⟩, -, rfl, -⟩ := h
    exact ⟨m :: ms, rfl⟩

theorem encode_obj (ms : List (Bytes × Json)) : ∃ rest, encode (.obj ms) = 123 :: rest := by
  rcases ms with _ | ⟨⟨name, j⟩, ms⟩
  · exact ⟨_, rfl⟩
  · exact ⟨quote name ++ 58 :: encode j ++ encodeMembers ms, by simp [encode]⟩

/-- **An encoded object that is cut short is not a value.** -/
theorem parse_truncated {ms : List (Bytes × Json)} (hliteral : Literal (.obj ms)) {n : Nat}
    (hn : n < (encode (.obj ms)).length) : parse ((encode (.obj ms)).take n) = none := by
  by_contra hsome
  obtain ⟨⟨j, r⟩, hj⟩ := Option.ne_none_iff_exists'.1 hsome
  have hnum : ∀ l, j ≠ .num l := by
    rintro l rfl
    obtain ⟨rest, hrest⟩ := encode_obj ms
    rw [hrest] at hj
    cases n with
    | zero => cases hj
    | succ n =>
      rw [List.take_succ_cons] at hj
      obtain ⟨ms', hms'⟩ := parse_brace hj
      cases hms'
  have hwhole := parse_append (t := (encode (.obj ms)).drop n) (.inr hnum) hj
  rw [List.take_append_drop, parse_encode_clean hliteral] at hwhole
  have hrest := (Prod.mk.inj (Option.some.inj hwhole)).2
  have hlength := congrArg List.length hrest
  simp only [List.length_nil, List.length_append, List.length_drop] at hlength
  omega

/-! ## The length of an encoding -/

theorem escapeByte_plain {b : UInt8} (h : b = 45 ∨ isAlphanumeric b = true) :
    escapeByte b = [b] ∧ b < 0x80 := by
  rcases h with rfl | h
  · decide
  · simp only [isAlphanumeric, isDigit, isUpper, isLower, Bool.or_eq_true, decide_eq_true_eq,
      UInt8.le_iff_toNat_le, UInt8.reduceToNat] at h
    simp only [escapeByte, ← UInt8.toNat_inj, UInt8.lt_iff_toNat_lt, UInt8.reduceToNat]
    rw [if_neg (by omega), if_neg (by omega), if_neg (by omega), if_neg (by omega),
      if_neg (by omega), if_neg (by omega), if_neg (by omega)]
    exact ⟨rfl, by omega⟩

/-- A string of letters, digits and hyphens is quoted as it is. -/
theorem length_quote_plain {s : Bytes} (h : ∀ b ∈ s, b = 45 ∨ isAlphanumeric b = true) :
    (quote s).length = s.length + 2 := by
  have hpieces : pieces s = s.map fun b => .char [b] := by
    have hchars : ∀ c ∈ s.map fun b => [b], isChar c = true := by
      intro c hc
      obtain ⟨b, hb, rfl⟩ := List.mem_map.1 hc
      exact isChar_singleton.2 (escapeByte_plain (h b hb)).2
    have hflatten := pieces_flatten hchars
    rwa [List.map_map, ← List.flatMap_def, List.flatMap_singleton'] at hflatten
  have hbody : quoteBody s = s := by
    rw [quoteBody, hpieces, List.flatMap_map]
    conv_rhs => rw [← List.flatMap_singleton' s]
    exact List.flatMap_congr fun b hb => (escapeByte_plain (h b hb)).1
  simp [quote, hbody]

/-- The length of an object, by its names and the lengths of their values. -/
def objectBytes (members : List (Bytes × Nat)) : Nat :=
  1 + (members.map fun m => (quote m.1).length + m.2 + 2).sum

theorem le_objectBytes (name : Bytes) {n : Nat} {members : List (Bytes × Nat)}
    (h : (name, n) ∈ members) : n ≤ objectBytes members := by
  have hle := List.le_sum_of_mem
    (List.mem_map_of_mem (f := fun m : Bytes × Nat => (quote m.1).length + m.2 + 2) h)
  rw [objectBytes]
  omega

/-- The length of an array, by the lengths of its items. -/
def arrayBytes (items : List Nat) : Nat := 1 + (items.map (· + 1)).sum

/-- The names of the members with the lengths of their values. -/
def lengths (ms : List (Bytes × Json)) : List (Bytes × Nat) :=
  ms.map fun m => (m.1, (encode m.2).length)

theorem lengths_append (ms ms' : List (Bytes × Json)) :
    lengths (ms ++ ms') = lengths ms ++ lengths ms' := List.map_append

theorem lengths_single (name : Bytes) (j : Json) :
    lengths [(name, j)] = [(name, (encode j).length)] := rfl

theorem lengths_omitempty (p : Prop) [Decidable p] (name : Bytes) (j : Json) :
    lengths (omitempty p name j) = if p then [] else [(name, (encode j).length)] := by
  unfold omitempty
  split <;> rfl

theorem lengths_optional {α : Type} (name : Bytes) (toJson : α → Json) (o : Option α) :
    lengths (optional name toJson o) =
      (o.map fun a => (name, (encode (toJson a)).length)).toList := by
  cases o <;> rfl

theorem length_encodeMembers (ms : List (Bytes × Json)) :
    (encodeMembers ms).length = objectBytes (lengths ms) := by
  induction ms with
  | nil => rfl
  | cons m ms ih =>
    obtain ⟨name, j⟩ := m
    simp only [encodeMembers, List.length_cons, List.length_append, ih, objectBytes, lengths,
      List.map_cons, List.sum_cons]
    omega

theorem length_encode_obj {ms : List (Bytes × Json)} (h : ms ≠ []) :
    (encode (.obj ms)).length = objectBytes (lengths ms) := by
  obtain ⟨⟨name, j⟩, ms, rfl⟩ := List.exists_cons_of_ne_nil h
  rw [← length_encodeMembers, encode, encodeMembers]
  simp only [List.length_cons, List.length_append]

theorem length_encode_arr {js : List Json} (h : js ≠ []) :
    (encode (.arr js)).length = arrayBytes (js.map fun j => (encode j).length) := by
  have hitems : ∀ js : List Json,
      (encodeItems js).length = arrayBytes (js.map fun j => (encode j).length) := by
    intro js
    induction js with
    | nil => rfl
    | cons j js ih =>
      simp only [encodeItems, List.length_cons, List.length_append, ih, arrayBytes, List.map_cons,
        List.sum_cons]
      omega
  obtain ⟨j, js, rfl⟩ := List.exists_cons_of_ne_nil h
  rw [← hitems, encode, encodeItems]
  simp only [List.length_cons, List.length_append]

end Kama.Json
