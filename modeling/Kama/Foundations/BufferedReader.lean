import Mathlib.Algebra.Order.Ring.Int
import Mathlib.Data.List.Basic

/-!
# Buffered readers

A reader delivers a stream in pieces, and a buffered reader over it (Go's `bufio.Reader`) hands the
stream out up to a delimiter, as far as its buffer holds it.

* `Source` is a finite stream in the pieces that single reads return; a read may return nothing,
  and the end may be reported together with the last piece.
* `Buffered`, `fill` and `readSlice` follow the buffered reader.
* `splitAfter` gives the lines of a stream, each with its delimiter.
* `Sliced` says what a call of `readSlice` gives in terms of the stream that is left, whatever the
  pieces are (`sliced_readSlice`).
-/

namespace Kama

variable {α : Type}

/-! ## Sources -/

inductive ReadError where
  | eof
  /-- a hundred reads in a row returned nothing -/
  | noProgress
  deriving DecidableEq, Repr

/-- A stream that ends. -/
structure Source (α : Type) where
  /-- what single reads return, where the space that they are given suffices -/
  pieces : List (List α)
  /-- the end is reported together with the last piece -/
  early : Bool

namespace Source

def stream (s : Source α) : List α := s.pieces.flatten

/-- `Read` into a space of this size: the data, and the error that comes with it. -/
def read (s : Source α) (space : Nat) : List α × Option ReadError × Source α :=
  match s.pieces with
  | [] => ([], some .eof, s)
  | piece :: pieces =>
    let left := if piece.length ≤ space then pieces else piece.drop space :: pieces
    (piece.take space, if s.early && left.isEmpty then some .eof else none,
      { s with pieces := left })

/-- The end comes together with data. -/
def Joined (s : Source α) : Prop := s.early = true ∧ ∃ last ∈ s.pieces.getLast?, last ≠ []

/-- No such number of reads in a row returns nothing. -/
def Lively (limit : Nat) (s : Source α) : Prop :=
  ∀ before after, s.pieces ≠ before ++ List.replicate limit [] ++ after

/-- A bound on the number of reads. -/
def weight (s : Source α) : Nat := (s.pieces.map fun piece => piece.length + 1).sum

theorem lively_of_length_lt {limit : Nat} {s : Source α} (h : s.pieces.length < limit) :
    s.Lively limit := by
  intro before after heq
  rw [heq, List.length_append, List.length_append, List.length_replicate] at h
  omega

theorem Lively.tail {limit : Nat} {piece : List α} {pieces : List (List α)} {early : Bool}
    (h : Lively limit ⟨piece :: pieces, early⟩) : Lively limit ⟨pieces, early⟩ := by
  intro before after heq
  exact h (piece :: before) after (by simpa using heq)

theorem Lively.replace {limit : Nat} {piece piece' : List α} {pieces : List (List α)}
    {early : Bool} (h : Lively limit ⟨piece :: pieces, early⟩) (hlimit : 0 < limit)
    (hpiece : piece' ≠ []) : Lively limit ⟨piece' :: pieces, early⟩ := by
  intro before after heq
  obtain ⟨n, rfl⟩ : ∃ n, limit = n + 1 := ⟨limit - 1, by omega⟩
  cases before with
  | nil => exact hpiece (List.cons.inj heq).1
  | cons first before => exact h (piece :: before) after (by simpa using (List.cons.inj heq).2)

/-- What a read does to the source. -/
structure Reads (s : Source α) (space : Nat) (data : List α) (err : Option ReadError)
    (s' : Source α) : Prop where
  stream : data ++ s'.stream = s.stream
  length : data.length ≤ space
  early : s'.early = s.early
  ended : ∀ e, err = some e → e = .eof ∧ s'.pieces = [] ∧ (data = [] ∨ s.Joined)
  joined : err = none → (s'.Joined ↔ s.Joined)

theorem reads_read (s : Source α) (space : Nat) :
    s.Reads space (s.read space).1 (s.read space).2.1 (s.read space).2.2 := by
  obtain ⟨pieces, early⟩ := s
  cases pieces with
  | nil =>
    refine ⟨rfl, Nat.zero_le _, rfl, fun e he => ?_, fun h => nomatch h⟩
    exact ⟨(Option.some.inj he).symm, rfl, .inl rfl⟩
  | cons piece pieces =>
    by_cases hfits : piece.length ≤ space
    · have hread : read ⟨piece :: pieces, early⟩ space =
          (piece, if early && pieces.isEmpty then some .eof else none, ⟨pieces, early⟩) := by
        simp only [read, if_pos hfits, List.take_of_length_le hfits]
      rw [hread]
      refine ⟨rfl, hfits, rfl, fun e he => ?_, fun hnone => ?_⟩
      · split at he
        case isFalse => exact nomatch he
        case isTrue h =>
          obtain ⟨hearly, hempty⟩ := Bool.and_eq_true_iff.1 h
          obtain rfl : pieces = [] := List.isEmpty_iff.1 hempty
          refine ⟨(Option.some.inj he).symm, rfl, ?_⟩
          by_cases hpiece : piece = []
          · exact .inl hpiece
          · exact .inr ⟨hearly, piece, rfl, hpiece⟩
      · cases pieces with
        | nil =>
          have hearly : early = false := by
            cases early
            · rfl
            · exact nomatch hnone
          simp [Joined, hearly]
        | cons next pieces => simp [Joined, List.getLast?_cons_cons]
    · have hread : read ⟨piece :: pieces, early⟩ space =
          (piece.take space, none, ⟨piece.drop space :: pieces, early⟩) := by
        simp [read, if_neg hfits]
      rw [hread]
      refine ⟨?_, List.length_take_le _ _, rfl, fun e he => (nomatch he), fun _ => ?_⟩
      · simp only [Source.stream, List.flatten_cons, ← List.append_assoc, List.take_append_drop]
      · have hdrop : piece.drop space ≠ [] := by
          rw [ne_eq, List.drop_eq_nil_iff]
          omega
        have hpiece : piece ≠ [] := by
          rintro rfl
          exact hfits (Nat.zero_le _)
        cases pieces with
        | nil => simp [Joined, hpiece, hdrop]
        | cons next pieces => simp [Joined, List.getLast?_cons_cons]

theorem lively_read {limit space : Nat} {s : Source α} (h : s.Lively limit) (hlimit : 0 < limit) :
    (s.read space).2.2.Lively limit := by
  obtain ⟨pieces, early⟩ := s
  cases pieces with
  | nil => exact h
  | cons piece pieces =>
    by_cases hfits : piece.length ≤ space
    · simp only [read, if_pos hfits]
      exact h.tail
    · simp only [read, if_neg hfits]
      refine h.replace hlimit ?_
      rw [ne_eq, List.drop_eq_nil_iff]
      omega

theorem weight_read_lt {space : Nat} {s : Source α} (hspace : 0 < space)
    (h : (s.read space).2.1 = none) : (s.read space).2.2.weight < s.weight := by
  obtain ⟨pieces, early⟩ := s
  cases pieces with
  | nil => exact nomatch h
  | cons piece pieces =>
    by_cases hfits : piece.length ≤ space
    · simp only [read, if_pos hfits, weight, List.map_cons, List.sum_cons]
      omega
    · simp only [read, if_neg hfits, weight, List.map_cons, List.sum_cons, List.length_drop]
      omega

/-- The reads of `fill`: up to so many of them until there is data or an error. -/
def readSome (space : Nat) : Nat → Source α → List α × Option ReadError × Source α
  | 0, s => ([], some .noProgress, s)
  | attempts + 1, s =>
    let (data, err, s') := s.read space
    if err.isSome || !data.isEmpty then (data, err, s') else readSome space attempts s'

theorem readSome_succ (space attempts : Nat) (s : Source α) :
    readSome space (attempts + 1) s =
      if (s.read space).2.1.isSome || !(s.read space).1.isEmpty then s.read space
      else readSome space attempts (s.read space).2.2 := rfl

theorem weight_readSome_lt {space attempts : Nat} {s : Source α} (hspace : 0 < space)
    (h : (readSome space attempts s).2.1 = none) :
    (readSome space attempts s).2.2.weight < s.weight := by
  induction attempts generalizing s with
  | zero => exact nomatch h
  | succ attempts ih =>
    rw [readSome_succ] at h ⊢
    split at h
    case isTrue hdone =>
      rw [if_pos hdone]
      exact weight_read_lt hspace h
    case isFalse hempty =>
      rw [if_neg hempty]
      have hnone : (s.read space).2.1 = none := by
        rw [Bool.not_eq_true, Bool.or_eq_false_iff, Option.isSome_eq_false_iff] at hempty
        exact Option.isNone_iff_eq_none.1 hempty.1
      exact Nat.lt_trans (ih h) (weight_read_lt hspace hnone)

theorem stream_readSome (space attempts : Nat) (s : Source α) :
    (readSome space attempts s).1 ++ (readSome space attempts s).2.2.stream = s.stream := by
  induction attempts generalizing s with
  | zero => rfl
  | succ attempts ih =>
    rw [readSome_succ]
    have hread := (s.reads_read space).stream
    split
    case isTrue => exact hread
    case isFalse hempty =>
      rw [Bool.not_eq_true, Bool.or_eq_false_iff, Bool.not_eq_false'] at hempty
      rw [List.isEmpty_iff.1 hempty.2, List.nil_append] at hread
      rw [ih, hread]

/-- A read that returns nothing and no error takes an empty piece. -/
theorem pieces_of_read_nil {space : Nat} {s : Source α} (hspace : 0 < space)
    (hnone : (s.read space).2.1 = none) (hdata : (s.read space).1 = []) :
    s.pieces = [] :: (s.read space).2.2.pieces := by
  obtain ⟨pieces, early⟩ := s
  cases pieces with
  | nil => exact nomatch hnone
  | cons piece pieces =>
    have hpiece : piece = [] := by
      rcases List.take_eq_nil_iff.1 (show piece.take space = [] from hdata) with h | h
      · omega
      · exact h
    subst hpiece
    simp [read]

theorem Reads.trans_nil {s s' s'' : Source α} {space : Nat} {data : List α}
    {err : Option ReadError} (h : s.Reads space [] none s') (h' : s'.Reads space data err s'') :
    s.Reads space data err s'' where
  stream := h'.stream.trans h.stream
  length := h'.length
  early := h'.early.trans h.early
  ended e he := by
    obtain ⟨heof, hpieces, hdata⟩ := h'.ended e he
    exact ⟨heof, hpieces, hdata.imp_right (h.joined rfl).1⟩
  joined hnone := (h'.joined hnone).trans (h.joined rfl)

/-- Where the empty reads end in time, `readSome` reads like a single read that returns data or the
end. -/
theorem reads_readSome {space limit attempts : Nat} {s : Source α} (hspace : 0 < space)
    (hlimit : 0 < limit) (h : s.Lively limit)
    (hattempts : ¬List.replicate attempts [] <+: s.pieces) :
    s.Reads space (readSome space attempts s).1 (readSome space attempts s).2.1
        (readSome space attempts s).2.2 ∧
      (readSome space attempts s).2.2.Lively limit ∧
      ((readSome space attempts s).2.1 = none → (readSome space attempts s).1 ≠ []) := by
  induction attempts generalizing s with
  | zero => exact absurd List.nil_prefix hattempts
  | succ attempts ih =>
    rw [readSome_succ]
    have hread := s.reads_read space
    split
    case isTrue hdone =>
      refine ⟨hread, lively_read h hlimit, fun hnone hdata => ?_⟩
      simp [hnone, hdata] at hdone
    case isFalse hempty =>
      rw [Bool.not_eq_true, Bool.or_eq_false_iff, Option.isSome_eq_false_iff,
        Bool.not_eq_false'] at hempty
      have hnone := Option.isNone_iff_eq_none.1 hempty.1
      have hdata := List.isEmpty_iff.1 hempty.2
      have hrest : (s.read space).2.2.Lively limit := lively_read h hlimit
      have hfewer : ¬List.replicate attempts [] <+: (s.read space).2.2.pieces := by
        intro hinitial
        apply hattempts
        rw [pieces_of_read_nil hspace hnone hdata, List.replicate_succ]
        exact (List.prefix_cons_inj []).2 hinitial
      obtain ⟨hreads, hlively, hsome⟩ := ih hrest hfewer
      rw [hnone, hdata] at hread
      exact ⟨hread.trans_nil hreads, hlively, hsome⟩

end Source

/-! ## Buffered readers -/

/-- A `bufio.Reader`: what is in the buffer and not read yet, the error that is still to be
reported, and the reader below. -/
structure Buffered (α : Type) where
  buffered : List α
  err : Option ReadError
  source : Source α

inductive SliceError where
  | bufferFull
  | read (e : ReadError)
  deriving DecidableEq, Repr

/-- How often `fill` reads in vain. -/
def maxConsecutiveEmptyReads : Nat := 100

theorem maxConsecutiveEmptyReads_pos : 0 < maxConsecutiveEmptyReads := by decide

/-- The list up to and with the first `delim`, and what follows it. -/
def cutAfter [DecidableEq α] (delim : α) : List α → Option (List α × List α)
  | [] => none
  | b :: rest =>
    if b = delim then some ([b], rest)
    else (cutAfter delim rest).map fun (line, rest) => (b :: line, rest)

theorem cutAfter_eq_none [DecidableEq α] {delim : α} {l : List α}
    (h : cutAfter delim l = none) : delim ∉ l := by
  induction l with
  | nil => exact List.not_mem_nil
  | cons b rest ih =>
    rw [cutAfter] at h
    split at h
    case isTrue => exact nomatch h
    case isFalse hne =>
      have hrest := ih (Option.map_eq_none_iff.1 h)
      rw [List.mem_cons, not_or]
      exact ⟨fun heq => hne heq.symm, hrest⟩

theorem cutAfter_eq_some [DecidableEq α] {delim : α} {l line rest : List α}
    (h : cutAfter delim l = some (line, rest)) :
    ∃ body, line = body ++ [delim] ∧ delim ∉ body ∧ l = body ++ delim :: rest := by
  induction l generalizing line with
  | nil => exact nomatch h
  | cons b l ih =>
    rw [cutAfter] at h
    split at h
    case isTrue heq =>
      obtain ⟨rfl, rfl⟩ := Prod.mk.inj (Option.some.inj h)
      subst heq
      exact ⟨[], rfl, List.not_mem_nil, rfl⟩
    case isFalse hne =>
      obtain ⟨⟨line', rest'⟩, hcut, heq⟩ := Option.map_eq_some_iff.1 h
      obtain ⟨rfl, rfl⟩ := Prod.mk.inj heq
      obtain ⟨body, rfl, hbody, rfl⟩ := ih hcut
      refine ⟨b :: body, rfl, ?_, rfl⟩
      rw [List.mem_cons, not_or]
      exact ⟨fun heq => hne heq.symm, hbody⟩

/-- The lines of a stream, each with the delimiter that ends it; the last one may have none. -/
def splitAfter [DecidableEq α] (delim : α) : List α → List (List α)
  | [] => []
  | b :: rest =>
    if b = delim then [b] :: splitAfter delim rest
    else
      match splitAfter delim rest with
      | [] => [[b]]
      | line :: lines => (b :: line) :: lines

theorem splitAfter_of_notMem [DecidableEq α] {delim : α} {body : List α} (h : delim ∉ body)
    (hne : body ≠ []) : splitAfter delim body = [body] := by
  induction body with
  | nil => exact absurd rfl hne
  | cons b rest ih =>
    obtain ⟨hb, hrest⟩ := not_or.1 (List.mem_cons.not.1 h)
    by_cases hnil : rest = []
    · subst hnil
      rw [splitAfter, if_neg (fun heq => hb heq.symm), splitAfter]
    · rw [splitAfter, if_neg (fun heq => hb heq.symm), ih hrest hnil]

theorem splitAfter_append_cons [DecidableEq α] {delim : α} {body : List α} (h : delim ∉ body)
    (rest : List α) :
    splitAfter delim (body ++ delim :: rest) = (body ++ [delim]) :: splitAfter delim rest := by
  induction body with
  | nil => rw [List.nil_append, splitAfter, if_pos rfl, List.nil_append]
  | cons b body ih =>
    obtain ⟨hb, hbody⟩ := not_or.1 (List.mem_cons.not.1 h)
    rw [List.cons_append, splitAfter, if_neg (fun heq => hb heq.symm), ih hbody, List.cons_append]

theorem ne_nil_of_mem_splitAfter [DecidableEq α] {delim : α} {l line : List α}
    (h : line ∈ splitAfter delim l) : line ≠ [] := by
  induction l generalizing line with
  | nil => exact absurd h List.not_mem_nil
  | cons b rest ih =>
    rw [splitAfter] at h
    split at h
    case isTrue =>
      rcases List.mem_cons.1 h with rfl | h
      · exact List.cons_ne_nil _ _
      · exact ih h
    case isFalse =>
      split at h
      case h_1 =>
        rw [List.mem_singleton.1 h]
        exact List.cons_ne_nil _ _
      case h_2 first lines hrest =>
        rcases List.mem_cons.1 h with rfl | h
        · exact List.cons_ne_nil _ _
        · exact ih (hrest ▸ List.mem_cons_of_mem _ h)

/-- The first delimiter is where it is. -/
theorem append_delim_inj {delim : α} {body body' rest rest' : List α} (h : delim ∉ body)
    (h' : delim ∉ body') (heq : body ++ delim :: rest = body' ++ delim :: rest') :
    body = body' ∧ rest = rest' := by
  induction body generalizing body' with
  | nil =>
    cases body' with
    | nil => exact ⟨rfl, (List.cons.inj heq).2⟩
    | cons b body' =>
      have hb := (List.cons.inj heq).1
      exact absurd (hb ▸ List.mem_cons_self ..) h'
  | cons b body ih =>
    cases body' with
    | nil =>
      have hb := (List.cons.inj heq).1
      exact absurd (hb ▸ List.mem_cons_self ..) h
    | cons b' body' =>
      obtain ⟨rfl, htail⟩ := List.cons.inj heq
      obtain ⟨rfl, rfl⟩ := ih (fun hmem => h (List.mem_cons_of_mem _ hmem))
        (fun hmem => h' (List.mem_cons_of_mem _ hmem)) htail
      exact ⟨rfl, rfl⟩

/-- The last of the blocks of this size that a list falls into. -/
def lastBlock (size : Nat) (l : List α) : List α := l.drop (size * ((l.length - 1) / size))

theorem lastBlock_of_length_le {size : Nat} {l : List α} (h : l.length ≤ size) :
    lastBlock size l = l := by
  have hzero : size * ((l.length - 1) / size) = 0 := by
    rcases Nat.eq_zero_or_pos size with rfl | hsize
    · rw [Nat.zero_mul]
    · rw [Nat.div_eq_of_lt (by omega), Nat.mul_zero]
  rw [lastBlock, hzero, List.drop_zero]

theorem lastBlock_append {size : Nat} {block l : List α} (hsize : 0 < size)
    (hblock : block.length = size) (hl : l ≠ []) :
    lastBlock size (block ++ l) = lastBlock size l := by
  have hpos := List.length_pos_iff.2 hl
  have hlength : (block ++ l).length - 1 = (l.length - 1) + size := by
    rw [List.length_append]
    omega
  rw [lastBlock, hlength, Nat.add_div_right _ hsize, Nat.mul_succ, Nat.add_comm _ size, ← hblock,
    List.drop_length_add_append, lastBlock]

namespace Buffered

/-- `bufio.NewReaderSize`. -/
def newReader (source : Source α) : Buffered α := ⟨[], none, source⟩

/-- The stream that is left. -/
def stream (r : Buffered α) : List α := r.buffered ++ r.source.stream

/-! ### Filling the buffer -/

/-- `fill` for a buffer of this size. -/
def fill (size : Nat) (r : Buffered α) : Buffered α :=
  let (data, err, source) :=
    Source.readSome (size - r.buffered.length) maxConsecutiveEmptyReads r.source
  ⟨r.buffered ++ data, err, source⟩

theorem fill_eq (size : Nat) (r : Buffered α) {data : List α} {err : Option ReadError}
    {source : Source α}
    (h : Source.readSome (size - r.buffered.length) maxConsecutiveEmptyReads r.source =
      (data, err, source)) : r.fill size = ⟨r.buffered ++ data, err, source⟩ := by
  rw [fill, h]

theorem stream_fill (size : Nat) (r : Buffered α) : (r.fill size).stream = r.stream := by
  rcases hread : Source.readSome (size - r.buffered.length) maxConsecutiveEmptyReads r.source
    with ⟨data, err, source⟩
  have hstream := Source.stream_readSome (size - r.buffered.length) maxConsecutiveEmptyReads
    r.source
  rw [hread] at hstream
  rw [fill_eq size r hread, stream, stream, ← hstream, List.append_assoc]

/-- A bound on the calls of `fill` before the next error. -/
def weight (r : Buffered α) : Nat := if r.err.isSome then 0 else r.source.weight + 1

theorem weight_fill_lt {size : Nat} {r : Buffered α} (herr : r.err = none)
    (hspace : ¬size ≤ r.buffered.length) : (r.fill size).weight < r.weight := by
  rcases hread : Source.readSome (size - r.buffered.length) maxConsecutiveEmptyReads r.source
    with ⟨data, err, source⟩
  rw [fill_eq size r hread]
  cases err with
  | some e => simp [weight, herr]
  | none =>
    have hlt : source.weight < r.source.weight := by
      have hread' := congrArg (fun result => result.2.2.weight) hread
      rw [← hread']
      exact Source.weight_readSome_lt (Nat.sub_pos_of_lt (Nat.lt_of_not_le hspace)) (by rw [hread])
    simpa [weight, herr] using hlt

/-- Between the calls on a source whose end comes together with data or not (`joined`). -/
structure Steady (size : Nat) (joined : Prop) (r : Buffered α) : Prop where
  length : r.buffered.length ≤ size
  lively : r.source.Lively maxConsecutiveEmptyReads
  pending : ∀ e, r.err = some e →
    e = .eof ∧ r.source.pieces = [] ∧ (joined ∨ r.buffered.length < size)
  joined : r.err = none → (r.source.Joined ↔ joined)

theorem steady_newReader {size : Nat} {source : Source α}
    (h : source.Lively maxConsecutiveEmptyReads) :
    Steady size source.Joined (newReader source) where
  length := Nat.zero_le _
  lively := h
  pending _ he := nomatch he
  joined _ := Iff.rfl

/-- Some data is taken from the buffer. -/
theorem Steady.drop {size : Nat} {joined : Prop} {r : Buffered α} (h : Steady size joined r)
    {rest : List α} (hlength : rest.length ≤ r.buffered.length) :
    Steady size joined { r with buffered := rest } where
  length := hlength.trans h.length
  lively := h.lively
  pending e he := by
    obtain ⟨heof, hpieces, hlt⟩ := h.pending e he
    exact ⟨heof, hpieces, hlt.imp_right fun hlt => Nat.lt_of_le_of_lt hlength hlt⟩
  joined := h.joined

theorem Steady.fill {size : Nat} {joined : Prop} {r : Buffered α} (h : Steady size joined r)
    (herr : r.err = none) (hspace : ¬size ≤ r.buffered.length) :
    Steady size joined (r.fill size) := by
  rcases hread : Source.readSome (size - r.buffered.length) maxConsecutiveEmptyReads r.source
    with ⟨data, err, source⟩
  have hattempts : ¬List.replicate maxConsecutiveEmptyReads [] <+: r.source.pieces := by
    rintro ⟨after, hpieces⟩
    exact h.lively [] after (by simpa using hpieces.symm)
  obtain ⟨hreads, hlively, -⟩ := Source.reads_readSome
    (Nat.sub_pos_of_lt (Nat.lt_of_not_le hspace)) maxConsecutiveEmptyReads_pos h.lively hattempts
  rw [hread] at hreads hlively
  rw [fill_eq size r hread]
  refine ⟨?_, hlively, fun e he => ?_, fun hnone => ?_⟩
  · have hlength : data.length ≤ size - r.buffered.length := hreads.length
    rw [List.length_append]
    omega
  · obtain ⟨heof, hpieces, hdata⟩ := hreads.ended e he
    refine ⟨heof, hpieces, ?_⟩
    rcases hdata with rfl | hjoined
    · rw [List.append_nil]
      exact .inr (Nat.lt_of_not_le hspace)
    · exact .inl ((h.joined herr).1 hjoined)
  · exact (hreads.joined hnone).trans (h.joined herr)

/-! ### Slices -/

variable [DecidableEq α]

/-- `ReadSlice` for a buffer of this size. -/
def readSlice (size : Nat) (delim : α) (r : Buffered α) :
    List α × Option SliceError × Buffered α :=
  match cutAfter delim r.buffered with
  | some (line, rest) => (line, none, { r with buffered := rest })
  | none =>
    match _herr : r.err with
    | some e => (r.buffered, some (.read e), { r with buffered := [], err := none })
    | none =>
      if size ≤ r.buffered.length then
        (r.buffered, some .bufferFull, { r with buffered := [] })
      else readSlice size delim (r.fill size)
termination_by r.weight
decreasing_by exact weight_fill_lt (by assumption) (by assumption)

theorem stream_readSlice (size : Nat) (delim : α) (r : Buffered α) :
    (r.readSlice size delim).1 ++ (r.readSlice size delim).2.2.stream = r.stream := by
  fun_induction readSlice size delim r with
  | case1 r line rest hcut =>
    obtain ⟨body, rfl, -, hbuffered⟩ := cutAfter_eq_some hcut
    simp [stream, hbuffered]
  | case2 r hcut e herr => rfl
  | case3 r hcut herr hfull => rfl
  | case4 r hcut herr hspace ih => rw [ih, stream_fill]

/-- A call that does not report the end takes something from the stream. -/
theorem readSlice_ne_nil {size : Nat} (hsize : 0 < size) (delim : α) (r : Buffered α)
    (h : ∀ e, (r.readSlice size delim).2.1 ≠ some (.read e)) :
    (r.readSlice size delim).1 ≠ [] := by
  fun_induction readSlice size delim r with
  | case1 r line rest hcut =>
    obtain ⟨body, rfl, -, -⟩ := cutAfter_eq_some hcut
    exact List.append_ne_nil_of_right_ne_nil _ (List.cons_ne_nil _ _)
  | case2 r hcut e herr => exact absurd rfl (h e)
  | case3 r hcut herr hfull => exact List.ne_nil_of_length_pos (Nat.lt_of_lt_of_le hsize hfull)
  | case4 r hcut herr hspace ih => exact ih h

/-- What a call of `readSlice` returns and leaves of a stream: a line that fits into the buffer, a
buffer full of a longer one, or the last line. -/
inductive Sliced (size : Nat) (delim : α) (joined : Prop) (stream : List α) :
    List α × Option SliceError × Buffered α → Prop
  | line {body rest : List α} {r : Buffered α} (hstream : stream = body ++ delim :: rest)
      (hbody : delim ∉ body) (hlength : body.length < size) (hrest : r.stream = rest)
      (hr : Steady size joined r) : Sliced size delim joined stream (body ++ [delim], none, r)
  | full {block rest : List α} {r : Buffered α} (hstream : stream = block ++ rest)
      (hblock : delim ∉ block) (hlength : block.length = size) (hjoined : rest = [] → ¬joined)
      (hrest : r.stream = rest) (hr : Steady size joined r) :
      Sliced size delim joined stream (block, some .bufferFull, r)
  | final {r : Buffered α} (hstream : delim ∉ stream)
      (hlength : stream.length < size ∨ stream.length = size ∧ joined) :
      Sliced size delim joined stream (stream, some (.read .eof), r)

/-- **What a call gives does not depend on the pieces.** -/
theorem sliced_readSlice {size : Nat} {delim : α} {joined : Prop} {r : Buffered α}
    (h : Steady size joined r) : Sliced size delim joined r.stream (r.readSlice size delim) := by
  fun_induction readSlice size delim r with
  | case1 r line rest hcut =>
    obtain ⟨body, rfl, hbody, hbuffered⟩ := cutAfter_eq_some hcut
    have hlength : r.buffered.length = body.length + (rest.length + 1) := by
      rw [hbuffered, List.length_append, List.length_cons]
    have hle := h.length
    have hstream : r.stream = body ++ delim :: (rest ++ r.source.stream) := by
      rw [stream, hbuffered, List.append_assoc, List.cons_append]
    exact .line hstream hbody (by omega) rfl (h.drop (by omega))
  | case2 r hcut e herr =>
    obtain ⟨rfl, hpieces, hlength⟩ := h.pending e herr
    have hstream : r.stream = r.buffered := by
      rw [stream, Source.stream, hpieces, List.flatten_nil, List.append_nil]
    rw [hstream]
    refine .final (cutAfter_eq_none hcut) ?_
    have hle := h.length
    rcases hlength with hjoined | hlt
    · rcases Nat.lt_or_eq_of_le hle with hlt | heq
      · exact .inl hlt
      · exact .inr ⟨heq, hjoined⟩
    · exact .inl hlt
  | case3 r hcut herr hfull =>
    refine .full rfl (cutAfter_eq_none hcut) (Nat.le_antisymm h.length hfull) (fun hrest hj => ?_)
      (List.nil_append _) (h.drop (Nat.zero_le _))
    obtain ⟨-, last, hlast, hne⟩ := (h.joined herr).2 hj
    have hmem : last ∈ r.source.pieces := List.mem_of_getLast? hlast
    exact hne (List.flatten_eq_nil_iff.1 hrest last hmem)
  | case4 r hcut herr hspace ih =>
    rw [← stream_fill size r]
    exact ih (h.fill herr hspace)

end Buffered

end Kama
