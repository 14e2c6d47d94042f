import Kama.Foundations.BufferedReader
import Kama.Runtime.Accelerator
import Mathlib.Data.List.DropRight

/-!
# The log of the server

`consumeChildLog` of `supervisor.go` reads the output of the child through a buffered reader and
passes what it reads up to a newline to `observeStartupLog`, unless the buffer was full before the
newline came.

* `consumeChildLog` gives the strings that are passed on; `Fits` and `framedLines` say which lines
  of the output these should be.
* `consumeFrom_eq`: of a line that does not fit into the buffer, its last block is passed on.
* `consumeChildLog_eq_iff`: exactly the lines that fit are passed on where no line is longer than
  the buffer, or only a last one without newline that fills the buffer a whole number of times.
* `consumeChildLog_overlong`: the end of a longer line is taken for a line.
-/

namespace Kama.Runtime

open Bytes Buffered

def maximumLogFragmentBytes : Nat := 4096

theorem maximumLogFragmentBytes_pos : 0 < maximumLogFragmentBytes := by decide

/-- `strings.TrimRight` with the cutset of a carriage return and a newline. -/
def trimNewline (s : Bytes) : Bytes := s.rdropWhile fun b => b = 13 || b = 10

theorem length_readSlice_lt {r : Buffered UInt8} {fragment : Bytes} {err : Option SliceError}
    {r' : Buffered UInt8} (h : r.readSlice maximumLogFragmentBytes 10 = (fragment, err, r'))
    (herr : ∀ e, err ≠ some (.read e)) : r'.stream.length < r.stream.length := by
  have hne := readSlice_ne_nil maximumLogFragmentBytes_pos 10 r (by rw [h]; exact herr)
  have hstream := stream_readSlice maximumLogFragmentBytes 10 r
  rw [h] at hne hstream
  rw [← hstream, List.length_append]
  exact Nat.lt_add_of_pos_left (List.length_pos_iff.2 hne)

/-- What a call of `ReadSlice` gives to pass on. -/
def observed (fragment : Bytes) (err : Option SliceError) : List Bytes :=
  if fragment.length > 0 ∧ err ≠ some .bufferFull then [trimNewline fragment] else []

/-- The loop of `consumeChildLog`, as the strings that it passes to `observeStartupLog`. -/
def consumeFrom (r : Buffered UInt8) : List Bytes :=
  match _hread : r.readSlice maximumLogFragmentBytes 10 with
  | (fragment, none, r') => observed fragment none ++ consumeFrom r'
  | (fragment, some .bufferFull, r') => observed fragment (some .bufferFull) ++ consumeFrom r'
  | (fragment, some (.read e), _) => observed fragment (some (.read e))
termination_by r.stream.length
decreasing_by
  · exact length_readSlice_lt _hread fun e he => nomatch he
  · exact length_readSlice_lt _hread fun e he => nomatch he

def consumeChildLog (source : Source UInt8) : List Bytes := consumeFrom (newReader source)

/-! ## What is passed on -/

theorem observed_of_ne {fragment : Bytes} {err : Option SliceError} (h : err ≠ some .bufferFull) :
    observed fragment err = if fragment = [] then [] else [trimNewline fragment] := by
  by_cases hnil : fragment = []
  · simp [observed, hnil]
  · rw [observed, if_pos ⟨List.length_pos_iff.2 hnil, h⟩, if_neg hnil]

theorem consumeFrom_line {r r' : Buffered UInt8} {fragment : Bytes}
    (h : r.readSlice maximumLogFragmentBytes 10 = (fragment, none, r')) (hne : fragment ≠ []) :
    consumeFrom r = trimNewline fragment :: consumeFrom r' := by
  rw [consumeFrom]
  split
  all_goals rename_i hread
  all_goals cases h.symm.trans hread
  rw [observed_of_ne (by simp), if_neg hne, List.singleton_append]

theorem consumeFrom_full {r r' : Buffered UInt8} {fragment : Bytes}
    (h : r.readSlice maximumLogFragmentBytes 10 = (fragment, some .bufferFull, r')) :
    consumeFrom r = consumeFrom r' := by
  rw [consumeFrom]
  split
  all_goals rename_i hread
  all_goals cases h.symm.trans hread
  rw [observed, if_neg (fun hne => hne.2 rfl), List.nil_append]

theorem consumeFrom_final {r r' : Buffered UInt8} {fragment : Bytes} {e : ReadError}
    (h : r.readSlice maximumLogFragmentBytes 10 = (fragment, some (.read e), r')) :
    consumeFrom r = if fragment = [] then [] else [trimNewline fragment] := by
  rw [consumeFrom]
  split
  all_goals rename_i hread
  all_goals cases h.symm.trans hread
  exact observed_of_ne (by simp)

variable {joined : Prop} {r : Buffered UInt8}

/-- A line of any length: the blocks that fill the buffer are skipped, and what is left with the
newline is passed on. -/
theorem consumeFrom_of_newline (h : Steady maximumLogFragmentBytes joined r) {body rest : Bytes}
    (hbody : 10 ∉ body) (hstream : r.stream = body ++ 10 :: rest) :
    ∃ r', Steady maximumLogFragmentBytes joined r' ∧ r'.stream = rest ∧
      consumeFrom r =
        trimNewline (lastBlock maximumLogFragmentBytes (body ++ [10])) :: consumeFrom r' := by
  induction hn : body.length using Nat.strongRecOn generalizing r body with
  | ind n ih =>
    have hsliced : Sliced maximumLogFragmentBytes 10 joined r.stream _ := sliced_readSlice h
    generalize hread : r.readSlice maximumLogFragmentBytes 10 = result at hsliced
    cases hsliced with
    | line hline hbody' hlength hrest hr =>
      obtain ⟨rfl, rfl⟩ := append_delim_inj hbody hbody' (hstream.symm.trans hline)
      refine ⟨_, hr, hrest, ?_⟩
      rw [consumeFrom_line hread (by simp), lastBlock_of_length_le]
      rw [List.length_append, List.length_singleton]
      exact hlength
    | @full block rest' r' hfull hblock hlength hjoined hrest hr =>
      -- the block is the beginning of the line
      obtain ⟨body', rfl, hrest'⟩ :
          ∃ body', body = block ++ body' ∧ rest' = body' ++ 10 :: rest := by
        rcases List.append_eq_append_iff.1 (hstream.symm.trans hfull) with
          ⟨tail, hblock', htail⟩ | ⟨body', hbody', hrest'⟩
        · cases tail with
          | nil => exact ⟨[], by simpa using hblock'.symm, by simpa using htail.symm⟩
          | cons b tail =>
            obtain ⟨rfl, -⟩ := List.cons.inj htail
            exact absurd (hblock' ▸ List.mem_append_right _ (List.mem_cons_self ..)) hblock
        · exact ⟨body', hbody', hrest'⟩
      have hshorter : body'.length < n := by
        have hpos := maximumLogFragmentBytes_pos
        rw [← hn, List.length_append]
        omega
      obtain ⟨r'', hr'', hstream'', heq⟩ := ih body'.length hshorter hr
        (fun hmem => hbody (List.mem_append_right _ hmem)) (hrest.trans hrest') rfl
      refine ⟨r'', hr'', hstream'', ?_⟩
      rw [consumeFrom_full hread, heq, List.append_assoc,
        lastBlock_append maximumLogFragmentBytes_pos hlength (by simp)]
    | final hnone hlength =>
      rw [hstream] at hnone
      exact absurd (List.mem_append_right _ (List.mem_cons_self ..)) hnone

/-- The last line of the output, which no newline ends. -/
theorem consumeFrom_of_notMem [Decidable joined] (h : Steady maximumLogFragmentBytes joined r)
    (hstream : 10 ∉ r.stream) :
    consumeFrom r =
      if r.stream = [] ∨ maximumLogFragmentBytes ∣ r.stream.length ∧ ¬joined then []
      else [trimNewline (lastBlock maximumLogFragmentBytes r.stream)] := by
  induction hn : r.stream.length using Nat.strongRecOn generalizing r with
  | ind n ih =>
    have hsliced : Sliced maximumLogFragmentBytes 10 joined r.stream _ := sliced_readSlice h
    generalize hread : r.readSlice maximumLogFragmentBytes 10 = result at hsliced
    have hpos := maximumLogFragmentBytes_pos
    cases hsliced with
    | line hline =>
      rw [hline] at hstream
      exact absurd (List.mem_append_right _ (List.mem_cons_self ..)) hstream
    | @full block rest r' hfull hblock hlength hjoined hrest hr =>
      have hlen : r.stream.length = maximumLogFragmentBytes + rest.length := by
        rw [hfull, List.length_append, hlength]
      have hrest' : 10 ∉ r'.stream := by
        rw [hrest]
        exact fun hmem => hstream (hfull ▸ List.mem_append_right _ hmem)
      have hne : r.stream ≠ [] := List.ne_nil_of_length_pos (by omega)
      have heq := ih r'.stream.length (by rw [hrest]; omega) hr hrest' rfl
      rw [consumeFrom_full hread, heq, ← hn, hrest, hlen]
      by_cases hnil : rest = []
      · rw [if_pos (.inl hnil), if_pos]
        exact .inr ⟨by simp [hnil], hjoined hnil⟩
      · rw [hfull, lastBlock_append hpos hlength hnil, ← hfull]
        simp only [hnil, hne, false_or, Nat.dvd_add_right (Nat.dvd_refl _)]
    | final hnone hlength =>
      rw [consumeFrom_final hread, ← hn]
      by_cases hnil : r.stream = []
      · rw [if_pos hnil, if_pos (.inl hnil)]
      · have hlen := List.length_pos_iff.2 hnil
        have hblock : lastBlock maximumLogFragmentBytes r.stream = r.stream :=
          lastBlock_of_length_le (by omega)
        rw [if_neg hnil, if_neg, hblock]
        rintro (hnil' | ⟨hdvd, hj⟩)
        · exact hnil hnil'
        · rcases hlength with hlt | ⟨-, hj'⟩
          · exact absurd (Nat.le_of_dvd hlen hdvd) (by omega)
          · exact hj hj'

/-- What is passed on of a line. -/
def passed (joined : Prop) [Decidable joined] (line : Bytes) : List Bytes :=
  if line.getLast? ≠ some 10 ∧ maximumLogFragmentBytes ∣ line.length ∧ ¬joined then []
  else [trimNewline (lastBlock maximumLogFragmentBytes line)]

/-- **What is passed on of the output.** It depends on the lines only, and of a line that does not
fit into the buffer it is the last block. -/
theorem consumeFrom_eq [Decidable joined] (h : Steady maximumLogFragmentBytes joined r) :
    consumeFrom r = (splitAfter 10 r.stream).flatMap (passed joined) := by
  induction hn : r.stream.length using Nat.strongRecOn generalizing r with
  | ind n ih =>
    cases hcut : cutAfter 10 r.stream with
    | none =>
      have hstream := cutAfter_eq_none hcut
      rw [consumeFrom_of_notMem h hstream]
      by_cases hnil : r.stream = []
      · rw [if_pos (.inl hnil), hnil, splitAfter, List.flatMap_nil]
      · have hlast : r.stream.getLast? ≠ some 10 :=
          fun hlast => hstream (List.mem_of_getLast? hlast)
        rw [splitAfter_of_notMem hstream hnil, List.flatMap_singleton, passed]
        simp only [hnil, hlast, false_or, ne_eq, not_false_eq_true, true_and]
    | some cut =>
      obtain ⟨line, rest⟩ := cut
      obtain ⟨body, rfl, hbody, hstream⟩ := cutAfter_eq_some hcut
      obtain ⟨r', hr', hrest, heq⟩ := consumeFrom_of_newline h hbody hstream
      have hlength : r'.stream.length < n := by
        rw [← hn, hstream, hrest, List.length_append, List.length_cons]
        omega
      rw [heq, ih _ hlength hr' rfl, hstream, splitAfter_append_cons hbody, List.flatMap_cons,
        passed, if_neg (by simp), hrest, List.singleton_append]

/-! ## The lines that fit -/

/-- The line, with its newline, fits into the buffer; a last line without one is shorter. -/
def Fits (line : Bytes) : Prop :=
  line.getLast? = some 10 ∧ line.length ≤ maximumLogFragmentBytes ∨
    line.getLast? ≠ some 10 ∧ line.length < maximumLogFragmentBytes

instance : DecidablePred Fits := fun _ => inferInstanceAs (Decidable (_ ∧ _ ∨ _ ∧ _))

/-- The lines of the output that fit, without the end of the line. -/
def framedLines (output : Bytes) : List Bytes :=
  ((splitAfter 10 output).filter Fits).map trimNewline

theorem passed_of_fits [Decidable joined] {line : Bytes} (hne : line ≠ []) (h : Fits line) :
    passed joined line = [trimNewline line] := by
  have hpos := List.length_pos_iff.2 hne
  rw [passed, if_neg]
  · rcases h with ⟨-, hle⟩ | ⟨-, hlt⟩
    · rw [lastBlock_of_length_le hle]
    · rw [lastBlock_of_length_le (Nat.le_of_lt hlt)]
  · rintro ⟨hlast, hdvd, -⟩
    rcases h with ⟨hlast', -⟩ | ⟨-, hlt⟩
    · exact hlast hlast'
    · exact absurd (Nat.le_of_dvd hpos hdvd) (by omega)

theorem passed_eq_nil [Decidable joined] {line : Bytes} : passed joined line = [] ↔
    line.getLast? ≠ some 10 ∧ maximumLogFragmentBytes ∣ line.length ∧ ¬joined := by
  rw [passed]
  split
  case isTrue h => exact ⟨fun _ => h, fun _ => rfl⟩
  case isFalse h => exact ⟨fun heq => absurd heq (List.cons_ne_nil _ _), fun h' => absurd h' h⟩

section Choice

variable {α β : Type} {f : α → List β} {g : α → β} {p : α → Prop} [DecidablePred p]

theorem length_filter_le_flatMap {l : List α} (h : ∀ x ∈ l, p x → f x = [g x]) :
    (l.filter p).length ≤ (l.flatMap f).length := by
  induction l with
  | nil => exact Nat.le_refl _
  | cons x l ih =>
    have htail := ih fun y hy => h y (List.mem_cons_of_mem _ hy)
    rw [List.flatMap_cons, List.length_append]
    by_cases hx : p x
    · rw [List.filter_cons_of_pos (by simpa using hx), h x (List.mem_cons_self ..) hx,
        List.length_cons, List.length_singleton]
      omega
    · rw [List.filter_cons_of_neg (by simpa using hx)]
      omega

/-- The chosen elements give one value each: where all values together are those, the others give
none. -/
theorem flatMap_eq_map_filter {l : List α} (h : ∀ x ∈ l, p x → f x = [g x]) :
    l.flatMap f = (l.filter p).map g ↔ ∀ x ∈ l, p x ∨ f x = [] := by
  induction l with
  | nil => simp
  | cons x l ih =>
    have htail : ∀ y ∈ l, p y → f y = [g y] := fun y hy => h y (List.mem_cons_of_mem _ hy)
    have hiff := ih htail
    rw [List.forall_mem_cons, List.flatMap_cons]
    by_cases hx : p x
    · rw [List.filter_cons_of_pos (by simpa using hx), h x (List.mem_cons_self ..) hx,
        List.map_cons, List.singleton_append, List.cons.injEq, hiff]
      exact ⟨fun heq => ⟨.inl hx, heq.2⟩, fun hall => ⟨rfl, hall.2⟩⟩
    · rw [List.filter_cons_of_neg (by simpa using hx), ← hiff]
      constructor
      · intro heq
        have hle := length_filter_le_flatMap htail
        have hlength := congrArg List.length heq
        rw [List.length_append, List.length_map] at hlength
        have hnil : f x = [] := List.eq_nil_of_length_eq_zero (by omega)
        exact ⟨.inr hnil, by rw [← heq, hnil, List.nil_append]⟩
      · rintro ⟨hor, heq⟩
        rw [hor.resolve_left hx, List.nil_append, heq]

end Choice

/-- **The framing of the log.** For every output and every way in which it is read, exactly the
lines that fit into the buffer are passed on if and only if every line fits, apart from a last line
without a newline that fills the buffer a whole number of times and whose end is reported by a read
of its own. -/
theorem consumeChildLog_eq_iff (source : Source UInt8)
    (hlively : source.Lively maxConsecutiveEmptyReads) :
    consumeChildLog source = framedLines source.stream ↔
      ∀ line ∈ splitAfter 10 source.stream,
        Fits line ∨
          line.getLast? ≠ some 10 ∧ maximumLogFragmentBytes ∣ line.length ∧ ¬source.Joined := by
  classical
  have hstream : (newReader source).stream = source.stream := List.nil_append _
  rw [consumeChildLog, consumeFrom_eq (steady_newReader hlively), hstream, framedLines,
    flatMap_eq_map_filter fun line hline hfits =>
      passed_of_fits (ne_nil_of_mem_splitAfter hline) hfits]
  simp only [passed_eq_nil]

/-- Two lines in three reads, the second of them over two reads. -/
def twoLines : Source UInt8 := ⟨[ascii "load", ascii "ing\r\nlis", ascii "tening\n"], false⟩

theorem consumeChildLog_twoLines :
    consumeChildLog twoLines = [ascii "loading", ascii "listening"] := by
  have hlively : twoLines.Lively maxConsecutiveEmptyReads :=
    Source.lively_of_length_lt (by decide)
  have hfits : ∀ line ∈ splitAfter 10 twoLines.stream, Fits line := by decide +kernel
  rw [(consumeChildLog_eq_iff twoLines hlively).2 fun line hline => .inl (hfits line hline)]
  decide +kernel

/-- The report of a second GPU. -/
def countReport : Bytes := ascii "ggml_cuda_init: found 2 CUDA devices:"

/-- A line of the child that is longer than the buffer and ends with such a report. -/
def overlongLine : Source UInt8 :=
  ⟨[List.replicate maximumLogFragmentBytes 120 ++ countReport ++ [10]], false⟩

theorem notMem_overlongLine : 10 ∉ List.replicate maximumLogFragmentBytes 120 ++ countReport := by
  have hreport : 10 ∉ countReport := by decide +kernel
  rw [List.mem_append, not_or]
  exact ⟨fun hmem => absurd (List.eq_of_mem_replicate hmem) (by decide), hreport⟩

theorem lively_overlongLine : overlongLine.Lively maxConsecutiveEmptyReads :=
  Source.lively_of_length_lt (by decide)

theorem splitAfter_overlongLine : splitAfter 10 overlongLine.stream =
    [List.replicate maximumLogFragmentBytes 120 ++ countReport ++ [10]] := by
  have hstream : overlongLine.stream =
      List.replicate maximumLogFragmentBytes 120 ++ countReport ++ 10 :: [] := List.append_nil _
  rw [hstream, splitAfter_append_cons notMem_overlongLine, splitAfter]

/-- **The end of a longer line is taken for a line**, and counted as a report of two GPUs. -/
theorem consumeChildLog_overlong :
    overlongLine.Lively maxConsecutiveEmptyReads ∧ framedLines overlongLine.stream = [] ∧
      consumeChildLog overlongLine = [countReport] ∧
      (observeLines acceleratorConfig (consumeChildLog overlongLine)).runtime.visibleAccelerators =
        some 2 := by
  have hpassed : consumeChildLog overlongLine = [countReport] := by
    classical
    have hstream : (newReader overlongLine).stream = overlongLine.stream := List.nil_append _
    rw [consumeChildLog, consumeFrom_eq (steady_newReader lively_overlongLine), hstream,
      splitAfter_overlongLine, List.flatMap_singleton, passed, if_neg (by simp), List.append_assoc,
      lastBlock_append maximumLogFragmentBytes_pos List.length_replicate (by simp)]
    decide +kernel
  refine ⟨lively_overlongLine, ?_, hpassed, ?_⟩
  · have hfits : ¬Fits (List.replicate maximumLogFragmentBytes 120 ++ countReport ++ [10]) := by
      have hlength : (List.replicate maximumLogFragmentBytes 120 ++ countReport ++ [10]).length =
          maximumLogFragmentBytes + countReport.length + 1 := by
        rw [List.length_append, List.length_append, List.length_replicate, List.length_singleton]
      rintro (⟨-, hle⟩ | ⟨-, hlt⟩) <;> omega
    rw [framedLines, splitAfter_overlongLine, List.filter_cons_of_neg (by simpa using hfits),
      List.filter_nil, List.map_nil]
  · rw [hpassed]
    decide +kernel

end Kama.Runtime
