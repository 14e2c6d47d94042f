import Kama.Artifact.Accepted

/-!
# Reading GGUF from a stream

`parseGGUF` of `gguf.go` reads through an `io.Reader`, which may deliver what it has in pieces of
any size, and counts the bytes on the way. Where the reader cannot seek, the size of the file is
what was counted after reading to the end.

* `Source` is such a reader, `CountingReader` the source's own one over it, from which `io.ReadFull`
  reads. The functions of the parser are those of `Kama.Artifact.Gguf`, over this reader.
* `Simulates`: a function over the bytes that are left and one over the reader have the same
  results. `simulates_readFull` is where the pieces are put together again; every other function
  follows with `Simulates.bind`.
* `parseGGUF_eq`: the verdict on a source is that of `Gguf.parseGGUF` on its content.
-/

namespace Kama.Artifact.Gguf.Io

open Bytes Json Reader

/-! ## Readers -/

/-- An `io.Reader` over a byte string, which has the length of a Go string. -/
structure Source where
  content : Bytes
  offset : Nat
  /-- it is an `io.Seeker` as well -/
  seekable : Bool
  /-- by the number of the call: how many bytes besides one it returns at most, and whether the end
  is reported together with the last bytes -/
  chunks : Nat → Nat × Bool
  calls : Nat
  offset_le : offset ≤ content.length
  length_lt : content.length < 2 ^ 63

namespace Source

def rest (s : Source) : Bytes := s.content.drop s.offset

/-- The bytes that the next call returns for a buffer of this size. -/
def next (s : Source) (size : Nat) : Bytes := s.rest.take (min size ((s.chunks s.calls).1 + 1))

theorem offset_next_le (s : Source) (size : Nat) :
    s.offset + (s.next size).length ≤ s.content.length := by
  have hle := s.offset_le
  rw [next, rest, List.length_take, List.length_drop]
  omega

/-- `Read`: the bytes, and whether `io.EOF` came with them. -/
def read (s : Source) (size : Nat) : (Bytes × Bool) × Source :=
  let after : Source :=
    { s with
      offset := s.offset + (s.next size).length
      calls := s.calls + 1
      offset_le := s.offset_next_le size }
  ((s.next size, s.rest.isEmpty || (s.chunks s.calls).2 && after.rest.isEmpty), after)

/-- `Seek(0, io.SeekEnd)`. -/
def seekEnd (s : Source) : Nat × Source :=
  (s.content.length, { s with offset := s.content.length, offset_le := Nat.le_refl _ })

/-- `Seek(offset, io.SeekStart)`, to an offset that `Seek` has returned. -/
def seekStart (s : Source) (offset : Nat) : Source :=
  { s with offset := min offset s.content.length, offset_le := Nat.min_le_right _ _ }

end Source

structure CountingReader where
  reader : Source
  count : Nat
  overflow : Bool

def CountingReader.read (c : CountingReader) (size : Nat) : (Bytes × Bool) × CountingReader :=
  let (answer, reader) := c.reader.read size
  if maxUint64 - c.count < answer.1.length then (answer, ⟨reader, c.count, true⟩)
  else (answer, ⟨reader, c.count + answer.1.length, c.overflow⟩)

/-- The loop of `io.ReadAtLeast`. A call that does not report the end returns a byte, so that as
many calls as bytes are missing are enough. -/
def fill : Nat → Nat → CountingReader → Bytes × CountingReader
  | 0, _, c => ([], c)
  | fuel + 1, missing, c =>
    if missing = 0 then ([], c)
    else
      let ((bytes, eof), c) := c.read missing
      if eof then (bytes, c)
      else
        let (more, c) := fill fuel (missing - bytes.length) c
        (bytes ++ more, c)

/-- `io.ReadFull`. -/
instance : ReadsFull CountingReader where
  readFull n c :=
    let (bytes, c) := fill n n c
    if n ≤ bytes.length then .ok (bytes, c)
    else .error (if bytes = [] then eof else unexpectedEOF)

theorem readFull_counting (n : Nat) (c : CountingReader) : readFull n c =
    if n ≤ (fill n n c).1.length then .ok (fill n n c)
    else .error (if (fill n n c).1 = [] then eof else unexpectedEOF) :=
  rfl

/-! ## The parser -/

/-- `io.Copy(io.Discard, counted)`, with the buffer of `io.Discard`. A call that does not report the
end returns a byte. -/
def drain : Nat → CountingReader → CountingReader
  | 0, c => c
  | fuel + 1, c =>
    let ((_, eof), c) := c.read 8192
    if eof then c else drain fuel c

def ggufReaderSize : Read CountingReader Nat := fun c =>
  if c.reader.seekable then
    let current := c.reader.offset
    let (stop, reader) := c.reader.seekEnd
    .ok (stop, { c with reader := reader.seekStart current })
  else
    let c := drain (c.reader.rest.length + 1) c
    if c.overflow then .error (.new "GGUF size overflows") else .ok (c.count, c)

/-- `parseGGUF` of a reader. -/
def parseGGUF (reader : Source) : Except Err Document := do
  let ((document, tensors), counted) ← readDocument ⟨reader, 0, false⟩
  if tensors = [] then pure document
  else
    match alignUint64 counted.count document.alignment with
    | none => throw (.new "GGUF data offset overflows")
    | some dataStart =>
      let (fileSize, _) ← ggufReaderSize counted
      checkTensors dataStart fileSize 0 (sortTensors tensors)
      pure document

/-! ## Simulation -/

/-- The reader has counted what it delivered of the source, and `s` is left. -/
structure At (source : Source) (c : CountingReader) (s : Bytes) : Prop where
  content : c.reader.content = source.content
  seekable : c.reader.seekable = source.seekable
  rest : c.reader.rest = s
  count : c.count = c.reader.offset
  overflow : c.overflow = false

/-- What one call delivers: the first bytes of what is left, all of it when the end is reported and
some of it otherwise. -/
theorem At.read {source : Source} {c : CountingReader} {s : Bytes} (h : At source c s) {size : Nat}
    (hsize : 0 < size) : ∃ n eof c', n ≤ size ∧ c.read size = ((s.take n, eof), c') ∧
      At source c' (s.drop n) ∧ (eof = true → s.drop n = []) ∧ (eof = false → s.take n ≠ []) := by
  obtain ⟨reader, count, overflow⟩ := c
  obtain ⟨hcontent, hseekable, hrest, hcount, hoverflow⟩ := h
  dsimp only at hcontent hseekable hrest hcount hoverflow
  subst hcount hoverflow hrest
  have hfits : ¬ maxUint64 - reader.offset < (reader.next size).length := by
    have hle := reader.offset_next_le size
    have hlt := reader.length_lt
    unfold maxUint64
    omega
  have hafter : (reader.read size).2.rest =
      reader.rest.drop (min size ((reader.chunks reader.calls).1 + 1)) := by
    have hoffset : (reader.read size).2.rest = reader.rest.drop (reader.next size).length := by
      rw [Source.rest, Source.rest, List.drop_drop]
      rfl
    rw [hoffset, Source.next, List.length_take]
    rcases Nat.le_total (min size ((reader.chunks reader.calls).1 + 1)) reader.rest.length with
      hle | hle
    · rw [Nat.min_eq_left hle]
    · rw [Nat.min_eq_right hle, List.drop_length, List.drop_of_length_le hle]
  refine ⟨min size ((reader.chunks reader.calls).1 + 1), (reader.read size).1.2,
    ⟨(reader.read size).2, reader.offset + (reader.next size).length, false⟩, Nat.min_le_left _ _,
    if_neg hfits, ⟨hcontent, hseekable, hafter, rfl, rfl⟩, fun heof => ?_, fun heof => ?_⟩
  · have hcases : reader.rest = [] ∨ (reader.read size).2.rest = [] := by
      simp only [Source.read, Bool.or_eq_true, Bool.and_eq_true, List.isEmpty_iff] at heof
      exact heof.imp id And.right
    rcases hcases with hempty | hempty
    · rw [hempty, List.drop_nil]
    · rw [← hafter, hempty]
  · have hne : reader.rest ≠ [] := by
      simp only [Source.read, Bool.or_eq_false_iff, List.isEmpty_eq_false_iff] at heof
      exact heof.1
    rw [ne_eq, List.take_eq_nil_iff, not_or]
    exact ⟨by omega, hne⟩

/-- **Pieces add up.** -/
theorem At.fill {source : Source} {c : CountingReader} {s : Bytes} (h : At source c s)
    {fuel missing : Nat} (hfuel : missing ≤ fuel) :
    ∃ c', fill fuel missing c = (s.take missing, c') ∧ At source c' (s.drop missing) := by
  induction fuel generalizing c s missing with
  | zero =>
    obtain rfl := Nat.le_zero.1 hfuel
    exact ⟨c, rfl, h⟩
  | succ fuel ih =>
    rw [Io.fill]
    split
    · rename_i hzero
      rw [hzero]
      exact ⟨c, rfl, h⟩
    rename_i hpos
    obtain ⟨n, eof, c', hn, hread, hat, hend, hmore⟩ := h.read (Nat.pos_of_ne_zero hpos)
    rw [hread]
    dsimp only
    cases eof with
    | true =>
      have hlength : s.length ≤ n := List.drop_eq_nil_iff.1 (hend rfl)
      refine ⟨c', ?_, ?_⟩
      · rw [if_pos rfl, List.take_of_length_le hlength, List.take_of_length_le (by omega)]
      · rw [List.drop_of_length_le (by omega : s.length ≤ missing), ← hend rfl]
        exact hat
    | false =>
      have hpositive : 0 < (s.take n).length := List.length_pos_iff.2 (hmore rfl)
      rw [List.length_take] at hpositive
      have hleft : missing - (s.take n).length ≤ fuel := by
        rw [List.length_take]
        omega
      obtain ⟨c'', hfill, hat'⟩ := ih hat hleft
      rw [if_neg Bool.false_ne_true, hfill]
      refine ⟨c'', ?_, ?_⟩
      · refine congrArg (·, c'') ?_
        rcases Nat.le_total n s.length with hle | hle
        · rw [List.length_take, Nat.min_eq_left hle, ← List.take_add]
          congr 1
          omega
        · rw [List.drop_of_length_le hle, List.take_nil, List.append_nil,
            List.take_of_length_le hle, List.take_of_length_le (by omega)]
      · have hdrop : (s.drop n).drop (missing - (s.take n).length) = s.drop missing := by
          rcases Nat.le_total n s.length with hle | hle
          · rw [List.length_take, Nat.min_eq_left hle, List.drop_drop]
            congr 1
            omega
          · rw [List.drop_of_length_le hle, List.drop_nil, List.drop_of_length_le (by omega)]
        exact hdrop ▸ hat'

/-- Over a source, `y` returns what `x` returns on the bytes that are left. -/
def Simulates {α : Type} (source : Source) (x : Read Bytes α) (y : Read CountingReader α) : Prop :=
  ∀ c s, At source c s →
    (∃ a s' c', x s = .ok (a, s') ∧ y c = .ok (a, c') ∧ At source c' s') ∨
      ∃ e, x s = .error e ∧ y c = .error e

section Rules

variable {source : Source} {α β : Type} {x : Read Bytes α} {y : Read CountingReader α}

namespace Simulates

theorem pure (a : α) : Simulates source (pure a) (pure a) :=
  fun c s h => .inl ⟨a, s, c, rfl, rfl, h⟩

theorem fail (e : Err) : Simulates source (throw e : Read Bytes α) (throw e) :=
  fun _ _ _ => .inr ⟨e, rfl, rfl⟩

theorem bind {f : α → Read Bytes β} {g : α → Read CountingReader β} (h : Simulates source x y)
    (hf : ∀ a, Simulates source (f a) (g a)) : Simulates source (x >>= f) (y >>= g) := by
  intro c s hat
  have hrun : (y >>= g) c = (y c >>= fun r => g r.1 r.2) := rfl
  rcases h c s hat with ⟨a, s', c', hx, hy, hat'⟩ | ⟨e, hx, hy⟩
  · rw [bind_of_ok hx, hrun, hy]
    exact hf a c' s' hat'
  · rw [bind_of_error hx, hrun, hy]
    exact .inr ⟨e, rfl, rfl⟩

theorem refuse {p : Prop} [Decidable p] {e : Err} (h : Simulates source x y) :
    Simulates source
      (do
        if p then throw e
        x)
      (do
        if p then throw e
        y) := by
  by_cases hp : p
  · simp only [hp, if_true]
    exact bind (fail e) fun _ => h
  · simp only [hp, if_false]
    exact bind (pure ()) fun _ => h

theorem context (h : Simulates source x y) (format : String) (arguments : List Bytes) :
    Simulates source (Gguf.context format arguments x) (Gguf.context format arguments y) := by
  intro c s hat
  rcases h c s hat with ⟨a, s', c', hx, hy, hat'⟩ | ⟨e, hx, hy⟩
  · refine .inl ⟨a, s', c', ?_, ?_, hat'⟩
    · rw [Gguf.context, hx]
      rfl
    · rw [Gguf.context, hy]
      rfl
  · refine .inr ⟨.wrap format arguments e, ?_, ?_⟩
    · rw [Gguf.context, hx]
      rfl
    · rw [Gguf.context, hy]
      rfl

theorem lift (r : Except Err α) : Simulates source (StateT.lift r) (StateT.lift r) := by
  intro c s hat
  cases r with
  | error e => exact .inr ⟨e, rfl, rfl⟩
  | ok a => exact .inl ⟨a, s, c, rfl, rfl, hat⟩

end Simulates

theorem simulates_readFull (n : Nat) : Simulates source (readFull n) (readFull n) := by
  intro c s hat
  obtain ⟨c', hfill, hat'⟩ := hat.fill (Nat.le_refl n)
  rw [readFull_counting, hfill, readFull_bytes]
  dsimp only
  rcases Nat.lt_or_ge s.length n with hlt | hge
  · have hall : s.take n = s := List.take_of_length_le (Nat.le_of_lt hlt)
    rw [hall, if_neg (Nat.not_le.2 hlt), if_neg (Nat.not_le.2 hlt)]
    exact .inr ⟨_, rfl, rfl⟩
  · have hlength : n ≤ (s.take n).length := by
      rw [List.length_take]
      omega
    rw [if_pos hge, if_pos hlength]
    exact .inl ⟨_, _, c', rfl, rfl, hat'⟩

end Rules

/-! ## The functions of the parser -/

section Parser

variable {source : Source}

theorem simulates_readUint (n : Nat) : Simulates source (readUint n) (readUint n) :=
  (simulates_readFull n).bind fun _ => .pure _

theorem simulates_readInt (n : Nat) : Simulates source (readInt n) (readInt n) :=
  (simulates_readUint n).bind fun _ => .pure _

theorem simulates_readString : Simulates source readString readString :=
  (simulates_readUint 8).bind fun length => .refuse (simulates_readFull length)

theorem simulates_times {x : Read Bytes Unit} {y : Read CountingReader Unit}
    (h : Simulates source x y) (n : Nat) : Simulates source (times n x) (times n y) := by
  induction n with
  | zero => exact .pure ()
  | succ n ih => exact h.bind fun _ => ih

theorem simulates_readValue (fuel valueType : Nat) :
    Simulates source (readValue fuel valueType) (readValue fuel valueType) := by
  induction fuel generalizing valueType with
  | zero => exact .fail _
  | succ fuel ih =>
    unfold readValue
    split
    case h_7 | h_13 => exact (simulates_readFull _).bind fun _ => .pure _
    case h_8 => exact (simulates_readUint 1).bind fun _ => .refuse (.pure _)
    case h_9 => exact simulates_readString.bind fun _ => .pure _
    case h_10 =>
      refine (simulates_readUint 4).bind fun elementType => ?_
      refine (simulates_readUint 8).bind fun count => .refuse ?_
      have helement := (ih elementType).bind fun _ => Simulates.pure ()
      exact (simulates_times helement count).bind fun _ => .pure _
    case h_14 => exact .fail _
    all_goals first
      | exact (simulates_readUint _).bind fun _ => .pure _
      | exact (simulates_readInt _).bind fun _ => .pure _

theorem simulates_readMetadata (count : Nat) (document : Document) :
    Simulates source (readMetadata count document) (readMetadata count document) := by
  induction count generalizing document with
  | zero => exact .pure _
  | succ count ih =>
    refine (simulates_readString.context _ _).bind fun key => ?_
    refine ((simulates_readUint 4).context _ _).bind fun valueType => ?_
    refine ((simulates_readValue 5 valueType).context _ _).bind fun value => ?_
    exact ih (document.record key value)

theorem simulates_readShape (name : Bytes) (n : Nat) :
    Simulates source (readShape name n) (readShape name n) := by
  induction n with
  | zero => exact .pure _
  | succ n ih =>
    refine ((simulates_readUint 8).context _ _).bind fun dimension => .refuse ?_
    exact ih.bind fun _ => .pure _

theorem simulates_readTensor (alignment : Nat) (names : List Bytes) :
    Simulates source (readTensor alignment names) (readTensor alignment names) := by
  refine (simulates_readString.context _ _).bind fun name => .refuse (.refuse ?_)
  refine ((simulates_readUint 4).context _ _).bind fun dimensions => .refuse ?_
  refine (simulates_readShape name dimensions).bind fun shape => ?_
  refine ((simulates_readUint 4).context _ _).bind fun tensorType => ?_
  refine ((simulates_readUint 8).context _ _).bind fun offset => .refuse ?_
  exact (Simulates.lift _).bind fun _ => .pure _

theorem simulates_readTensors (alignment count : Nat) (tensors : List Tensor) :
    Simulates source (readTensors alignment count tensors)
      (readTensors alignment count tensors) := by
  induction count generalizing tensors with
  | zero => exact .pure _
  | succ count ih => exact (simulates_readTensor alignment _).bind fun _ => ih _

theorem simulates_readHeader : Simulates source readHeader readHeader := by
  refine ((simulates_readFull 4).context _ _).bind fun magic => .refuse ?_
  refine ((simulates_readUint 4).context _ _).bind fun version => .refuse ?_
  refine ((simulates_readUint 8).context _ _).bind fun tensorCount => .refuse ?_
  exact ((simulates_readUint 8).context _ _).bind fun metadataCount => .refuse (.pure _)

theorem simulates_readDocument : Simulates source readDocument readDocument := by
  refine simulates_readHeader.bind fun header => ?_
  refine (simulates_readMetadata header.2 header.1).bind fun document => .refuse ?_
  exact (simulates_readTensors _ _ _).bind fun _ => .pure _

theorem At.offset {c : CountingReader} {s : Bytes} (h : At source c s) :
    c.count = source.content.length - s.length := by
  have hle := c.reader.offset_le
  have hlength := congrArg List.length h.rest
  rw [Source.rest, List.length_drop] at hlength
  rw [← h.content, h.count]
  omega

/-- After reading to the end, all of the source has been counted. -/
theorem At.drain {c : CountingReader} {s : Bytes} (h : At source c s) {fuel : Nat}
    (hfuel : s.length < fuel) : At source (drain fuel c) [] := by
  induction fuel generalizing c s with
  | zero => omega
  | succ fuel ih =>
    obtain ⟨n, eof, c', -, hread, hat, hend, hmore⟩ := h.read (by decide : 0 < 8192)
    rw [Io.drain, hread]
    dsimp only
    cases eof with
    | true =>
      rw [if_pos rfl, ← hend rfl]
      exact hat
    | false =>
      have hpositive : 0 < (s.take n).length := List.length_pos_iff.2 (hmore rfl)
      rw [List.length_take] at hpositive
      rw [if_neg Bool.false_ne_true]
      exact ih hat (by rw [List.length_drop]; omega)

theorem At.size {c : CountingReader} {s : Bytes} (h : At source c s) :
    ∃ c', ggufReaderSize c = .ok (source.content.length, c') := by
  unfold ggufReaderSize
  split
  · refine ⟨{ c with reader := c.reader.seekEnd.2.seekStart c.reader.offset }, ?_⟩
    exact congrArg (fun size => Except.ok (size, _)) (congrArg List.length h.content)
  · have hfuel : s.length < c.reader.rest.length + 1 := by
      rw [h.rest]
      omega
    have hdrained := h.drain hfuel
    have hcount := hdrained.offset
    rw [List.length_nil, Nat.sub_zero] at hcount
    dsimp only
    rw [hdrained.overflow, hcount]
    exact ⟨_, rfl⟩

end Parser

/-- **The verdict on a reader is that on its content**, however it delivers it. -/
theorem parseGGUF_eq (source : Source) (hstart : source.offset = 0) :
    parseGGUF source = Gguf.parseGGUF source.content := by
  have hrest : source.rest = source.content := by
    rw [Source.rest, hstart, List.drop_zero]
  have hat : At source ⟨source, 0, false⟩ source.content := ⟨rfl, rfl, hrest, hstart.symm, rfl⟩
  unfold parseGGUF Gguf.parseGGUF
  rcases simulates_readDocument _ _ hat with ⟨d, s, c, hx, hy, hat'⟩ | ⟨e, hx, hy⟩
  · obtain ⟨document, tensors⟩ := d
    obtain ⟨c', hsize⟩ := hat'.size
    rw [hx, hy]
    dsimp only [bind, Except.bind]
    rw [hat'.offset]
    exact hsize ▸ rfl
  · rw [hx, hy]
    rfl

/-- **Streams and files are read alike.** -/
theorem parseGGUF_stream (content : Bytes) (hlength : content.length < 2 ^ 63)
    (chunks chunks' : Nat → Nat × Bool) :
    parseGGUF ⟨content, 0, false, chunks, 0, Nat.zero_le _, hlength⟩ =
      parseGGUF ⟨content, 0, true, chunks', 0, Nat.zero_le _, hlength⟩ := by
  rw [parseGGUF_eq _ rfl, parseGGUF_eq _ rfl]

/-- A stream that delivers two bytes at a time, and the end with the last of them. -/
def pairwiseChunks : Nat → Nat × Bool := fun _ => (1, true)

theorem length_sampleFile_lt : sampleFile.length < 2 ^ 63 := by decide +kernel

theorem parseGGUF_stream_sample :
    parseGGUF ⟨sampleFile, 0, false, pairwiseChunks, 0, Nat.zero_le _, length_sampleFile_lt⟩ =
      parseGGUF ⟨sampleFile, 0, true, fun _ => (4095, false), 0, Nat.zero_le _,
        length_sampleFile_lt⟩ :=
  parseGGUF_stream sampleFile length_sampleFile_lt pairwiseChunks fun _ => (4095, false)

end Kama.Artifact.Gguf.Io
