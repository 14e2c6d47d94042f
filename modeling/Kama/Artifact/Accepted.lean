import Mathlib.Order.CompletePartialOrder
import Mathlib.Order.Interval.Set.Disjoint
import Kama.Foundations.Reader
import Kama.Artifact.Gguf

/-!
# What the GGUF parser accepts

A file is accepted for its header alone and for the size of the file. `Entry` is one line of the
tensor table as it stands in the file, with its size as a number that never wraps.

* `readDocument` never looks past what it takes (`parses_readDocument`), and the tensor table it
  returns is the one that stands in the file;
* `checkTensors` accepts exactly the tables whose data is in order and within the file
  (`checkTensors_ok`).

From these follow what an accepted file looks like and which truncations and extensions of it are
accepted.
-/

namespace Kama.Artifact.Gguf

open Bytes Reader

/-! ## Numbers and strings -/

/-- An unsigned number as `n` bytes, the least significant first. -/
def uintBytes : Nat → Nat → Bytes
  | 0, _ => []
  | n + 1, value => UInt8.ofNat (value % 256) :: uintBytes n (value / 256)

theorem uintBytes_littleEndian (c : Bytes) : uintBytes c.length (littleEndian c) = c := by
  induction c with
  | nil => rfl
  | cons b bs ih =>
    have hb := b.toNat_lt
    have hmod : (b.toNat + 256 * littleEndian bs) % 256 = b.toNat := by omega
    have hdiv : (b.toNat + 256 * littleEndian bs) / 256 = littleEndian bs := by omega
    simp only [List.length_cons, littleEndian, uintBytes, hmod, hdiv, ih, UInt8.ofNat_toNat]

theorem littleEndian_lt (c : Bytes) : littleEndian c < 256 ^ c.length := by
  induction c with
  | nil => simp [littleEndian]
  | cons b bs ih =>
    have hb := b.toNat_lt
    rw [littleEndian, List.length_cons, Nat.pow_succ]
    omega

theorem parses_readFull (n : Nat) : Parses (readFull n) fun c a => c = a ∧ a.length = n := by
  intro s a rest hs
  simp only [readFull_bytes] at hs
  split at hs
  case isFalse => cases hs
  case isTrue hn =>
    cases hs
    have hlen : (s.take n).length = n := by simp [hn]
    refine ⟨s.take n, (List.take_append_drop n s).symm, ⟨fun rest => ?_, fun d e hd he => ?_⟩,
      rfl, hlen⟩
    · simp only [readFull_bytes, List.length_append, hlen, Nat.le_add_right, if_true,
        List.take_left' hlen, List.drop_left' hlen]
    · have hshort : ¬n ≤ d.length := by
        have := congrArg List.length hd
        have := List.length_pos_iff.2 he
        rw [List.length_append, hlen] at *
        omega
      exact ⟨_, by rw [readFull_bytes, if_neg hshort]⟩

theorem parses_readUint (n : Nat) :
    Parses (readUint n) fun c a => c = uintBytes n a ∧ a < 256 ^ n := by
  refine (parses_readFull n).bind ?_
  rintro c a ⟨rfl, rfl⟩
  refine .pure ⟨?_, littleEndian_lt c⟩
  rw [List.append_nil, uintBytes_littleEndian]

theorem parses_context {α : Type} {r : Read Bytes α} {P : Bytes → α → Prop} (h : Parses r P)
    (format : String) (arguments : List Bytes) : Parses (context format arguments r) P := by
  intro s a rest hs
  have hr : r s = .ok (a, rest) := by
    cases hr : r s with
    | error e => simp only [context, hr] at hs; cases hs
    | ok x => simp only [context, hr] at hs; cases hs; rfl
  obtain ⟨c, rfl, ht, hp⟩ := h hr
  refine ⟨c, rfl, ⟨fun rest => ?_, fun d e hd he => ?_⟩, hp⟩
  · rw [context, ht.exact]
    rfl
  · obtain ⟨err, herr⟩ := ht.short d e hd he
    exact ⟨_, by rw [context, herr]; rfl⟩

theorem parses_readString :
    Parses readString fun c a => c = uintBytes 8 a.length ++ a := by
  refine (parses_readUint 8).bind ?_
  rintro c length ⟨rfl, -⟩
  refine .refuse fun _ => (parses_readFull length).mono ?_
  rintro c a ⟨rfl, rfl⟩
  rfl

/-! ## Metadata -/

theorem parses_then_pure {α β : Type} {r : Read Bytes α} {P : Bytes → α → Prop} (h : Parses r P)
    (f : α → β) : Parses (r >>= fun a => pure (f a)) fun _ _ => True :=
  h.bind fun _ _ _ => .pure trivial

theorem parses_times {r : Read Bytes Unit} (h : Parses r fun _ _ => True) (n : Nat) :
    Parses (times n r) fun _ _ => True := by
  induction n with
  | zero => exact .pure trivial
  | succ n ih => exact h.bind fun _ _ _ => ih

theorem parses_readInt (n : Nat) : Parses (readInt n) fun (_ : Bytes) _ => True :=
  parses_then_pure (parses_readUint n) _

theorem parses_readValue (fuel valueType : Nat) :
    Parses (readValue fuel valueType) fun (_ : Bytes) _ => True := by
  induction fuel generalizing valueType with
  | zero => exact .fail _
  | succ fuel ih =>
    unfold readValue
    split
    case h_7 | h_13 => exact parses_then_pure (parses_readFull _) _
    case h_8 =>
      refine (parses_readUint 1).bind fun _ value _ => .refuse fun _ => .pure trivial
    case h_9 => exact parses_then_pure parses_readString _
    case h_10 =>
      refine (parses_readUint 4).bind fun _ elementType _ => ?_
      refine (parses_readUint 8).bind fun _ count _ => .refuse fun _ => ?_
      have helement : Parses (do let _ ← readValue fuel elementType) fun _ _ => True :=
        parses_then_pure (ih elementType) _
      exact (parses_times helement count).bind fun _ _ _ => .pure trivial
    case h_14 => exact .fail _
    all_goals first
      | exact parses_then_pure (parses_readUint _) _
      | exact parses_then_pure (parses_readInt _) _

theorem Document.record_tensorCount (document : Document) (key : Bytes) (value : Value) :
    (document.record key value).tensorCount = document.tensorCount := by
  unfold Document.record
  split_ifs <;> split <;> rfl

theorem parses_readMetadata (count : Nat) (document : Document) :
    Parses (readMetadata count document) fun (_ : Bytes) d =>
      d.tensorCount = document.tensorCount := by
  induction count generalizing document with
  | zero => exact .pure rfl
  | succ count ih =>
    refine (parses_context parses_readString _ _).bind fun _ key _ => ?_
    refine (parses_context (parses_readUint 4) _ _).bind fun _ valueType _ => ?_
    refine (parses_context (parses_readValue 5 valueType) _ _).bind fun _ value _ => ?_
    refine (ih (document.record key value)).mono fun _ d hd => ?_
    rw [hd, Document.record_tensorCount]

/-! ## The tensor table -/

/-- One line of the tensor table, as it stands in the file. -/
structure Entry where
  name : Bytes
  shape : List Nat
  tensorType : Nat
  offset : Nat
  deriving DecidableEq, Repr

namespace Entry

def bytes (e : Entry) : Bytes :=
  uintBytes 8 e.name.length ++ e.name ++ uintBytes 4 e.shape.length ++
    e.shape.flatMap (uintBytes 8) ++ uintBytes 4 e.tensorType ++ uintBytes 8 e.offset

/-- The elements and bytes of a block of this tensor. -/
def block (e : Entry) : Nat × Nat := (blocks.lookup e.tensorType).getD (0, 0)

/-- The number of elements over the elements of a block, times the bytes of a block. -/
def size (e : Entry) : Nat := e.shape.prod / e.block.1 * e.block.2

def tensor (e : Entry) : Tensor := ⟨e.name, e.offset, e.size⟩

theorem tensor_name (e : Entry) : e.tensor.name = e.name := rfl

@[simp] theorem tensor_offset (e : Entry) : e.tensor.offset = e.offset := rfl

@[simp] theorem tensor_size (e : Entry) : e.tensor.size = e.size := rfl

/-- The bytes of the file that hold the tensor, for tensor data from `start` on. -/
def range (start : Nat) (e : Entry) : Set Nat :=
  Set.Ico (start + e.offset) (start + e.offset + e.size)

end Entry

/-- What one line of an accepted tensor table satisfies by itself. -/
structure Entry.Valid (alignment : Nat) (e : Entry) : Prop where
  name_pos : 1 ≤ e.name.length
  name_le : e.name.length ≤ 64
  name_utf8 : Utf8.validString e.name = true
  shape_bounds : ∀ dimension ∈ e.shape, 0 < dimension ∧ dimension ≤ maxUint64
  shape_length : 1 ≤ e.shape.length ∧ e.shape.length ≤ 4
  type_le : e.tensorType ≤ maxUint32
  offset_le : e.offset ≤ maxUint64
  block_mem : (e.tensorType, e.block) ∈ blocks
  /-- the first dimension is a whole number of blocks -/
  block_dvd : e.block.1 ∣ e.shape.headD 0
  aligned : alignment ∣ e.offset
  size_pos : 0 < e.size
  size_le : e.size ≤ maxUint64

theorem block_pos : ∀ b ∈ blocks, 0 < b.2.1 ∧ 0 < b.2.2 := by
  decide

/-- The count of blocks never wraps: each product is checked before it is taken. -/
theorem countBlocks_ok {n k : Nat} {shape : List Nat} (hn : 0 < n) (hmax : n ≤ maxUint64)
    (hshape : ∀ d ∈ shape, 0 < d) (h : countBlocks n shape = .ok k) :
    k = n * shape.prod ∧ 0 < k ∧ k ≤ maxUint64 := by
  induction shape generalizing n with
  | nil =>
    cases h
    exact ⟨by simp, hn, hmax⟩
  | cons d rest ih =>
    rw [countBlocks] at h
    split at h
    case isTrue => cases h
    case isFalse hd =>
      have hle : n * d ≤ maxUint64 := by
        have := (Nat.le_div_iff_mul_le hn).1 (Nat.le_of_not_lt hd)
        rwa [Nat.mul_comm]
      have hmod : n * d % 2 ^ 64 = n * d := Nat.mod_eq_of_lt (by unfold maxUint64 at hle; omega)
      rw [hmod] at h
      have hpos : 0 < n * d := Nat.mul_pos hn (hshape d List.mem_cons_self)
      obtain ⟨hk, hk'⟩ := ih hpos hle (fun x hx => hshape x (List.mem_cons_of_mem _ hx)) h
      exact ⟨by rw [hk, List.prod_cons, Nat.mul_assoc], hk'⟩

theorem ggmlTensorSize_ok {e : Entry} {size : Nat} (hshape : ∀ d ∈ e.shape, 0 < d ∧ d ≤ maxUint64)
    (hlen : 1 ≤ e.shape.length) (h : ggmlTensorSize e.tensorType e.shape = .ok size) :
    size = e.size ∧ (e.tensorType, e.block) ∈ blocks ∧ e.block.1 ∣ e.shape.headD 0 ∧
      0 < size ∧ size ≤ maxUint64 := by
  obtain ⟨first, rest, hs⟩ : ∃ first rest, e.shape = first :: rest :=
    List.exists_cons_of_length_pos hlen
  rw [ggmlTensorSize, hs] at h
  cases hb : blocks.lookup e.tensorType with
  | none => rw [hb] at h; cases h
  | some b =>
    obtain ⟨elements, bytes⟩ := b
    have hblock : e.block = (elements, bytes) := by rw [Entry.block, hb]; rfl
    have hmem : (e.tensorType, elements, bytes) ∈ blocks := by
      obtain ⟨l, l', hl, -⟩ := List.lookup_eq_some_iff.1 hb
      rw [hl]
      simp
    obtain ⟨helements, hbytes⟩ := block_pos _ hmem
    simp only [hb, List.headD_cons, List.tail_cons] at h
    obtain ⟨hmod, h⟩ := except_refuse_eq_ok.1 h
    obtain ⟨n, hn, h⟩ := except_bind_eq_ok.1 h
    obtain ⟨hle, h⟩ := except_refuse_eq_ok.1 h
    cases h
    have hdvd : elements ∣ first := Nat.dvd_of_mod_eq_zero (not_not.1 hmod)
    obtain ⟨hfirst, hmax⟩ := hshape first (by rw [hs]; exact List.mem_cons_self)
    obtain ⟨hn, hpos, -⟩ := countBlocks_ok (Nat.div_pos (Nat.le_of_dvd hfirst hdvd) helements)
      ((Nat.div_le_self _ _).trans hmax)
      (fun d hd => (hshape d (by rw [hs]; exact List.mem_cons_of_mem _ hd)).1) hn
    have hsize : n * bytes ≤ maxUint64 := by
      have := (Nat.le_div_iff_mul_le hbytes).1 (Nat.le_of_not_lt hle)
      exact this
    have hwrap : n * bytes % 2 ^ 64 = n * bytes :=
      Nat.mod_eq_of_lt (by unfold maxUint64 at hsize; omega)
    have hprod : e.shape.prod / elements = n := by
      rw [hs, List.prod_cons, hn, ← Nat.mul_div_right_comm hdvd]
    rw [hwrap, Entry.size, hblock, hprod, hs]
    exact ⟨rfl, hmem, hdvd, Nat.mul_pos hpos hbytes, hsize⟩

theorem parses_readShape (name : Bytes) (n : Nat) :
    Parses (readShape name n) fun c shape => c = shape.flatMap (uintBytes 8) ∧
      shape.length = n ∧ ∀ d ∈ shape, 0 < d ∧ d ≤ maxUint64 := by
  induction n with
  | zero => exact .pure ⟨rfl, rfl, by simp⟩
  | succ n ih =>
    refine (parses_context (parses_readUint 8) _ _).bind ?_
    rintro c dimension ⟨rfl, hlt⟩
    refine .refuse fun hpos => ih.bind ?_
    rintro c shape ⟨rfl, rfl, hshape⟩
    refine .pure ⟨by simp, rfl, ?_⟩
    have hmax : dimension ≤ maxUint64 := by
      unfold maxUint64
      omega
    simpa using ⟨⟨Nat.pos_of_ne_zero hpos, hmax⟩, hshape⟩

theorem parses_readTensor (alignment : Nat) (names : List Bytes) :
    Parses (readTensor alignment names) fun c tensor => ∃ e : Entry,
      c = e.bytes ∧ tensor = e.tensor ∧ e.Valid alignment ∧ e.name ∉ names := by
  refine (parses_context parses_readString _ _).bind ?_
  rintro c name rfl
  refine .refuse fun hname => .refuse fun hnew => ?_
  refine (parses_context (parses_readUint 4) _ _).bind ?_
  rintro c dimensions ⟨rfl, -⟩
  refine .refuse fun hdim => (parses_readShape name dimensions).bind ?_
  rintro c shape ⟨rfl, rfl, hshape⟩
  refine (parses_context (parses_readUint 4) _ _).bind ?_
  rintro c tensorType ⟨rfl, htype⟩
  refine (parses_context (parses_readUint 8) _ _).bind ?_
  rintro c offset ⟨rfl, hoffset⟩
  refine .refuse fun haligned => (Parses.lift _).bind ?_
  rintro c size ⟨rfl, hsize⟩
  obtain ⟨hname, hle, hutf⟩ : name ≠ [] ∧ name.length ≤ 64 ∧ Utf8.validString name = true := by
    simpa only [not_or, Nat.not_lt, Bool.not_eq_false] using hname
  obtain ⟨hshape', hdim⟩ : 1 ≤ shape.length ∧ shape.length ≤ 4 := by omega
  let e : Entry := ⟨name, shape, tensorType, offset⟩
  obtain ⟨rfl, hblock, hdvd, hpos, hmax⟩ :=
    ggmlTensorSize_ok (e := e) hshape hshape' (mapError_eq_ok.1 hsize)
  refine .pure ⟨e, by simp [e, Entry.bytes], rfl, ?_, hnew⟩
  exact {
    name_pos := List.length_pos_iff.2 hname
    name_le := hle
    name_utf8 := hutf
    shape_bounds := hshape
    shape_length := ⟨hshape', hdim⟩
    type_le := Nat.le_pred_of_lt htype
    offset_le := Nat.le_pred_of_lt hoffset
    block_mem := hblock
    block_dvd := hdvd
    aligned := Nat.dvd_of_mod_eq_zero (not_not.1 haligned)
    size_pos := hpos
    size_le := hmax }

/-- The tables that `readTensors` returns: the tensors so far, and the lines that were read. -/
theorem parses_readTensors (alignment n : Nat) (tensors : List Tensor)
    (hnodup : (tensors.map Tensor.name).Nodup) :
    Parses (readTensors alignment n tensors) fun c all => ∃ entries : List Entry,
      c = entries.flatMap Entry.bytes ∧ all = tensors ++ entries.map Entry.tensor ∧
      entries.length = n ∧ (∀ e ∈ entries, e.Valid alignment) ∧
      (all.map Tensor.name).Nodup := by
  induction n generalizing tensors with
  | zero => exact .pure ⟨[], rfl, by simp, rfl, by simp, hnodup⟩
  | succ n ih =>
    refine (parses_readTensor alignment _).bind ?_
    rintro c tensor ⟨e, rfl, rfl, he, hnew⟩
    have hnodup' : ((tensors ++ [e.tensor]).map Tensor.name).Nodup := by
      rw [List.map_append, List.nodup_append]
      refine ⟨hnodup, by simp, ?_⟩
      rintro a ha b hb rfl
      obtain rfl : a = e.name := by simpa [Entry.tensor_name] using hb
      exact hnew ha
    refine (ih _ hnodup').mono ?_
    rintro c all ⟨entries, rfl, rfl, rfl, hvalid, hall⟩
    refine ⟨e :: entries, rfl, by simp, rfl, ?_, hall⟩
    simpa using ⟨he, hvalid⟩

theorem parses_readHeader :
    Parses readHeader fun (_ : Bytes) d => d.1.tensorCount ≤ maxTensors := by
  refine (parses_context (parses_readFull 4) _ _).bind fun _ magic _ => .refuse fun _ => ?_
  refine (parses_context (parses_readUint 4) _ _).bind fun _ version _ => .refuse fun _ => ?_
  refine (parses_context (parses_readUint 8) _ _).bind fun _ tensorCount _ =>
    .refuse fun hcount => ?_
  refine (parses_context (parses_readUint 8) _ _).bind fun _ metadataCount _ => .refuse fun _ => ?_
  exact .pure (Nat.not_lt.1 hcount)

/-- The tensor table `entries` of a document, which stands at the end of `c`. -/
structure Table (c : Bytes) (document : Document) (entries : List Entry) : Prop where
  bytes : entries.flatMap Entry.bytes <:+ c
  length : entries.length = document.tensorCount
  alignment_pos : 0 < document.alignment
  valid : ∀ e ∈ entries, e.Valid document.alignment
  nodup : (entries.map Entry.name).Nodup

theorem Table.size_pos {c : Bytes} {document : Document} {entries : List Entry}
    (h : Table c document entries) : ∀ t ∈ entries.map Entry.tensor, 0 < t.size := by
  simpa using fun e he => (h.valid e he).size_pos

theorem parses_readDocument :
    Parses readDocument fun c d => ∃ entries,
      d.2 = entries.map Entry.tensor ∧ Table c d.1 entries := by
  refine parses_readHeader.bind ?_
  rintro header ⟨initial, metadataCount⟩ -
  refine (parses_readMetadata metadataCount initial).bind ?_
  rintro metadata document -
  refine .refuse fun halignment => ?_
  refine (parses_readTensors document.alignment document.tensorCount [] .nil).bind ?_
  rintro c tensors ⟨entries, rfl, rfl, hlength, hvalid, hnodup⟩
  refine .pure ⟨entries, rfl, ?_, hlength, ?_, hvalid, ?_⟩
  · exact ⟨header ++ metadata, by simp⟩
  · exact Nat.pos_of_ne_zero fun h => halignment (.inl h)
  · simpa [Function.comp_def, Entry.tensor_name] using hnodup

/-! ## The tensor data -/

theorem insertTensor_perm (t : Tensor) (ts : List Tensor) : (insertTensor t ts).Perm (t :: ts) := by
  induction ts with
  | nil => exact .rfl
  | cons u us ih =>
    rw [insertTensor]
    split
    · exact .rfl
    · exact (ih.cons u).trans (.swap t u us)

theorem sortTensors_perm (tensors : List Tensor) : (sortTensors tensors).Perm tensors := by
  suffices h : ∀ sorted : List Tensor,
      (tensors.foldl (fun sorted t => insertTensor t sorted) sorted).Perm (sorted ++ tensors) by
    simpa [sortTensors] using h []
  induction tensors with
  | nil => simp
  | cons t ts ih =>
    intro sorted
    refine (ih (insertTensor t sorted)).trans ?_
    refine ((insertTensor_perm t sorted).append_right ts).trans ?_
    exact (List.perm_middle).symm

theorem addUint64_eq_some {left right n : Nat} (h : 0 < right) :
    addUint64 left right = some n ↔ left + right ≤ maxUint64 ∧ n = left + right := by
  have hmax : maxUint64 + 1 = 2 ^ 64 := rfl
  unfold addUint64
  split
  case isTrue hlt =>
    refine ⟨fun h => (nomatch h), fun h => ?_⟩
    omega
  case isFalse hle =>
    have hmod : (left + right) % 2 ^ 64 = left + right := Nat.mod_eq_of_lt (by omega)
    rw [hmod, Option.some.injEq]
    omega

theorem inFile_iff {dataStart fileSize stop : Nat} (h : 0 < stop) :
    ((addUint64 dataStart stop).all fun n => decide (fileSize < n)) = false ↔
      dataStart + stop ≤ maxUint64 ∧ dataStart + stop ≤ fileSize := by
  cases hstop : addUint64 dataStart stop with
  | none =>
    have hover : ¬dataStart + stop ≤ maxUint64 := by
      intro hle
      rw [(addUint64_eq_some h).2 ⟨hle, rfl⟩] at hstop
      cases hstop
    simp [hover]
  | some n =>
    obtain ⟨hle, rfl⟩ := (addUint64_eq_some h).1 hstop
    simp [hle]

/-- The tensors in order: each begins behind `previousEnd` and before the ones after it. -/
def Ordered (previousEnd : Nat) (tensors : List Tensor) : Prop :=
  (∀ t ∈ tensors, previousEnd ≤ t.offset) ∧
    tensors.Pairwise fun t t' => t.offset + t.size ≤ t'.offset

theorem ordered_cons {previousEnd : Nat} {t : Tensor} {ts : List Tensor} :
    Ordered previousEnd (t :: ts) ↔
      previousEnd ≤ t.offset ∧ Ordered (t.offset + t.size) ts := by
  simp only [Ordered, List.forall_mem_cons, List.pairwise_cons]
  constructor
  · rintro ⟨⟨h, -⟩, h', hpair⟩
    exact ⟨h, h', hpair⟩
  · rintro ⟨h, h', hpair⟩
    exact ⟨⟨h, fun u hu => by have := h' u hu; omega⟩, h', hpair⟩

/-- What `checkTensors` accepts. -/
theorem checkTensors_ok {dataStart fileSize previousEnd : Nat} {tensors : List Tensor}
    (hpos : ∀ t ∈ tensors, 0 < t.size) :
    checkTensors dataStart fileSize previousEnd tensors = .ok () ↔
      Ordered previousEnd tensors ∧
      ∀ t ∈ tensors, dataStart + (t.offset + t.size) ≤ maxUint64 ∧
        dataStart + (t.offset + t.size) ≤ fileSize := by
  induction tensors generalizing previousEnd with
  | nil => simp [checkTensors, Ordered]
  | cons t ts ih =>
    have ht := hpos t List.mem_cons_self
    have hpos' : ∀ u ∈ ts, 0 < u.size := fun u hu => hpos u (List.mem_cons_of_mem _ hu)
    rw [checkTensors, ordered_cons, List.forall_mem_cons]
    split
    case isTrue h =>
      refine ⟨fun h => (nomatch h), fun h => ?_⟩
      omega
    case isFalse h =>
      cases hstop : addUint64 t.offset t.size with
      | none =>
        refine ⟨fun h => (nomatch h), fun h => ?_⟩
        have hle : t.offset + t.size ≤ maxUint64 := by omega
        rw [(addUint64_eq_some ht).2 ⟨hle, rfl⟩] at hstop
        cases hstop
      | some stop =>
        obtain ⟨-, rfl⟩ := (addUint64_eq_some ht).1 hstop
        have hbound := @inFile_iff dataStart fileSize (t.offset + t.size) (by omega)
        simp only
        split
        case isTrue hout =>
          refine ⟨fun h => (nomatch h), fun h => ?_⟩
          rw [hbound.2 h.2.1] at hout
          cases hout
        case isFalse hin =>
          have hin := hbound.1 (Bool.eq_false_of_not_eq_true hin)
          rw [ih hpos']
          constructor
          · rintro ⟨hord, hrest⟩
            exact ⟨⟨Nat.le_of_not_lt h, hord⟩, hin, hrest⟩
          · rintro ⟨⟨-, hord⟩, -, hrest⟩
            exact ⟨hord, hrest⟩

/-- The least multiple of `alignment` that is not below `value`. -/
def roundUp (value alignment : Nat) : Nat := (value + (alignment - 1)) / alignment * alignment

theorem roundUp_eq {value alignment : Nat} (hpos : 0 < alignment) :
    roundUp value alignment =
      if value % alignment = 0 then value else value + (alignment - value % alignment) := by
  have hdiv := Nat.div_add_mod value alignment
  have hlt := Nat.mod_lt value hpos
  unfold roundUp
  split
  case isTrue hmod =>
    have hsum : value + (alignment - 1) = alignment * (value / alignment) + (alignment - 1) := by
      omega
    rw [hsum, Nat.mul_add_div hpos, Nat.div_eq_of_lt (Nat.sub_lt hpos one_pos), Nat.add_zero,
      Nat.div_mul_cancel (Nat.dvd_of_mod_eq_zero hmod)]
  case isFalse hmod =>
    have hsum : value + (alignment - 1) =
        alignment * (value / alignment + 1) + (value % alignment - 1) := by
      rw [Nat.mul_add, Nat.mul_one]
      omega
    have hrest : (value % alignment - 1) / alignment = 0 := Nat.div_eq_of_lt (by omega)
    rw [hsum, Nat.mul_add_div hpos, hrest, Nat.add_zero, Nat.mul_comm, Nat.mul_add, Nat.mul_one]
    omega

theorem alignUint64_eq_some {value alignment n : Nat} (hpos : 0 < alignment)
    (hvalue : value ≤ maxUint64) : alignUint64 value alignment = some n ↔
      roundUp value alignment ≤ maxUint64 ∧ n = roundUp value alignment := by
  have hlt := Nat.mod_lt value hpos
  rw [roundUp_eq hpos, alignUint64]
  split
  case isTrue => simp [hvalue, eq_comm]
  case isFalse => exact addUint64_eq_some (by omega)

theorem alignUint64_ok {value alignment n : Nat} (hpos : 0 < alignment)
    (h : alignUint64 value alignment = some n) : n = roundUp value alignment := by
  have hlt := Nat.mod_lt value hpos
  rw [roundUp_eq hpos]
  unfold alignUint64 at h
  split at h
  case isTrue hmod => rw [if_pos hmod, Option.some.inj h]
  case isFalse hmod => rw [if_neg hmod, ((addUint64_eq_some (by omega)).1 h).2]

/-! ## Accepted files -/

/-- The tensor data starts at `dataStart`, is in order and lies within `fileSize` bytes. -/
def Placed (dataStart fileSize : Nat) (tensors : List Tensor) : Prop :=
  Ordered 0 (sortTensors tensors) ∧
    ∀ t ∈ tensors, dataStart + (t.offset + t.size) ≤ maxUint64 ∧
      dataStart + (t.offset + t.size) ≤ fileSize

/-- The verdict on a file with this header and tensor table, whatever stands behind it. -/
theorem parseGGUF_ok_iff {c : Bytes} {document : Document} {tensors : List Tensor}
    (h : Takes readDocument c (document, tensors)) (hpos : ∀ t ∈ tensors, 0 < t.size)
    (rest : Bytes) (d : Document) :
    parseGGUF (c ++ rest) = .ok d ↔ d = document ∧ (tensors ≠ [] → ∃ dataStart,
      alignUint64 c.length document.alignment = some dataStart ∧
      Placed dataStart (c ++ rest).length tensors) := by
  have hlen : (c ++ rest).length - rest.length = c.length := by simp
  have hpos' : ∀ t ∈ sortTensors tensors, 0 < t.size :=
    fun t ht => hpos t ((sortTensors_perm tensors).mem_iff.1 ht)
  rw [parseGGUF, h.exact]
  change (if tensors = [] then (.ok document : Except Err Document) else _) = _ ↔ _
  rw [hlen]
  split
  case isTrue hnil =>
    simp [hnil, eq_comm]
  case isFalse hne =>
    cases halign : alignUint64 c.length document.alignment with
    | none => simp [hne]
    | some dataStart =>
      have hchecked : Placed dataStart (c ++ rest).length tensors ↔
          checkTensors dataStart (c ++ rest).length 0 (sortTensors tensors) = .ok () := by
        rw [checkTensors_ok hpos', Placed]
        simp only [(sortTensors_perm tensors).mem_iff]
      simp only [except_bind_eq_ok, hne, ne_eq, not_false_eq_true, true_implies,
        Option.some.injEq, exists_eq_left', hchecked]
      constructor
      · rintro ⟨⟨⟩, hcheck, hd⟩
        cases hd
        exact ⟨rfl, hcheck⟩
      · rintro ⟨rfl, hcheck⟩
        exact ⟨(), hcheck, rfl⟩

/-- A file is accepted for a header, a tensor table and tensor data within the file. -/
theorem parseGGUF_ok {content : Bytes} {document : Document}
    (h : parseGGUF content = .ok document) : ∃ (c rest : Bytes) (entries : List Entry),
      content = c ++ rest ∧ Takes readDocument c (document, entries.map Entry.tensor) ∧
      Table c document entries ∧
      (entries ≠ [] → alignUint64 c.length document.alignment =
          some (roundUp c.length document.alignment) ∧
        Placed (roundUp c.length document.alignment) content.length
          (entries.map Entry.tensor)) := by
  obtain ⟨⟨⟨d, tensors⟩, rest⟩, hread, -⟩ := except_bind_eq_ok.1 h
  obtain ⟨c, rfl, ht, entries, hentries, htable⟩ := parses_readDocument hread
  obtain rfl : tensors = entries.map Entry.tensor := hentries
  obtain ⟨rfl, hplaced⟩ := (parseGGUF_ok_iff ht htable.size_pos rest document).1 h
  refine ⟨c, rest, entries, rfl, ht, htable, fun hne => ?_⟩
  obtain ⟨dataStart, halign, hplaced⟩ := hplaced (by simpa using hne)
  obtain rfl := alignUint64_ok htable.alignment_pos halign
  exact ⟨halign, hplaced⟩

/-- Tensors that are one after the other in the order of their offsets are disjoint in any order. -/
theorem pairwise_disjoint {entries : List Entry} {start : Nat}
    (h : (sortTensors (entries.map Entry.tensor)).Pairwise fun t t' =>
      t.offset + t.size ≤ t'.offset) :
    entries.Pairwise fun e e' => Disjoint (e.range start) (e'.range start) := by
  have hsymm : (sortTensors (entries.map Entry.tensor)).Pairwise fun t t' =>
      t.offset + t.size ≤ t'.offset ∨ t'.offset + t'.size ≤ t.offset := h.imp .inl
  rw [(sortTensors_perm _).pairwise_iff fun h => h.symm, List.pairwise_map] at hsymm
  refine hsymm.imp fun h => Set.disjoint_left.2 fun x hx hx' => ?_
  simp only [Entry.range, Set.mem_Ico] at hx hx'
  simp only [Entry.tensor_offset, Entry.tensor_size] at h
  omega

/-- **What an accepted file looks like.** The tensor table that the parser computes with is the
one in the file, and its data ranges are aligned, disjoint and within the file. -/
theorem parseGGUF_sound {content : Bytes} {document : Document}
    (h : parseGGUF content = .ok document) :
    ∃ (header rest : Bytes) (entries : List Entry), content = header ++ rest ∧
      readDocument content = .ok ((document, entries.map Entry.tensor), rest) ∧
      Table header document entries ∧
      (∀ e ∈ entries,
        let start := roundUp header.length document.alignment
        document.alignment ∣ start + e.offset ∧ (e.range start).Nonempty ∧
          e.range start ⊆ Set.Ico start content.length ∧
          start + e.offset + e.size ≤ maxUint64) ∧
      entries.Pairwise fun e e' =>
        Disjoint (e.range (roundUp header.length document.alignment))
          (e'.range (roundUp header.length document.alignment)) := by
  obtain ⟨c, rest, entries, rfl, ht, htable, hplaced⟩ := parseGGUF_ok h
  refine ⟨c, rest, entries, rfl, ht.exact rest, htable, fun e he => ?_, ?_⟩
  · have hvalid := htable.valid e he
    have hpos := hvalid.size_pos
    obtain ⟨-, -, hin⟩ := hplaced (List.ne_nil_of_mem he)
    obtain ⟨hmax, hfile⟩ := hin e.tensor (List.mem_map_of_mem he)
    simp only [Entry.tensor_offset, Entry.tensor_size, ← Nat.add_assoc] at hmax hfile
    refine ⟨Nat.dvd_add (Nat.dvd_mul_left _ _) hvalid.aligned, ?_, ?_, hmax⟩
    · exact Set.nonempty_Ico.2 (Nat.lt_add_of_pos_right hpos)
    · exact Set.Ico_subset_Ico (Nat.le_add_right _ _) hfile
  · rcases eq_or_ne entries [] with rfl | hne
    · exact .nil
    · obtain ⟨-, ⟨-, hpair⟩, -⟩ := hplaced hne
      exact pairwise_disjoint hpair

/-- Two tensors, the second of them first in the table. -/
def sampleEntries : List Entry := [⟨[98], [2], 0, 32⟩, ⟨[97], [32, 1], 2, 0⟩]

def sampleFile : Bytes :=
  formatGGUF ++ uintBytes 4 3 ++ uintBytes 8 2 ++ uintBytes 8 0 ++
    sampleEntries.flatMap Entry.bytes ++ List.replicate 70 0

def sampleDocument : Document := ⟨3, 2, [], none, none, none, 32⟩

theorem parseGGUF_sound_sample :
    parseGGUF sampleFile = .ok sampleDocument ∧ ∃ (header : Bytes) (entries : List Entry),
      header <+: sampleFile ∧ Table header sampleDocument entries := by
  have hok : parseGGUF sampleFile = .ok sampleDocument := by decide +kernel
  obtain ⟨header, rest, entries, hfile, -, htable, -⟩ := parseGGUF_sound hok
  exact ⟨hok, header, entries, ⟨rest, hfile.symm⟩, htable⟩

/-! ## Truncated and extended files -/

/-- Where the header and the tensor table of a file end. -/
def headerEnd (content : Bytes) : Nat :=
  match readDocument content with
  | .ok (_, rest) => content.length - rest.length
  | .error _ => 0

/-- Where the tensor data of a file ends: with the last tensor, or with the header. -/
def dataEnd (content : Bytes) : Nat :=
  match readDocument content with
  | .ok ((_, []), _) => headerEnd content
  | .ok ((document, tensors), _) =>
    (tensors.map fun t =>
      roundUp (headerEnd content) document.alignment + (t.offset + t.size)).foldr max 0
  | .error _ => 0

theorem foldr_max_le {l : List Nat} {n : Nat} : l.foldr max 0 ≤ n ↔ ∀ x ∈ l, x ≤ n := by
  induction l with
  | nil => simp
  | cons x l ih => simp [ih]

/-- A file of `n` bytes holds the header and all tensor data. -/
theorem ends_le {c rest : Bytes} {document : Document} {tensors : List Tensor}
    (h : Takes readDocument c (document, tensors)) {n : Nat} :
    max (headerEnd (c ++ rest)) (dataEnd (c ++ rest)) ≤ n ↔ c.length ≤ n ∧ ∀ t ∈ tensors,
      roundUp c.length document.alignment + (t.offset + t.size) ≤ n := by
  have hheader : headerEnd (c ++ rest) = c.length := by
    rw [headerEnd, h.exact]
    simp
  rw [dataEnd, h.exact, hheader]
  cases tensors with
  | nil => simp
  | cons t ts =>
    simp only [max_le_iff, foldr_max_le, List.forall_mem_map]

/-- **Truncation is detected.** A prefix of an accepted file is accepted if and only if it holds
the header and all tensor data, and what follows them changes nothing. -/
theorem parseGGUF_truncated {content : Bytes} {document : Document}
    (h : parseGGUF content = .ok document) :
    (∀ p, p <+: content →
      ((∃ d, parseGGUF p = .ok d) ↔ max (headerEnd content) (dataEnd content) ≤ p.length) ∧
      ∀ d, parseGGUF p = .ok d → d = document) ∧
    ∀ s, parseGGUF (content ++ s) = .ok document := by
  obtain ⟨c, rest, entries, rfl, ht, htable, hplaced⟩ := parseGGUF_ok h
  -- a file with this header is accepted for its length alone
  have hbehind : ∀ r d, parseGGUF (c ++ r) = .ok d ↔ d = document ∧
      max (headerEnd (c ++ rest)) (dataEnd (c ++ rest)) ≤ (c ++ r).length := by
    intro r d
    rw [parseGGUF_ok_iff ht htable.size_pos, ends_le ht]
    refine and_congr_right fun _ => ⟨fun hr => ⟨by simp, fun t hmem => ?_⟩, fun hr hne => ?_⟩
    · obtain ⟨dataStart, halign, hin⟩ := hr (List.ne_nil_of_mem hmem)
      obtain rfl := alignUint64_ok htable.alignment_pos halign
      exact (hin.2 t hmem).2
    · obtain ⟨halign, hord, hin⟩ := hplaced (by simpa using hne)
      exact ⟨_, halign, hord, fun t hmem => ⟨(hin t hmem).1, hr.2 t hmem⟩⟩
  have hwhole := ((hbehind rest document).1 h).2
  refine ⟨?_, fun s => ?_⟩
  · rintro p ⟨q, hq⟩
    have hcut : (∃ m, p = c ++ m) ∨ ∃ m, c = p ++ m ∧ m ≠ [] := by
      rcases List.append_eq_append_iff.1 hq with ⟨m, hm, -⟩ | ⟨m, hm, -⟩
      · rcases eq_or_ne m [] with rfl | hne
        · exact .inl ⟨[], by simpa using hm.symm⟩
        · exact .inr ⟨m, hm, hne⟩
      · exact .inl ⟨m, hm⟩
    rcases hcut with ⟨m, rfl⟩ | ⟨m, hm, hne⟩
    · exact ⟨by simp [hbehind], fun d hd => ((hbehind m d).1 hd).1⟩
    · obtain ⟨err, herr⟩ := ht.short p m hm hne
      have hreject : ∀ d, parseGGUF p ≠ .ok d := by
        intro d hd
        obtain ⟨x, hx, -⟩ := except_bind_eq_ok.1 hd
        rw [herr] at hx
        cases hx
      have hlen : ¬max (headerEnd (c ++ rest)) (dataEnd (c ++ rest)) ≤ p.length := by
        intro hle
        have hc := ((ends_le ht).1 hle).1
        rw [hm, List.length_append] at hc
        have := List.length_pos_iff.2 hne
        omega
      refine ⟨iff_of_false ?_ hlen, fun d hd => absurd hd (hreject d)⟩
      rintro ⟨d, hd⟩
      exact hreject d hd
  · rw [List.append_assoc, hbehind]
    refine ⟨rfl, hwhole.trans ?_⟩
    simp

theorem parseGGUF_truncated_sample :
    parseGGUF sampleFile = .ok sampleDocument ∧
      (¬∃ d, parseGGUF sampleFile.dropLast = .ok d) ∧
      parseGGUF (sampleFile ++ [7]) = .ok sampleDocument := by
  have hok : parseGGUF sampleFile = .ok sampleDocument := by decide +kernel
  have hends : max (headerEnd sampleFile) (dataEnd sampleFile) = sampleFile.length := by
    decide +kernel
  obtain ⟨hcut, hextend⟩ := parseGGUF_truncated hok
  refine ⟨hok, ?_, hextend [7]⟩
  rw [(hcut _ sampleFile.dropLast_prefix).1, hends]
  decide +kernel

end Kama.Artifact.Gguf
