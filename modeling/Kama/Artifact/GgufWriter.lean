import Mathlib.Algebra.Order.BigOperators.GroupWithZero.List
import Mathlib.Algebra.Order.Ring.Nat
import Kama.Artifact.Accepted

/-!
# Written GGUF files

A writer's view of the format: a `Draft` is the metadata and the tensor table of a file, and
`Draft.serialise` its bytes in version 3 of the format. `Item` is a metadata value with the
thirteen types of the format; arrays hold items of one type and may be nested.

* `reads_readValue`: the parser reads an item that fits its limits, by induction on the nesting;
* `reads_readDocument`: it reads the whole header, and of the metadata it keeps for every key the
  last entry that it can use (`Draft.last`);
* `ordered_of_disjoint`: tensor data that does not overlap is in order once it is sorted.

Together: a file written within the limits is accepted, and for what was written in it.
-/

namespace Kama.Artifact.Gguf

open Bytes Reader

/-! ## Metadata values -/

/-- A metadata value; a float stands as its bits. -/
inductive Item
  | uint8 (v : BitVec 8)
  | int8 (v : BitVec 8)
  | uint16 (v : BitVec 16)
  | int16 (v : BitVec 16)
  | uint32 (v : BitVec 32)
  | int32 (v : BitVec 32)
  | float32 (bits : BitVec 32)
  | bool (b : Bool)
  | string (s : Bytes)
  | array (elementType : Nat) (items : List Item)
  | uint64 (v : BitVec 64)
  | int64 (v : BitVec 64)
  | float64 (bits : BitVec 64)

namespace Item

/-- The number of the type in the file. -/
def tag : Item → Nat
  | uint8 _ => 0
  | int8 _ => 1
  | uint16 _ => 2
  | int16 _ => 3
  | uint32 _ => 4
  | int32 _ => 5
  | float32 _ => 6
  | bool _ => 7
  | string _ => 8
  | array _ _ => 9
  | uint64 _ => 10
  | int64 _ => 11
  | float64 _ => 12

end Item

def stringBytes (s : Bytes) : Bytes := uintBytes 8 s.length ++ s

mutual

/-- The bytes of a value, without its type. -/
def Item.bytes : Item → Bytes
  | .uint8 v | .int8 v => uintBytes 1 v.toNat
  | .uint16 v | .int16 v => uintBytes 2 v.toNat
  | .uint32 v | .int32 v | .float32 v => uintBytes 4 v.toNat
  | .uint64 v | .int64 v | .float64 v => uintBytes 8 v.toNat
  | .bool b => uintBytes 1 b.toNat
  | .string s => stringBytes s
  | .array elementType items =>
    uintBytes 4 elementType ++ (uintBytes 8 items.length ++ Item.allBytes items)

def Item.allBytes : List Item → Bytes
  | [] => []
  | item :: items => item.bytes ++ Item.allBytes items

end

namespace Item

/-- The text of a string. -/
def text : Item → Option Bytes
  | string s => some s
  | _ => none

/-- The value of an integer. -/
def integer : Item → Option Int
  | uint8 v => some v.toNat
  | int8 v => some v.toInt
  | uint16 v => some v.toNat
  | int16 v => some v.toInt
  | uint32 v => some v.toNat
  | int32 v => some v.toInt
  | uint64 v => some v.toNat
  | int64 v => some v.toInt
  | _ => none

/-- The value of an integer that is in the range of a `uint32`. -/
def number (item : Item) : Option Nat :=
  item.integer.bind fun i => if 0 ≤ i ∧ i ≤ maxUint32 then some i.toNat else none

/-- What the parser keeps of the value. -/
def value : Item → Value
  | uint8 v => .unsigned v.toNat
  | int8 v => .signed v.toInt
  | uint16 v => .unsigned v.toNat
  | int16 v => .signed v.toInt
  | uint32 v => .unsigned v.toNat
  | int32 v => .signed v.toInt
  | string s => .string s
  | uint64 v => .unsigned v.toNat
  | int64 v => .signed v.toInt
  | _ => .other

theorem exists_array {item : Item} (h : item.tag = 9) :
    ∃ elementType items, item = array elementType items := by
  cases item
  case array elementType items => exact ⟨elementType, items, rfl⟩
  all_goals exact absurd h (by simp [tag])

theorem numericUint32_value (item : Item) : numericUint32 item.value = item.number := by
  cases item <;> simp [value, number, integer, numericUint32]

/-- The value is within the limits of the parser and has arrays in at most `depth` levels; the
items of an array have the type that it declares. -/
def Fits : Nat → Item → Prop
  | _, string s => s.length ≤ maxStringBytes
  | 0, array elementType items => elementType ≤ maxUint32 ∧ items = []
  | depth + 1, array elementType items =>
    elementType ≤ maxUint32 ∧ items.length ≤ maxArrayEntries ∧
      ∀ item ∈ items, item.tag = elementType ∧ item.Fits depth
  | _, _ => True

end Item

/-! ## Reading values -/

@[simp] theorem length_uintBytes (n value : Nat) : (uintBytes n value).length = n := by
  induction n generalizing value with
  | zero => rfl
  | succ n ih => simp [uintBytes, ih]

theorem littleEndian_uintBytes {n value : Nat} (h : value < 256 ^ n) :
    littleEndian (uintBytes n value) = value := by
  induction n generalizing value with
  | zero =>
    have : value = 0 := by simpa using h
    simp [uintBytes, littleEndian, this]
  | succ n ih =>
    have hdiv : value / 256 < 256 ^ n := Nat.div_lt_of_lt_mul (by rwa [Nat.pow_succ'] at h)
    have hbyte : (UInt8.ofNat (value % 256)).toNat = value % 256 := by
      simp
    rw [uintBytes, littleEndian, ih hdiv, hbyte]
    omega

theorem reads_readFull (c : Bytes) : Reads (readFull c.length) c c := by
  intro rest
  simp [readFull_bytes]

theorem reads_readUint {n value : Nat} (h : value < 256 ^ n) :
    Reads (readUint n) (uintBytes n value) value := by
  have hread := reads_readFull (uintBytes n value)
  rw [length_uintBytes] at hread
  have := hread.then_pure littleEndian
  rwa [littleEndian_uintBytes h] at this

theorem reads_unsigned {n w : Nat} (v : BitVec w) (hw : 256 ^ n = 2 ^ w) :
    Reads (readUint n) (uintBytes n v.toNat) v.toNat :=
  reads_readUint (by rw [hw]; exact v.isLt)

theorem reads_signed {n w : Nat} (v : BitVec w) (hw : 256 ^ n = 2 ^ w) (hn : 8 * n = w)
    (hpos : 0 < w) : Reads (readInt n) (uintBytes n v.toNat) v.toInt := by
  have hread := (reads_unsigned v hw).then_pure fun u : Nat =>
    if u < 2 ^ (8 * n - 1) then (u : Int) else (u : Int) - 2 ^ (8 * n)
  have hvalue : v.toInt =
      if v.toNat < 2 ^ (8 * n - 1) then (v.toNat : Int) else (v.toNat : Int) - 2 ^ (8 * n) := by
    have hdouble : 2 ^ w = 2 * 2 ^ (w - 1) := by
      rw [← Nat.pow_succ', Nat.succ_eq_add_one, Nat.sub_add_cancel hpos]
    rw [BitVec.toInt_eq_toNat_cond, hn]
    by_cases hlt : v.toNat < 2 ^ (w - 1)
    · rw [if_pos (by omega), if_pos hlt]
    · rw [if_neg (by omega), if_neg hlt]
      push_cast
      rfl
  rw [hvalue]
  exact hread

theorem reads_readString {s : Bytes} (h : s.length ≤ maxStringBytes) :
    Reads readString (stringBytes s) s := by
  have hlength : s.length < 256 ^ 8 := by
    unfold maxStringBytes at h
    omega
  exact (reads_readUint hlength).bind (.pass (Nat.not_lt.2 h) (reads_readFull s))

theorem reads_times {fuel elementType : Nat} {items : List Item}
    (h : ∀ item ∈ items, Reads (readValue fuel elementType) item.bytes item.value) :
    Reads (times items.length do let _ ← readValue fuel elementType) (Item.allBytes items) () := by
  induction items with
  | nil => exact .pure ()
  | cons item items ih =>
    have hitem : Reads (do let _ ← readValue fuel elementType) item.bytes () :=
      (h item List.mem_cons_self).then_pure fun _ => ()
    exact hitem.bind (ih fun i hi => h i (List.mem_cons_of_mem _ hi))

theorem reads_array {fuel elementType : Nat} {items : List Item}
    (htype : elementType ≤ maxUint32) (hlength : items.length ≤ maxArrayEntries)
    (h : ∀ item ∈ items, Reads (readValue fuel elementType) item.bytes item.value) :
    Reads (readValue (fuel + 1) 9) (Item.array elementType items).bytes .other := by
  have htype : elementType < 256 ^ 4 := by
    unfold maxUint32 at htype
    omega
  have hcount : items.length < 256 ^ 8 := by
    unfold maxArrayEntries at hlength
    omega
  refine (reads_readUint htype).bind ((reads_readUint hcount).bind ?_)
  exact .pass (Nat.not_lt.2 hlength) ((reads_times h).then_pure fun _ => Value.other)

theorem reads_scalar {depth : Nat} {item : Item} (h : item.Fits depth) (harray : item.tag ≠ 9) :
    Reads (readValue (depth + 1) item.tag) item.bytes item.value := by
  cases item with
  | uint8 v => exact (reads_unsigned (n := 1) v rfl).then_pure Value.unsigned
  | int8 v => exact (reads_signed (n := 1) v rfl rfl (by omega)).then_pure Value.signed
  | uint16 v => exact (reads_unsigned (n := 2) v rfl).then_pure Value.unsigned
  | int16 v => exact (reads_signed (n := 2) v rfl rfl (by omega)).then_pure Value.signed
  | uint32 v => exact (reads_unsigned (n := 4) v rfl).then_pure Value.unsigned
  | int32 v => exact (reads_signed (n := 4) v rfl rfl (by omega)).then_pure Value.signed
  | uint64 v => exact (reads_unsigned (n := 8) v rfl).then_pure Value.unsigned
  | int64 v => exact (reads_signed (n := 8) v rfl rfl (by omega)).then_pure Value.signed
  | float32 bits =>
    have hread := reads_readFull (uintBytes 4 bits.toNat)
    rw [length_uintBytes] at hread
    exact hread.then_pure fun _ => Value.other
  | float64 bits =>
    have hread := reads_readFull (uintBytes 8 bits.toNat)
    rw [length_uintBytes] at hread
    exact hread.then_pure fun _ => Value.other
  | bool b =>
    have hle := b.toNat_le
    have hread : Reads (readUint 1) (uintBytes 1 b.toNat) b.toNat := reads_readUint (by omega)
    have hvalue : Reads (readValue (depth + 1) 7) (uintBytes 1 b.toNat ++ []) .other :=
      hread.bind (.pass (Nat.not_lt.2 hle) (.pure Value.other))
    rwa [List.append_nil] at hvalue
  | string s =>
    have hlength : s.length ≤ maxStringBytes := by cases depth <;> exact h
    exact (reads_readString hlength).then_pure Value.string
  | array elementType items => exact absurd rfl harray

/-- The parser reads a value within its limits. -/
theorem reads_readValue {depth : Nat} {item : Item} (h : item.Fits depth) :
    Reads (readValue (depth + 1) item.tag) item.bytes item.value := by
  -- the items of an array are one level deeper
  induction depth generalizing item with
  | zero =>
    by_cases harray : item.tag = 9
    case neg => exact reads_scalar h harray
    obtain ⟨elementType, items, rfl⟩ := Item.exists_array harray
    obtain ⟨htype, rfl⟩ := h
    exact reads_array htype (Nat.zero_le _) (by simp)
  | succ depth ih =>
    by_cases harray : item.tag = 9
    case neg => exact reads_scalar h harray
    obtain ⟨elementType, items, rfl⟩ := Item.exists_array harray
    obtain ⟨htype, hlength, hitems⟩ := h
    refine reads_array htype hlength fun item hitem => ?_
    obtain ⟨rfl, hfits⟩ := hitems item hitem
    exact ih hfits

/-! ## The tensor table -/

theorem countBlocks_eq {n : Nat} {shape : List Nat} (hn : 0 < n) (hshape : ∀ d ∈ shape, 0 < d)
    (h : n * shape.prod ≤ maxUint64) : countBlocks n shape = .ok (n * shape.prod) := by
  induction shape generalizing n with
  | nil => simp [countBlocks]
  | cons d rest ih =>
    obtain ⟨hd, hrest⟩ := List.forall_mem_cons.1 hshape
    rw [List.prod_cons, ← Nat.mul_assoc] at h ⊢
    have hprod : 0 < rest.prod := List.prod_pos hrest
    have hle : n * d ≤ maxUint64 := (Nat.le_mul_of_pos_right _ hprod).trans h
    have hdim : ¬maxUint64 / n < d := by
      rw [Nat.not_lt, Nat.le_div_iff_mul_le hn, Nat.mul_comm]
      exact hle
    have hmod : n * d % 2 ^ 64 = n * d := Nat.mod_eq_of_lt (by unfold maxUint64 at hle; omega)
    rw [countBlocks, if_neg hdim, hmod]
    exact ih (Nat.mul_pos hn hd) hrest h

theorem Entry.Valid.tensorSize {alignment : Nat} {e : Entry} (h : e.Valid alignment) :
    ggmlTensorSize e.tensorType e.shape = .ok e.size := by
  obtain ⟨first, rest, hs⟩ : ∃ first rest, e.shape = first :: rest :=
    List.exists_cons_of_length_pos h.shape_length.1
  obtain ⟨helements, hbytes⟩ := block_pos _ h.block_mem
  have hlookup : blocks.lookup e.tensorType = some e.block := by
    cases hb : blocks.lookup e.tensorType with
    | some b => rw [Entry.block, hb]; rfl
    | none =>
      rw [Entry.block, hb] at helements
      exact absurd helements (Nat.lt_irrefl 0)
  have hdvd : e.block.1 ∣ first := by simpa [hs] using h.block_dvd
  have hpos : ∀ d ∈ first :: rest, 0 < d := fun d hd => (h.shape_bounds d (hs ▸ hd)).1
  have hcount : e.shape.prod / e.block.1 = first / e.block.1 * rest.prod := by
    rw [hs, List.prod_cons, ← Nat.mul_div_right_comm hdvd]
  have hsize : first / e.block.1 * rest.prod * e.block.2 ≤ maxUint64 := by
    rw [← hcount]
    exact h.size_le
  have hblocks := countBlocks_eq (Nat.div_pos (Nat.le_of_dvd (hpos first List.mem_cons_self) hdvd)
    helements) (fun d hd => hpos d (List.mem_cons_of_mem _ hd))
    ((Nat.le_mul_of_pos_right _ hbytes).trans hsize)
  have hover : ¬maxUint64 / e.block.2 < first / e.block.1 * rest.prod := by
    rw [Nat.not_lt, Nat.le_div_iff_mul_le hbytes]
    exact hsize
  have hmod := Nat.mod_eq_of_lt (a := first / e.block.1 * rest.prod * e.block.2) (b := 2 ^ 64)
    (by unfold maxUint64 at hsize; omega)
  rw [ggmlTensorSize, hlookup, hs]
  simp only [List.headD_cons, List.tail_cons]
  refine except_refuse_eq_ok.2 ⟨not_not.2 (Nat.mod_eq_zero_of_dvd hdvd), ?_⟩
  refine except_bind_eq_ok.2 ⟨_, hblocks, except_refuse_eq_ok.2 ⟨hover, ?_⟩⟩
  rw [hmod, ← hcount]
  rfl

theorem reads_context {α : Type} {r : Read Bytes α} {c : Bytes} {a : α} (h : Reads r c a)
    (format : String) (arguments : List Bytes) : Reads (context format arguments r) c a := by
  intro rest
  rw [context, h rest]
  rfl

theorem reads_readShape (name : Bytes) {shape : List Nat}
    (h : ∀ d ∈ shape, 0 < d ∧ d ≤ maxUint64) :
    Reads (readShape name shape.length) (shape.flatMap (uintBytes 8)) shape := by
  induction shape with
  | nil => exact .pure []
  | cons d shape ih =>
    obtain ⟨⟨hpos, hmax⟩, hrest⟩ := List.forall_mem_cons.1 h
    have hlt : d < 256 ^ 8 := by
      unfold maxUint64 at hmax
      omega
    refine (reads_context (reads_readUint hlt) _ _).bind (.pass hpos.ne' ?_)
    exact (ih hrest).then_pure (d :: ·)

theorem reads_readTensor {alignment : Nat} {names : List Bytes} {e : Entry}
    (h : e.Valid alignment) (hnew : e.name ∉ names) :
    Reads (readTensor alignment names) e.bytes e.tensor := by
  have hname : ¬(e.name = [] ∨ 64 < e.name.length ∨ Utf8.validString e.name = false) := by
    have hpos := List.length_pos_iff.1 h.name_pos
    simp [hpos, h.name_utf8, h.name_le]
  have hstring : e.name.length ≤ maxStringBytes := h.name_le.trans (by decide)
  obtain ⟨hshort, hlong⟩ := h.shape_length
  have hdimensions : e.shape.length < 256 ^ 4 := by omega
  have htype : e.tensorType < 256 ^ 4 := Nat.lt_of_le_of_lt h.type_le (by decide)
  have hoffset : e.offset < 256 ^ 8 := Nat.lt_of_le_of_lt h.offset_le (by decide)
  have hsize := mapError_eq_ok (f := Err.wrap "tensor %q: %w" [e.name]).2 h.tensorSize
  have hbytes : e.bytes = stringBytes e.name ++ (uintBytes 4 e.shape.length ++
      (e.shape.flatMap (uintBytes 8) ++ (uintBytes 4 e.tensorType ++ (uintBytes 8 e.offset ++
        [])))) := by
    simp [Entry.bytes, stringBytes]
  rw [hbytes]
  refine (reads_context (reads_readString hstring) _ _).bind (.pass hname (.pass hnew ?_))
  refine (reads_context (reads_readUint hdimensions) _ _).bind (.pass (by omega) ?_)
  refine (reads_readShape e.name h.shape_bounds).bind ?_
  refine (reads_context (reads_readUint htype) _ _).bind ?_
  refine (reads_context (reads_readUint hoffset) _ _).bind ?_
  refine .pass (not_not.2 (Nat.mod_eq_zero_of_dvd h.aligned)) ?_
  exact (Reads.lift hsize).then_pure (Tensor.mk e.name e.offset)

theorem reads_readTensors {alignment : Nat} {entries : List Entry} (tensors : List Tensor)
    (h : ∀ e ∈ entries, e.Valid alignment)
    (hnodup : (tensors.map Tensor.name ++ entries.map Entry.name).Nodup) :
    Reads (readTensors alignment entries.length tensors) (entries.flatMap Entry.bytes)
      (tensors ++ entries.map Entry.tensor) := by
  induction entries generalizing tensors with
  | nil =>
    rw [List.map_nil, List.append_nil]
    exact .pure tensors
  | cons e entries ih =>
    obtain ⟨he, hrest⟩ := List.forall_mem_cons.1 h
    have hnew : e.name ∉ tensors.map Tensor.name := by
      intro hmem
      exact (List.nodup_append.1 hnodup).2.2 _ hmem e.name (by simp) rfl
    have hnodup' : ((tensors ++ [e.tensor]).map Tensor.name ++ entries.map Entry.name).Nodup := by
      simpa [Entry.tensor_name] using hnodup
    rw [List.map_cons, List.append_cons]
    exact (reads_readTensor he hnew).bind (ih (tensors ++ [e.tensor]) hrest hnodup')

/-! ## Documents -/

/-- What a writer puts into the header of a file. -/
structure Draft where
  metadata : List (Bytes × Item)
  tensors : List Entry

/-- A metadata entry: the key, the type and the value. -/
def fieldBytes (field : Bytes × Item) : Bytes :=
  stringBytes field.1 ++ (uintBytes 4 field.2.tag ++ field.2.bytes)

/-- The entry that the key names, if `read` can use it. -/
def fieldOf {α : Type} (key : String) (read : Item → Option α) (field : Bytes × Item) : Option α :=
  if field.1 = ascii key then read field.2 else none

namespace Draft

/-- The header of the file in version 3 of the format; the tensor data follows it. -/
def serialise (draft : Draft) : Bytes :=
  formatGGUF ++ (uintBytes 4 3 ++ (uintBytes 8 draft.tensors.length ++
    (uintBytes 8 draft.metadata.length ++
      (draft.metadata.flatMap fieldBytes ++ draft.tensors.flatMap Entry.bytes))))

/-- The last entry for the key that `read` can use. -/
def last {α : Type} (draft : Draft) (key : String) (read : Item → Option α) : Option α :=
  draft.metadata.reverse.findSome? (fieldOf key read)

/-- The document that the file describes. -/
def document (draft : Draft) : Document where
  version := 3
  tensorCount := draft.tensors.length
  architecture := (draft.last "general.architecture" Item.text).getD []
  fileType := draft.last "general.file_type" Item.number
  shardNo := draft.last "split.no" Item.number
  shardCount := draft.last "split.count" Item.number
  alignment := (draft.last "general.alignment" Item.number).getD defaultAlignment

/-- Where the tensor data begins. -/
def dataStart (draft : Draft) : Nat := roundUp draft.serialise.length draft.document.alignment

/-- The draft is within the limits of the parser, its tensors are well formed and their data
neither overlaps nor exceeds a file of `fileSize` bytes. -/
structure Valid (draft : Draft) (fileSize : Nat) : Prop where
  metadata_le : draft.metadata.length ≤ maxMetadataEntries
  tensors_le : draft.tensors.length ≤ maxTensors
  key_le : ∀ field ∈ draft.metadata, field.1.length ≤ maxStringBytes
  fits : ∀ field ∈ draft.metadata, field.2.Fits 4
  alignment : 0 < draft.document.alignment ∧ 8 ∣ draft.document.alignment ∧
    draft.document.alignment ≤ 2 ^ 20
  tensors : ∀ e ∈ draft.tensors, e.Valid draft.document.alignment
  names : (draft.tensors.map Entry.name).Nodup
  disjoint : draft.tensors.Pairwise fun e e' => Disjoint (e.range 0) (e'.range 0)
  inFile : ∀ e ∈ draft.tensors, draft.dataStart + e.offset + e.size ≤ fileSize

end Draft

/-- The documents that the metadata makes of `initial`. -/
def recordAll (initial : Document) (metadata : List (Bytes × Item)) : Document :=
  metadata.foldl (fun document field => document.record field.1 field.2.value) initial

theorem reads_readMetadata {metadata : List (Bytes × Item)} (initial : Document)
    (hkey : ∀ field ∈ metadata, field.1.length ≤ maxStringBytes)
    (hfits : ∀ field ∈ metadata, field.2.Fits 4) :
    Reads (readMetadata metadata.length initial) (metadata.flatMap fieldBytes)
      (recordAll initial metadata) := by
  induction metadata generalizing initial with
  | nil => exact .pure initial
  | cons field metadata ih =>
    obtain ⟨hk, hkey⟩ := List.forall_mem_cons.1 hkey
    obtain ⟨hf, hfits⟩ := List.forall_mem_cons.1 hfits
    have htag : field.2.tag < 256 ^ 4 := by
      cases field.2 <;> simp [Item.tag]
    rw [List.flatMap_cons, fieldBytes, List.append_assoc, List.append_assoc]
    refine (reads_context (reads_readString hk) _ _).bind ?_
    refine (reads_context (reads_readUint htag) _ _).bind ?_
    refine (reads_context (reads_readValue hf) _ _).bind ?_
    exact ih (initial.record field.1 field.2.value) hkey hfits

/-- A part of the document that every entry replaces or leaves is the last one put in. -/
theorem part_recordAll {α : Type} {part : Document → α} {read : Bytes × Item → Option α}
    (hrecord : ∀ (document : Document) (field : Bytes × Item),
      part (document.record field.1 field.2.value) = (read field).getD (part document))
    (initial : Document) (metadata : List (Bytes × Item)) :
    part (recordAll initial metadata) =
      (metadata.reverse.findSome? read).getD (part initial) := by
  -- from the last entry backwards: it decides unless it cannot be used
  induction metadata using List.reverseRecOn with
  | nil => rfl
  | append_singleton metadata field ih =>
    rw [recordAll, List.foldl_append, List.foldl_cons, List.foldl_nil, hrecord, ← recordAll, ih,
      List.reverse_append, List.reverse_singleton, List.singleton_append, List.findSome?_cons]
    cases read field <;> rfl

theorem record_architecture (document : Document) (field : Bytes × Item) :
    (document.record field.1 field.2.value).architecture =
      (fieldOf "general.architecture" Item.text field).getD document.architecture := by
  obtain ⟨key, item⟩ := field
  unfold Document.record fieldOf
  dsimp only
  by_cases hkey : key = ascii "general.architecture"
  · rw [if_pos hkey, if_pos hkey]
    cases item <;> rfl
  · rw [if_neg hkey, if_neg hkey]
    cases numericUint32 item.value with
    | none => rfl
    | some n =>
      dsimp only
      split_ifs <;> rfl

/-- The keys of numbers are different keys, so an entry goes to at most one of the parts. -/
theorem record_numbers (document : Document) (field : Bytes × Item) :
    (document.record field.1 field.2.value).fileType =
        (fieldOf "general.file_type" (·.number.map some) field).getD document.fileType ∧
      (document.record field.1 field.2.value).shardNo =
        (fieldOf "split.no" (·.number.map some) field).getD document.shardNo ∧
      (document.record field.1 field.2.value).shardCount =
        (fieldOf "split.count" (·.number.map some) field).getD document.shardCount ∧
      (document.record field.1 field.2.value).alignment =
        (fieldOf "general.alignment" Item.number field).getD document.alignment := by
  obtain ⟨key, item⟩ := field
  have hkeys : [ascii "general.architecture", ascii "general.file_type", ascii "split.no",
      ascii "split.count", ascii "general.alignment"].Nodup := by decide
  simp only [Document.record, fieldOf, Item.numericUint32_value]
  by_cases harch : key = ascii "general.architecture"
  · subst harch
    cases item.value <;> simp_all
  cases item.number with
  | none => simp [harch]
  | some n =>
    by_cases hfile : key = ascii "general.file_type"
    · subst hfile
      simp_all
    by_cases hno : key = ascii "split.no"
    · subst hno
      simp_all
    by_cases hcount : key = ascii "split.count"
    · subst hcount
      simp_all
    by_cases halignment : key = ascii "general.alignment" <;> simp_all

theorem fieldOf_map {α β : Type} (key : String) (read : Item → Option α) (f : α → β) :
    fieldOf key (fun item => (read item).map f) = Option.map f ∘ fieldOf key read := by
  funext field
  simp only [fieldOf, Function.comp_apply]
  split <;> rfl

attribute [ext] Document

theorem record_version (document : Document) (key : Bytes) (value : Value) :
    (document.record key value).version = document.version := by
  unfold Document.record
  split_ifs <;> split <;> rfl

namespace Draft

/-- What the parser has before it reads metadata. -/
def initial (draft : Draft) : Document :=
  ⟨3, draft.tensors.length, [], none, none, none, defaultAlignment⟩

theorem recordAll_initial (draft : Draft) :
    recordAll draft.initial draft.metadata = draft.document := by
  have hnumber (key : String) :
      draft.metadata.reverse.findSome? (fieldOf key (·.number.map some)) =
        (draft.last key Item.number).map some := by
    rw [fieldOf_map, last, List.map_findSome?]
  have hkept {part : Document → Nat}
      (hpart : ∀ (d : Document) (field : Bytes × Item),
        part (d.record field.1 field.2.value) = part d) :
      part (recordAll draft.initial draft.metadata) = part draft.initial :=
    List.foldlRecOn (motive := fun d => part d = part draft.initial) draft.metadata _ rfl
      fun d h field _ => (hpart d field).trans h
  have hlast (n : Option Nat) : (n.map some).getD none = n := by cases n <;> rfl
  apply Document.ext
  · exact hkept fun d field => record_version ..
  · exact hkept fun d field => Document.record_tensorCount ..
  · rw [part_recordAll record_architecture]
    rfl
  · rw [part_recordAll fun d field => (record_numbers d field).1, hnumber]
    exact hlast _
  · rw [part_recordAll fun d field => (record_numbers d field).2.1, hnumber]
    exact hlast _
  · rw [part_recordAll fun d field => (record_numbers d field).2.2.1, hnumber]
    exact hlast _
  · rw [part_recordAll fun d field => (record_numbers d field).2.2.2]
    rfl

end Draft

theorem reads_readHeader {draft : Draft} (hmetadata : draft.metadata.length ≤ maxMetadataEntries)
    (htensors : draft.tensors.length ≤ maxTensors) :
    Reads readHeader (formatGGUF ++ (uintBytes 4 3 ++ (uintBytes 8 draft.tensors.length ++
      uintBytes 8 draft.metadata.length))) (draft.initial, draft.metadata.length) := by
  have hcount : draft.tensors.length < 256 ^ 8 := by
    unfold maxTensors at htensors
    omega
  have hentries : draft.metadata.length < 256 ^ 8 := by
    unfold maxMetadataEntries at hmetadata
    omega
  refine (reads_context (reads_readFull formatGGUF) _ _).bind (.pass (not_not.2 rfl) ?_)
  refine (reads_context (reads_readUint (by omega : 3 < 256 ^ 4)) _ _).bind
    (.pass (not_not.2 rfl) ?_)
  refine (reads_context (reads_readUint hcount) _ _).bind (.pass (Nat.not_lt.2 htensors) ?_)
  rw [← List.append_nil (uintBytes 8 draft.metadata.length)]
  exact (reads_context (reads_readUint hentries) _ _).bind
    (.pass (Nat.not_lt.2 hmetadata) (.pure (draft.initial, draft.metadata.length)))

theorem reads_readDocument {draft : Draft} {fileSize : Nat} (h : draft.Valid fileSize) :
    Reads readDocument draft.serialise (draft.document, draft.tensors.map Entry.tensor) := by
  have hheader := reads_readHeader h.metadata_le h.tensors_le
  have hmetadata := reads_readMetadata draft.initial h.key_le h.fits
  rw [draft.recordAll_initial] at hmetadata
  obtain ⟨hpos, hdvd, hle⟩ := h.alignment
  have hserialise : draft.serialise = (formatGGUF ++ (uintBytes 4 3 ++
      (uintBytes 8 draft.tensors.length ++ uintBytes 8 draft.metadata.length))) ++
        (draft.metadata.flatMap fieldBytes ++ draft.tensors.flatMap Entry.bytes) := by
    simp [Draft.serialise]
  rw [hserialise]
  refine hheader.bind (hmetadata.bind (.pass ?_ ?_))
  · rintro (hzero | hmod | hlt)
    · exact hpos.ne' hzero
    · exact hmod (Nat.mod_eq_zero_of_dvd hdvd)
    · exact Nat.not_lt.2 hle hlt
  · exact (reads_readTensors [] h.tensors h.names).then_pure fun tensors =>
      (draft.document, tensors)

/-! ## Tensor data -/

theorem pairwise_insertTensor (t : Tensor) {ts : List Tensor}
    (h : ts.Pairwise fun t t' => t.offset ≤ t'.offset) :
    (insertTensor t ts).Pairwise fun t t' => t.offset ≤ t'.offset := by
  induction ts with
  | nil => simp [insertTensor]
  | cons u us ih =>
    obtain ⟨hu, hus⟩ := List.pairwise_cons.1 h
    rw [insertTensor]
    split
    case isTrue hlt =>
      refine List.pairwise_cons.2 ⟨fun x hx => ?_, h⟩
      rcases List.mem_cons.1 hx with rfl | hx
      · exact hlt.le
      · exact hlt.le.trans (hu x hx)
    case isFalse hle =>
      refine List.pairwise_cons.2 ⟨fun x hx => ?_, ih hus⟩
      rcases List.mem_cons.1 ((insertTensor_perm t us).mem_iff.1 hx) with rfl | hx
      · exact Nat.not_lt.1 hle
      · exact hu x hx

theorem pairwise_sortTensors (tensors : List Tensor) :
    (sortTensors tensors).Pairwise fun t t' => t.offset ≤ t'.offset :=
  List.foldlRecOn tensors _ .nil fun _ h t _ => pairwise_insertTensor t h

/-- Tensor data without overlap is in order once it is sorted by the offsets. -/
theorem ordered_of_disjoint {entries : List Entry} (hpos : ∀ e ∈ entries, 0 < e.size)
    (h : entries.Pairwise fun e e' => Disjoint (e.range 0) (e'.range 0)) :
    Ordered 0 (sortTensors (entries.map Entry.tensor)) := by
  have hapart : (entries.map Entry.tensor).Pairwise fun t t' =>
      t.offset + t.size ≤ t'.offset ∨ t'.offset + t'.size ≤ t.offset := by
    rw [List.pairwise_map]
    refine h.imp_of_mem fun {e e'} he he' hdisjoint => ?_
    have hsize := hpos e he
    have hsize' := hpos e' he'
    -- otherwise the later of the two offsets is in both ranges
    by_contra hover
    refine Set.disjoint_left.1 hdisjoint (?_ : max e.offset e'.offset ∈ _) ?_ <;>
    · simp only [Entry.tensor_offset, Entry.tensor_size] at hover
      simp only [Entry.range, Set.mem_Ico]
      omega
  have hsorted := ((sortTensors_perm _).pairwise_iff fun h => h.symm).2 hapart
  refine ⟨fun t _ => Nat.zero_le _, ?_⟩
  refine ((pairwise_sortTensors _).and hsorted).imp_of_mem fun {t t'} ht ht' hboth => ?_
  have hsize : ∀ t ∈ sortTensors (entries.map Entry.tensor), 0 < t.size := by
    intro t ht
    obtain ⟨e, he, rfl⟩ := List.mem_map.1 ((sortTensors_perm _).mem_iff.1 ht)
    exact hpos e he
  have := hsize t' ht'
  omega

/-- **The parser inverts the writer.** A file that is written within the limits is accepted, for
the document that its metadata and tensors describe. -/
theorem parseGGUF_serialise (draft : Draft) (data : Bytes)
    (hlength : (draft.serialise ++ data).length < 2 ^ 63)
    (hvalid : draft.Valid (draft.serialise ++ data).length) :
    parseGGUF (draft.serialise ++ data) = .ok draft.document := by
  obtain ⟨htakes, -⟩ := (reads_readDocument hvalid).takes parses_readDocument
  have hpos : ∀ t ∈ draft.tensors.map Entry.tensor, 0 < t.size := by
    simpa using fun e he => (hvalid.tensors e he).size_pos
  have hmax : (draft.serialise ++ data).length ≤ maxUint64 := by
    unfold maxUint64
    omega
  refine (parseGGUF_ok_iff htakes hpos data _).2 ⟨rfl, fun hne => ⟨draft.dataStart, ?_, ?_, ?_⟩⟩
  · obtain ⟨e, he⟩ := List.exists_mem_of_ne_nil draft.tensors (by simpa using hne)
    have hin := hvalid.inFile e he
    rw [alignUint64_eq_some hvalid.alignment.1]
    · exact ⟨by unfold Draft.dataStart at hin; omega, rfl⟩
    · rw [List.length_append] at hmax
      omega
  · exact ordered_of_disjoint (fun e he => (hvalid.tensors e he).size_pos) hvalid.disjoint
  · intro t ht
    obtain ⟨e, he, rfl⟩ := List.mem_map.1 ht
    have hin := hvalid.inFile e he
    rw [Entry.tensor_offset, Entry.tensor_size, ← Nat.add_assoc]
    exact ⟨hin.trans hmax, hin⟩

/-- A file with a nested array, an alignment that is written twice and one tensor. -/
def sampleDraft : Draft where
  metadata := [(ascii "general.architecture", .string (ascii "llama")),
    (ascii "general.alignment", .uint32 8),
    (ascii "tokens", .array 9 [.array 8 [.string (ascii "a")], .array 0 []]),
    (ascii "general.alignment", .int16 16),
    (ascii "general.alignment", .float32 0)]
  tensors := [⟨ascii "t", [2], 0, 16⟩]

theorem parseGGUF_serialise_sample :
    parseGGUF (sampleDraft.serialise ++ List.replicate 64 0) =
      .ok ⟨3, 1, ascii "llama", none, none, none, 16⟩ := by
  have hlength : sampleDraft.serialise.length = 262 := by decide +kernel
  have hdocument : sampleDraft.document = ⟨3, 1, ascii "llama", none, none, none, 16⟩ := by
    decide +kernel
  have hfile : (sampleDraft.serialise ++ List.replicate 64 0).length = 326 := by
    rw [List.length_append, hlength, List.length_replicate]
  rw [← hdocument]
  refine parseGGUF_serialise sampleDraft (List.replicate 64 0) (by omega) ?_
  rw [hfile]
  have htensors : ∀ e ∈ sampleDraft.tensors, e = ⟨ascii "t", [2], 0, 16⟩ := by simp [sampleDraft]
  exact {
    metadata_le := by decide
    tensors_le := by decide
    key_le := by decide
    fits := by
      simp [sampleDraft, Item.Fits, Item.tag, maxStringBytes, maxUint32, maxArrayEntries,
        ascii]
    alignment := by rw [hdocument]; decide
    tensors := by
      rw [hdocument]
      intro e he
      rw [htensors e he]
      constructor <;> decide
    names := by simp [sampleDraft]
    disjoint := by simp [sampleDraft]
    inFile := by
      intro e he
      rw [htensors e he, Draft.dataStart, hlength, hdocument]
      decide }

end Kama.Artifact.Gguf
