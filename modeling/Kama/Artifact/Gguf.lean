import Kama.Artifact.Manifest

/-!
# GGUF files

The bounded parser of `gguf.go` and the check of a whole set of files. `parseGGUF` reads the
header, the metadata and the tensor table of one file and checks that the tensor data lies within
it without overlap. `validateGGUFSet` compares the documents of all files of a manifest with each
other and with the standard shard names.

The functions of the parser are written over any type that `io.ReadFull` can read from
(`ReadsFull`): here from the bytes of a file, in `Kama.Artifact.GgufStream` from a stream.

Numbers of the file are natural numbers below the bound of their width, and products and sums of
64-bit numbers wrap. The position in a file needs no bound: the length of a file is an `int64`.
-/

namespace Kama.Artifact

open Bytes Json

namespace Gguf

def maxMetadataEntries : Nat := 2 ^ 20

def maxStringBytes : Nat := 16 * 2 ^ 20

def maxArrayEntries : Nat := 2 ^ 24

def maxTensors : Nat := 2 ^ 20

def defaultAlignment : Nat := 32

def maxUint32 : Nat := 2 ^ 32 - 1

def maxUint64 : Nat := 2 ^ 64 - 1

structure Document where
  version : Nat
  tensorCount : Nat
  architecture : Bytes
  fileType : Option Nat
  shardNo : Option Nat
  shardCount : Option Nat
  alignment : Nat
  deriving DecidableEq, Repr

structure Tensor where
  name : Bytes
  offset : Nat
  size : Nat
  deriving DecidableEq, Repr

/-- Code that reads from a `σ`. -/
abbrev Read (σ : Type) := StateT σ (Except Err)

/-- What can be read from. -/
class ReadsFull (σ : Type) where
  /-- `io.ReadFull` of `n` bytes -/
  readFull (n : Nat) : Read σ Bytes

export ReadsFull (readFull)

def eof : Err := .new "EOF"

def unexpectedEOF : Err := .new "unexpected EOF"

/-- `io.ReadFull` from the bytes that are left. -/
instance : ReadsFull Bytes where
  readFull n s :=
    if n ≤ s.length then .ok (s.take n, s.drop n)
    else .error (if s = [] then eof else unexpectedEOF)

theorem readFull_bytes (n : Nat) (s : Bytes) : readFull n s =
    if n ≤ s.length then .ok (s.take n, s.drop n)
    else .error (if s = [] then eof else unexpectedEOF) :=
  rfl

section Parser

variable {σ : Type}

/-- Wrap the error of a read. -/
def context {α : Type} (format : String) (arguments : List Bytes) (r : Read σ α) : Read σ α :=
  fun s => (r s).mapError (.wrap format arguments)

/-- Do the same `n` times. -/
def times (n : Nat) (r : Read σ Unit) : Read σ Unit :=
  match n with
  | 0 => pure ()
  | n + 1 => do
    r
    times n r

variable [ReadsFull σ]

def littleEndian : Bytes → Nat
  | [] => 0
  | b :: bs => b.toNat + 256 * littleEndian bs

/-- `binary.Read` of an unsigned integer of `n` bytes. -/
def readUint (n : Nat) : Read σ Nat := do
  let bytes ← readFull n
  pure (littleEndian bytes)

/-- `binary.Read` of a signed integer of `n` bytes. -/
def readInt (n : Nat) : Read σ Int := do
  let u ← readUint n
  pure (if u < 2 ^ (8 * n - 1) then u else (u : Int) - 2 ^ (8 * n))

def readString : Read σ Bytes := do
  let length ← readUint 8
  if maxStringBytes < length then
    throw (.text "string length %d exceeds limit" [natDigits length])
  readFull length

/-- A metadata value, as far as the parser looks at it. -/
inductive Value
  | string (s : Bytes)
  | unsigned (n : Nat)
  | signed (i : Int)
  /-- a float, a boolean or an array -/
  | other
  deriving DecidableEq, Repr

/-- `readGGUFValue`; `fuel` is what is left of the nesting limit. -/
def readValue : Nat → Nat → Read σ Value
  | 0, _ => throw (.new "GGUF array nesting exceeds limit")
  | fuel + 1, valueType =>
    match valueType with
    | 0 => do pure (.unsigned (← readUint 1))
    | 1 => do pure (.signed (← readInt 1))
    | 2 => do pure (.unsigned (← readUint 2))
    | 3 => do pure (.signed (← readInt 2))
    | 4 => do pure (.unsigned (← readUint 4))
    | 5 => do pure (.signed (← readInt 4))
    | 6 => do
      let _ ← readFull 4
      pure .other
    | 7 => do
      let value ← readUint 1
      if 1 < value then throw (.new "invalid boolean value")
      pure .other
    | 8 => do pure (.string (← readString))
    | 9 => do
      let elementType ← readUint 4
      let count ← readUint 8
      if maxArrayEntries < count then
        throw (.text "array length %d exceeds limit" [natDigits count])
      times count do let _ ← readValue fuel elementType
      pure .other
    | 10 => do pure (.unsigned (← readUint 8))
    | 11 => do pure (.signed (← readInt 8))
    | 12 => do
      let _ ← readFull 8
      pure .other
    | _ => throw (.text "unsupported GGUF value type %d" [natDigits valueType])

def numericUint32 : Value → Option Nat
  | .unsigned n => if n ≤ maxUint32 then some n else none
  | .signed i => if 0 ≤ i ∧ i ≤ maxUint32 then some i.toNat else none
  | _ => none

/-- The metadata that the parser keeps. -/
def Document.record (document : Document) (key : Bytes) (value : Value) : Document :=
  if key = ascii "general.architecture" then
    match value with
    | .string s => { document with architecture := s }
    | _ => document
  else
    match numericUint32 value with
    | none => document
    | some n =>
      if key = ascii "general.file_type" then { document with fileType := some n }
      else if key = ascii "split.no" then { document with shardNo := some n }
      else if key = ascii "split.count" then { document with shardCount := some n }
      else if key = ascii "general.alignment" then { document with alignment := n }
      else document

def readMetadata : Nat → Document → Read σ Document
  | 0, document => pure document
  | count + 1, document => do
    let key ← context "read metadata key: %w" [] readString
    let valueType ← context "read metadata type for %q: %w" [key] (readUint 4)
    let value ← context "read metadata value for %q: %w" [key] (readValue 5 valueType)
    readMetadata count (document.record key value)

/-! ## Tensors -/

/-- The elements and bytes of a block, by tensor type. -/
def blocks : List (Nat × Nat × Nat) :=
  [(0, 1, 4), (1, 1, 2), (2, 32, 18), (3, 32, 20), (6, 32, 22), (7, 32, 24), (8, 32, 34),
    (9, 32, 36), (10, 256, 84), (11, 256, 110), (12, 256, 144), (13, 256, 176), (14, 256, 210),
    (15, 256, 292), (16, 256, 66), (17, 256, 74), (18, 256, 98), (19, 256, 50), (20, 32, 18),
    (21, 256, 110), (22, 256, 82), (23, 256, 136), (24, 1, 1), (25, 1, 2), (26, 1, 4), (27, 1, 8),
    (28, 1, 8), (29, 256, 56), (30, 1, 2), (34, 256, 54), (35, 256, 66), (39, 32, 17),
    (40, 64, 36), (41, 128, 18), (42, 64, 18)]

/-- The number of blocks, by the dimensions after the first. -/
def countBlocks : Nat → List Nat → Except Err Nat
  | n, [] => .ok n
  | n, dimension :: rest =>
    if maxUint64 / n < dimension then .error (.new "tensor element count overflows")
    else countBlocks (n * dimension % 2 ^ 64) rest

def ggmlTensorSize (tensorType : Nat) (shape : List Nat) : Except Err Nat := do
  match blocks.lookup tensorType with
  | none => throw (.text "unsupported GGML tensor type %d" [natDigits tensorType])
  | some (elements, bytes) =>
    let first := shape.headD 0
    if first % elements ≠ 0 then
      throw (.text "first dimension %d is not a multiple of type block %d"
        [natDigits first, natDigits elements])
    let n ← countBlocks (first / elements) shape.tail
    if maxUint64 / bytes < n then throw (.new "tensor byte size overflows")
    pure (n * bytes % 2 ^ 64)

def readShape (name : Bytes) : Nat → Read σ (List Nat)
  | 0 => pure []
  | dimensions + 1 => do
    let dimension ← context "read tensor shape for %q: %w" [name] (readUint 8)
    if dimension = 0 then throw (.text "tensor %q has a zero dimension" [name])
    let rest ← readShape name dimensions
    pure (dimension :: rest)

def readTensor (alignment : Nat) (names : List Bytes) : Read σ Tensor := do
  let name ← context "read tensor name: %w" [] readString
  if name = [] ∨ 64 < name.length ∨ Utf8.validString name = false then
    throw (.new "tensor name must be 1-64 bytes of valid UTF-8")
  if name ∈ names then throw (.text "duplicate tensor name %q" [name])
  let dimensions ← context "read tensor dimensions for %q: %w" [name] (readUint 4)
  if dimensions = 0 ∨ 4 < dimensions then
    throw (.text "tensor %q dimension count %d is outside 1..4" [name, natDigits dimensions])
  let shape ← readShape name dimensions
  let tensorType ← context "read tensor type for %q: %w" [name] (readUint 4)
  let offset ← context "read tensor offset for %q: %w" [name] (readUint 8)
  if offset % alignment ≠ 0 then
    throw (.text "tensor %q offset is not %d-byte aligned" [name, natDigits alignment])
  let size ← StateT.lift ((ggmlTensorSize tensorType shape).mapError (.wrap "tensor %q: %w" [name]))
  pure ⟨name, offset, size⟩

def readTensors (alignment : Nat) : Nat → List Tensor → Read σ (List Tensor)
  | 0, tensors => pure tensors
  | count + 1, tensors => do
    let tensor ← readTensor alignment (tensors.map Tensor.name)
    readTensors alignment count (tensors ++ [tensor])

def addUint64 (left right : Nat) : Option Nat :=
  if maxUint64 - left < right then none else some ((left + right) % 2 ^ 64)

def alignUint64 (value alignment : Nat) : Option Nat :=
  if value % alignment = 0 then some value else addUint64 value (alignment - value % alignment)

/-- The tensor data in the order of the offsets: within the file and without overlap. -/
def checkTensors (dataStart fileSize : Nat) : Nat → List Tensor → Except Err Unit
  | _, [] => .ok ()
  | previousEnd, tensor :: tensors =>
    if tensor.offset < previousEnd then
      .error (.text "tensor %q overlaps prior tensor data" [tensor.name])
    else
      match addUint64 tensor.offset tensor.size with
      | none => .error (.text "tensor %q data range overflows" [tensor.name])
      | some stop =>
        if (addUint64 dataStart stop).all fun n => decide (fileSize < n) then
          .error (.text "tensor %q data exceeds file bounds" [tensor.name])
        else checkTensors dataStart fileSize stop tensors

def insertTensor (tensor : Tensor) : List Tensor → List Tensor
  | [] => [tensor]
  | t :: ts => if tensor.offset < t.offset then tensor :: t :: ts else t :: insertTensor tensor ts

def sortTensors (tensors : List Tensor) : List Tensor :=
  tensors.foldl (fun sorted t => insertTensor t sorted) []

/-! ## Documents -/

def readHeader : Read σ (Document × Nat) := do
  let magic ← context "read magic: %w" [] (readFull 4)
  if magic ≠ formatGGUF then throw (.text "invalid GGUF magic %q" [magic])
  let version ← context "read version: %w" [] (readUint 4)
  if version ≠ 3 then throw (.text "unsupported GGUF version %d" [natDigits version])
  let tensorCount ← context "read tensor count: %w" [] (readUint 8)
  if maxTensors < tensorCount then
    throw (.text "tensor count %d exceeds limit" [natDigits tensorCount])
  let metadataCount ← context "read metadata count: %w" [] (readUint 8)
  if maxMetadataEntries < metadataCount then
    throw (.text "metadata count %d exceeds limit" [natDigits metadataCount])
  pure (⟨version, tensorCount, [], none, none, none, defaultAlignment⟩, metadataCount)

def readDocument : Read σ (Document × List Tensor) := do
  let (document, metadataCount) ← readHeader
  let document ← readMetadata metadataCount document
  if document.alignment = 0 ∨ document.alignment % 8 ≠ 0 ∨ 2 ^ 20 < document.alignment then
    throw (.text "general.alignment %d is invalid" [natDigits document.alignment])
  let tensors ← readTensors document.alignment document.tensorCount []
  pure (document, tensors)

end Parser

/-- `parseGGUF` of a file with this content. -/
def parseGGUF (content : Bytes) : Except Err Document := do
  let ((document, tensors), rest) ← readDocument content
  if tensors = [] then pure document
  else
    match alignUint64 (content.length - rest.length) document.alignment with
    | none => throw (.new "GGUF data offset overflows")
    | some dataStart =>
      checkTensors dataStart content.length 0 (sortTensors tensors)
      pure document

/-! ## Sets of files -/

/-- `GGUFMetadata`. -/
structure Metadata where
  version : Nat
  architecture : Bytes
  quantization : Bytes
  shardCount : Nat
  tensorCount : Nat
  deriving DecidableEq, Repr

/-- The names of `llama_ftype`. -/
def fileTypes : List (Nat × String) :=
  [(0, "F32"), (1, "F16"), (2, "Q4_0"), (3, "Q4_1"), (7, "Q8_0"), (8, "Q5_0"), (9, "Q5_1"),
    (10, "Q2_K"), (11, "Q3_K_S"), (12, "Q3_K_M"), (13, "Q3_K_L"), (14, "Q4_K_S"), (15, "Q4_K_M"),
    (16, "Q5_K_S"), (17, "Q5_K_M"), (18, "Q6_K"), (19, "IQ2_XXS"), (20, "IQ2_XS"), (21, "Q2_K_S"),
    (22, "IQ3_XS"), (23, "IQ3_XXS"), (24, "IQ1_S"), (25, "IQ4_NL"), (26, "IQ3_S"), (27, "IQ3_M"),
    (28, "IQ2_S"), (29, "IQ2_M"), (30, "IQ4_XS"), (31, "IQ1_M"), (32, "BF16"), (36, "TQ1_0"),
    (37, "TQ2_0"), (38, "MXFP4_MOE"), (39, "NVFP4"), (40, "Q1_0"), (41, "Q2_0")]

def quantizationName (fileType : Nat) : Bytes :=
  match fileTypes.lookup fileType with
  | some name => ascii name
  | none => ascii "FILE_TYPE_" ++ natDigits fileType

def validArchitecture (value : Bytes) : Bool :=
  decide (value ≠ [] ∧ value.length ≤ 64) && Utf8.validString value &&
    match value with
    | [] => false
    | b :: rest => (isLower b || isDigit b) &&
      rest.all fun b => isLower b || isDigit b || b == 95 || b == 45 || b == 46

/-- The parts of a standard shard name: `^(.*)-(\d{5})-of-(\d{5})\.gguf$`. -/
def shardParts (base : Bytes) : Option (Bytes × Bytes × Bytes) :=
  let stem := base.take (base.length - 20)
  let rest := base.drop (base.length - 20)
  let no := (rest.drop 1).take 5
  let count := (rest.drop 10).take 5
  if 20 ≤ base.length ∧ 10 ∉ stem ∧
      rest = ascii "-" ++ no ++ ascii "-of-" ++ count ++ ascii ".gguf" ∧
      no.all isDigit ∧ count.all isDigit then some (stem, no, count)
  else none

/-- `path.Base` of a valid relative path. -/
def baseName (p : Bytes) : Bytes := (splitSlash p).getLastD []

/-- A name in the directory of a valid relative path. -/
def siblingName (p base : Bytes) : Bytes := joinSlash ((splitSlash p).dropLast ++ [base])

/-- A number with at least five digits. -/
def fiveDigits (n : Nat) : Bytes :=
  List.replicate (5 - (natDigits n).length) 48 ++ natDigits n

def shardName (stem : Bytes) (index count : Nat) : Bytes :=
  stem ++ ascii "-" ++ fiveDigits index ++ ascii "-of-" ++ fiveDigits count ++ ascii ".gguf"

def validateShardEntrypoint (entrypoint : Bytes) : Except Err Unit :=
  match shardParts (baseName entrypoint) with
  | some (_, no, _) =>
    if no ≠ ascii "00001" then
      .error (.failure .invalidSpec "validate GGUF entrypoint"
        (.new "a standard sharded entrypoint must be shard 00001"))
    else .ok ()
  | none => .ok ()

def invalid (message : String) : Err :=
  .failure .invalidGGUF "validate GGUF metadata" (.new message)

/-- The documents agree with the first, and their tensors are counted. -/
def countTensors (first : Document) : Nat → List Document → Except Err Nat
  | total, [] => .ok total
  | total, document :: documents =>
    if document.architecture ≠ first.architecture then
      .error (invalid "shards report different architectures")
    else if document.fileType ≠ first.fileType then
      .error (invalid "shards report different file types")
    else if maxUint64 - document.tensorCount < total then .error (invalid "tensor count overflow")
    else countTensors first (total + document.tensorCount) documents

def shardError (format : String) (arguments : List Bytes) : Err :=
  .failure .missingShard "validate GGUF shards" (.text format arguments)

/-- Every document is an expected shard, each expected once; `expected` is what is left. -/
def checkShards (count : Nat) :
    List (Bytes × Nat) → List (Bytes × Document) → Except Err Unit
  | expected, [] =>
    if expected ≠ [] then .error (shardError "standard shard set is incomplete" []) else .ok ()
  | expected, (path, document) :: documents =>
    match expected.lookup path with
    | none => .error (shardError "unexpected shard %q" [path])
    | some index =>
      if document.shardCount ≠ some count then
        .error (shardError "%q has missing or inconsistent split.count" [path])
      else if document.shardNo ≠ some index then
        .error (shardError "%q has missing or inconsistent split.no" [path])
      else checkShards count (expected.filter fun e => e.1 ≠ path) documents

def expectedShards (entrypoint stem : Bytes) (count : Nat) : List (Bytes × Nat) :=
  (List.range count).map fun i => (siblingName entrypoint (shardName stem (i + 1) count), i)

/-- `ValidateGGUFSet` on the documents of the files of a valid manifest with its entrypoint
checked. -/
def checkSet (m : Manifest) (documents : List (Bytes × Document)) : Except Err Metadata := do
  match documents with
  | [] => throw (.new "index out of range")
  | (_, first) :: _ =>
    if first.architecture = [] then throw (invalid "general.architecture metadata is missing")
    if validArchitecture first.architecture = false then
      throw (invalid "general.architecture is not a bounded canonical identifier")
    let tensorCount ← countTensors first 0 (documents.map Prod.snd)
    let quantization := (first.fileType.map quantizationName).getD []
    match shardParts (baseName m.entrypoint) with
    | none =>
      if documents.length ≠ 1 then
        throw (shardError "multiple GGUF files do not use the standard shard naming scheme" [])
      if first.shardCount.any fun n => decide (1 < n) then
        throw (shardError
          "GGUF metadata declares %d shards but the entrypoint is not standard-sharded"
          [natDigits (first.shardCount.getD 0)])
      pure ⟨3, first.architecture, quantization, 1, tensorCount⟩
    | some (stem, _, digits) =>
      let count := ofDigits digits
      if count < 1 ∨ maxSelectedFiles < count then
        throw (shardError "declared shard count %d is outside 1..%d"
          [natDigits count, natDigits maxSelectedFiles])
      if documents.length ≠ count then
        throw (shardError "found %d of %d standard shards"
          [natDigits documents.length, natDigits count])
      checkShards count (expectedShards m.entrypoint stem count) documents
      pure ⟨3, first.architecture, quantization, count, tensorCount⟩

/-! ## What is accepted -/

/-- Every document is the shard that its name says, and no expected shard is missing. -/
theorem checkShards_all {count : Nat} {expected : List (Bytes × Nat)}
    {documents : List (Bytes × Document)} (h : checkShards count expected documents = .ok ()) :
    (∀ d ∈ documents, d.2.shardCount = some count ∧
      ∃ index, (d.1, index) ∈ expected ∧ d.2.shardNo = some index) ∧
    ∀ e ∈ expected, e.1 ∈ documents.map Prod.fst := by
  induction documents generalizing expected with
  | nil =>
    rw [checkShards] at h
    split at h
    · cases h
    · rename_i hempty
      rw [not_not.1 hempty]
      simp
  | cons d documents ih =>
    obtain ⟨path, document⟩ := d
    rw [checkShards] at h
    split at h
    · cases h
    rename_i index hindex
    split at h
    · cases h
    rename_i hcount
    split at h
    · cases h
    rename_i hno
    obtain ⟨hdocuments, hexpected⟩ := ih h
    have hmem : (path, index) ∈ expected := by
      obtain ⟨l, l', rfl, -⟩ := List.lookup_eq_some_iff.1 hindex
      simp
    refine ⟨List.forall_mem_cons.2 ⟨⟨not_not.1 hcount, index, hmem, not_not.1 hno⟩,
      fun d hd => ?_⟩, fun e he => ?_⟩
    · obtain ⟨hd, i, hi, hshard⟩ := hdocuments d hd
      exact ⟨hd, i, (List.mem_filter.1 hi).1, hshard⟩
    · by_cases hpath : e.1 = path
      · rw [hpath]
        exact List.mem_cons_self
      · exact List.mem_cons_of_mem _
          (hexpected e (List.mem_filter.2 ⟨he, decide_eq_true hpath⟩))

/-- Several files are shards next to the entrypoint, with names in the standard scheme. -/
theorem checkSet_ok {m : Manifest} {documents : List (Bytes × Document)} {metadata : Metadata}
    (h : checkSet m documents = .ok metadata) :
    documents.length = 1 ∨ ∀ d ∈ documents, ∃ stem index count,
      d.1 = siblingName m.entrypoint (shardName stem index count) := by
  unfold checkSet at h
  simp only [bind, Except.bind, pure, Except.pure, throw, throwThe, MonadExceptOf.throw] at h
  split at h
  · simp at h
  split at h
  · simp at h
  split at h
  · simp at h
  split at h
  · simp at h
  split at h
  · split at h
    · simp at h
    · rename_i hlen
      exact .inl (by simpa using hlen)
  · rename_i stem no digits _
    split at h
    · simp at h
    split at h
    · simp at h
    split at h
    · simp at h
    · rename_i hshards
      refine .inr fun d hd => ?_
      obtain ⟨-, index, hindex, -⟩ := (checkShards_all hshards).1 d hd
      obtain ⟨i, -, hi⟩ := List.mem_map.1 hindex
      exact ⟨stem, i + 1, ofDigits digits, (Prod.mk.inj hi).1.symm⟩

end Gguf

end Kama.Artifact
