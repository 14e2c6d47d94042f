import Mathlib.Data.List.TakeWhile
import Kama.Artifact.Gguf
import Kama.Artifact.ImporterSpec

/-!
# Importer results

The `Result` of `types.go` is what an importer Job reports: one JSON value that the controller
reads from the log of the Job's Pod. It comes from outside of the controller, so `parseResult`
checks every part of it.

* `verifyExpectations` compares a manifest with the size and digest that were asked for.
  `toInt_aggregateSize`: where it accepts, the sizes add up without overflow.
* `strictDecoding_iff`: what `decodeSpec` and `parseResult` accept is a single value within the
  limit only if the stream is within the limit; of a longer one they see a part
  (`strictDecoding_overlong`).
-/

namespace Kama.Artifact

open Bytes Json Reader

structure ProbeResult where
  capacityBytes : Nat
  freeBytes : Nat
  write : Bool
  fsync : Bool
  atomicRename : Bool
  directoryRename : Bool
  mmap : Bool
  lock : Bool
  deriving DecidableEq, Repr

structure Result where
  schemaVersion : Int64
  mode : Bytes
  operationID : Bytes
  success : Bool
  reason : Bytes
  message : Bytes
  resolvedRevision : Bytes
  artifactDigest : Bytes
  manifest : Option Manifest
  gguf : Option Gguf.Metadata
  publishedPath : Bytes
  bytesTransferred : Int64
  validationMillis : Int64
  cacheHit : Bool
  probe : Option ProbeResult
  durationMillis : Int64
  deriving DecidableEq, Repr

def Result.zero : Result :=
  ⟨0, [], [], false, [], [], [], [], none, none, [], 0, 0, false, none, 0⟩

def ProbeResult.fields : Fields ProbeResult :=
  [(ascii "capacityBytes", setUint 64 fun n p => { p with capacityBytes := n }),
    (ascii "freeBytes", setUint 64 fun n p => { p with freeBytes := n }),
    (ascii "write", setBool fun b p => { p with write := b }),
    (ascii "fsync", setBool fun b p => { p with fsync := b }),
    (ascii "atomicRename", setBool fun b p => { p with atomicRename := b }),
    (ascii "directoryRename", setBool fun b p => { p with directoryRename := b }),
    (ascii "mmap", setBool fun b p => { p with mmap := b }),
    (ascii "lock", setBool fun b p => { p with lock := b })]

def Gguf.Metadata.fields : Fields Gguf.Metadata :=
  [(ascii "version", setUint 32 fun n m => { m with version := n }),
    (ascii "architecture", setString fun b m => { m with architecture := b }),
    (ascii "quantization", setString fun b m => { m with quantization := b }),
    (ascii "shardCount", setUint 32 fun n m => { m with shardCount := n }),
    (ascii "tensorCount", setUint 64 fun n m => { m with tensorCount := n })]

def Result.fields : Fields Result :=
  [(ascii "schemaVersion", setInt fun i r => { r with schemaVersion := Int64.ofInt i }),
    (ascii "mode", setString fun b r => { r with mode := b }),
    (ascii "operationID", setString fun b r => { r with operationID := b }),
    (ascii "success", setBool fun b r => { r with success := b }),
    (ascii "reason", setString fun b r => { r with reason := b }),
    (ascii "message", setString fun b r => { r with message := b }),
    (ascii "resolvedRevision", setString fun b r => { r with resolvedRevision := b }),
    (ascii "artifactDigest", setString fun b r => { r with artifactDigest := b }),
    (ascii "manifest",
      setPointer Manifest.fields Manifest.zero Result.manifest fun m r => { r with manifest := m }),
    (ascii "gguf",
      setPointer Gguf.Metadata.fields ⟨0, [], [], 0, 0⟩ Result.gguf
        fun g r => { r with gguf := g }),
    (ascii "publishedPath", setString fun b r => { r with publishedPath := b }),
    (ascii "bytesTransferred", setInt fun i r => { r with bytesTransferred := Int64.ofInt i }),
    (ascii "validationMillis", setInt fun i r => { r with validationMillis := Int64.ofInt i }),
    (ascii "cacheHit", setBool fun b r => { r with cacheHit := b }),
    (ascii "probe",
      setPointer ProbeResult.fields ⟨0, 0, false, false, false, false, false, false⟩ Result.probe
        fun p r => { r with probe := p }),
    (ascii "durationMillis", setInt fun i r => { r with durationMillis := Int64.ofInt i })]

/-! ## Accepting a result -/

def Reason.text : Reason → Bytes
  | .invalidSpec => ascii "InvalidSpec"
  | .unsafePath => ascii "UnsafePath"
  | .sourceUnavailable => ascii "SourceUnavailable"
  | .unauthorized => ascii "Unauthorized"
  | .checksumMismatch => ascii "ChecksumMismatch"
  | .invalidGGUF => ascii "InvalidGGUF"
  | .missingShard => ascii "MissingShard"
  | .insufficientStorage => ascii "InsufficientStorage"
  | .ioFailure => ascii "IOFailure"
  | .publicationConflict => ascii "PublicationConflict"

def reasons : List Reason :=
  [.invalidSpec, .unsafePath, .sourceUnavailable, .unauthorized, .checksumMismatch, .invalidGGUF,
    .missingShard, .insufficientStorage, .ioFailure, .publicationConflict]

def validReason (reason : Bytes) : Bool := reasons.any fun r => r.text == reason

def validMode (mode : Bytes) : Bool :=
  [modeUnknown, modeHub, modeCopy, modeDirect, modeProbe, modeCleanup].contains mode

def validateResultMeasurements (result : Result) : Except Err Unit := do
  if result.bytesTransferred < 0 then
    throw (.new "importer result bytesTransferred must not be negative")
  if result.durationMillis < 0 then
    throw (.new "importer result duration must not be negative")
  if result.validationMillis < 0 then
    throw (.new "importer result validationMillis must not be negative")
  if result.durationMillis < result.validationMillis then
    throw (.new "importer result validationMillis exceeds total duration")

/-- The parts that a successful result of each mode has. -/
def validateShape (result : Result) : Except Err Unit := do
  if result.success then
    if result.mode = modeProbe then
      if result.probe = none ∨ result.manifest ≠ none ∨ result.gguf ≠ none ∨
          result.artifactDigest ≠ [] ∨ result.publishedPath ≠ [] then
        throw (.new "successful probe result has an invalid shape")
    else if result.mode = modeCleanup then
      if result.probe ≠ none ∨ result.manifest ≠ none ∨ result.gguf ≠ none ∨
          result.artifactDigest ≠ [] ∨ result.publishedPath ≠ [] then
        throw (.new "successful cleanup result has an invalid shape")
    else if result.mode = modeHub ∨ result.mode = modeCopy ∨ result.mode = modeDirect then
      if result.manifest = none ∨ result.gguf = none ∨ result.artifactDigest = [] ∨
          result.probe ≠ none then
        throw (.new "successful artifact result has an invalid shape")

def validateResult (result : Result) : Except Err Unit := do
  if result.schemaVersion ≠ schemaVersion then
    throw (.text "unsupported result schemaVersion %d" [decimal result.schemaVersion.toInt])
  if validMode result.mode = false then
    throw (.text "unsupported result mode %q" [result.mode])
  if result.operationID ≠ [] then
    (validateOperationID result.operationID).mapError (.wrap "invalid result operationID: %w" [])
  if result.success ∧ result.reason ≠ [] then
    throw (.new "successful importer result contains a failure reason")
  if result.success ∧ result.mode = modeUnknown then
    throw (.new "successful importer result has unknown mode")
  if result.success = false ∧ validReason result.reason = false then
    throw (.text "failed importer result has invalid reason %q" [result.reason])
  validateResultMeasurements result
  if result.artifactDigest ≠ [] ∧ validSHA256 result.artifactDigest = false then
    throw (.new "importer result artifactDigest is not lowercase SHA-256")
  if result.resolvedRevision ≠ [] ∧ validHubCommit result.resolvedRevision = false then
    throw (.new "importer result resolvedRevision is not a full immutable Hub commit")
  match result.manifest with
  | none => pure ()
  | some manifest =>
    if maxSelectedFiles < manifest.files.length then
      throw (.text "result has %d files, maximum is %d"
        [natDigits manifest.files.length, natDigits maxSelectedFiles])
    (validateManifest manifest).mapError (.wrap "invalid result manifest: %w" [])
  if result.publishedPath ≠ [] ∧ result.publishedPath ≠ ascii "." then
    (validateRelativePath result.publishedPath).mapError
      (.wrap "invalid result publishedPath: %w" [])
  validateShape result

/-- `ParseResult`, on the text that was read. -/
def parseResult (payload : Bytes) : Except Err Result :=
  match parse (payload.take (maxResultBytes + 1)) with
  | none => .error (.new "decode importer result")
  | some (j, rest) =>
    match decodeStruct Result.fields Result.zero j with
    | none => .error (.new "decode importer result")
    | some result => do
      validateResult result
      if skipSpace rest = [] then pure result
      else if (parse rest).isSome then
        throw (.new "importer result contains multiple JSON values")
      else throw (.new "decode trailing importer result data")

theorem length_files_le {m : Manifest} (h : validateManifest m = .ok ()) :
    m.files.length ≤ maxSelectedFiles := by
  obtain ⟨-, h⟩ := except_refuse_eq_ok.1 h
  obtain ⟨-, h⟩ := except_refuse_eq_ok.1 h
  obtain ⟨_, -, h⟩ := except_bind_eq_ok.1 h
  exact Nat.not_lt.1 fun hlt => (except_refuse_eq_ok.1 h).1 (.inr hlt)

/-! ## Expectations -/

/-- The sizes of the records added to `aggregate`, unless they exceed an `int64`. -/
def aggregateSize : Int64 → List FileRecord → Option Int64
  | aggregate, [] => some aggregate
  | aggregate, record :: records =>
    if Int64.maxValue - aggregate < record.size then none
    else aggregateSize (aggregate + record.size) records

/-- A size that fits in what is left below the largest `int64` is added without overflow. -/
theorem toInt_add_of_room {a b : Int64} (ha : 0 ≤ a) (hb : 0 ≤ b)
    (hroom : ¬ Int64.maxValue - a < b) : (a + b).toInt = a.toInt + b.toInt ∧ 0 ≤ a + b := by
  rw [Int64.le_iff_toInt_le, Int64.toInt_zero] at ha hb
  have hlt := Int64.toInt_lt a
  have hltb := Int64.toInt_lt b
  rw [Int64.lt_iff_toInt_lt, Int64.toInt_sub] at hroom
  have hmax : Int64.maxValue.toInt = 2 ^ 63 - 1 := rfl
  rw [Int64.le_iff_toInt_le, Int64.toInt_zero, Int64.toInt_add]
  rw [hmax] at hroom
  simp only [Int.bmod] at *
  omega

def verifyExpectations (m : Manifest) (expectedSHA256 : Bytes) (expectedSize : Option Int64) :
    Except Err Unit :=
  match aggregateSize 0 m.files with
  | none => .error (.failure .invalidSpec "verify artifact size"
      (.new "aggregate size overflows int64"))
  | some aggregate =>
    match expectedSize.filter (· ≠ aggregate) with
    | some expected => .error (.failure .checksumMismatch "verify artifact size"
        (.text "aggregate size is %d bytes, expected %d"
          [decimal aggregate.toInt, decimal expected.toInt]))
    | none =>
      if expectedSHA256 = [] then .ok ()
      else if validSHA256 expectedSHA256 = false then
        .error (.failure .invalidSpec "verify expected digest"
          (.new "expectedSHA256 must be 64 lowercase hexadecimal characters"))
      else do
        let actual ← artifactDigest m
        if actual ≠ expectedSHA256 then
          throw (.failure .checksumMismatch "verify artifact digest"
            (.text "computed SHA-256 %s does not match expected value" [actual]))

theorem toInt_aggregateSize {aggregate total : Int64} {records : List FileRecord}
    (h : aggregateSize aggregate records = some total) (ha : 0 ≤ aggregate)
    (hsize : ∀ r ∈ records, 0 ≤ r.size) :
    total.toInt = aggregate.toInt + (records.map fun r => r.size.toInt).sum := by
  induction records generalizing aggregate with
  | nil =>
    obtain rfl := Option.some.inj h
    simp
  | cons r records ih =>
    rw [aggregateSize] at h
    split at h
    · cases h
    · rename_i hroom
      have hr := hsize r (List.mem_cons_self ..)
      obtain ⟨hsum, hpos⟩ := toInt_add_of_room ha hr hroom
      rw [ih h hpos fun x hx => hsize x (List.mem_cons_of_mem _ hx), hsum, List.map_cons,
        List.sum_cons, Int.add_assoc]

/-! ## Bounded decoding -/

/-- One JSON value with nothing but white space around it. -/
def OneValue (s : Bytes) : Prop :=
  ∃ j rest, parse s = some (j, rest) ∧ ∀ b ∈ rest, isSpace b = true

theorem skipSpace_eq_nil {s : Bytes} : skipSpace s = [] ↔ ∀ b ∈ s, isSpace b = true :=
  List.dropWhile_eq_nil_iff

theorem decodeDocument_eq_ok {σ : Type} {fields : Fields σ} {zero v : σ} {s : Bytes} :
    decodeDocument fields zero s = .ok v ↔ ∃ j rest, parse s = some (j, rest) ∧
      decodeStruct fields zero j = some v ∧ skipSpace rest = [] := by
  unfold decodeDocument
  cases hparse : parse s with
  | none => simp
  | some p =>
    obtain ⟨j, rest⟩ := p
    cases hdecode : decodeStruct fields zero j with
    | none => simp [hdecode]
    | some v' =>
      by_cases hrest : skipSpace rest = []
      · simp [hdecode, hrest]
      · simp [hdecode, hrest]

theorem oneValue_of_decodeDocument {σ : Type} {fields : Fields σ} {zero v : σ} {s : Bytes}
    (h : decodeDocument fields zero s = .ok v) : OneValue s := by
  obtain ⟨j, rest, hparse, -, hrest⟩ := decodeDocument_eq_ok.1 h
  exact ⟨j, rest, hparse, skipSpace_eq_nil.1 hrest⟩

theorem decodeDocument_append {σ : Type} {fields : Fields σ} {zero v : σ} {s t : Bytes}
    (h : decodeDocument fields zero s = .ok v) (ht : ∀ b ∈ t, isSpace b = true) :
    decodeDocument fields zero (s ++ t) = .ok v := by
  obtain ⟨j, rest, hparse, hdecode, hrest⟩ := decodeDocument_eq_ok.1 h
  have hnum : ∀ l, j ≠ .num l := by
    rintro l rfl
    cases hdecode
  refine decodeDocument_eq_ok.2 ⟨j, rest ++ t, parse_append (.inr hnum) hparse, hdecode, ?_⟩
  rw [skipSpace_eq_nil] at hrest ⊢
  exact fun b hb => (List.mem_append.1 hb).elim (hrest b) (ht b)

/-- `ParseResult` decodes a document and validates what it has decoded. -/
theorem parseResult_eq_ok {payload : Bytes} {result : Result} :
    parseResult payload = .ok result ↔
      decodeDocument Result.fields Result.zero (payload.take (maxResultBytes + 1)) = .ok result ∧
        validateResult result = .ok () := by
  unfold parseResult
  rw [decodeDocument_eq_ok]
  cases hparse : parse (payload.take (maxResultBytes + 1)) with
  | none => simp
  | some p =>
    obtain ⟨j, rest⟩ := p
    cases hdecode : decodeStruct Result.fields Result.zero j with
    | none => simp [hdecode]
    | some v =>
      simp only [hdecode]
      rw [except_bind_eq_ok]
      constructor
      · rintro ⟨_, hvalid, h⟩
        split at h
        · rename_i hrest
          obtain rfl := Except.ok.inj h
          exact ⟨⟨j, rest, rfl, hdecode, hrest⟩, hvalid⟩
        · split at h
          · cases h
          · cases h
      · rintro ⟨⟨j', rest', heq, hv, hrest⟩, hvalid⟩
        cases heq
        obtain rfl := Option.some.inj (hdecode.symm.trans hv)
        exact ⟨(), hvalid, if_pos hrest⟩

theorem decodeSpec_eq_ok {payload : Bytes} {spec : Spec} :
    decodeSpec payload = .ok spec ↔
      decodeDocument Spec.fields Spec.zero (payload.take (maxSpecBytes + 1)) = .ok spec ∧
        validateSpec spec = .ok () := by
  unfold decodeSpec
  split
  · rename_i h
    simp [h]
  · rename_i h
    simp [h]
  · rename_i spec' h
    rw [h, except_bind_eq_ok]
    constructor
    · rintro ⟨_, hvalid, hspec⟩
      obtain rfl := Except.ok.inj hspec
      exact ⟨rfl, hvalid⟩
    · rintro ⟨hspec, hvalid⟩
      obtain rfl := Except.ok.inj hspec
      exact ⟨(), hvalid, rfl⟩

/-- What is accepted of the streams with `n` bytes is at most `max` bytes long and one value. -/
def Strict (max : Nat) (accepts : Bytes → Prop) (n : Nat) : Prop :=
  ∀ stream, stream.length = n → accepts stream → stream.length ≤ max ∧ OneValue stream

/-- A reader that stops after `max + 1` bytes, and ignores white space, is strict below `max`
only. -/
theorem strict_iff {σ : Type} {fields : Fields σ} {zero v : σ} {valid : σ → Prop} {max n : Nat}
    {accepts : Bytes → Prop} {s : Bytes}
    (haccepts : ∀ stream, accepts stream ↔
      ∃ v, decodeDocument fields zero (stream.take (max + 1)) = .ok v ∧ valid v)
    (hs : decodeDocument fields zero s = .ok v) (hvalid : valid v) (hshort : s.length ≤ max) :
    Strict max accepts n ↔ n ≤ max := by
  constructor
  · intro h
    by_contra hlong
    have hlength : (s ++ List.replicate (n - s.length) 32).length = n := by
      rw [List.length_append, List.length_replicate]
      omega
    have hread : accepts (s ++ List.replicate (n - s.length) 32) := by
      refine (haccepts _).2 ⟨v, ?_, hvalid⟩
      rw [List.take_append, List.take_of_length_le (by omega), List.take_replicate]
      exact decodeDocument_append hs fun b hb => by rw [List.eq_of_mem_replicate hb]; rfl
    have hle := (h _ hlength hread).1
    omega
  · intro hle stream hlength haccepted
    obtain ⟨v, hdecode, -⟩ := (haccepts stream).1 haccepted
    rw [List.take_of_length_le (by omega)] at hdecode
    exact ⟨by omega, oneValue_of_decodeDocument hdecode⟩

def shortSpec : Bytes :=
  ascii "\x7b\"schemaVersion\":1,\"mode\":\"probe\",\"probe\":\x7b\"root\":\"/cache\"\x7d\x7d"

theorem decodes_shortSpec : ∃ spec, decodeDocument Spec.fields Spec.zero shortSpec = .ok spec ∧
    validateSpec spec = .ok () := by
  have hok : (decodeSpec shortSpec).isOk = true := by decide +kernel
  cases hspec : decodeSpec shortSpec with
  | error e =>
    rw [hspec] at hok
    cases hok
  | ok spec =>
    rw [decodeSpec_eq_ok, List.take_of_length_le (by decide)] at hspec
    exact ⟨spec, hspec⟩

def shortResult : Bytes :=
  ascii "\x7b\"schemaVersion\":1,\"mode\":\"cleanup\",\"success\":true\x7d"

theorem decodes_shortResult : ∃ result,
    decodeDocument Result.fields Result.zero shortResult = .ok result ∧
      validateResult result = .ok () := by
  have hok : (parseResult shortResult).isOk = true := by decide +kernel
  cases hresult : parseResult shortResult with
  | error e =>
    rw [hresult] at hok
    cases hok
  | ok result =>
    rw [parseResult_eq_ok, List.take_of_length_le (by decide)] at hresult
    exact ⟨result, hresult⟩

/-- **The two readers are strict on the streams with `n` bytes if and only if `n` is within their
limits.** -/
theorem strictDecoding_iff (n : Nat) :
    (Strict maxSpecBytes (fun stream => ∃ spec, decodeSpec stream = .ok spec) n ↔
      n ≤ maxSpecBytes) ∧
    (Strict maxResultBytes (fun stream => ∃ result, parseResult stream = .ok result) n ↔
      n ≤ maxResultBytes) := by
  obtain ⟨spec, hspec, hvalid⟩ := decodes_shortSpec
  obtain ⟨result, hresult, hvalid'⟩ := decodes_shortResult
  constructor
  · exact strict_iff (fun stream => exists_congr fun _ => decodeSpec_eq_ok) hspec hvalid (by decide)
  · exact strict_iff (fun stream => exists_congr fun _ => parseResult_eq_ok) hresult hvalid'
      (by decide)

/-- A document, blanks until nothing more is read, and a last byte. -/
def overlong (max : Nat) (s : Bytes) : Bytes :=
  s ++ (List.replicate (max + 1 - s.length) 32 ++ [120])

section Overlong

variable {σ : Type} {fields : Fields σ} {zero v : σ} {max : Nat} {s : Bytes}

theorem decodeDocument_overlong (hs : decodeDocument fields zero s = .ok v)
    (hshort : s.length ≤ max) :
    decodeDocument fields zero ((overlong max s).take (max + 1)) = .ok v := by
  have hread : (overlong max s).take (max + 1) = s ++ List.replicate (max + 1 - s.length) 32 := by
    rw [overlong, ← List.append_assoc, List.take_left']
    rw [List.length_append, List.length_replicate]
    omega
  rw [hread]
  exact decodeDocument_append hs fun b hb => by rw [List.eq_of_mem_replicate hb]; rfl

theorem lt_length_overlong (hshort : s.length ≤ max) : max < (overlong max s).length := by
  simp only [overlong, List.length_append, List.length_replicate, List.length_singleton]
  omega

theorem not_oneValue_overlong (hs : decodeDocument fields zero s = .ok v) :
    ¬OneValue (overlong max s) := by
  obtain ⟨j, rest, hparse, hdecode, -⟩ := decodeDocument_eq_ok.1 hs
  have hnum : ∀ l, j ≠ .num l := by
    rintro l rfl
    cases hdecode
  rintro ⟨j', rest', hparse', hspace⟩
  rw [overlong, parse_append (.inr hnum) hparse] at hparse'
  cases hparse'
  exact absurd (hspace 120 (by simp)) (by decide)

end Overlong

/-- Both readers accept streams that are too long, with anything at all at their end. -/
theorem strictDecoding_overlong :
    ((∃ spec, decodeSpec (overlong maxSpecBytes shortSpec) = .ok spec) ∧
      maxSpecBytes < (overlong maxSpecBytes shortSpec).length ∧
      ¬OneValue (overlong maxSpecBytes shortSpec)) ∧
    (∃ result, parseResult (overlong maxResultBytes shortResult) = .ok result) ∧
      maxResultBytes < (overlong maxResultBytes shortResult).length ∧
      ¬OneValue (overlong maxResultBytes shortResult) := by
  obtain ⟨spec, hspec, hvalid⟩ := decodes_shortSpec
  obtain ⟨result, hresult, hvalid'⟩ := decodes_shortResult
  have hshort : shortSpec.length ≤ maxSpecBytes := by decide
  have hshort' : shortResult.length ≤ maxResultBytes := by decide
  refine ⟨⟨⟨spec, ?_⟩, lt_length_overlong hshort, not_oneValue_overlong hspec⟩, ⟨result, ?_⟩,
    lt_length_overlong hshort', not_oneValue_overlong hresult⟩
  · exact decodeSpec_eq_ok.2 ⟨decodeDocument_overlong hspec hshort, hvalid⟩
  · exact parseResult_eq_ok.2 ⟨decodeDocument_overlong hresult hshort', hvalid'⟩

end Kama.Artifact
