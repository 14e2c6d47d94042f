import Kama.Artifact.Importer
import Kama.Foundations.Trace

/-!
# The space that an import needs

Before anything is transferred, `executeCopy` and `executeHub` add up the bytes that are still
missing of every file, add a reserve, and compare the sum with the space that is available. All of
it is in 64 bits.

* `accumulate` is the sum that both make; `reach_prepareAll` and `reach_preflightAll` are their
  loops in terms of it.
* `Passes` is the sum and the check behind it, on a file system with a given answer to `statfs`.
  `reach_preflightCopy` and `reach_preflightHub` say that it is what decides.
* `preflight_exact_iff`: the preflight of either is exact on all files if and only if the available
  space fits in 64 bits. The sum and the reserve are checked; the product of `FilesystemSpace` is
  not, and a file system with more space can be taken for one with next to none
  (`preflight_refuses_large`).
-/

namespace Kama.Artifact.Import

open Bytes FileTree Inode Program Json OnDisk
open Storage (filePath sourceBase)

/-! ## The sum -/

/-- The bytes still missing of the files, added to `required`, unless they exceed a `uint64`. -/
def accumulate : List UInt64 → UInt64 → Option UInt64
  | [], required => some required
  | additional :: rest, required =>
    if ~~~0 - required < additional then none else accumulate rest (required + additional)

/-- The bytes of a file that are still to be copied. -/
def CopyPlan.additional (plan : CopyPlan) : UInt64 := (plan.sourceSize - plan.resumeBytes).toUInt64

/-- The bytes of a file of this size that are still to be fetched. -/
def RemoteFile.additional (file : RemoteFile × Int64) : UInt64 :=
  (file.2 - file.1.resumeBytes).toUInt64

section Loops

variable {σ : Type} {calls : List (Called ImportOp ImportOp.Res σ)}

/-- The calls that prepared the files for copying, and the plans they made. -/
abbrev Prepared (fuel : Nat) (rootPath : Bytes) (staging : Path) :
    List Bytes → List CopyPlan → List (Called ImportOp ImportOp.Res σ) → Prop :=
  ReachAll fun name => prepareRegularCopy fuel (filePath (sourceBase rootPath) name)
    (filePath staging name)

/-- The calls that looked the files up on the Hub, and what they found. -/
abbrev Examined (client : HubClient) (hub : HubSpec) (commit : Bytes) (staging : Path) :
    List RemoteFile → List (RemoteFile × Int64) → List (Called ImportOp ImportOp.Res σ) → Prop :=
  ReachAll fun file => preflight client hub.repository commit file (filePath staging file.path)

/-- The loop of `executeCopy` passes if and only if every file can be prepared and the sum is a
`uint64`. -/
theorem reach_prepareAll {fuel : Nat} {entrypoint rootPath : Bytes} {staging : Path}
    {names : List Bytes} {plans plans' : List CopyPlan} {required required' : UInt64} :
    Reach (prepareAll fuel entrypoint rootPath staging names plans required).run calls
        (.ret (.ok (plans', required'))) ↔
      ∃ added, plans' = plans ++ added ∧ Prepared fuel rootPath staging names added calls ∧
        accumulate (added.map CopyPlan.additional) required = some required' := by
  constructor
  · intro h
    induction names generalizing plans required calls with
    | nil =>
      obtain ⟨rfl, hret⟩ := h.of_ret
      cases hret
      exact ⟨[], (List.append_nil _).symm, .nil, rfl⟩
    | cons name names ih =>
      obtain ⟨prepared, before, after, rfl, hprepared, h⟩ := h.of_ok_bind
      cases prepared with
      | error err =>
        obtain ⟨-, -, after', -, -, h⟩ := h.of_ok_bind
        cases h
      | ok plan =>
        dsimp only at h
        split at h
        · obtain ⟨-, -, after', -, -, h⟩ := h.of_ok_bind
          cases h
        · rename_i hroom
          obtain ⟨added, rfl, hrest, hsum⟩ := ih h
          refine ⟨plan :: added, by simp, .cons hprepared.of_attempt hrest, ?_⟩
          rw [List.map_cons, accumulate]
          exact (if_neg hroom).trans hsum
  · rintro ⟨added, rfl, hprepared, hsum⟩
    induction hprepared generalizing plans required with
    | nil =>
      cases hsum
      rw [List.append_nil]
      exact .done _
    | @cons name plan names added before after hplan _ ih =>
      rw [List.map_cons, accumulate] at hsum
      split at hsum
      · cases hsum
      · rename_i hroom
        refine hplan.attempt.ok_bind.trans ?_
        dsimp only
        unfold CopyPlan.additional at hroom
        rw [if_neg hroom]
        exact List.append_cons plans plan added ▸ ih hsum

/-- The loop of `executeHub` passes if and only if every file can be fetched, nothing of it is
missing less than nothing, and the sum is a `uint64`. -/
theorem reach_preflightAll {client : HubClient} {hub : HubSpec} {commit : Bytes} {staging : Path}
    {files : List RemoteFile} {remotes : List (RemoteFile × Int64)} {required required' : UInt64} :
    Reach (preflightAll client hub commit staging files required).run calls
        (.ret (.ok (remotes, required'))) ↔
      Examined client hub commit staging files remotes calls ∧
        (∀ found ∈ remotes, 0 ≤ found.2 - found.1.resumeBytes) ∧
        accumulate (remotes.map RemoteFile.additional) required = some required' := by
  constructor
  · intro h
    induction files generalizing remotes required calls with
    | nil =>
      obtain ⟨rfl, hret⟩ := h.of_ret
      cases hret
      exact ⟨.nil, by simp, rfl⟩
    | cons file files ih =>
      obtain ⟨⟨remote, size⟩, before, after, rfl, hfound, h⟩ := h.of_ok_bind
      dsimp only at h
      split at h
      · cases h
      · rename_i hroom
        obtain ⟨⟨rest, total⟩, before', after', rfl, hrest, h⟩ := h.of_ok_bind
        obtain ⟨rfl, hret⟩ := h.of_ret
        cases hret
        obtain ⟨hexamined, hsizes, hsum⟩ := ih hrest
        have hsize : 0 ≤ size - remote.resumeBytes :=
          Int64.not_lt.1 fun hneg => hroom (.inl hneg)
        rw [List.append_nil]
        refine ⟨.cons hfound hexamined, List.forall_mem_cons.2 ⟨hsize, hsizes⟩, ?_⟩
        rw [List.map_cons, accumulate]
        exact (if_neg fun hover => hroom (.inr hover)).trans hsum
  · rintro ⟨hexamined, hsizes, hsum⟩
    induction hexamined generalizing required with
    | nil =>
      cases hsum
      exact .done _
    | @cons file found files remotes before after hfound _ ih =>
      rw [List.forall_mem_cons] at hsizes
      rw [List.map_cons, accumulate] at hsum
      split at hsum
      · cases hsum
      · rename_i hroom
        refine hfound.ok_bind.trans ?_
        dsimp only
        unfold RemoteFile.additional at hroom
        rw [if_neg (not_or.2 ⟨Int64.not_lt.2 hsizes.1, hroom⟩)]
        exact (ih hsizes.2 hsum).ok_bind

end Loops

/-! ## The whole preflight -/

/-- The question for the space, with its answer. -/
def space (stat : StatFs) : Called ImportOp ImportOp.Res Unit :=
  ⟨.file .cache (.other .statfs), .ok stat, ()⟩

/-- The preflight of files with these bytes missing passes, on a file system with this answer to
`statfs`. -/
def Passes (stat : StatFs) (missing : List UInt64) : Prop :=
  ∃ required, accumulate missing 0 = some required ∧
    Reach (on .cache (requirePublicationSpace required missing.length)).run [space stat]
      (.ret (.ok ()))

theorem reach_onError {α : Type} {cleanup : ImportProg Unit} {body : ImportProg α} {a : α}
    {calls : List (Called ImportOp ImportOp.Res Unit)} :
    Reach (onError cleanup body).run calls (.ret (.ok a)) ↔
      Reach body.run calls (.ret (.ok a)) := by
  constructor
  · intro h
    obtain ⟨r, before, after, rfl, hbody, h⟩ := h.of_ok_bind
    cases r with
    | error e =>
      obtain ⟨-, -, rest, -, -, hthrow⟩ := h.of_ok_bind
      cases hthrow
    | ok a' =>
      obtain ⟨rfl, hret⟩ := h.of_ret
      cases hret
      rw [List.append_nil]
      exact hbody.of_attempt
  · intro h
    have hrun : Reach (onError cleanup body).run (calls ++ []) (.ret (.ok a)) :=
      h.attempt.ok_bind.trans (.done _)
    rwa [List.append_nil] at hrun

/-- `executeCopy` passes its preflight if and only if `Passes` holds of what it has prepared. -/
theorem reach_preflightCopy {fuel : Nat} {entrypoint rootPath : Bytes} {staging : Path}
    {names : List Bytes} {plans : List CopyPlan} {calls : List (Called ImportOp ImportOp.Res Unit)}
    {stat : StatFs} (h : Prepared fuel rootPath staging names plans calls) :
    Reach (preflightCopy fuel entrypoint rootPath staging names).run (calls ++ [space stat])
        (.ret (.ok plans)) ↔ Passes stat (plans.map CopyPlan.additional) := by
  unfold Passes
  rw [List.length_map, ← h.length_eq]
  constructor
  · intro hreach
    obtain ⟨⟨plans', required⟩, before, rest, hcalls, hprepare, hreach⟩ := hreach.of_ok_bind
    obtain ⟨⟨⟩, room, after, rfl, hroom, hreach⟩ := hreach.of_ok_bind
    obtain ⟨rfl, hret⟩ := hreach.of_ret
    obtain ⟨added, rfl, hadded, hsum⟩ := reach_prepareAll.1 hprepare
    obtain ⟨rfl, rfl⟩ := h.unique hadded (List.prefix_append _ _)
      ⟨_, hcalls.symm⟩
    rw [List.append_cancel_left_eq, List.append_nil] at hcalls
    exact ⟨required, hsum, hcalls ▸ reach_onError.1 hroom⟩
  · rintro ⟨required, hsum, hroom⟩
    refine (reach_prepareAll.2 ⟨plans, rfl, h, hsum⟩).ok_bind.trans ?_
    exact (reach_onError.2 hroom).ok_bind

/-- `executeHub` passes its preflight if and only if `Passes` holds of what it has found. -/
theorem reach_preflightHub {client : HubClient} {hub : HubSpec} {commit : Bytes} {staging : Path}
    {files : List RemoteFile} {remotes : List (RemoteFile × Int64)}
    {calls : List (Called ImportOp ImportOp.Res Unit)} {stat : StatFs}
    (h : Examined client hub commit staging files remotes calls)
    (hsizes : ∀ found ∈ remotes, 0 ≤ found.2 - found.1.resumeBytes) :
    Reach (preflightHub client hub commit staging files).run (calls ++ [space stat])
        (.ret (.ok remotes)) ↔ Passes stat (remotes.map RemoteFile.additional) := by
  unfold Passes
  rw [List.length_map, ← h.length_eq]
  constructor
  · intro hreach
    obtain ⟨⟨remotes', required⟩, before, rest, hcalls, hexamine, hreach⟩ := hreach.of_ok_bind
    obtain ⟨⟨⟩, room, after, rfl, hroom, hreach⟩ := hreach.of_ok_bind
    obtain ⟨rfl, hret⟩ := hreach.of_ret
    obtain ⟨hexamined, -, hsum⟩ := reach_preflightAll.1 hexamine
    obtain ⟨rfl, rfl⟩ := h.unique hexamined (List.prefix_append _ _)
      ⟨_, hcalls.symm⟩
    rw [List.append_cancel_left_eq, List.append_nil] at hcalls
    exact ⟨required, hsum, hcalls ▸ hroom⟩
  · rintro ⟨required, hsum, hroom⟩
    exact (reach_preflightAll.2 ⟨h, hsizes, hsum⟩).ok_bind.trans hroom.ok_bind

/-- What a publication of the files needs, as a number. -/
def needed (missing : List UInt64) : Nat :=
  (missing.map UInt64.toNat).sum + 2 ^ 20 + 2 ^ 16 * missing.length

/-- What is available, as a number. -/
def StatFs.available (stat : StatFs) : Nat := stat.bavail.toNat * stat.bsize.toNat

/-- The check for room below the largest `uint64`. -/
theorem not_sub_lt_iff {a b : UInt64} : ~~~0 - a < b ↔ 2 ^ 64 ≤ a.toNat + b.toNat := by
  have hle : a ≤ ~~~0 := by
    rw [UInt64.le_iff_toNat_le]
    exact Nat.le_of_lt_succ a.toNat_lt
  have hmax : (~~~0 : UInt64).toNat = 2 ^ 64 - 1 := rfl
  have := a.toNat_lt
  rw [UInt64.lt_iff_toNat_lt, UInt64.toNat_sub_of_le _ _ hle]
  omega

theorem accumulate_eq_some {missing : List UInt64} {required total : UInt64} :
    accumulate missing required = some total ↔
      required.toNat + (missing.map UInt64.toNat).sum = total.toNat := by
  induction missing generalizing required with
  | nil =>
    simp only [accumulate, Option.some.injEq, List.map_nil, List.sum_nil, Nat.add_zero]
    exact UInt64.toNat_inj.symm
  | cons additional missing ih =>
    have htotal := total.toNat_lt
    rw [accumulate, List.map_cons, List.sum_cons]
    split
    · rename_i hover
      rw [not_sub_lt_iff] at hover
      constructor
      · intro h
        cases h
      · intro h
        omega
    · rename_i hover
      rw [not_sub_lt_iff] at hover
      rw [ih, UInt64.toNat_add, Nat.mod_eq_of_lt (by omega)]
      omega

theorem reach_requireFreeSpace {required : UInt64} {stat : StatFs} :
    Reach (on .cache (requireFreeSpace required)).run [space stat] (.ret (.ok ())) ↔
      required.toNat ≤ stat.available % 2 ^ 64 := by
  have hfree : (stat.bavail * stat.bsize).toNat = stat.available % 2 ^ 64 := UInt64.toNat_mul _ _
  rw [← hfree, ← UInt64.le_iff_toNat_le, ← UInt64.not_lt]
  constructor
  · intro h hlt
    cases h with
    | call _ _ h =>
      change Reach
        (on .cache (if stat.bavail * stat.bsize < required then throw _ else pure ())).run _ _ at h
      rw [if_pos hlt] at h
      cases h
  · intro hlt
    refine .call _ _ ?_
    change Reach (on .cache (if stat.bavail * stat.bsize < required then throw _ else pure ())).run
      _ _
    rw [if_neg hlt]
    exact .done _

theorem reach_requirePublicationSpace {required : UInt64} {count : Nat} {stat : StatFs} :
    Reach (on .cache (requirePublicationSpace required count)).run [space stat] (.ret (.ok ())) ↔
      1 ≤ count ∧ count ≤ maxSelectedFiles ∧
        required.toNat + 2 ^ 20 + 2 ^ 16 * count < 2 ^ 64 ∧
        required.toNat + 2 ^ 20 + 2 ^ 16 * count ≤ stat.available % 2 ^ 64 := by
  have hfiles : maxSelectedFiles = 128 := rfl
  unfold requirePublicationSpace
  split
  · rename_i hcount
    constructor
    · intro h
      cases h
    · rintro ⟨hone, hmost, -⟩
      omega
  · rename_i hcount
    have hoverhead : (fixedReserve + UInt64.ofNat count * perFileReserve).toNat =
        2 ^ 20 + 2 ^ 16 * count := by
      have hcount : (UInt64.ofNat count).toNat = count :=
        UInt64.toNat_ofNat_of_lt' (Nat.lt_of_le_of_lt (by omega) (by decide : 128 < UInt64.size))
      rw [UInt64.toNat_add, UInt64.toNat_mul, hcount]
      have hfixed : fixedReserve.toNat = 2 ^ 20 := rfl
      have hper : perFileReserve.toNat = 2 ^ 16 := rfl
      rw [hfixed, hper]
      omega
    have hroom : ~~~0 - (fixedReserve + UInt64.ofNat count * perFileReserve) < required ↔
        2 ^ 64 ≤ required.toNat + 2 ^ 20 + 2 ^ 16 * count := by
      rw [not_sub_lt_iff, hoverhead]
      omega
    dsimp only
    split
    · rename_i hover
      rw [hroom] at hover
      constructor
      · intro h
        cases h
      · rintro ⟨-, -, hlt, -⟩
        omega
    · rename_i hover
      rw [hroom] at hover
      rw [reach_requireFreeSpace, UInt64.toNat_add, hoverhead]
      rw [Nat.mod_eq_of_lt (by omega)]
      omega

/-- The preflight computes with the available space modulo 64 bits. -/
theorem passes_iff {stat : StatFs} {missing : List UInt64} :
    Passes stat missing ↔ 1 ≤ missing.length ∧ missing.length ≤ maxSelectedFiles ∧
      needed missing < 2 ^ 64 ∧ needed missing ≤ stat.available % 2 ^ 64 := by
  unfold Passes needed
  constructor
  · rintro ⟨required, hsum, h⟩
    rw [accumulate_eq_some, UInt64.toNat_zero, Nat.zero_add] at hsum
    rw [hsum]
    exact reach_requirePublicationSpace.1 h
  · intro h
    have hlt : (missing.map UInt64.toNat).sum < 2 ^ 64 := by omega
    refine ⟨UInt64.ofNat (missing.map UInt64.toNat).sum, ?_, ?_⟩
    · rw [accumulate_eq_some, UInt64.toNat_ofNat_of_lt' hlt, UInt64.toNat_zero, Nat.zero_add]
    · rw [reach_requirePublicationSpace, UInt64.toNat_ofNat_of_lt' hlt]
      exact h

/-! ## Exactness -/

/-- The preflight of `executeCopy` is exact on a file system with this answer to `statfs`: on 1 to
128 files that have been prepared it passes if and only if there is room for what is missing. -/
def CopyExact (stat : StatFs) : Prop :=
  ∀ fuel entrypoint rootPath staging names plans calls,
    Prepared fuel rootPath staging names plans calls →
    1 ≤ names.length → names.length ≤ maxSelectedFiles →
    (∀ plan ∈ plans, 0 ≤ plan.sourceSize - plan.resumeBytes) →
    (Reach (preflightCopy fuel entrypoint rootPath staging names).run (calls ++ [space stat])
      (.ret (.ok plans)) ↔ needed (plans.map CopyPlan.additional) ≤ stat.available)

/-- The same of `executeHub`. -/
def HubExact (stat : StatFs) : Prop :=
  ∀ client hub commit staging files remotes calls,
    Examined client hub commit staging files remotes calls →
    1 ≤ files.length → files.length ≤ maxSelectedFiles →
    (∀ found ∈ remotes, 0 ≤ found.2 - found.1.resumeBytes) →
    (Reach (preflightHub client hub commit staging files).run (calls ++ [space stat])
      (.ret (.ok remotes)) ↔ needed (remotes.map RemoteFile.additional) ≤ stat.available)

/-- Where the available space fits in 64 bits, the preflight is exact. -/
theorem passes_iff_of_fits {stat : StatFs} {missing : List UInt64}
    (hfits : stat.available < 2 ^ 64) (hone : 1 ≤ missing.length)
    (hmost : missing.length ≤ maxSelectedFiles) :
    Passes stat missing ↔ needed missing ≤ stat.available := by
  rw [passes_iff, Nat.mod_eq_of_lt hfits]
  constructor
  · rintro ⟨-, -, -, hle⟩
    exact hle
  · intro hle
    exact ⟨hone, hmost, hle.trans_lt hfits, hle⟩

/-- Two files that need 2⁶⁴ bytes. -/
def hugeFiles : List Int64 := [0x7FFFFFFFFFFFFFFF, 0x7FFFFFFFFFEE0001]

/-- Where it does not, it refuses two files of which there is room for every byte. -/
theorem fits_of_passes_huge {stat : StatFs} (h : Passes stat (hugeFiles.map Int64.toUInt64) ↔
    needed (hugeFiles.map Int64.toUInt64) ≤ stat.available) : stat.available < 2 ^ 64 := by
  by_contra hlarge
  have hneeded : needed (hugeFiles.map Int64.toUInt64) = 2 ^ 64 := by rfl
  rw [passes_iff, hneeded] at h
  omega

/-! ### Files that have not been transferred yet -/

def answerFd : (op : FdOp Bytes) → op.Res
  | .openRoot => .ok 0
  | .openDir _ _ => .ok 1
  | .create _ _ _ => .ok 2
  | .stat _ => .ok (.regular, 1)
  | .statAt _ _ => .ok .regular
  | .readDir _ _ => .ok ([], true)
  | .mkdir _ _ | .unlink _ _ | .rmdir _ _ | .sync _ | .lock _ | .unlock _ | .close _ => .ok ()

def statOf (size : Int64) : Stat := ⟨0, 0, size, (0, 0), (0, 0)⟩

def answerFile (size : Int64) : (q : FileCall) → q.Ans
  | .fstat _ => .ok (statOf size)
  | .read _ _ _ => ⟨[], some .eof⟩
  | .write _ payload => (payload.length, none)
  | .truncate _ _ | .munmap _ => .ok ()
  | .mmap _ _ => .ok []
  | .statfs => .ok ⟨0, 0, 0⟩

/-- The answers where a file has this size at its source and nothing of it is in the cache. -/
def answer (size : Int64) : (op : ImportOp) → op.Res
  | .file _ (.fd op) => answerFd op
  | .file _ (.openFile _ _) => .ok 3
  | .file _ (.rename _ _ _ _) => .ok ()
  | .file .source (.other q) => answerFile size q
  | .file .cache (.other q) => answerFile 0 q
  | .request _ => .ok ⟨200, size, []⟩

/-- The calls of code that is answered like this. -/
def answered {α : Type} (size : Int64) (p : ImportProg α) :
    List (Called ImportOp ImportOp.Res Unit) × Except Err α :=
  p.run.trace (fun op _ => (answer size op, ())) ()

theorem reach_answered {α : Type} (size : Int64) (p : ImportProg α) {a : α}
    (h : (answered size p).2 = .ok a) : Reach p.run (answered size p).1 (.ret (.ok a)) :=
  h ▸ reach_trace _ p.run ()

def sampleFile : Bytes := ascii "a.gguf"

def sampleStaging : Path := [ascii "staging"]

def sampleCopy : ImportProg CopyPlan :=
  prepareRegularCopy 0 (filePath (sourceBase []) sampleFile) (filePath sampleStaging sampleFile)

def samplePlan (size : Int64) : CopyPlan := ⟨3, 2, sampleStaging, size, 0, statOf size⟩

def sampleClient : HubClient := ⟨ascii "https://hub", [], []⟩

def sampleHub : HubSpec := ⟨ascii "models", [], [], []⟩

def sampleCommit : Bytes := List.replicate 40 97

def sampleRemote : RemoteFile := ⟨sampleFile, none, [], 0⟩

def sampleLookup : ImportProg (RemoteFile × Int64) :=
  preflight sampleClient sampleHub.repository sampleCommit sampleRemote
    (filePath sampleStaging sampleFile)

def sampleFound (size : Int64) : RemoteFile × Int64 := (⟨sampleFile, some size, [], 0⟩, size)

theorem exists_prepared_huge : ∃ calls, Prepared 0 [] sampleStaging [sampleFile, sampleFile]
    (hugeFiles.map samplePlan) (calls : List (Called ImportOp ImportOp.Res Unit)) :=
  ⟨_, .cons (reach_answered 0x7FFFFFFFFFFFFFFF sampleCopy rfl)
    (.cons (reach_answered 0x7FFFFFFFFFEE0001 sampleCopy rfl) .nil)⟩

theorem exists_examined_huge : ∃ calls, Examined sampleClient sampleHub sampleCommit sampleStaging
    [sampleRemote, sampleRemote] (hugeFiles.map sampleFound)
    (calls : List (Called ImportOp ImportOp.Res Unit)) :=
  ⟨_, .cons (reach_answered 0x7FFFFFFFFFFFFFFF sampleLookup rfl)
    (.cons (reach_answered 0x7FFFFFFFFFEE0001 sampleLookup rfl) .nil)⟩

/-- **The preflight is exact if and only if the available space fits in 64 bits**, that of
`executeCopy` and that of `executeHub`. -/
theorem preflight_exact_iff (stat : StatFs) :
    (CopyExact stat ↔ stat.available < 2 ^ 64) ∧ (HubExact stat ↔ stat.available < 2 ^ 64) := by
  refine ⟨⟨fun h => ?_, fun hfits => ?_⟩, ⟨fun h => ?_, fun hfits => ?_⟩⟩
  · obtain ⟨calls, hprepared⟩ := exists_prepared_huge
    have hexact := h 0 [] [] _ _ _ _ hprepared (by decide) (by decide) (by decide)
    rw [reach_preflightCopy hprepared] at hexact
    exact fits_of_passes_huge hexact
  · intro fuel entrypoint rootPath staging names plans calls hprepared hone hmost _
    rw [hprepared.length_eq] at hone hmost
    rw [reach_preflightCopy hprepared]
    exact passes_iff_of_fits hfits (by simpa using hone) (by simpa using hmost)
  · obtain ⟨calls, hexamined⟩ := exists_examined_huge
    have hexact := h _ _ _ _ _ _ _ hexamined (by decide) (by decide) (by decide)
    rw [reach_preflightHub hexamined (by decide)] at hexact
    exact fits_of_passes_huge hexact
  · intro client hub commit staging files remotes calls hexamined hone hmost hsizes
    rw [hexamined.length_eq] at hone hmost
    rw [reach_preflightHub hexamined hsizes]
    exact passes_iff_of_fits hfits (by simpa using hone) (by simpa using hmost)

/-- A file of which nothing is missing is refused on a file system with 2⁵² blocks of 4 KiB. -/
theorem preflight_refuses_large : ∃ stat fuel entrypoint rootPath staging names plans calls,
    0 < stat.bsize.toNat ∧ Prepared fuel rootPath staging names plans calls ∧
    1 ≤ names.length ∧ names.length ≤ maxSelectedFiles ∧
    (∀ plan ∈ plans, 0 ≤ plan.sourceSize - plan.resumeBytes) ∧
    needed (plans.map CopyPlan.additional) ≤ stat.available ∧
    ¬Reach (preflightCopy fuel entrypoint rootPath staging names).run (calls ++ [space stat])
      (.ret (.ok plans)) := by
  have hprepared : Prepared 0 [] sampleStaging [sampleFile] [samplePlan 0] _ :=
    .cons (reach_answered 0 sampleCopy rfl) .nil
  refine ⟨⟨2 ^ 52, 2 ^ 52, 4096⟩, 0, [], [], sampleStaging, [sampleFile], [samplePlan 0], _,
    by decide, hprepared, by decide, by decide, by decide, by decide, ?_⟩
  rw [reach_preflightCopy hprepared, passes_iff]
  decide

end Kama.Artifact.Import
