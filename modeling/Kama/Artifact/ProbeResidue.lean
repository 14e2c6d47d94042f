import Kama.Artifact.DiskFiles
import Kama.Artifact.ImportCalls

/-!
# What the probe of a file system leaves behind

`ProbeFilesystem` of `storage_linux.go` on a disk whose calls can fail. It makes a file and a
directory with a random suffix, renames both, and removes both names of each in deferred functions.
A removal that fails counts only when the joined error of the two is not `os.ErrNotExist`; the first
of the two names is gone by then, so that an error of the second is not reported.

* `ensures_removing`: what the deferred functions do.
* `reach_probeFilesystem`: the probe reports no error exactly when its steps succeed and the errors
  of its deferred removals are `dropped`.
* `probeFilesystem_residue_iff`: the probe leaves nothing behind without saying so if and only if
  the calls that take away the second names succeed whenever the errors of the removals are dropped.
-/

namespace Kama.Artifact.OnDisk

open Bytes FileTree Inode Program Disk Descriptors
open Storage (stagingDir blobsDir)
open Import (FileCall FileProg ask joinErrors storageErrorOf filesystemSpace)

/-! ## The program -/

def probesDir : Path := [kamaDir, ascii "probes"]

def probePayload (size : Nat) : Bytes := (List.range size).map fun i => (i % 251).toUInt8

/-- Two independent descriptors of a file exclude each other. -/
def probeLock (p : Path) (file : Fd) : FdProg Unit := do
  check (ioFailure "lock filesystem probe") (← call (FdOp.lock file))
  let contender ← openWritableRegular p false
  let contended : Except Errno Unit ← call (FdOp.lock contender)
  closeQuietly contender
  match contended with
  | .error .EWOULDBLOCK => check (ioFailure "unlock filesystem probe") (← call (FdOp.unlock file))
  | _ =>
    throw (.failure .ioFailure "validate filesystem lock"
      (.new "independent lock acquisition was not excluded"))

/-- A page is written through a descriptor that is closed on every way out. -/
def probeWrite (first : Path) (payload : Bytes) : FileProg Unit := do
  let file ← onFd (openWritableRegular first true)
  match ← attempt (do
    onFd (probeLock first file)
    let written : Nat × Option Errno ← ask (.write file payload)
    if written.2 ≠ none ∨ written.1 ≠ payload.length then
      throw (storageErrorOf "write filesystem probe"
        [written.2.map .errno, some (.new "short write")])
    else onFd do
      check (storageError "fsync filesystem probe") (← call (FdOp.sync file))) with
  | .error e => do
    onFd (closeQuietly file)
    throw e
  | .ok () => onFd do
    check (storageError "close filesystem probe") (← call (FdOp.close file))

/-- The page is read back through a mapping. -/
def probeMmap (second : Path) (payload : Bytes) : FileProg Unit := do
  let file ← openRegular second
  match (← ask (.mmap file payload.length) : Except Errno Bytes) with
  | .error e => do
    onFd (closeQuietly file)
    throw (ioFailure "mmap filesystem probe" e)
  | .ok mapped =>
    if mapped.length ≠ payload.length ∨ mapped.head? ≠ payload.head? ∨
        mapped.getLast? ≠ payload.getLast? then do
      let _ ← ask (.munmap file)
      onFd (closeQuietly file)
      throw (.failure .ioFailure "validate filesystem mmap"
        (.new "mapped data differs from durable write"))
    else
      match (← ask (.munmap file) : Except Errno Unit) with
      | .error e => do
        onFd (closeQuietly file)
        throw (ioFailure "unmap filesystem probe" e)
      | .ok () => onFd do
        check (ioFailure "close filesystem probe") (← call (FdOp.close file))

def errorOf : Except Err Unit → Option Err
  | .ok () => none
  | .error e => some e

/-- What a deferred removal of two paths makes of the result of what it is deferred to: its error
counts only if there is no other, and if it is not that something was missing. -/
def settle {α : Type} (op : String) (left right : Except Err Unit) : Except Err α → Except Err α
  | .error e => .error e
  | .ok a =>
    match joinErrors [errorOf left, errorOf right] with
    | none => .ok a
    | some e => if e.isNotExist then .ok a else .error (.failure .ioFailure op e)

/-- Run `body` and then the deferred removal of both paths. -/
def removing {α : Type} (op : String) (remove : Path → FdProg Unit) (p q : Path)
    (body : FileProg α) : FileProg α := do
  let r ← attempt body
  let left ← attempt (onFd (remove p))
  let right ← attempt (onFd (remove q))
  ofResult (settle op left right r)

def probeFile (suffix : Bytes) (extension : String) : Path :=
  probesDir ++ [ascii "probe-" ++ suffix ++ ascii extension]

def directorySource (suffix : Bytes) : Path := stagingDir ++ [ascii "probe-directory-" ++ suffix]

def directoryTarget (suffix : Bytes) : Path := blobsDir ++ [ascii ".probe-directory-" ++ suffix]

/-- A page is written, renamed and read back. -/
def probeFileRename (pageSize : Nat) (suffix : Bytes) : FileProg Unit := do
  probeWrite (probeFile suffix ".tmp") (probePayload pageSize)
  renameNoFollow (probeFile suffix ".tmp") (probeFile suffix ".dat")
  onFd (syncDirectory probesDir)
  probeMmap (probeFile suffix ".dat") (probePayload pageSize)

/-- A directory is renamed from the staging area into the published one. -/
def probeDirectoryRename (suffix : Bytes) : FileProg Unit := do
  onFd (mkdirAll (directorySource suffix))
  renameNoFollow (directorySource suffix) (directoryTarget suffix)
  onFd (syncDirectory stagingDir)
  onFd (syncDirectory blobsDir)

/-- `ProbeFilesystem`, with the size of a page and what the source of random bytes returns. -/
def probeFilesystem (fuel pageSize : Nat) (random : Except Err Bytes) : FileProg ProbeResult := do
  let (capacity, free) ← filesystemSpace
  onFd (mkdirAll probesDir)
  let bytes ← ofResult (random.mapError (.failure .ioFailure "create probe name"))
  let suffix := hexEncode bytes
  removing "remove filesystem probe" removeNoFollow (probeFile suffix ".tmp")
    (probeFile suffix ".dat") do
      probeFileRename pageSize suffix
      onFd (mkdirAll stagingDir)
      onFd (mkdirAll blobsDir)
      removing "remove directory-rename probe" (removeTreeNoFollow fuel) (directorySource suffix)
        (directoryTarget suffix) (probeDirectoryRename suffix)
      pure ⟨capacity.toNat, free.toNat, true, true, true, true, true, true⟩

/-! ## What the deferred functions are answered -/

abbrev ProbeCalls := List (Called (DiskOp Bytes FileCall) (DiskOp.Res FileCall.Ans) (Disk Bytes))

/-- The errors of two removals are not reported: there is none, or one of them is that something was
missing. -/
def dropped (left right : Except Err Unit) : Bool :=
  (joinErrors [errorOf left, errorOf right]).all Err.isNotExist

theorem settle_eq_ok {α : Type} {op : String} {left right : Except Err Unit} {r : Except Err α}
    {a : α} : settle op left right r = .ok a ↔ r = .ok a ∧ dropped left right = true := by
  cases r with
  | error e => simp [settle]
  | ok b =>
    unfold settle dropped
    cases joinErrors [errorOf left, errorOf right] with
    | none => simp
    | some e => by_cases h : e.isNotExist <;> simp [h]

/-- The deferred functions report nothing exactly when `body` has succeeded and what the calls of
the removals answer is dropped. -/
theorem reach_removing {α : Type} {op : String} {remove : Path → FdProg Unit} {p q : Path}
    {body : FileProg α} {a : α} {calls : ProbeCalls} :
    Reach (removing op remove p q body).run calls (.ret (.ok a)) ↔
      ∃ before first second left right, calls = before ++ (first ++ second) ∧
        Reach body.run before (.ret (.ok a)) ∧ Reach (onFd (remove p)).run first (.ret left) ∧
        Reach (onFd (remove q)).run second (.ret right) ∧ dropped left right = true := by
  constructor
  · intro h
    obtain ⟨r, before, _, rfl, hbody, h⟩ := h.of_ok_bind
    obtain ⟨left, first, _, rfl, hleft, h⟩ := h.of_ok_bind
    obtain ⟨right, second, last, rfl, hright, h⟩ := h.of_ok_bind
    obtain ⟨rfl, hret⟩ := h.of_ret
    obtain ⟨rfl, hdropped⟩ := settle_eq_ok.1 (Prog.ret.inj hret).symm
    exact ⟨before, first, second, left, right, by rw [List.append_nil], hbody.of_attempt,
      hleft.of_attempt, hright.of_attempt, hdropped⟩
  · rintro ⟨before, first, second, left, right, rfl, hbody, hleft, hright, hdropped⟩
    have hsettle : settle op left right (.ok a) = .ok a := settle_eq_ok.2 ⟨rfl, hdropped⟩
    refine reach_ok_bind.2 ⟨.ok a, before, _, rfl, hbody.attempt, reach_ok_bind.2 ⟨left, first, _,
      rfl, hleft.attempt, reach_ok_bind.2 ⟨right, second, [], (List.append_nil _).symm,
        hright.attempt, ?_⟩⟩⟩
    rw [hsettle]
    exact .done _

/-- The steps of the probe, without the deferred functions. -/
def probeSteps (pageSize : Nat) (random : Except Err Bytes) : FileProg Unit := do
  let _ ← filesystemSpace
  onFd (mkdirAll probesDir)
  let bytes ← ofResult (random.mapError (.failure .ioFailure "create probe name"))
  let suffix := hexEncode bytes
  probeFileRename pageSize suffix
  onFd (mkdirAll stagingDir)
  onFd (mkdirAll blobsDir)
  probeDirectoryRename suffix

/-- What the four deferred removals report. -/
structure Outcomes where
  source : Except Err Unit
  target : Except Err Unit
  first : Except Err Unit
  second : Except Err Unit

/-- What the calls of a probe that has succeeded in all its steps make the deferred removals
report. -/
inductive Deferred (fuel pageSize : Nat) (bytes : Bytes) : ProbeCalls → Outcomes → Prop
  | intro {o : Outcomes} {steps source target first second : ProbeCalls}
      (hsteps : Reach (probeSteps pageSize (.ok bytes)).run steps (.ret (.ok ())))
      (hsource : Reach (onFd (removeTreeNoFollow fuel (directorySource (hexEncode bytes)))).run
        source (.ret o.source))
      (htarget : Reach (onFd (removeTreeNoFollow fuel (directoryTarget (hexEncode bytes)))).run
        target (.ret o.target))
      (hfirst : Reach (onFd (removeNoFollow (probeFile (hexEncode bytes) ".tmp"))).run
        first (.ret o.first))
      (hsecond : Reach (onFd (removeNoFollow (probeFile (hexEncode bytes) ".dat"))).run
        second (.ret o.second)) :
      Deferred fuel pageSize bytes (steps ++ (source ++ (target ++ (first ++ second)))) o

/-- **When the probe reports no error**: its steps have succeeded, and what the deferred removals
report is dropped, for the directories and for the files. -/
theorem reach_probeFilesystem {fuel pageSize : Nat} {bytes : Bytes} {calls : ProbeCalls} :
    (∃ result, Reach (probeFilesystem fuel pageSize (.ok bytes)).run calls (.ret (.ok result))) ↔
      ∃ o, Deferred fuel pageSize bytes calls o ∧ dropped o.source o.target = true ∧
        dropped o.first o.second = true := by
  constructor
  · rintro ⟨result, h⟩
    obtain ⟨space, c₁, _, rfl, hspace, h⟩ := h.of_ok_bind
    obtain ⟨_, c₂, _, rfl, hprobes, h⟩ := h.of_ok_bind
    obtain ⟨_, c₃, _, rfl, hrandom, h⟩ := h.of_ok_bind
    cases hrandom
    obtain ⟨_, first, second, left, right, rfl, h, hfirst, hsecond, hfiles⟩ := reach_removing.1 h
    obtain ⟨_, c₄, _, rfl, hrename, h⟩ := h.of_ok_bind
    obtain ⟨_, c₅, _, rfl, hstaging, h⟩ := h.of_ok_bind
    obtain ⟨_, c₆, _, rfl, hblobs, h⟩ := h.of_ok_bind
    obtain ⟨_, _, _, rfl, h, hret⟩ := h.of_ok_bind
    obtain ⟨c₇, source, target, left', right', rfl, hdirectory, hsource, htarget, hdirectories⟩ :=
      reach_removing.1 h
    cases hret
    have hsteps : Reach (probeSteps pageSize (.ok bytes)).run
        (c₁ ++ (c₂ ++ ([] ++ (c₄ ++ (c₅ ++ (c₆ ++ c₇)))))) (.ret (.ok ())) :=
      hspace.ok_bind.trans (hprobes.ok_bind.trans ((Reach.done _).trans (hrename.ok_bind.trans
        (hstaging.ok_bind.trans (hblobs.ok_bind.trans hdirectory)))))
    refine ⟨⟨left', right', left, right⟩, ?_, hdirectories, hfiles⟩
    have := Deferred.intro (o := ⟨left', right', left, right⟩) hsteps hsource htarget hfirst hsecond
    simpa only [List.append_assoc, List.nil_append, List.append_nil] using this
  · rintro ⟨o, @⟨_, _, source, target, first, second, hsteps, hsource, htarget, hfirst, hsecond⟩,
      hdirectories, hfiles⟩
    obtain ⟨space, c₁, _, rfl, hspace, h⟩ := hsteps.of_ok_bind
    obtain ⟨_, c₂, _, rfl, hprobes, h⟩ := h.of_ok_bind
    obtain ⟨_, c₃, _, rfl, hrandom, h⟩ := h.of_ok_bind
    cases hrandom
    obtain ⟨_, c₄, _, rfl, hrename, h⟩ := h.of_ok_bind
    obtain ⟨_, c₅, _, rfl, hstaging, h⟩ := h.of_ok_bind
    obtain ⟨_, c₆, c₇, rfl, hblobs, hdirectory⟩ := h.of_ok_bind
    refine ⟨⟨space.1.toNat, space.2.toNat, true, true, true, true, true, true⟩, ?_⟩
    have hcalls : c₄ ++ (c₅ ++ (c₆ ++ (c₇ ++ (source ++ (target ++ (first ++ second)))))) =
        c₄ ++ (c₅ ++ (c₆ ++ (c₇ ++ (source ++ target)))) ++ (first ++ second) := by
      simp only [List.append_assoc]
    simp only [List.append_assoc]
    refine reach_ok_bind.2 ⟨space, c₁, _, rfl, hspace, reach_ok_bind.2 ⟨_, c₂, _, rfl, hprobes,
      reach_ok_bind.2 ⟨bytes, [], _, rfl, .done _, reach_removing.2 ⟨_, first, second, _, _, hcalls,
        ?_, hfirst, hsecond, hfiles⟩⟩⟩⟩
    exact reach_ok_bind.2 ⟨_, c₄, _, rfl, hrename, reach_ok_bind.2 ⟨_, c₅, _, rfl, hstaging,
      reach_ok_bind.2 ⟨_, c₆, _, rfl, hblobs, reach_ok_bind.2 ⟨(), _, [], (List.append_nil _).symm,
        reach_removing.2 ⟨c₇, source, target, _, _, rfl, hdirectory, hsource, htarget,
          hdirectories⟩, .done _⟩⟩⟩⟩

/-! ## What its parts do -/

section Parts

variable {s : Disk Bytes}

theorem ensures_filesystemSpace (s : Disk Bytes) :
    Ensures (Answers FileCall.Ans) filesystemSpace (fun _ t => t = s) (fun _ _ => True) s := by
  refine Ensures.bind (Ensures.lift fun r t hr => hr.other) ?_
  rintro r t rfl
  cases r with
  | error e => exact Ensures.throw trivial
  | ok stat => exact Ensures.pure rfl

theorem adds_closeQuietly (fd : Fd) : Calls FdOp.Adds (closeQuietly fd) :=
  Calls.bind ⟨trivial, fun _ => trivial⟩ fun _ => Calls.pure _

theorem adds_closeUnlessRoot (root current : Fd) : Calls FdOp.Adds (closeUnlessRoot root current) :=
  Calls.ite (Calls.pure _) (adds_closeQuietly current)

theorem adds_walkFrom (op : String) (root current : Fd) (p : Path) :
    Calls FdOp.Adds (walkFrom op root current p) := by
  induction p generalizing current with
  | nil => exact Calls.pure _
  | cons name rest ih =>
    refine Calls.bind ⟨trivial, fun _ => trivial⟩ fun next => ?_
    refine Calls.bind (adds_closeUnlessRoot root current) fun _ => ?_
    cases next with
    | error e => exact Calls.bind (adds_closeQuietly root) fun _ => Calls.throw _
    | ok next => exact ih next

theorem adds_inspectWritable (fd : Fd) : Calls FdOp.Adds (inspectWritable fd) := by
  refine Calls.bind ⟨trivial, fun _ => trivial⟩ fun r => ?_
  have hfail : ∀ e : Err, Calls FdOp.Adds (closeQuietly fd >>= fun _ => (throw e : FdProg Fd)) :=
    fun e => Calls.bind (adds_closeQuietly fd) fun _ => Calls.throw e
  rcases r with e | ⟨kind, nlink⟩
  · exact hfail _
  · exact Calls.ite (hfail _) (Calls.ite (hfail _) (Calls.pure _))

theorem adds_openWritableRegular (p : Path) (exclusive : Bool) :
    Calls FdOp.Adds (openWritableRegular p exclusive) := by
  refine Calls.bind trivial fun _ => Calls.bind (Calls.bind ⟨trivial, fun _ => trivial⟩ fun _ =>
    trivial) fun root => Calls.bind (adds_walkFrom _ root root _) fun current => ?_
  refine Calls.bind ⟨trivial, fun _ => trivial⟩ fun opened => ?_
  refine Calls.bind (adds_closeUnlessRoot root current) fun _ => ?_
  exact Calls.bind (adds_closeQuietly root) fun _ => Calls.bind trivial adds_inspectWritable

theorem adds_probeLock (p : Path) (file : Fd) : Calls FdOp.Adds (probeLock p file) := by
  refine Calls.bind ⟨trivial, fun _ => trivial⟩ fun _ => Calls.bind trivial fun _ => ?_
  refine Calls.bind (adds_openWritableRegular p false) fun contender => ?_
  refine Calls.bind ⟨trivial, fun _ => trivial⟩ fun contended => ?_
  refine Calls.bind (adds_closeQuietly contender) fun _ => ?_
  rcases contended with e | _
  · cases e <;> first
      | exact Calls.throw _
      | exact Calls.bind ⟨trivial, fun _ => trivial⟩ fun _ => trivial
  · exact Calls.throw _

/-- Code that takes nothing away logs nothing. -/
theorem ensures_adds {α : Type} {p : FdProg α} (hp : Calls FdOp.Adds p) (s : Disk Bytes) :
    Ensures FdAnswers p (fun _ t => t.store.removed = s.store.removed)
      (fun _ t => t.store.removed = s.store.removed) s := by
  have hstep : ∀ (t : Disk Bytes) (op : FdOp Bytes) (r : op.Res) (u : Disk Bytes), op.Adds →
      FdAnswers t op r u → t.store.removed = s.store.removed →
      u.store.removed = s.store.removed := fun _ _ _ _ hop h ht => (h.removed hop).trans ht
  exact Ensures.of_calls hstep hp rfl

theorem ensures_probeWrite (first : Path) (payload : Bytes) (s : Disk Bytes) :
    Ensures (Answers FileCall.Ans) (probeWrite first payload)
      (fun _ t => t.store.removed = s.store.removed) (fun _ _ => True) s := by
  refine Ensures.seq (ensures_onFd (ensures_adds (adds_openWritableRegular first true) s))
    (fun _ _ _ => trivial) fun file t ht => ?_
  refine Ensures.seq (Q := fun _ u => u.store.removed = s.store.removed) (E := fun _ _ => True)
    (Ensures.attempt ?_) (fun _ _ h => h) fun r u hu => ?_
  · refine Ensures.seq (ensures_onFd (ensures_adds (adds_probeLock first file) t))
      (fun _ _ h => h.trans ht) fun _ u hu => ?_
    refine Ensures.bind (Ensures.lift fun r v hr => hr.other) ?_
    rintro written v rfl
    split
    · exact Ensures.throw (hu.trans ht)
    · have hsync : Calls FdOp.Adds (do
          check (storageError "fsync filesystem probe") (← call (FdOp.sync file)) : FdProg Unit) :=
        Calls.bind ⟨trivial, fun _ => trivial⟩ fun _ => trivial
      exact Ensures.mono (fun _ _ h => h.trans (hu.trans ht)) (fun _ _ h => h.trans (hu.trans ht))
        (ensures_onFd (ensures_adds hsync v))
  · cases r with
    | error e =>
      refine Ensures.bind (ensures_onFd (ensures_closeQuietly file u)) ?_
      exact fun _ _ _ => Ensures.throw trivial
    | ok _ =>
      have hclose : Calls FdOp.Adds (do
          check (storageError "close filesystem probe") (← call (FdOp.close file)) : FdProg Unit) :=
        Calls.bind ⟨trivial, fun _ => trivial⟩ fun _ => trivial
      exact Ensures.mono (fun _ _ h => h.trans hu) (fun _ _ _ => trivial)
        (ensures_onFd (ensures_adds hclose u))

theorem ensures_probeMmap {second : Path} (hsecond : second ≠ []) (payload : Bytes)
    (s : Disk Bytes) :
    Ensures (Answers FileCall.Ans) (probeMmap second payload) (fun _ t => t.store = s.store)
      (fun _ _ => True) s := by
  refine Ensures.seq (ensures_openRegular hsecond s) (fun _ _ _ => trivial) fun file t hfile => ?_
  have hfail : ∀ (e : Err) (u : Disk Bytes), Ensures (Answers FileCall.Ans)
      (onFd (closeQuietly file) >>= fun _ => (throw e : FileProg Unit))
      (fun _ t => t.store = s.store) (fun _ _ => True) u := by
    intro e u
    refine Ensures.bind (ensures_onFd (ensures_closeQuietly file u)) ?_
    exact fun _ _ _ => Ensures.throw trivial
  refine Ensures.bind (Ensures.lift fun r v hr => hr.other) ?_
  rintro mapped t rfl
  cases mapped with
  | error e => exact hfail _ t
  | ok mapped =>
    dsimp only
    split
    · exact Ensures.bind (Ensures.lift fun r v hr => hr.other) fun _ v _ =>
        hfail _ v
    · refine Ensures.bind (Ensures.lift fun r v hr => hr.other) ?_
      rintro unmapped t rfl
      cases unmapped with
      | error e => exact hfail _ t
      | ok _ =>
        refine ensures_onFd (Ensures.bind (Ensures.lift fun r v hr => hr.close) ?_)
        rintro r v rfl
        refine Ensures.ofExcept ?_
        cases r with
        | error e => trivial
        | ok _ => exact hfile.quiet.store

/-- What the deferred functions do, when no error is returned. -/
theorem ensures_removing {α : Type} {op : String} {remove : Path → FdProg Unit} {p q : Path}
    {body : FileProg α} {Q : α → Disk Bytes → Prop}
    (hremove : ∀ x ∈ [p, q], ∀ s, Ensures FdAnswers (remove x)
      (fun _ t => Cleared x s.store t.store) (fun _ t => Cleared x s.store t.store) s)
    (hbody : Ensures (Answers FileCall.Ans) body Q (fun _ _ => True) s) :
    Ensures (Answers FileCall.Ans) (removing op remove p q body)
      (fun a t => ∃ u v : Disk Bytes, Q a u ∧ Cleared p u.store v.store ∧ Cleared q v.store t.store)
      (fun _ _ => True) s := by
  have hrun : ∀ x ∈ [p, q], ∀ s, Ensures (Answers FileCall.Ans) (attempt (onFd (remove x)))
      (fun _ t => Cleared x s.store t.store) (fun _ _ => True) s :=
    fun x hx s => Ensures.attempt (ensures_onFd (hremove x hx s))
  have hattempt : Ensures (Answers FileCall.Ans) (attempt body)
      (Ends Q fun _ _ => True) (fun _ _ => True) s := Ensures.attempt hbody
  refine Ensures.bind hattempt fun r u hr => ?_
  refine Ensures.bind (hrun p (by simp) u) fun left v hv => ?_
  refine Ensures.bind (hrun q (by simp) v) fun right t ht => ?_
  refine Ensures.ofExcept ?_
  cases hsettle : settle op left right r with
  | error e => trivial
  | ok a =>
    obtain ⟨rfl, -⟩ := settle_eq_ok.1 hsettle
    exact ⟨u, v, hr, hv, ht⟩

end Parts

/-! ## What it leaves -/

/-- The paths of the probe. -/
def probePaths (suffix : Bytes) : List Path :=
  [probeFile suffix ".tmp", probeFile suffix ".dat", directorySource suffix, directoryTarget suffix]

section Paths

variable {suffix : Bytes}

theorem first_mem : probeFile suffix ".tmp" ∈ probePaths suffix := by simp [probePaths]

theorem second_mem : probeFile suffix ".dat" ∈ probePaths suffix := by simp [probePaths]

theorem source_mem : directorySource suffix ∈ probePaths suffix := by simp [probePaths]

theorem target_mem : directoryTarget suffix ∈ probePaths suffix := by simp [probePaths]

theorem length_of_mem_probePaths {x : Path} (hx : x ∈ probePaths suffix) : x.length = 3 := by
  simp only [probePaths, List.mem_cons, List.not_mem_nil, or_false] at hx
  rcases hx with rfl | rfl | rfl | rfl <;> rfl

theorem nodup_probePaths (suffix : Bytes) : (probePaths suffix).Nodup := by
  have hkama : kamaDir ≠ ascii "blobs" := by decide
  have hprobes : ascii "probes" ≠ ascii "staging" := by decide
  have hextension : ascii ".tmp" ≠ ascii ".dat" := by decide
  simp [probePaths, probeFile, directorySource, directoryTarget, probesDir, stagingDir, blobsDir,
    hkama, hprobes, hextension]

/-- Nothing of the probe is below anything else of it. -/
theorem eq_of_below {x y : Path} (hx : x ∈ probePaths suffix) (hy : y ∈ probePaths suffix)
    (h : x <+: y) : x = y :=
  h.eq_of_length ((length_of_mem_probePaths hx).trans (length_of_mem_probePaths hy).symm)

/-- Of the paths of the probe, those in the log are gone and the others are as before. -/
def Tidied (suffix : Bytes) (st st' : Store Bytes) : Prop :=
  ∃ l, st'.removed = st.removed ++ l ∧ ∀ x ∈ probePaths suffix,
    (x ∈ l → st'.nodes x = none) ∧ (x ∉ l → st'.nodes x = st.nodes x)

theorem Cleared.tidied {p : Path} {st st' : Store Bytes} (hp : p ∈ probePaths suffix)
    (h : Cleared p st st') : Tidied suffix st st' := by
  obtain ⟨l, hl, hmem, hother, hin, hout⟩ := h
  refine ⟨l, hl, fun x hx => ?_⟩
  by_cases hpre : p <+: x
  · obtain rfl := eq_of_below hp hx hpre
    exact ⟨hin, hout⟩
  · exact ⟨fun hxl => absurd (hmem x hxl) hpre, fun _ => hother x hpre⟩

theorem Tidied.trans {st st' st'' : Store Bytes} (h : Tidied suffix st st')
    (h' : Tidied suffix st' st'') : Tidied suffix st st'' := by
  obtain ⟨l, hl, hnodes⟩ := h
  obtain ⟨l', hl', hnodes'⟩ := h'
  refine ⟨l ++ l', by rw [hl', hl, List.append_assoc], fun x hx => ⟨fun hmem => ?_, fun hmem => ?_⟩⟩
  · by_cases hx' : x ∈ l'
    · exact (hnodes' x hx).1 hx'
    · rw [(hnodes' x hx).2 hx']
      exact (hnodes x hx).1 ((List.mem_append.1 hmem).resolve_right hx')
  · rw [List.mem_append, not_or] at hmem
    rw [(hnodes' x hx).2 hmem.2, (hnodes x hx).2 hmem.1]

/-- Both renames have been made, and nothing has been taken away. -/
structure Renamed (suffix : Bytes) (removed : List Path) (st : Store Bytes) : Prop where
  first : st.nodes (probeFile suffix ".tmp") = none
  second : st.nodes (probeFile suffix ".dat") ≠ none
  source : st.nodes (directorySource suffix) = none
  target : st.nodes (directoryTarget suffix) ≠ none
  removed : st.removed = removed

theorem Renamed.flush {removed : List Path} {st : Store Bytes} (h : Renamed suffix removed st)
    (p : Path) : Renamed suffix removed (st.flush p) :=
  ⟨h.first, h.second, h.source, h.target, h.removed⟩

/-- The first names are gone after the deferred functions, the second names if they were taken
away. -/
theorem Renamed.clean_iff {removed : List Path} {st st' : Store Bytes}
    (h : Renamed suffix removed st) (h' : Tidied suffix st st') :
    ∃ l, st'.removed = removed ++ l ∧ ((∀ x ∈ probePaths suffix, st'.nodes x = none) ↔
      probeFile suffix ".dat" ∈ l ∧ directoryTarget suffix ∈ l) := by
  obtain ⟨l, hl, hnodes⟩ := h'
  -- a name that was not there is not there, another is gone if the log has it
  have hgone : ∀ x ∈ probePaths suffix, st.nodes x = none → st'.nodes x = none := by
    intro x hx hnone
    by_cases hmem : x ∈ l
    · exact (hnodes x hx).1 hmem
    · rw [(hnodes x hx).2 hmem, hnone]
  have hlogged : ∀ x ∈ probePaths suffix, st.nodes x ≠ none → (st'.nodes x = none ↔ x ∈ l) := by
    intro x hx hsome
    refine ⟨fun hnone => ?_, (hnodes x hx).1⟩
    by_contra hmem
    exact hsome (((hnodes x hx).2 hmem).symm.trans hnone)
  have hfirst := hgone _ first_mem h.first
  have hsource := hgone _ source_mem h.source
  refine ⟨l, by rw [hl, h.removed], ?_⟩
  rw [← hlogged _ second_mem h.second, ← hlogged _ target_mem h.target]
  simp [probePaths, hfirst, hsource]

/-- The file has been renamed, and nothing has been taken away. -/
structure FileRenamed (suffix : Bytes) (removed : List Path) (st : Store Bytes) : Prop where
  first : st.nodes (probeFile suffix ".tmp") = none
  second : st.nodes (probeFile suffix ".dat") ≠ none
  removed : st.removed = removed

/-- `MkdirAll` of a path that goes through neither name. -/
theorem FileRenamed.madeDirs {removed : List Path} {st : Store Bytes} {p : Path}
    (h : FileRenamed suffix removed st) (hfirst : ¬probeFile suffix ".tmp" <+: p)
    (hsecond : ¬probeFile suffix ".dat" <+: p) :
    FileRenamed suffix removed (madeDirs st [] p) := by
  obtain ⟨hnode, hremoved⟩ := @madeDirs_of_not_below st [] p _ hfirst
  obtain ⟨hnode', -⟩ := @madeDirs_of_not_below st [] p _ hsecond
  exact ⟨hnode.trans h.first, hnode'.symm ▸ h.second, hremoved.trans h.removed⟩

theorem not_prefix_of_length {x p : Path} (hx : x ∈ probePaths suffix) (hp : p.length < 3) :
    ¬x <+: p := by
  intro hpre
  have hle := hpre.length_le
  rw [length_of_mem_probePaths hx] at hle
  omega

theorem ne_of_probePaths (suffix : Bytes) :
    (probeFile suffix ".tmp" ≠ probeFile suffix ".dat" ∧
      probeFile suffix ".tmp" ≠ directorySource suffix ∧
      probeFile suffix ".tmp" ≠ directoryTarget suffix) ∧
    (probeFile suffix ".dat" ≠ directorySource suffix ∧
      probeFile suffix ".dat" ≠ directoryTarget suffix) ∧
    directorySource suffix ≠ directoryTarget suffix := by
  have hnodup := nodup_probePaths suffix
  simpa only [probePaths, List.nodup_cons, List.mem_cons, List.not_mem_nil, or_false, not_or,
    not_false_eq_true, List.nodup_nil, and_true] using hnodup

/-- The directory is renamed too. -/
theorem FileRenamed.moved {removed : List Path} {st : Store Bytes}
    (h : FileRenamed suffix removed st) (hnode : st.nodes (directorySource suffix) ≠ none) :
    Renamed suffix removed (st.move (directorySource suffix) (directoryTarget suffix)) := by
  obtain ⟨⟨-, hne02, hne03⟩, ⟨hne12, hne13⟩, hne23⟩ := ne_of_probePaths suffix
  have hfirst := st.nodes_move_of_not_below
    (fun hpre => hne02 (eq_of_below source_mem first_mem hpre).symm)
    fun hpre => hne03 (eq_of_below target_mem first_mem hpre).symm
  have hsecond := st.nodes_move_of_not_below
    (fun hpre => hne12 (eq_of_below source_mem second_mem hpre).symm)
    fun hpre => hne13 (eq_of_below target_mem second_mem hpre).symm
  refine ⟨hfirst.trans h.first, hsecond.symm ▸ h.second, ?_, ?_, h.removed⟩
  · exact st.nodes_move_left fun hpre => hne23 (eq_of_below target_mem source_mem hpre).symm
  · rwa [st.nodes_move_right]

/-- The file is renamed. -/
theorem ensures_probeFileRename (pageSize : Nat) (s : Disk Bytes) :
    Ensures (Answers FileCall.Ans) (probeFileRename pageSize suffix)
      (fun _ t => FileRenamed suffix s.store.removed t.store) (fun _ _ => True) s := by
  obtain ⟨⟨hne01, -, -⟩, -, -⟩ := ne_of_probePaths suffix
  refine Ensures.bind (ensures_probeWrite _ _ _) fun _ t ht => ?_
  refine Ensures.seq (ensures_renameNoFollow (by simp [probeFile]) (by simp [probeFile]) t)
    (fun _ _ _ => trivial) ?_
  rintro - u ⟨hnode, hu, -⟩
  refine Ensures.seq (ensures_onFd (ensures_syncDirectory _ u)) (fun _ _ _ => trivial) ?_
  rintro - v ⟨-, hv, -⟩
  refine Ensures.mono (fun _ w hw => ?_) (fun _ _ h => h)
    (ensures_probeMmap (by simp [probeFile]) _ v)
  rw [hw, hv, hu]
  refine ⟨?_, ?_, ht⟩
  · exact t.store.nodes_move_left fun hpre => hne01 (eq_of_below second_mem first_mem hpre).symm
  · exact fun hnone => hnode ((t.store.nodes_move_right _ _).symm.trans hnone)

/-- The directory is renamed. -/
theorem ensures_probeDirectoryRename {s : Disk Bytes} {removed : List Path}
    (h : FileRenamed suffix removed s.store) :
    Ensures (Answers FileCall.Ans) (probeDirectoryRename suffix)
      (fun _ t => Renamed suffix removed t.store) (fun _ _ => True) s := by
  obtain ⟨⟨-, hne02, -⟩, ⟨hne12, -⟩, -⟩ := ne_of_probePaths suffix
  refine Ensures.seq (ensures_onFd (ensures_mkdirAll _ s)) (fun _ _ _ => trivial) ?_
  rintro - t ⟨-, ht, -⟩
  have hmade : FileRenamed suffix removed t.store := by
    rw [ht]
    exact h.madeDirs (fun hpre => hne02 (eq_of_below first_mem source_mem hpre))
      fun hpre => hne12 (eq_of_below second_mem source_mem hpre)
  refine Ensures.seq (ensures_renameNoFollow (by simp [directorySource])
    (by simp [directoryTarget]) t) (fun _ _ _ => trivial) ?_
  rintro - u ⟨hnode, hu, -⟩
  refine Ensures.seq (ensures_onFd (ensures_syncDirectory _ u)) (fun _ _ _ => trivial) ?_
  rintro - v ⟨-, hv, -⟩
  refine Ensures.mono (fun _ w hw => ?_) (fun _ _ _ => trivial)
    (ensures_onFd (ensures_syncDirectory _ v))
  rw [hw.2.1, hv, hu]
  exact ((hmade.moved hnode).flush _).flush _

/-- Both deferred removals of the directories clear names of the probe. -/
theorem ensures_removeTree_probe (fuel : Nat) {x : Path}
    (hx : x ∈ [directorySource suffix, directoryTarget suffix]) (s : Disk Bytes) :
    Ensures FdAnswers (removeTreeNoFollow fuel x) (fun _ t => Cleared x s.store t.store)
      (fun _ t => Cleared x s.store t.store) s := by
  refine ensures_removeTreeNoFollow fuel ?_ s
  simp only [List.mem_cons, List.not_mem_nil, or_false] at hx
  rcases hx with rfl | rfl <;> simp [directorySource, directoryTarget]

theorem ensures_remove_probe {x : Path}
    (hx : x ∈ [probeFile suffix ".tmp", probeFile suffix ".dat"]) (s : Disk Bytes) :
    Ensures FdAnswers (removeNoFollow x) (fun _ t => Cleared x s.store t.store)
      (fun _ t => Cleared x s.store t.store) s := by
  refine Ensures.mono (fun _ t ht => ?_) (fun _ _ h => h) (ensures_removeNoFollow ?_ s)
  · rw [ht.2.2]
    exact (cleared_take s.store x).of_eq rfl rfl
  · simp only [List.mem_cons, List.not_mem_nil, or_false] at hx
    rcases hx with rfl | rfl <;> simp [probeFile]

/-- **What the probe does to the names that it uses, when it reports no error.** -/
theorem ensures_probeFilesystem (fuel pageSize : Nat) (bytes : Bytes) (s : Disk Bytes) :
    Ensures (Answers FileCall.Ans) (probeFilesystem fuel pageSize (.ok bytes))
      (fun _ t => ∃ st, Renamed (hexEncode bytes) s.store.removed st ∧
        Tidied (hexEncode bytes) st t.store) (fun _ _ => True) s := by
  refine Ensures.bind (ensures_filesystemSpace s) ?_
  rintro space t rfl
  refine Ensures.seq (ensures_onFd (ensures_mkdirAll probesDir t)) (fun _ _ _ => trivial) ?_
  rintro - u ⟨-, hu, -⟩
  have hremoved : u.store.removed = t.store.removed := by
    rw [hu]
    exact (madeDirs_of_not_below
      (not_prefix_of_length (@first_mem (hexEncode bytes)) (by decide))).2
  refine Ensures.seq (Q := fun b v => bytes = b ∧ u = v) (E := fun _ _ => True)
    (Ensures.ofExcept ⟨rfl, rfl⟩) (fun _ _ h => h) ?_
  rintro _ _ ⟨rfl, rfl⟩
  dsimp only
  refine Ensures.mono (fun _ v hv => ?_) (fun _ _ h => h)
    (ensures_removing (Q := fun _ v => ∃ st, Renamed (hexEncode bytes) t.store.removed st ∧
      Tidied (hexEncode bytes) st v.store) (fun x hx v => ensures_remove_probe hx v) ?_)
  · obtain ⟨w, w', ⟨st, hst, hw⟩, hw', hv⟩ := hv
    exact ⟨st, hst, (hw.trans (hw'.tidied first_mem)).trans (hv.tidied second_mem)⟩
  · refine Ensures.bind (ensures_probeFileRename pageSize u) fun _ v hv => ?_
    rw [hremoved] at hv
    have hshort : ∀ {st : Store Bytes} {p : Path}, p.length < 3 →
        FileRenamed (hexEncode bytes) t.store.removed st →
        FileRenamed (hexEncode bytes) t.store.removed (madeDirs st [] p) := fun hp hst =>
      hst.madeDirs (not_prefix_of_length first_mem hp) (not_prefix_of_length second_mem hp)
    refine Ensures.seq (ensures_onFd (ensures_mkdirAll stagingDir v)) (fun _ _ _ => trivial) ?_
    rintro - w ⟨-, hw, -⟩
    refine Ensures.seq (ensures_onFd (ensures_mkdirAll blobsDir w)) (fun _ _ _ => trivial) ?_
    rintro - x ⟨-, hx, -⟩
    have hrenamed : FileRenamed (hexEncode bytes) t.store.removed x.store := by
      rw [hx, hw]
      exact hshort (by decide) (hshort (by decide) hv)
    refine Ensures.bind (ensures_removing (fun y hy v => ensures_removeTree_probe fuel hy v)
      (ensures_probeDirectoryRename hrenamed)) ?_
    rintro - y ⟨z, z', hz, hz', hy⟩
    exact Ensures.pure
      ⟨z.store, hz, (hz'.tidied source_mem).trans (hy.tidied target_mem)⟩

end Paths

/-- A probe that reports no error has left nothing behind if and only if its calls took away the
second name of the file and of the directory. The first names are gone after the renames. -/
theorem clean_iff_removals {fuel pageSize : Nat} {bytes : Bytes} {result : ProbeResult}
    {s : Disk Bytes} {calls : ProbeCalls}
    (hreach : Reach (probeFilesystem fuel pageSize (.ok bytes)).run calls (.ret (.ok result)))
    (hcalls : Answered (Answers FileCall.Ans) s calls) :
    (∀ p ∈ probePaths (hexEncode bytes), (final s calls).store.nodes p = none) ↔
      probeFile (hexEncode bytes) ".dat" ∈ removals s calls ∧
        directoryTarget (hexEncode bytes) ∈ removals s calls := by
  obtain ⟨st, hst, htidied⟩ :=
    (ensures_probeFilesystem fuel pageSize bytes s).of_reach hreach hcalls
  obtain ⟨l, hl, hiff⟩ := hst.clean_iff htidied
  rw [hiff, List.append_cancel_left ((removed_final hcalls).symm.trans hl)]

/-- **When a probe that reports no error leaves nothing behind.** The condition is on what the calls
of the run answer: if they make the deferred removals report errors that are dropped, or none, then
the calls that take away the second name of the file and of the directory have succeeded. -/
theorem probeFilesystem_residue_iff {fuel pageSize : Nat} {bytes : Bytes}
    {r : Except Err ProbeResult} {s : Disk Bytes} {calls : ProbeCalls}
    (hreach : Reach (probeFilesystem fuel pageSize (.ok bytes)).run calls (.ret r))
    (hcalls : Answered (Answers FileCall.Ans) s calls) :
    ((∃ result, r = .ok result) →
        ∀ p ∈ probePaths (hexEncode bytes), (final s calls).store.nodes p = none) ↔
      ∀ o, Deferred fuel pageSize bytes calls o → dropped o.source o.target = true →
        dropped o.first o.second = true →
        probeFile (hexEncode bytes) ".dat" ∈ removals s calls ∧
          directoryTarget (hexEncode bytes) ∈ removals s calls := by
  constructor
  · intro h o ho hdirectories hfiles
    obtain ⟨result, hresult⟩ := reach_probeFilesystem.2 ⟨o, ho, hdirectories, hfiles⟩
    obtain rfl := Prog.ret.inj (hreach.unique hresult)
    exact (clean_iff_removals hreach hcalls).1 (h ⟨result, rfl⟩)
  · rintro h ⟨result, rfl⟩
    obtain ⟨o, ho, hdirectories, hfiles⟩ := reach_probeFilesystem.1 ⟨result, hreach⟩
    exact (clean_iff_removals hreach hcalls).2 (h o ho hdirectories hfiles)

/-- A disk with nothing on it. -/
def emptyDisk : Disk Bytes where
  files _ := none
  store :=
    { nodes := fun _ => none
      durable := fun _ => false
      synced := []
      removed := [] }

/-- What the calls on open files answer when nothing fails. -/
def probeAnswers : (q : FileCall) → q.Ans
  | .statfs => .ok ⟨1, 1, 1⟩
  | .fstat _ => .ok ⟨0, 0, 0, (0, 0), (0, 0)⟩
  | .read _ _ _ => ⟨[], some .eof⟩
  | .write _ payload => (payload.length, none)
  | .mmap _ length => .ok (probePayload length)
  | .truncate _ _ | .munmap _ => .ok ()

/-- A disk on which nothing fails, except perhaps the removal of the second name of the file. -/
def probeExec (stuck : Bool) (op : DiskOp Bytes FileCall) (d : Disk Bytes) :
    op.Res FileCall.Ans × Disk Bytes :=
  match op with
  | .fd (.unlink dir name) =>
    if stuck && decide (ascii ".dat" <:+ name) then (.error .EIOERR, d)
    else Disk.exec probeAnswers (.fd (.unlink dir name)) d
  | op => Disk.exec probeAnswers op d

theorem answers_probeExec (stuck : Bool) (d : Disk Bytes) (op : DiskOp Bytes FileCall) :
    Answers FileCall.Ans d op (probeExec stuck op d).1 (probeExec stuck op d).2 := by
  unfold probeExec
  split
  · split
    · rfl
    · exact answers_exec probeAnswers d _
  · exact answers_exec probeAnswers d _

/-- A probe of the empty disk. -/
def probeRun (stuck : Bool) : ProbeCalls × Except Err ProbeResult :=
  (probeFilesystem 1 1 (.ok [7])).run.trace (probeExec stuck) emptyDisk

theorem probeRun_ok (stuck : Bool) :
    (probeRun stuck).2 = .ok ⟨1, 1, true, true, true, true, true, true⟩ := by
  cases stuck <;> decide +kernel

theorem reach_probeRun (stuck : Bool) :
    Reach (probeFilesystem 1 1 (.ok [7])).run (probeRun stuck).1
      (.ret (.ok ⟨1, 1, true, true, true, true, true, true⟩)) :=
  probeRun_ok stuck ▸ reach_trace _ _ _

theorem probeFilesystem_residue_sample :
    (final emptyDisk (probeRun false).1).store.nodes (probeFile (hexEncode [7]) ".dat") = none ∧
      (final emptyDisk (probeRun false).1).store.nodes (directoryTarget (hexEncode [7])) =
        none := by
  have hclean := (probeFilesystem_residue_iff (reach_probeRun false)
    (answered_trace (answers_probeExec false) _ _)).2 (fun _ _ _ _ => by decide +kernel) ⟨_, rfl⟩
  exact ⟨hclean _ second_mem, hclean _ target_mem⟩

/-- The file is left behind: its removal fails, but that its first name is missing hides that. -/
theorem probeFilesystem_leaves : ∃ (s : Disk Bytes) (calls : ProbeCalls) (result : ProbeResult),
    Reach (probeFilesystem 1 1 (.ok [7])).run calls (.ret (.ok result)) ∧
      Answered (Answers FileCall.Ans) s calls ∧
      (final s calls).store.nodes (probeFile (hexEncode [7]) ".dat") ≠ none := by
  refine ⟨emptyDisk, (probeRun true).1, _, reach_probeRun true,
    answered_trace (answers_probeExec true) _ _, ?_⟩
  decide +kernel

end Kama.Artifact.OnDisk
