import Kama.Artifact.Accepted
import Kama.Artifact.Content
import Kama.Artifact.Importer

/-!
# Standard shards

A model in several files is named `<prefix>-00001-of-N.gguf` up to `<prefix>-N-of-N.gguf`. Two
functions generate these names, `ExpandStandardShards` for a selection and `shardNames` for the Hub,
and `ValidateGGUFSet` checks the files of a manifest against them.

* `shardPaths` are the names, in order; `pairwise_shardPaths`: the order is that of the bytes, as
  the numbers have five digits.
* `expandStandardShards_exact_iff`: when the expansion of a selection of shards is all of them.
* `validateGGUFSet_shards`: what `ValidateGGUFSet` has found out about the files it accepts.
-/

namespace Kama.Artifact

open Bytes FileTree Program Json Reader Storage

/-! ## The order of the names -/

theorem append_lt_append {x y : Bytes} (h : x < y) (hlength : x.length = y.length) (z w : Bytes) :
    x ++ z < y ++ w := by
  induction x generalizing y with
  | nil =>
    obtain rfl := List.length_eq_zero_iff.1 hlength.symm
    exact absurd h (List.lt_irrefl _)
  | cons a x ih =>
    cases y with
    | nil => cases hlength
    | cons b y =>
      rw [List.cons_lt_cons_iff] at h
      rw [List.cons_append, List.cons_append, List.cons_lt_cons_iff]
      rcases h with h | ⟨rfl, h⟩
      · exact .inl h
      · exact .inr ⟨rfl, ih h (Nat.succ.inj hlength)⟩

theorem joinSlash_append_lt (dir : List Bytes) {x y : Bytes} (h : x < y) :
    joinSlash (dir ++ [x]) < joinSlash (dir ++ [y]) := by
  induction dir with
  | nil => exact h
  | cons c cs ih =>
    rw [List.cons_append, List.cons_append, joinSlash_cons (by simp), joinSlash_cons (by simp)]
    exact List.append_left_lt (List.cons_lt_cons_iff.2 (.inr ⟨rfl, ih⟩))

namespace Gguf

theorem length_fiveDigits : ∀ i ≤ maxSelectedFiles, (fiveDigits i).length = 5 := by decide

theorem fiveDigits_lt_succ : ∀ i < maxSelectedFiles, fiveDigits i < fiveDigits (i + 1) := by
  decide

theorem ofDigits_fiveDigits : ∀ i ≤ maxSelectedFiles, ofDigits (fiveDigits i) = i := by decide

theorem fiveDigits_lt {i j : Nat} (hij : i < j) (hj : j ≤ maxSelectedFiles) :
    fiveDigits i < fiveDigits j := by
  induction j with
  | zero => omega
  | succ j ih =>
    have hstep := fiveDigits_lt_succ j (by omega)
    rcases Nat.lt_succ_iff_lt_or_eq.1 hij with hlt | rfl
    · exact List.lt_trans (ih hlt (by omega)) hstep
    · exact hstep

theorem shardName_lt (stem : Bytes) {i j : Nat} (hij : i < j) (hj : j ≤ maxSelectedFiles)
    (count : Nat) : shardName stem i count < shardName stem j count := by
  have hlength : (fiveDigits i).length = (fiveDigits j).length := by
    rw [length_fiveDigits i (by omega), length_fiveDigits j hj]
  simp only [shardName, List.append_assoc]
  refine List.append_left_lt (List.append_left_lt ?_)
  exact append_lt_append (fiveDigits_lt hij hj) hlength _ _

/-- The paths of the shards next to an entrypoint, in order. -/
def shardPaths (entrypoint stem : Bytes) (count : Nat) : List Bytes :=
  (expectedShards entrypoint stem count).map Prod.fst

theorem shardPaths_eq (entrypoint stem : Bytes) (count : Nat) :
    shardPaths entrypoint stem count =
      (List.range count).map fun i => siblingName entrypoint (shardName stem (i + 1) count) := by
  rw [shardPaths, expectedShards, List.map_map]
  rfl

theorem length_shardPaths (entrypoint stem : Bytes) (count : Nat) :
    (shardPaths entrypoint stem count).length = count := by
  rw [shardPaths_eq, List.length_map, List.length_range]

theorem pairwise_shardPaths (entrypoint stem : Bytes) {count : Nat}
    (hcount : count ≤ maxSelectedFiles) :
    (shardPaths entrypoint stem count).Pairwise (· < ·) := by
  rw [shardPaths_eq, List.pairwise_map]
  refine List.pairwise_lt_range.imp_of_mem fun {i j} _ hj hij => ?_
  rw [List.mem_range] at hj
  exact joinSlash_append_lt _ (shardName_lt stem (by omega) (by omega) count)

/-! ## Names of shards are shard names -/

/-- A name is taken apart into what it was made of, unless there is a newline in the prefix: `.`
does not match one. -/
theorem shardParts_append {stem no count : Bytes} (hno : no.length = 5)
    (hcount : count.length = 5) (hdigits : no.all isDigit ∧ count.all isDigit) :
    shardParts (stem ++ ascii "-" ++ no ++ ascii "-of-" ++ count ++ ascii ".gguf") =
      if 10 ∈ stem then none else some (stem, no, count) := by
  have hbase : stem ++ ascii "-" ++ no ++ ascii "-of-" ++ count ++ ascii ".gguf" =
      stem ++ (ascii "-" ++ no ++ ascii "-of-" ++ count ++ ascii ".gguf") := by
    simp only [List.append_assoc]
  have hlength : (ascii "-" ++ no ++ ascii "-of-" ++ count ++ ascii ".gguf").length = 20 := by
    simp only [List.length_append, hno, hcount]
    decide
  have hno' : ((ascii "-" ++ no ++ ascii "-of-" ++ count ++ ascii ".gguf").drop 1).take 5 = no := by
    rw [show ascii "-" ++ no ++ ascii "-of-" ++ count ++ ascii ".gguf" =
      ascii "-" ++ (no ++ (ascii "-of-" ++ count ++ ascii ".gguf")) by
        simp only [List.append_assoc],
      List.drop_left' (show (ascii "-").length = 1 by decide), List.take_left' hno]
  have hcount' : ((ascii "-" ++ no ++ ascii "-of-" ++ count ++ ascii ".gguf").drop 10).take 5 =
      count := by
    rw [List.append_assoc, List.drop_left' (by simp only [List.length_append, hno]; decide),
      List.take_left' hcount]
  dsimp only [shardParts]
  rw [hbase, List.length_append, hlength, Nat.add_sub_cancel, List.take_left' rfl,
    List.drop_left' rfl, hno', hcount']
  by_cases hstem : 10 ∈ stem
  · rw [if_neg fun h => h.2.1 hstem, if_pos hstem]
  · rw [if_pos ⟨by omega, hstem, rfl, hdigits⟩, if_neg hstem]

theorem all_isDigit_fiveDigits (n : Nat) : (fiveDigits n).all isDigit = true := by
  refine List.all_eq_true.2 fun b hb => ?_
  rcases List.mem_append.1 hb with hb | hb
  · rw [List.eq_of_mem_replicate hb]
    decide
  · exact isDigit_of_mem_natDigits hb

theorem shardParts_shardName {stem : Bytes} {i n : Nat} (hi : i ≤ maxSelectedFiles)
    (hn : n ≤ maxSelectedFiles) :
    shardParts (shardName stem i n) =
      if 10 ∈ stem then none else some (stem, fiveDigits i, fiveDigits n) :=
  shardParts_append (length_fiveDigits i hi) (length_fiveDigits n hn)
    ⟨all_isDigit_fiveDigits i, all_isDigit_fiveDigits n⟩

theorem mem_shardName {stem : Bytes} {i n : Nat} {b : UInt8} (h : b ∈ shardName stem i n) :
    b ∈ stem ∨ isDigit b = true ∨ b ∈ ascii "-of.gguf" := by
  have hdigit : ∀ k, b ∈ fiveDigits k → isDigit b = true := fun k hb =>
    List.all_eq_true.1 (all_isDigit_fiveDigits k) b hb
  have hsep : ∀ s ∈ ["-", "-of-", ".gguf"], b ∈ ascii s → b ∈ ascii "-of.gguf" := by
    intro s hs
    simp only [List.mem_cons, List.not_mem_nil, or_false] at hs
    have hsub : ∀ t ∈ [ascii "-", ascii "-of-", ascii ".gguf"], t ⊆ ascii "-of.gguf" := by decide
    rcases hs with rfl | rfl | rfl <;> exact fun hb => hsub _ (by simp) hb
  simp only [shardName, List.mem_append] at h
  rcases h with ((((h | h) | h) | h) | h) | h
  · exact .inl h
  · exact .inr (.inr (hsep _ (by simp) h))
  · exact .inr (.inl (hdigit _ h))
  · exact .inr (.inr (hsep _ (by simp) h))
  · exact .inr (.inl (hdigit _ h))
  · exact .inr (.inr (hsep _ (by simp) h))

/-- A shard's name can be a component when that of another shard can. -/
theorem validComponent_shardName {stem : Bytes} {i j n : Nat}
    (h : validComponent (shardName stem i n) = true) :
    validComponent (shardName stem j n) = true := by
  have hbytes : ∀ b ∈ [(0 : UInt8), 92, 47], b ∉ shardName stem j n := by
    intro b hb hmem
    have hother : isDigit b = false ∧ b ∉ ascii "-of.gguf" := by
      simp only [List.mem_cons, List.not_mem_nil, or_false] at hb
      rcases hb with rfl | rfl | rfl <;> decide
    have hstem : b ∉ stem := by
      intro hstem
      have hname : b ∈ shardName stem i n := by simp [shardName, hstem]
      simp only [validComponent, decide_eq_true_eq] at h
      simp only [List.mem_cons, List.not_mem_nil, or_false] at hb
      rcases hb with rfl | rfl | rfl
      · exact h.2.2.2.1 hname
      · exact h.2.2.2.2.1 hname
      · exact h.2.2.2.2.2 hname
    rcases mem_shardName hmem with hmem | hmem | hmem
    · exact hstem hmem
    · rw [hother.1] at hmem
      cases hmem
    · exact hother.2 hmem
  have hlong : 4 < (shardName stem j n).length := by
    simp only [shardName, List.length_append]
    have hext : (ascii ".gguf").length = 5 := by decide
    omega
  simp only [validComponent, decide_eq_true_eq]
  refine ⟨?_, ?_, ?_, hbytes 0 (by simp), hbytes 92 (by simp), hbytes 47 (by simp)⟩ <;>
    intro heq <;> rw [heq] at hlong <;> exact absurd hlong (by decide)

/-! ## Shards can be selected -/

theorem splitSlash_siblingName {p base : Bytes} (hbase : 47 ∉ base) :
    splitSlash (siblingName p base) = (splitSlash p).dropLast ++ [base] := by
  refine splitSlash_joinSlash (by simp) fun c hc => ?_
  rcases List.mem_append.1 hc with hc | hc
  · exact not_mem_of_mem_splitSlash (List.mem_of_mem_dropLast hc)
  · rw [List.mem_singleton.1 hc]
    exact hbase

theorem isGGUF_append {x : Bytes} (hx : 47 ∉ x) : isGGUF (x ++ ascii ".gguf") = true := by
  have hslash : 47 ∉ x ++ ascii ".gguf" := by
    rw [List.mem_append, not_or]
    exact ⟨hx, by decide⟩
  have htail : ((x ++ ascii ".gguf").reverse.takeWhile (· ≠ 46)).reverse = ascii "gguf" := by
    rw [List.reverse_append]
    rfl
  have hext : pathExt (x ++ ascii ".gguf") = ascii ".gguf" := by
    have hlength : (ascii "gguf").length ≠ (x ++ ascii ".gguf").length := by
      rw [List.length_append]
      have h4 : (ascii "gguf").length = 4 := by decide
      have h5 : (ascii ".gguf").length = 5 := by decide
      omega
    have hlast : [x ++ ascii ".gguf"].getLastD [] = x ++ ascii ".gguf" := rfl
    dsimp only [pathExt]
    rw [splitSlash_of_not_mem hslash, hlast, htail, if_neg hlength]
    decide
  rw [isGGUF, hext]
  decide

/-- The path of a shard next to an entrypoint that is a shard of the same set. -/
theorem validateSelectedFile_shard {entrypoint stem : Bytes} {i n : Nat}
    (hvalid : validateRelativePath entrypoint = .ok ())
    (hbase : baseName entrypoint = shardName stem 1 n) :
    validateSelectedFile (siblingName entrypoint (shardName stem i n)) = .ok () := by
  rw [validateRelativePath_eq_ok_iff] at hvalid
  have hentry : validComponent (shardName stem 1 n) = true := by
    rw [← hbase]
    exact hvalid _ (getLastD_mem_splitSlash entrypoint)
  have hname : validComponent (shardName stem i n) = true := validComponent_shardName hentry
  have hslash : 47 ∉ shardName stem i n := by
    simp only [validComponent, decide_eq_true_eq] at hname
    exact hname.2.2.2.2.2
  have hsplit := splitSlash_siblingName (p := entrypoint) hslash
  have hpath : validateRelativePath (siblingName entrypoint (shardName stem i n)) = .ok () := by
    rw [validateRelativePath_eq_ok_iff, hsplit]
    intro c hc
    rcases List.mem_append.1 hc with hc | hc
    · exact hvalid c (List.mem_of_mem_dropLast hc)
    · rw [List.mem_singleton.1 hc]
      exact hname
  have hgguf : isGGUF (siblingName entrypoint (shardName stem i n)) = true := by
    rw [← isGGUF_getLastD, hsplit, List.getLastD_concat]
    refine isGGUF_append fun hmem => hslash ?_
    exact List.mem_append_left _ hmem
  have hreserved : ¬ (siblingName entrypoint (shardName stem i n) = manifestFilename ∨
      siblingName entrypoint (shardName stem i n) = readyFilename) := by
    rintro (h | h) <;> rw [h] at hgguf <;> exact absurd hgguf (by decide)
  refine except_bind_eq_ok.2 ⟨(), mapError_eq_ok.2 hpath, ?_⟩
  refine except_refuse_eq_ok.2 ⟨hreserved, ?_⟩
  rw [hgguf]
  rfl

theorem siblingName_baseName (entrypoint : Bytes) :
    siblingName entrypoint (baseName entrypoint) = entrypoint := by
  rw [siblingName, baseName, List.getLastD_eq_getLast?,
    List.getLast?_eq_some_getLast (splitSlash_ne_nil entrypoint), Option.getD_some,
    List.dropLast_append_getLast, joinSlash_splitSlash]

theorem entrypoint_mem_shardPaths {entrypoint stem : Bytes} {n : Nat} (hn : 1 ≤ n)
    (hbase : baseName entrypoint = shardName stem 1 n) :
    entrypoint ∈ shardPaths entrypoint stem n := by
  rw [shardPaths_eq, List.mem_map]
  refine ⟨0, List.mem_range.2 hn, ?_⟩
  rw [Nat.zero_add, ← hbase, siblingName_baseName]

end Gguf

/-! ## Expansion -/

theorem validateSelectedFiles_of_forall {names : List Bytes}
    (h : ∀ p ∈ names, validateSelectedFile p = .ok ()) : validateSelectedFiles names = .ok () := by
  induction names with
  | nil => rfl
  | cons name names ih =>
    rw [List.forall_mem_cons] at h
    exact except_bind_eq_ok.2 ⟨(), h.1, ih h.2⟩

theorem insertionSort_eq_of_pairwise_lt {l sorted : List Bytes} (hperm : l.Perm sorted)
    (hsorted : sorted.Pairwise (· < ·)) : l.insertionSort (· ≤ ·) = sorted := by
  have hsame : (l.insertionSort (· ≤ ·)).Perm sorted := (l.perm_insertionSort (· ≤ ·)).trans hperm
  exact hsame.eq_of_pairwise (fun _ _ _ _ => List.le_antisymm) (l.pairwise_insertionSort (· ≤ ·))
    (hsorted.imp List.le_of_lt)

/-- Normalizing a list that has exactly the elements of `sorted`. -/
theorem normalizeSelectedFiles_eq {entrypoint : Bytes} {selected sorted : List Bytes}
    (hvalid : validateRelativePath entrypoint = .ok ())
    (hlength : selected.length ≤ maxSelectedFiles)
    (hfiles : ∀ p ∈ selected, validateSelectedFile p = .ok ()) (hentry : entrypoint ∈ selected)
    (hmem : ∀ p, p ∈ selected ↔ p ∈ sorted) (hsorted : sorted.Pairwise (· < ·)) :
    normalizeSelectedFiles entrypoint selected = .ok sorted := by
  have hne : selected ≠ [] := List.ne_nil_of_mem hentry
  have hrequested : requested entrypoint selected = selected := if_neg hne
  have hnodup : sorted.Nodup := by
    refine hsorted.imp ?_
    rintro p _ hlt rfl
    exact List.lt_irrefl p hlt
  have hperm : selected.dedup.Perm sorted := by
    refine (List.perm_ext_iff_of_nodup (List.nodup_dedup _) hnodup).2 fun p => ?_
    rw [List.mem_dedup]
    exact hmem p
  have hunique : selected.dedup.length ≤ maxSelectedFiles :=
    Nat.le_trans (List.dedup_sublist selected).length_le hlength
  refine except_bind_eq_ok.2 ⟨(), mapError_eq_ok.2 hvalid, ?_⟩
  rw [hrequested]
  refine except_refuse_eq_ok.2 ⟨Nat.not_lt.2 hlength, ?_⟩
  refine except_bind_eq_ok.2 ⟨(), validateSelectedFiles_of_forall hfiles, ?_⟩
  refine except_refuse_eq_ok.2 ⟨not_not.2 (List.mem_dedup.2 hentry), ?_⟩
  refine except_refuse_eq_ok.2 ⟨Nat.not_lt.2 hunique, ?_⟩
  exact congrArg Except.ok (insertionSort_eq_of_pairwise_lt hperm hsorted)

namespace Import

open Gguf

/-- A selection of shards: none, for which the entrypoint stands, or distinct shards of the
entrypoint's set with the entrypoint among them. -/
def SelectsShards (entrypoint stem : Bytes) (count : Nat) (selected : List Bytes) : Prop :=
  selected = [] ∨ selected.Nodup ∧ entrypoint ∈ selected ∧
    ∀ p ∈ selected, p ∈ shardPaths entrypoint stem count

section Expansion

variable {entrypoint stem : Bytes} {n : Nat} {selected : List Bytes}

theorem length_requested (entrypoint : Bytes) (selected : List Bytes) :
    (requested entrypoint selected).length = max 1 selected.length := by
  unfold requested
  split
  · rename_i hnil
    rw [hnil]
    rfl
  · rename_i hne
    exact (Nat.max_eq_right (List.length_pos_iff.2 hne)).symm

/-- The files that are asked for are shards, with the entrypoint among them. -/
theorem SelectsShards.requested (h : SelectsShards entrypoint stem n selected) (hn : 1 ≤ n)
    (hbase : baseName entrypoint = shardName stem 1 n) :
    entrypoint ∈ Artifact.requested entrypoint selected ∧
      ∀ p ∈ Artifact.requested entrypoint selected, p ∈ shardPaths entrypoint stem n := by
  unfold Artifact.requested
  split
  · refine ⟨List.mem_singleton_self _, fun p hp => ?_⟩
    rw [List.mem_singleton.1 hp]
    exact entrypoint_mem_shardPaths hn hbase
  · rename_i hne
    exact (h.resolve_left hne).2

/-- With a standard name, what is selected is normalized together with all shards. -/
theorem expandStandardShards_of_standard (selected : List Bytes)
    (hvalid : validateRelativePath entrypoint = .ok ())
    (hbase : baseName entrypoint = shardName stem 1 n) (hn : 1 ≤ n ∧ n ≤ maxSelectedFiles)
    (hstem : 10 ∉ stem) :
    expandStandardShards entrypoint selected =
        normalizeSelectedFiles entrypoint
          (requested entrypoint selected ++ shardPaths entrypoint stem n) ∧
      shardNames entrypoint = .ok (shardPaths entrypoint stem n) := by
  have hparts : shardParts (baseName entrypoint) = some (stem, fiveDigits 1, fiveDigits n) := by
    rw [hbase, shardParts_shardName (by decide) hn.2, if_neg hstem]
  have hcheck : validateShardEntrypoint entrypoint = .ok () := by
    unfold validateShardEntrypoint
    rw [hparts]
    exact if_neg (not_not.2 (by decide))
  have hcount : ofDigits (fiveDigits n) = n := ofDigits_fiveDigits n hn.2
  have hrange : ¬ (n < 1 ∨ maxSelectedFiles < n) := by omega
  constructor
  · unfold expandStandardShards
    simp only [hvalid, hcheck, hparts, hcount, if_neg hrange]
    rfl
  · unfold shardNames
    simp only [hcheck, hparts, hcount, if_neg hrange]
    rfl

/-- With a newline in the prefix the name is not a standard one, and the entrypoint stands alone. -/
theorem expandStandardShards_of_newline (selected : List Bytes)
    (hvalid : validateRelativePath entrypoint = .ok ())
    (hbase : baseName entrypoint = shardName stem 1 n) (hn : n ≤ maxSelectedFiles)
    (hstem : 10 ∈ stem) :
    expandStandardShards entrypoint selected =
        normalizeSelectedFiles entrypoint (requested entrypoint selected) ∧
      shardNames entrypoint = .ok [entrypoint] := by
  have hparts : shardParts (baseName entrypoint) = none := by
    rw [hbase, shardParts_shardName (by decide) hn, if_pos hstem]
  have hcheck : validateShardEntrypoint entrypoint = .ok () := by
    unfold validateShardEntrypoint
    rw [hparts]
  constructor
  · unfold expandStandardShards
    simp only [hvalid, hcheck, hparts]
    rfl
  · unfold shardNames
    simp only [hcheck, hparts]
    rfl

theorem length_le_of_normalizeSelectedFiles {files : List Bytes}
    (h : normalizeSelectedFiles entrypoint selected = .ok files) :
    (requested entrypoint selected).length ≤ maxSelectedFiles := by
  obtain ⟨_, -, h⟩ := except_bind_eq_ok.1 h
  obtain ⟨hlength, -⟩ := except_refuse_eq_ok.1 h
  exact Nat.not_lt.1 hlength

/-- Shards with the entrypoint among them, whatever their order and however often, are normalized to
the set that they make up. -/
theorem normalizeSelectedFiles_shards {all : List Bytes}
    (hvalid : validateRelativePath entrypoint = .ok ())
    (hbase : baseName entrypoint = shardName stem 1 n) (hn : n ≤ maxSelectedFiles)
    (hentry : entrypoint ∈ all) (hlength : all.length ≤ maxSelectedFiles)
    (hmem : ∀ p, p ∈ all ↔ p ∈ shardPaths entrypoint stem n) :
    normalizeSelectedFiles entrypoint all = .ok (shardPaths entrypoint stem n) := by
  refine normalizeSelectedFiles_eq hvalid hlength (fun p hp => ?_) hentry hmem
    (pairwise_shardPaths entrypoint stem hn)
  have hp := (hmem p).1 hp
  rw [shardPaths_eq, List.mem_map] at hp
  obtain ⟨i, -, rfl⟩ := hp
  exact validateSelectedFile_shard hvalid hbase

theorem SelectsShards.length_le (h : SelectsShards entrypoint stem n selected) :
    selected.length ≤ n := by
  rcases h with rfl | ⟨hnodup, -, hmem⟩
  · exact Nat.zero_le n
  · rw [← length_shardPaths entrypoint stem n]
    exact (List.subperm_of_subset hnodup hmem).length_le

end Expansion

/-- **When expansion is exact.** The selection expands to all shards, which are also what
`shardNames` returns, exactly when the selection and the shards together are not more than the files
that can be selected, and the prefix has no newline or the entrypoint is the only shard. -/
theorem expandStandardShards_exact_iff (entrypoint stem : Bytes) (n : Nat) (selected : List Bytes)
    (hvalid : validateRelativePath entrypoint = .ok ())
    (hbase : baseName entrypoint = shardName stem 1 n) (hn : 1 ≤ n ∧ n ≤ maxSelectedFiles)
    (hselected : SelectsShards entrypoint stem n selected) :
    (expandStandardShards entrypoint selected = .ok (shardPaths entrypoint stem n) ∧
      (shardPaths entrypoint stem n).Pairwise (· < ·) ∧
      (shardPaths entrypoint stem n).length = n ∧
      shardNames entrypoint = .ok (shardPaths entrypoint stem n)) ↔
    (10 ∉ stem ∨ n = 1) ∧ n + max 1 selected.length ≤ maxSelectedFiles := by
  obtain ⟨hentry, hsub⟩ := hselected.requested hn.1 hbase
  have hpaths := length_shardPaths entrypoint stem n
  have hsorted := pairwise_shardPaths entrypoint stem hn.2
  by_cases hstem : 10 ∈ stem
  · obtain ⟨hexpand, hnames⟩ :=
      expandStandardShards_of_newline selected hvalid hbase hn.2 hstem
    rw [hexpand, hnames]
    constructor
    · rintro ⟨-, -, -, hsame⟩
      have hone : n = 1 := by rw [← hpaths, ← Except.ok.inj hsame]; rfl
      have hselected := hselected.length_le
      have hmax : maxSelectedFiles = 128 := rfl
      exact ⟨.inr hone, by omega⟩
    · rintro ⟨hone, -⟩
      obtain rfl := hone.resolve_left (not_not.2 hstem)
      -- the entrypoint is the only shard there is
      have hall : shardPaths entrypoint stem 1 = [entrypoint] := by
        obtain ⟨p, hp⟩ := List.length_eq_one_iff.1 hpaths
        have hmem := hsub entrypoint hentry
        rw [hp, List.mem_singleton] at hmem
        rw [hp, hmem]
      have hlength : (requested entrypoint selected).length ≤ maxSelectedFiles := by
        have hselected := hselected.length_le
        have hmax : maxSelectedFiles = 128 := rfl
        rw [length_requested]
        omega
      refine ⟨?_, hsorted, hpaths, by rw [hall]⟩
      refine normalizeSelectedFiles_shards hvalid hbase hn.2 hentry hlength fun p => ?_
      refine ⟨hsub p, fun hp => ?_⟩
      rw [hall, List.mem_singleton] at hp
      rwa [hp]
  · obtain ⟨hexpand, hnames⟩ :=
      expandStandardShards_of_standard selected hvalid hbase hn hstem
    have hlength : (requested entrypoint selected ++ shardPaths entrypoint stem n).length =
        max 1 selected.length + n := by
      rw [List.length_append, length_requested, hpaths]
    have hne : requested entrypoint selected ++ shardPaths entrypoint stem n ≠ [] :=
      List.ne_nil_of_mem (List.mem_append_left _ hentry)
    rw [hexpand]
    constructor
    · rintro ⟨hnormal, -⟩
      have hroom := length_le_of_normalizeSelectedFiles hnormal
      rw [requested, if_neg hne, hlength] at hroom
      exact ⟨.inl hstem, by omega⟩
    · rintro ⟨-, hroom⟩
      refine ⟨?_, hsorted, hpaths, hnames⟩
      refine normalizeSelectedFiles_shards hvalid hbase hn.2 (List.mem_append_left _ hentry)
        (by omega) fun p => ?_
      exact ⟨fun hp => (List.mem_append.1 hp).elim (hsub p) id, List.mem_append_right _⟩

/-- Two shards, of which the second is selected as well, and a single shard with a newline. -/
theorem expandStandardShards_exact_iff_small :
    expandStandardShards (ascii "q/m-00001-of-00002.gguf")
        [ascii "q/m-00002-of-00002.gguf", ascii "q/m-00001-of-00002.gguf"] =
        .ok [ascii "q/m-00001-of-00002.gguf", ascii "q/m-00002-of-00002.gguf"] ∧
      shardNames (ascii "q/m-00001-of-00002.gguf") =
        .ok [ascii "q/m-00001-of-00002.gguf", ascii "q/m-00002-of-00002.gguf"] ∧
      expandStandardShards (ascii "\n-00001-of-00001.gguf") [] =
        .ok [ascii "\n-00001-of-00001.gguf"] := by
  have hpaths : shardPaths (ascii "q/m-00001-of-00002.gguf") (ascii "m") 2 =
      [ascii "q/m-00001-of-00002.gguf", ascii "q/m-00002-of-00002.gguf"] := by decide
  have hline : shardPaths (ascii "\n-00001-of-00001.gguf") (ascii "\n") 1 =
      [ascii "\n-00001-of-00001.gguf"] := by decide
  have htwo := (expandStandardShards_exact_iff (ascii "q/m-00001-of-00002.gguf") (ascii "m") 2
    [ascii "q/m-00002-of-00002.gguf", ascii "q/m-00001-of-00002.gguf"] (by decide) (by decide)
    (by decide) (.inr (by rw [hpaths]; decide))).2 (by decide)
  have hone := (expandStandardShards_exact_iff (ascii "\n-00001-of-00001.gguf") (ascii "\n") 1 []
    (by decide) (by decide) (by decide) (.inl rfl)).2 (by decide)
  rw [hpaths] at htwo
  rw [hline] at hone
  exact ⟨htwo.1, htwo.2.2.2, hone.1⟩

/-- A set of 128 shards is refused whatever is selected of it, although `shardNames` has it; and a
newline in the prefix is not part of a standard name. -/
theorem expandStandardShards_refuses :
    (validateRelativePath (ascii "m-00001-of-00128.gguf") = .ok () ∧
      baseName (ascii "m-00001-of-00128.gguf") = shardName (ascii "m") 1 128 ∧
      expandStandardShards (ascii "m-00001-of-00128.gguf") [] = .error (tooManyFiles 129) ∧
      ∃ names, shardNames (ascii "m-00001-of-00128.gguf") = .ok names) ∧
    (validateRelativePath (ascii "\n-00001-of-00002.gguf") = .ok () ∧
      baseName (ascii "\n-00001-of-00002.gguf") = shardName (ascii "\n") 1 2 ∧
      expandStandardShards (ascii "\n-00001-of-00002.gguf") [] =
        .ok [ascii "\n-00001-of-00002.gguf"]) := by
  refine ⟨⟨by decide, by decide, by decide +kernel, _, rfl⟩, by decide, by decide, by decide⟩

end Import

/-! ## Validated sets -/

namespace Gguf

theorem countTensors_ok {first : Document} {documents : List Document} {total n : Nat}
    (h : countTensors first total documents = .ok n) :
    (∀ d ∈ documents, d.architecture = first.architecture ∧ d.fileType = first.fileType) ∧
      n = total + (documents.map Document.tensorCount).sum := by
  induction documents generalizing total with
  | nil => exact ⟨by simp, (Except.ok.inj h).symm⟩
  | cons d documents ih =>
    rw [countTensors] at h
    split at h
    · cases h
    rename_i harchitecture
    split at h
    · cases h
    rename_i hfileType
    split at h
    · cases h
    obtain ⟨hall, hsum⟩ := ih h
    refine ⟨List.forall_mem_cons.2 ⟨⟨not_not.1 harchitecture, not_not.1 hfileType⟩, hall⟩, ?_⟩
    rw [hsum, List.map_cons, List.sum_cons, Nat.add_assoc]

theorem mem_expectedShards {entrypoint stem path : Bytes} {count index : Nat}
    (h : (path, index) ∈ expectedShards entrypoint stem count) :
    (shardPaths entrypoint stem count)[index]? = some path := by
  obtain ⟨i, hi, heq⟩ := List.mem_map.1 h
  obtain ⟨rfl, rfl⟩ := Prod.mk.inj heq
  rw [List.mem_range] at hi
  rw [shardPaths_eq, List.getElem?_map, List.getElem?_range hi]
  rfl

/-- Documents whose names are in order are all shards, in order. -/
theorem checkShards_paths {entrypoint stem : Bytes} {count : Nat}
    {documents : List (Bytes × Document)} (hcount : count ≤ maxSelectedFiles)
    (h : checkShards count (expectedShards entrypoint stem count) documents = .ok ())
    (hsorted : (documents.map Prod.fst).Pairwise (· < ·)) :
    documents.map Prod.fst = shardPaths entrypoint stem count ∧
      documents.map (fun d => d.2.shardNo) = (List.range count).map some ∧
      ∀ d ∈ documents, d.2.shardCount = some count := by
  obtain ⟨hdocuments, hexpected⟩ := checkShards_all h
  have hpaths := pairwise_shardPaths entrypoint stem hcount
  have hnodup : ∀ {l : List Bytes}, l.Pairwise (· < ·) → l.Nodup := by
    intro l hl
    refine hl.imp ?_
    rintro p _ hlt rfl
    exact List.lt_irrefl p hlt
  have hmem : ∀ p, p ∈ documents.map Prod.fst ↔ p ∈ shardPaths entrypoint stem count := by
    intro p
    constructor
    · intro hp
      obtain ⟨d, hd, rfl⟩ := List.mem_map.1 hp
      obtain ⟨-, index, hindex, -⟩ := hdocuments d hd
      exact List.mem_map.2 ⟨_, hindex, rfl⟩
    · intro hp
      obtain ⟨e, he, rfl⟩ := List.mem_map.1 hp
      exact hexpected e he
  have hnames : documents.map Prod.fst = shardPaths entrypoint stem count := by
    have hperm := (List.perm_ext_iff_of_nodup (hnodup hsorted) (hnodup hpaths)).2 hmem
    exact hperm.eq_of_pairwise (fun _ _ _ _ => List.le_antisymm) (hsorted.imp List.le_of_lt)
      (hpaths.imp List.le_of_lt)
  refine ⟨hnames, ?_, fun d hd => (hdocuments d hd).1⟩
  have hlength : documents.length = count := by
    have hlength := congrArg List.length hnames
    rwa [List.length_map, length_shardPaths] at hlength
  refine List.ext_getElem (by simp [hlength]) fun i hi hi' => ?_
  rw [List.length_map] at hi
  obtain ⟨-, index, hindex, hno⟩ := hdocuments _ (List.getElem_mem hi)
  -- the name of the document stands at its own place and at the place of its number
  have hat : (shardPaths entrypoint stem count)[i]? = some documents[i].1 := by
    rw [← hnames, List.getElem?_map, List.getElem?_eq_getElem hi]
    rfl
  obtain ⟨hi₁, hat₁⟩ := List.getElem?_eq_some_iff.1 hat
  obtain ⟨hi₂, hat₂⟩ := List.getElem?_eq_some_iff.1 (mem_expectedShards hindex)
  have hsame : i = index := (List.Nodup.getElem_inj_iff (hnodup hpaths)).1 (hat₁.trans hat₂.symm)
  rw [List.getElem_map, List.getElem_map, List.getElem_range, hno, hsame]

/-- What `checkSet` has found out about the documents of a manifest. -/
theorem checkSet_shards {m : Manifest} {documents : List (Bytes × Document)} {g : Metadata}
    (h : checkSet m documents = .ok g) (hsorted : (documents.map Prod.fst).Pairwise (· < ·)) :
    (∀ stem no digits, shardParts (baseName m.entrypoint) = some (stem, no, digits) →
      documents.map Prod.fst = shardPaths m.entrypoint stem (ofDigits digits) ∧
      (1 ≤ ofDigits digits ∧ ofDigits digits ≤ maxSelectedFiles) ∧
      documents.map (fun d => d.2.shardNo) = (List.range (ofDigits digits)).map some ∧
      (∀ d ∈ documents, d.2.shardCount = some (ofDigits digits)) ∧
      (∀ d ∈ documents, d.2.architecture = g.architecture) ∧
      (∀ d ∈ documents, ∀ d' ∈ documents, d.2.fileType = d'.2.fileType) ∧
      g.tensorCount = (documents.map fun d => d.2.tensorCount).sum) ∧
    (shardParts (baseName m.entrypoint) = none →
      ∃ d, documents = [d] ∧ ∀ n, d.2.shardCount = some n → n ≤ 1) := by
  unfold checkSet at h
  split at h
  · cases h
  rename_i path first rest
  obtain ⟨-, h⟩ := except_refuse_eq_ok.1 h
  obtain ⟨-, h⟩ := except_refuse_eq_ok.1 h
  obtain ⟨tensorCount, hcount, h⟩ := except_bind_eq_ok.1 h
  obtain ⟨hagree, hsum⟩ := countTensors_ok hcount
  have hagree : ∀ d ∈ (path, first) :: rest,
      d.2.architecture = first.architecture ∧ d.2.fileType = first.fileType :=
    fun d hd => hagree d.2 (List.mem_map_of_mem hd)
  rw [Nat.zero_add, List.map_map] at hsum
  split at h
  · rename_i hparts
    refine ⟨fun stem no digits hsome => ?_, fun _ => ?_⟩
    · rw [hparts] at hsome
      cases hsome
    obtain ⟨hlength, h⟩ := except_refuse_eq_ok.1 h
    obtain ⟨hdeclared, -⟩ := except_refuse_eq_ok.1 h
    obtain rfl : rest = [] := List.length_eq_zero_iff.1 (by simpa using hlength)
    refine ⟨_, rfl, fun n hn => ?_⟩
    dsimp only at hn
    rw [hn] at hdeclared
    simpa using hdeclared
  · rename_i stem no digits hparts
    refine ⟨fun stem' no' digits' hsome => ?_, fun hnone => ?_⟩
    · rw [hparts] at hsome
      cases hsome
      obtain ⟨hrange, h⟩ := except_refuse_eq_ok.1 h
      obtain ⟨-, h⟩ := except_refuse_eq_ok.1 h
      obtain ⟨_, hshards, h⟩ := except_bind_eq_ok.1 h
      cases h
      have hrange : 1 ≤ ofDigits digits ∧ ofDigits digits ≤ maxSelectedFiles := by omega
      obtain ⟨hnames, hnos, hcounts⟩ := checkShards_paths hrange.2 hshards hsorted
      refine ⟨hnames, hrange, hnos, hcounts, fun d hd => (hagree d hd).1, fun d hd d' hd' => ?_,
        hsum⟩
      rw [(hagree d hd).2, (hagree d' hd').2]
    · rw [hparts] at hnone
      cases hnone

end Gguf

namespace Storage

open Gguf FsOp

/-- The file of a record, as GGUF. -/
def ReadsAs (t : Cache) (base : Path) (r : FileRecord) (d : Document) : Prop :=
  ∃ content, t.get (filePath base r.path) = some (.file content) ∧ parseGGUF content = .ok d

theorem readDocuments_readsAs {t : Cache} {base : Path} {records : List FileRecord}
    {documents : List (Bytes × Document)}
    (h : look (readDocuments base records) t = .ok documents) :
    documents.map Prod.fst = records.map FileRecord.path ∧
      List.Forall₂ (ReadsAs t base) records (documents.map Prod.snd) := by
  induction records generalizing documents with
  | nil =>
    obtain rfl : [] = documents := Except.ok.inj h
    exact ⟨rfl, .nil⟩
  | cons record records ih =>
    unfold readDocuments at h
    obtain ⟨content, hcontent, h⟩ := look_bind_ok h (calls_readRegular (fun _ => id) _)
    obtain ⟨document, hdocument, h⟩ := look_bind_ok h trivial
    obtain ⟨rest, hrest, h⟩ := look_bind_ok h (calls_readDocuments (fun _ => id) _ _)
    obtain rfl : (record.path, document) :: rest = documents := Except.ok.inj h
    obtain ⟨hpaths, hreads⟩ := ih hrest
    refine ⟨by rw [List.map_cons, List.map_cons, hpaths], .cons ?_ hreads⟩
    exact ⟨content, readRegular_ok hcontent, mapError_eq_ok.1 hdocument⟩

/-- **A validated set is complete and consistent.** The documents of the files, in the order of the
manifest, are the shards of the entrypoint in the order of their numbers; without a standard name
there is one file. -/
theorem validateGGUFSet_shards (t : Cache) (base : Path) (m : Manifest) (g : Metadata)
    (h : look (validateGGUFSet base m) t = .ok g) :
    (m.files.map FileRecord.path).Pairwise (· < ·) ∧
    ∃ documents : List Document, List.Forall₂ (ReadsAs t base) m.files documents ∧
      (∀ stem no digits, shardParts (baseName m.entrypoint) = some (stem, no, digits) →
        Import.shardNames m.entrypoint = .ok (m.files.map FileRecord.path) ∧
        documents.map Document.shardNo = (List.range (ofDigits digits)).map some ∧
        (∀ d ∈ documents, d.shardCount = some (ofDigits digits)) ∧
        (∀ d ∈ documents, d.architecture = g.architecture) ∧
        (∀ d ∈ documents, ∀ d' ∈ documents, d.fileType = d'.fileType) ∧
        g.tensorCount = (documents.map Document.tensorCount).sum) ∧
      (shardParts (baseName m.entrypoint) = none →
        m.files.length = 1 ∧ ∀ d ∈ documents, ∀ n, d.shardCount = some n → n ≤ 1) := by
  obtain ⟨_, hvalid, h⟩ := look_bind_ok h trivial
  obtain ⟨_, hentry, h⟩ := look_bind_ok h trivial
  obtain ⟨documents, hdocuments, h⟩ := look_bind_ok h (calls_readDocuments (fun _ => id) _ _)
  obtain ⟨hpaths, hreads⟩ := readDocuments_readsAs hdocuments
  have hsorted := (validateManifest_ok hvalid).sorted
  obtain ⟨hstandard, hsingle⟩ := checkSet_shards h (hpaths ▸ hsorted)
  refine ⟨hsorted, documents.map Prod.snd, hreads, fun stem no digits hparts => ?_,
    fun hparts => ?_⟩
  · obtain ⟨hnames, hrange, hnos, hcounts, harchitecture, hfileType, hsum⟩ :=
      hstandard stem no digits hparts
    refine ⟨?_, ?_, ?_, ?_, ?_, ?_⟩
    · rw [← hpaths, hnames]
      refine except_bind_eq_ok.2 ⟨(), hentry, ?_⟩
      rw [hparts]
      exact except_refuse_eq_ok.2 ⟨by omega, rfl⟩
    · rw [List.map_map]
      exact hnos
    · intro d hd
      obtain ⟨e, he, rfl⟩ := List.mem_map.1 hd
      exact hcounts e he
    · intro d hd
      obtain ⟨e, he, rfl⟩ := List.mem_map.1 hd
      exact harchitecture e he
    · intro d hd d' hd'
      obtain ⟨e, he, rfl⟩ := List.mem_map.1 hd
      obtain ⟨e', he', rfl⟩ := List.mem_map.1 hd'
      exact hfileType e he e' he'
    · rw [List.map_map]
      exact hsum
  · obtain ⟨d, rfl, hdeclared⟩ := hsingle hparts
    refine ⟨?_, ?_⟩
    · have hlength := congrArg List.length hpaths
      rw [List.length_map, List.length_map] at hlength
      exact hlength.symm
    · simpa using hdeclared

/-- The two sample shards. -/
theorem validateGGUFSet_shards_two :
    Import.shardNames (ascii "m-00001-of-00002.gguf") =
        .ok [ascii "m-00001-of-00002.gguf", ascii "m-00002-of-00002.gguf"] ∧
      ∃ documents : List Document, documents.map Document.shardNo = [some 0, some 1] ∧
        (∀ d ∈ documents, d.shardCount = some 2 ∧ d.architecture = ascii "llama") ∧
        (documents.map Document.tensorCount).sum = 2 := by
  obtain ⟨-, documents, -, hstandard, -⟩ := validateGGUFSet_shards
    shardVolume [] shardManifest shardMetadata (by decide +kernel)
  obtain ⟨hnames, hnos, hcounts, harchitecture, -, hsum⟩ :=
    hstandard (ascii "m") (ascii "00001") (ascii "00002") (by decide)
  exact ⟨hnames, documents, hnos, fun d hd => ⟨hcounts d hd, harchitecture d hd⟩, hsum.symm⟩

end Storage

end Kama.Artifact
