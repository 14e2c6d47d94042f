import Kama.Controller.Admission
import Kama.Runtime.Config

/-!
# The path rules of the three packages

A path of an artifact is checked by the webhook (`validateCleanRelativePath`), by the importer
(`Artifact.validateRelativePath`) and by the runtime (`validateRelativePath`), each of which asks
for less than the one before. The runtime joins an accepted path to the mount of the model in two
ways: `modelPath` goes through `path.Clean`, `filepathForArtifact` does not.

* `proper_of_clean`: in a clean path that does not start with `..`, every component is `Proper`.
* `filepathForArtifact_eq_join`: below an absolute clean root the two ways give one path.
* `pathRules`: the chain, the components, the joins and the path of the entrypoint.
-/

namespace Kama.Runtime

open Bytes Reader
open Artifact (Err Proper clean cleanStep joinPath validComponent foldl_cleanStep_of_proper
  validateRelativePath_eq_ok_iff)
open Controller (validateCleanRelativePath validateSegments FieldPath)

/-! ## Components -/

/-- What `path.Clean` has collected of a relative path: no empty component, no `.`, and `..` at the
bottom only. -/
structure Collected (stack : List Bytes) : Prop where
  component : ∀ c ∈ stack, c ≠ [] ∧ c ≠ ascii "." ∧ (47 : UInt8) ∉ c
  dots : ascii ".." ∈ stack → stack.getLast? = some (ascii "..")

theorem Collected.push {stack : List Bytes} (h : Collected stack) {c : Bytes} (hne : c ≠ [])
    (hdot : c ≠ ascii ".") (hslash : (47 : UInt8) ∉ c)
    (hdots : c = ascii ".." → stack = [] ∨ ascii ".." ∈ stack) : Collected (c :: stack) := by
  refine ⟨List.forall_mem_cons.2 ⟨⟨hne, hdot, hslash⟩, h.component⟩, fun hmem => ?_⟩
  have hbottom : stack = [] ∧ c = ascii ".." ∨ ascii ".." ∈ stack := by
    rcases List.mem_cons.1 hmem with rfl | hmem
    · exact (hdots rfl).imp (fun hnil => ⟨hnil, rfl⟩) id
    · exact .inr hmem
  rcases hbottom with ⟨rfl, rfl⟩ | hmem
  · rfl
  · rw [List.getLast?_cons_of_ne_nil (List.ne_nil_of_mem hmem)]
    exact h.dots hmem

theorem Collected.pop {top : Bytes} {rest : List Bytes} (h : Collected (top :: rest)) :
    Collected rest := by
  refine ⟨fun c hc => h.component c (List.mem_cons_of_mem top hc), fun hmem => ?_⟩
  rw [← h.dots (List.mem_cons_of_mem top hmem), List.getLast?_cons_of_ne_nil
    (List.ne_nil_of_mem hmem)]

theorem Collected.cleanStep {stack : List Bytes} (h : Collected stack) {c : Bytes}
    (hslash : (47 : UInt8) ∉ c) : Collected (cleanStep false stack c) := by
  unfold Artifact.cleanStep
  split
  case isTrue => exact h
  case isFalse hskip =>
    rw [not_or] at hskip
    split
    case isTrue hdots =>
      cases stack with
      | nil => exact h.push hskip.1 hskip.2 hslash fun _ => .inl rfl
      | cons top rest =>
        simp only
        split
        case isTrue htop =>
          exact h.push hskip.1 hskip.2 hslash fun _ => .inr (htop ▸ List.mem_cons_self)
        case isFalse => exact h.pop
    case isFalse hdots => exact h.push hskip.1 hskip.2 hslash fun hc => absurd hc hdots

theorem collected_foldl {cs stack : List Bytes} (h : Collected stack)
    (hcs : ∀ c ∈ cs, (47 : UInt8) ∉ c) : Collected (cs.foldl (cleanStep false) stack) := by
  induction cs generalizing stack with
  | nil => exact h
  | cons c cs ih =>
    exact ih (h.cleanStep (hcs c List.mem_cons_self)) fun d hd => hcs d (List.mem_cons_of_mem c hd)

/-- **A clean relative path that stays below its root consists of proper components.** -/
theorem proper_of_clean {value : Bytes} (hne : value ≠ []) (hdot : value ≠ ascii ".")
    (hhead : value.head? ≠ some 47) (hclean : clean value = value) (hdots : value ≠ ascii "..")
    (hup : ¬ ascii "../" <+: value) : ∀ c ∈ splitSlash value, Proper c := by
  -- the components are what `path.Clean` has collected, the oldest first
  obtain ⟨stack, hstack⟩ : ∃ stack, stack = (splitSlash value).foldl (cleanStep false) [] :=
    ⟨_, rfl⟩
  have hcollected : Collected stack := by
    rw [hstack]
    refine collected_foldl ⟨fun c hc => absurd hc List.not_mem_nil, fun h => ?_⟩
      fun c hc => not_mem_of_mem_splitSlash hc
    exact absurd h List.not_mem_nil
  have hvalue : joinSlash stack.reverse = value := by
    unfold clean at hclean
    simp only [hhead, decide_false, Bool.false_eq_true, if_false, ← hstack] at hclean
    split at hclean
    · exact absurd hclean.symm hdot
    · exact hclean
  have hstackne : stack.reverse ≠ [] := by
    intro hnil
    rw [hnil] at hvalue
    exact hne hvalue.symm
  have hsplit : splitSlash value = stack.reverse := by
    rw [← hvalue]
    refine splitSlash_joinSlash hstackne fun c hc => ?_
    exact (hcollected.component c (List.mem_reverse.1 hc)).2.2
  intro c hc
  rw [hsplit, List.mem_reverse] at hc
  refine ⟨(hcollected.component c hc).1, (hcollected.component c hc).2.1, ?_⟩
  rintro rfl
  -- `..` would be the first component
  have hfirst : stack.reverse.head? = some (ascii "..") := by
    rw [List.head?_reverse]
    exact hcollected.dots hc
  cases hrev : stack.reverse with
  | nil => exact hstackne hrev
  | cons first rest =>
    rw [hrev] at hfirst hvalue
    obtain rfl := Option.some.inj hfirst
    rcases eq_or_ne rest [] with rfl | hrest
    · exact hdots hvalue.symm
    · rw [joinSlash_cons hrest] at hvalue
      refine hup ⟨joinSlash rest, ?_⟩
      rw [← hvalue]
      rfl

/-! ## Joining -/

/-- Two relative paths of proper components join to one. -/
theorem joinPath_of_proper {a b : Bytes} (ha : ∀ c ∈ splitSlash a, Proper c)
    (hb : ∀ c ∈ splitSlash b, Proper c) : joinPath a b = a ++ 47 :: b := by
  have hne : ∀ {s : Bytes}, (∀ c ∈ splitSlash s, Proper c) → s ≠ [] := by
    rintro s hs rfl
    exact (hs [] (by decide)).1 rfl
  have hhead : (a ++ 47 :: b).head? ≠ some 47 := by
    cases a with
    | nil => exact absurd rfl (hne ha)
    | cons x a =>
      rintro hx
      obtain rfl : x = 47 := Option.some.inj hx
      exact (ha [] (by simp [splitSlash])).1 rfl
  have hall : ∀ c ∈ splitSlash (a ++ 47 :: b), Proper c := by
    rw [splitSlash_append_slash]
    exact fun c hc => (List.mem_append.1 hc).elim (ha c) (hb c)
  unfold joinPath
  rw [if_neg fun h => hne ha h.1, if_neg (hne ha), if_neg (hne hb)]
  unfold clean
  simp only [hhead, decide_false, Bool.false_eq_true, if_false, foldl_cleanStep_of_proper hall,
    List.append_nil, List.reverse_reverse, joinSlash_splitSlash]
  rw [if_neg (by simp)]

/-- A relative path of proper components below an absolute one. -/
theorem joinPath_rooted {root value : Bytes} (hroot : ∀ c ∈ splitSlash root, Proper c)
    (hvalue : ∀ c ∈ splitSlash value, Proper c) (hne : value ≠ []) :
    joinPath (47 :: root) value = 47 :: root ++ 47 :: value := by
  have hall : ∀ c ∈ splitSlash (root ++ 47 :: value), Proper c := by
    rw [splitSlash_append_slash]
    exact fun c hc => (List.mem_append.1 hc).elim (hroot c) (hvalue c)
  have hsplit : splitSlash (47 :: root ++ 47 :: value) =
      [] :: splitSlash (root ++ 47 :: value) := by
    simp [splitSlash]
  unfold joinPath
  rw [if_neg (by simp), if_neg (by simp), if_neg hne]
  unfold clean
  simp only [List.cons_append, List.head?_cons, decide_true, if_true]
  rw [← List.cons_append, hsplit, List.foldl_cons]
  have hskip : cleanStep true [] [] = [] := rfl
  rw [hskip, foldl_cleanStep_of_proper hall, List.append_nil, List.reverse_reverse,
    joinSlash_splitSlash, List.cons_append]

/-! ## The files of the artifact -/

def filepathForArtifact (root relativePath : Bytes) : Bytes :=
  trimRightSlash root ++ 47 :: relativePath.map fun b => if b = 92 then 47 else b

/-- The files that `validateArtifactFiles` hashes. -/
def artifactFilenames (root : Bytes) (config : ServingConfig) : List Bytes :=
  config.artifact.files.map fun file => filepathForArtifact root file.path

theorem filepathForArtifact_modelMountRoot {value : Bytes} (h : (92 : UInt8) ∉ value) :
    filepathForArtifact modelMountRoot value = modelMountRoot ++ 47 :: value := by
  have hmap : value.map (fun b => if b = 92 then 47 else b) = value := by
    refine (List.map_congr_left fun b hb => ?_).trans (List.map_id value)
    have hb' : b ≠ 92 := by
      rintro rfl
      exact h hb
    rw [if_neg hb']
    rfl
  rw [filepathForArtifact, hmap]
  rfl

/-- What the check of the runtime leaves of a path. -/
theorem proper_of_validateRelativePath {value : Bytes} (h : validateRelativePath value = .ok ()) :
    value ≠ [] ∧ (92 : UInt8) ∉ value ∧ ∀ c ∈ splitSlash value, Proper c := by
  unfold validateRelativePath at h
  split at h
  · cases h
  · rename_i hvalue
    split at h
    · cases h
    · rename_i hup
      simp only [not_or, not_not] at hvalue hup
      obtain ⟨hne, hdot, hhead, hclean, hback⟩ := hvalue
      exact ⟨hne, hback, proper_of_clean hne hdot hhead hclean hup.1 hup.2⟩

/-- The path that is hashed is the path that is served. -/
theorem filepathForArtifact_eq_join {value : Bytes} (h : validateRelativePath value = .ok ()) :
    filepathForArtifact modelMountRoot value = joinPath modelMountRoot value := by
  obtain ⟨hne, hback, hproper⟩ := proper_of_validateRelativePath h
  have hroot : ∀ c ∈ splitSlash (ascii "models"), Proper c := by decide
  rw [filepathForArtifact_modelMountRoot hback]
  exact (joinPath_rooted hroot hproper hne).symm

/-! ## The chain -/

/-- The webhook asks for more than the importer. -/
theorem artifact_of_cleanRelativePath {value : Bytes} {path : FieldPath}
    (h : validateCleanRelativePath value path false false = none) :
    Artifact.validateRelativePath value = .ok () := by
  unfold validateCleanRelativePath validateSegments at h
  simp only [Bool.false_eq_true, if_false] at h
  split_ifs at h with hne hlong hutf8 hbytes hhead hdot hclean hsegments
  rw [not_or] at hbytes
  unfold Artifact.validateRelativePath
  rw [if_neg hne, if_neg hbytes.1, if_neg hbytes.2, if_neg hhead,
    if_neg (not_or.2 ⟨hclean, hdot⟩), if_neg hsegments]

/-- The importer asks for more than the runtime. -/
theorem runtime_of_artifact {value : Bytes} (h : Artifact.validateRelativePath value = .ok ()) :
    validateRelativePath value = .ok () := by
  have hparts := (validateRelativePath_eq_ok_iff value).1 h
  unfold Artifact.validateRelativePath at h
  split_ifs at h with hne hnul hback hhead hclean hparts'
  rw [not_or] at hclean
  unfold validateRelativePath
  have hup : ∀ rest, splitSlash value ≠ ascii ".." :: rest := by
    intro rest hrest
    have := hparts (ascii "..") (hrest ▸ List.mem_cons_self)
    revert this
    decide
  rw [if_neg (not_or.2 ⟨hne, not_or.2 ⟨hclean.2, not_or.2 ⟨hhead, not_or.2 ⟨hclean.1, hback⟩⟩⟩⟩),
    if_neg]
  rintro (rfl | ⟨rest, rfl⟩)
  · exact hup [] rfl
  · exact hup (splitSlash rest) (splitSlash_append (c := ascii "..") (by decide) rest)

/-- What the importer accepts: components between slashes. -/
theorem validateRelativePath_iff_components (value : Bytes) :
    Artifact.validateRelativePath value = .ok () ↔
      ∃ components : List Bytes, components ≠ [] ∧ value = joinSlash components ∧
        ∀ c ∈ components, c ≠ [] ∧ c ≠ ascii "." ∧ c ≠ ascii ".." ∧ 0 ∉ c ∧ 92 ∉ c ∧ 47 ∉ c := by
  rw [validateRelativePath_eq_ok_iff]
  simp only [validComponent, decide_eq_true_eq]
  constructor
  · intro h
    exact ⟨splitSlash value, splitSlash_ne_nil value, (joinSlash_splitSlash value).symm, h⟩
  · rintro ⟨components, hne, rfl, h⟩
    rw [splitSlash_joinSlash hne fun c hc => (h c hc).2.2.2.2.2]
    exact h

/-- Accepted paths join to an accepted path. -/
theorem validateRelativePath_join {q p : Bytes} (hq : Artifact.validateRelativePath q = .ok ())
    (hp : Artifact.validateRelativePath p = .ok ()) :
    joinPath q p = q ++ 47 :: p ∧ Artifact.validateRelativePath (q ++ 47 :: p) = .ok () := by
  have hproper : ∀ {s : Bytes}, Artifact.validateRelativePath s = .ok () →
      ∀ c ∈ splitSlash s, Proper c := fun hs =>
    (proper_of_validateRelativePath (runtime_of_artifact hs)).2.2
  refine ⟨joinPath_of_proper (hproper hq) (hproper hp), ?_⟩
  rw [validateRelativePath_eq_ok_iff] at hq hp ⊢
  rw [splitSlash_append_slash]
  exact fun c hc => (List.mem_append.1 hc).elim (hq c) (hp c)

theorem validateArtifact_ok {artifact : ArtifactIdentity} (h : validateArtifact artifact = .ok ()) :
    validateRelativePath artifact.entrypoint = .ok () ∧
      ∃ file ∈ artifact.files, file.path = artifact.entrypoint := by
  obtain ⟨-, h⟩ := except_refuse_eq_ok.1 h
  obtain ⟨-, h⟩ := except_refuse_eq_ok.1 h
  obtain ⟨hentry, h⟩ := except_and_then_eq_ok.1 h
  obtain ⟨-, h⟩ := except_refuse_eq_ok.1 h
  obtain ⟨-, h⟩ := except_and_then_eq_ok.1 h
  refine ⟨mapError_eq_ok.1 hentry, ?_⟩
  split at h
  · cases h
  · rename_i hfound
    simpa using hfound

/-- The path that `llama-server` is given is that of a file that is hashed. -/
theorem modelPath_mem_artifactFilenames {config : ServingConfig} (h : config.validate = .ok ()) :
    config.modelPath ∈ artifactFilenames modelMountRoot config := by
  obtain ⟨hentry, file, hfile, hpath⟩ := validateArtifact_ok (valid_of_validate h).artifact
  refine List.mem_map.2 ⟨file, hfile, ?_⟩
  rw [hpath]
  exact filepathForArtifact_eq_join hentry

/-- **The path rules.** What the webhook accepts the importer accepts, and what the importer accepts
the runtime accepts. The importer accepts the sequences of proper components without NUL and
backslash; they join to such sequences. The entrypoint that the runtime accepts is hashed under the
path that `llama-server` is given, in a configuration that was accepted as one of the files. -/
theorem pathRules :
    (∀ (value : Bytes) (path : FieldPath), validateCleanRelativePath value path false false = none →
      Artifact.validateRelativePath value = .ok ()) ∧
    (∀ value, Artifact.validateRelativePath value = .ok () → validateRelativePath value = .ok ()) ∧
    (∀ value, Artifact.validateRelativePath value = .ok () ↔
      ∃ components : List Bytes, components ≠ [] ∧ value = joinSlash components ∧
        ∀ c ∈ components, c ≠ [] ∧ c ≠ ascii "." ∧ c ≠ ascii ".." ∧ 0 ∉ c ∧ 92 ∉ c ∧ 47 ∉ c) ∧
    (∀ q p, Artifact.validateRelativePath q = .ok () → Artifact.validateRelativePath p = .ok () →
      joinPath q p = q ++ 47 :: p ∧ Artifact.validateRelativePath (joinPath q p) = .ok ()) ∧
    (∀ config : ServingConfig, validateRelativePath config.artifact.entrypoint = .ok () →
      filepathForArtifact modelMountRoot config.artifact.entrypoint = config.modelPath ∧
      config.arguments.take 2 = [ascii "--model", config.modelPath]) ∧
    ∀ config : ServingConfig, config.validate = .ok () →
      config.modelPath ∈ artifactFilenames modelMountRoot config := by
  refine ⟨fun value path => artifact_of_cleanRelativePath, fun value => runtime_of_artifact,
    validateRelativePath_iff_components, fun q p hq hp => ?_, fun config h => ?_,
    fun config => modelPath_mem_artifactFilenames⟩
  · obtain ⟨hjoin, haccepted⟩ := validateRelativePath_join hq hp
    exact ⟨hjoin, hjoin ▸ haccepted⟩
  · exact ⟨filepathForArtifact_eq_join h, rfl⟩

/-- A configuration for one file in a directory. -/
def sampleServing : ServingConfig where
  schemaVersion := schemaVersion
  deployment := ⟨ascii "default", ascii "m", ascii "1", ascii "2"⟩
  artifact := ⟨ascii "3", List.replicate 64 48, ascii "q/m.gguf",
    [⟨ascii "q/m.gguf", 1, List.replicate 64 48⟩]⟩
  mode := modeCPU
  maxContextTokens := 0
  desiredConcurrency := 1
  drainTimeoutSeconds := 600
  kvCache := ⟨kvCacheF16, kvCacheF16⟩
  expert := ⟨2048, 512, 0, 0, flashAttentionAuto⟩

theorem pathRules_sampleServing :
    Artifact.validateRelativePath (ascii "q/m.gguf") = .ok () ∧
      validateRelativePath (ascii "q/m.gguf") = .ok () ∧
      joinPath (ascii "models") (ascii "q/m.gguf") = ascii "models/q/m.gguf" ∧
      filepathForArtifact modelMountRoot (ascii "q/m.gguf") = sampleServing.modelPath ∧
      sampleServing.modelPath ∈ artifactFilenames modelMountRoot sampleServing := by
  obtain ⟨hchain, hruntime, -, hjoin, hpath, hfile⟩ := pathRules
  have hclean := hchain (ascii "q/m.gguf") [] (by decide +kernel)
  exact ⟨hclean, hruntime _ hclean,
    (hjoin (ascii "models") (ascii "q/m.gguf") (by decide +kernel) hclean).1,
    (hpath sampleServing (hruntime _ hclean)).1, hfile sampleServing (by decide +kernel)⟩

end Kama.Runtime
