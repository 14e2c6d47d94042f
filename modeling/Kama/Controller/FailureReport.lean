import Kama.Controller.ImportRetry

/-!
# Reporting a failure twice

A failure that persists is reported by every reconcile. `artifactFailure` compares the status it
has built with the one it has read, so that a report that says nothing new is not written.

* `Settled c conditions`: setting the condition `c` changes nothing (`setStatusCondition_settled`).
* `setConditions_settled`: conditions of different types are settled once they have been set.
* `artifactFailure_again`: a failure is written once if and only if it is one of the artifact. A
  failure of the storage is written each time: `StorageReady` is set to true, as every type that is
  reported is, before it is set to false; each of the two is a transition, and its time is that of
  the report (`transition_storageFailure`).
-/

namespace Kama.Controller

open Bytes Api Program Artifact

/-! ## Conditions that are settled -/

section Conditions

variable {τ : Type} [DecidableEq τ] {c c' : Condition τ} {conditions : List (Condition τ)}

/-- The conditions have `c`, whatever its time, and no other condition of its type. -/
def Settled (c : Condition τ) (conditions : List (Condition τ)) : Prop :=
  ∃ time, { c with lastTransitionTime := time } ∈ conditions ∧
    ∀ old ∈ conditions, old.type = c.type → old = { c with lastTransitionTime := time }

theorem findStatusCondition_eq_none :
    findStatusCondition conditions c.type = none ↔ ∀ old ∈ conditions, old.type ≠ c.type := by
  simp [findStatusCondition]

theorem settled_setStatusCondition (now : Nat) (c : Condition τ) (conditions : List (Condition τ)) :
    Settled c (setStatusCondition now c conditions) := by
  unfold setStatusCondition
  cases hfound : findStatusCondition conditions c.type with
  | none =>
    refine ⟨now, List.mem_append_right _ (List.mem_singleton_self _), fun old hold htype => ?_⟩
    rcases List.mem_append.1 hold with hold | hold
    · exact absurd htype (findStatusCondition_eq_none.1 hfound old hold)
    · exact List.mem_singleton.1 hold
  | some existing =>
    simp only
    refine ⟨_, List.mem_map.2 ⟨existing, List.mem_of_find?_eq_some hfound, if_pos ?_⟩, ?_⟩
    · simpa using List.find?_some hfound
    · intro old hold htype
      obtain ⟨old', -, rfl⟩ := List.mem_map.1 hold
      by_cases h : old'.type = c.type
      · rw [if_pos h]
      · rw [if_neg h] at htype
        exact absurd htype h

/-- Setting a condition leaves those of the other types alone. -/
theorem mem_setStatusCondition {now : Nat} {old : Condition τ} (hne : old.type ≠ c.type) :
    old ∈ setStatusCondition now c conditions ↔ old ∈ conditions := by
  unfold setStatusCondition
  cases findStatusCondition conditions c.type with
  | none =>
    simp only [List.mem_append, List.mem_singleton, or_iff_left_iff_imp]
    rintro rfl
    exact absurd rfl hne
  | some existing =>
    simp only [List.mem_map]
    constructor
    · rintro ⟨old', hold', rfl⟩
      by_cases h : old'.type = c.type
      · rw [if_pos h] at hne
        exact absurd rfl hne
      · rwa [if_neg h]
    · intro hold
      exact ⟨old, hold, if_neg hne⟩

theorem Settled.set (h : Settled c conditions) (now : Nat) (hne : c.type ≠ c'.type) :
    Settled c (setStatusCondition now c' conditions) := by
  obtain ⟨time, hmem, hall⟩ := h
  have htime : { c with lastTransitionTime := time }.type ≠ c'.type := hne
  refine ⟨time, (mem_setStatusCondition htime).2 hmem, fun old hold htype => ?_⟩
  have hold' : old.type ≠ c'.type := htype ▸ hne
  exact hall old ((mem_setStatusCondition hold').1 hold) htype

theorem setStatusCondition_settled (h : Settled c conditions) (now : Nat) :
    setStatusCondition now c conditions = conditions := by
  obtain ⟨time, hmem, hall⟩ := h
  unfold setStatusCondition
  cases hfound : findStatusCondition conditions c.type with
  | none =>
    have hne := findStatusCondition_eq_none.1 hfound { c with lastTransitionTime := time } hmem
    exact absurd rfl hne
  | some existing =>
    have htype : existing.type = c.type := by simpa using List.find?_some hfound
    obtain rfl := hall existing (List.mem_of_find?_eq_some hfound) htype
    simp only [if_true]
    refine (List.map_congr_left fun old hold => ?_).trans (List.map_id conditions)
    split
    case isTrue h => exact (hall old hold h).symm
    case isFalse h => rfl

/-- Conditions of different types are all settled once they have been set. -/
theorem settled_setConditions {updates : List (Condition τ)} (now : Nat)
    (hnodup : (updates.map Condition.type).Nodup) (conditions : List (Condition τ)) :
    ∀ c ∈ updates, Settled c (setConditions now updates conditions) := by
  -- what is settled stays so under the conditions that follow, which have other types
  have keeps : ∀ (updates : List (Condition τ)) (c : Condition τ) (conditions : List (Condition τ)),
      c.type ∉ updates.map Condition.type → Settled c conditions →
      Settled c (setConditions now updates conditions) := by
    intro updates c
    induction updates with
    | nil => exact fun _ _ h => h
    | cons c' updates ih =>
      intro conditions hc h
      rw [List.map_cons, List.mem_cons, not_or] at hc
      exact ih _ hc.2 (h.set now hc.1)
  induction updates generalizing conditions with
  | nil => exact fun c hc => absurd hc List.not_mem_nil
  | cons c' updates ih =>
    intro c hc
    rw [List.map_cons, List.nodup_cons] at hnodup
    rcases List.mem_cons.1 hc with rfl | hc
    · exact keeps updates c _ hnodup.1 (settled_setStatusCondition now c conditions)
    · exact ih hnodup.2 _ c hc

theorem setConditions_settled {updates : List (Condition τ)} (now : Nat)
    (h : ∀ c ∈ updates, Settled c conditions) :
    setConditions now updates conditions = conditions := by
  induction updates with
  | nil => rfl
  | cons c updates ih =>
    rw [setConditions, List.foldl_cons, setStatusCondition_settled (h c List.mem_cons_self)]
    exact ih fun c hc => h c (List.mem_cons_of_mem _ hc)

omit [DecidableEq τ] in
/-- The API keeps the time to the second. -/
theorem Settled.map_storedTime (h : Settled c conditions) :
    Settled c (conditions.map fun c =>
      { c with lastTransitionTime := storedTime c.lastTransitionTime }) := by
  obtain ⟨time, hmem, hall⟩ := h
  refine ⟨storedTime time, List.mem_map.2 ⟨_, hmem, rfl⟩, fun old hold htype => ?_⟩
  obtain ⟨old', hold', rfl⟩ := List.mem_map.1 hold
  rw [hall old' hold' htype]

end Conditions

/-! ## The conditions that are reported -/

/-- The types of condition that a reconcile passes to `artifactFailure`. -/
def reportedConditions : List ArtifactCondition := .storageReady :: artifactFailureConditions

section Failure

variable {opts : Options} {seen : Object Bytes ArtifactBody} {type : ArtifactCondition}
  {reason message : Bytes} {t : Nat}

/-- The types that a report sets, in its order. -/
theorem types_failureConditions (a : ModelArtifact) (htype : type ≠ .storageReady)
    (reason message : Bytes) :
    (failureConditions a type reason message).map Condition.type =
      [.ready, .importing, type] ++ artifactFailureConditions.filter (· ≠ type) ++
        [.verified, .storageReady, .sourceResolved] := by
  have hmap : (Condition.type ∘ fun other => condition a other false reason failureNotPresent) =
      (id : ArtifactCondition → ArtifactCondition) := rfl
  simp only [failureConditions, htype, ne_eq, not_false_eq_true, decide_true, if_true,
    List.map_append, List.map_cons, List.map_nil, List.map_map, hmap, List.map_id, List.append_nil]
  rfl

/-- A failure of the artifact sets every condition once. -/
theorem nodup_failureConditions (a : ModelArtifact) (htype : type ∈ artifactFailureConditions)
    (reason message : Bytes) :
    ((failureConditions a type reason message).map Condition.type).Nodup := by
  have hne : type ≠ .storageReady := by
    rintro rfl
    revert htype
    decide
  rw [types_failureConditions a hne]
  clear hne
  revert type
  decide

/-- A report builds the status that it finds, if that is of the generation and has every condition
of the report. -/
theorem failureStatus_settled {a : ModelArtifact} {reason message : Bytes} (now : Nat)
    (hgen : a.status.observedGeneration = a.generation)
    (hsettled : ∀ c ∈ failureConditions a type reason message, Settled c a.status.conditions) :
    failureStatus now a type reason message = a.status := by
  rw [failureStatus, setConditions_settled now hsettled, ← hgen]

theorem failureConditions_congr {a a' : ModelArtifact} (h : a.generation = a'.generation)
    (reason message : Bytes) :
    failureConditions a type reason message = failureConditions a' type reason message := by
  simp only [failureConditions, condition, h]

/-- What a report of the artifact leaves settled, in memory and in the API. -/
theorem settled_failureStatus (t : Nat) (a : ModelArtifact)
    (htype : type ∈ artifactFailureConditions) (reason message : Bytes) :
    ∀ c ∈ failureConditions a type reason message,
      Settled c (failureStatus t a type reason message).conditions ∧
        Settled c (failureStatus t a type reason message).stored.conditions := by
  intro c hc
  have h := settled_setConditions t (nodup_failureConditions a htype reason message)
    a.status.conditions c hc
  exact ⟨h, h.map_storedTime⟩

/-- On an artifact `again` that has the status of a report, as the API keeps it, the same report
reads the clock and does nothing else. -/
theorem artifactFailure_settled {again : Object Bytes ArtifactBody}
    (htype : type ∈ artifactFailureConditions) (requeue : Requeue)
    (hagain : again.body = (withStatus seen (failureStatus t (modelArtifact opts seen) type reason
      (failureMessage opts message))).body) :
    artifactFailure opts again type reason message requeue = (do
      let _ ← timeNow
      pure requeue) := by
  have hsame : ∀ now, failureStatus now (modelArtifact opts again) type reason
      (failureMessage opts message) = again.body.status := by
    intro now
    have hgen : (modelArtifact opts again).generation = (modelArtifact opts seen).generation := by
      simp only [modelArtifact, hagain, withStatus]
    refine failureStatus_settled now ?_ fun c hc => ?_
    · rw [hgen]
      simp only [modelArtifact, hagain, withStatus]
      rfl
    · rw [failureConditions_congr hgen] at hc
      have h := (settled_failureStatus t _ htype reason _ c hc).2
      simpa only [modelArtifact, hagain, withStatus] using h
  unfold artifactFailure
  refine bind_congr fun now => ?_
  rw [writeStatus, if_pos (hsame now), pure_bind]

end Failure

/-! ## Failures of the storage -/

/-- **A failure of the storage is never an old one.** Whatever the status was, the transition time
of `StorageReady` is that of the report. -/
theorem transition_storageFailure (now : Nat) (a : ModelArtifact) (reason message : Bytes) :
    (findStatusCondition (failureStatus now a .storageReady reason message).conditions
      .storageReady).map Condition.lastTransitionTime = some now := by
  have hset : ∀ (c : Condition ArtifactCondition) (conditions : List (Condition ArtifactCondition)),
      c.type = .storageReady →
      findStatusCondition (setStatusCondition now c conditions) .storageReady =
        some { c with lastTransitionTime := ((findStatusCondition conditions .storageReady).elim now
          fun existing =>
            if existing.status = c.status then existing.lastTransitionTime else now) } := by
    rintro c conditions htype
    rw [← htype, findStatusCondition_set_self]
    cases findStatusCondition conditions c.type <;> rfl
  simp [failureStatus, failureConditions, artifactFailureConditions, setConditions, condition,
    findStatusCondition_set, hset, boolConditionStatus]

/-- A report of the storage differs from the same report at another time. -/
theorem failureStatus_storage_ne {a a' : ModelArtifact} {t₁ t₂ : Nat} (h : t₁ ≠ t₂)
    (reason message : Bytes) :
    failureStatus t₂ a' .storageReady reason message ≠
      failureStatus t₁ a .storageReady reason message := by
  intro heq
  have h₂ := transition_storageFailure t₂ a' reason message
  rw [heq, transition_storageFailure] at h₂
  exact h (Option.some.inj h₂)

/-- Whatever the status was, a report of the storage is written, except at one time. -/
theorem artifactFailure_storage_ne (opts : Options) (seen : Object Bytes ArtifactBody)
    (reason message : Bytes) (requeue : Requeue) :
    artifactFailure opts seen .storageReady reason message requeue ≠ (do
      let _ ← timeNow
      pure requeue) := by
  intro h
  have hcalls : Calls (fun op => ∀ o, op ≠ .update o)
      (artifactFailure opts seen .storageReady reason message requeue) := by
    rw [h]
    exact ⟨by simp, fun _ => trivial⟩
  have hsame : ∀ now, failureStatus now (modelArtifact opts seen) .storageReady reason
      (failureMessage opts message) = seen.body.status := by
    intro now
    by_contra hne
    have hnow : Calls (fun op => ∀ o, op ≠ .update o) (writeStatus seen (failureStatus now
        (modelArtifact opts seen) .storageReady reason (failureMessage opts message)) >>=
          fun _ => pure requeue) := hcalls.2 now
    rw [writeStatus, if_neg hne] at hnow
    exact hnow.1 _ rfl
  exact failureStatus_storage_ne Nat.zero_ne_one reason _ ((hsame 1).trans (hsame 0).symm)

/-- **A failure is reported once if and only if it is not a failure of the storage.** Then the
status that a report leaves is the one that the same report builds at any other time, and on an
artifact `again` that has it, as the API keeps it, `artifactFailure` makes no update. -/
theorem artifactFailure_again (opts : Options) {seen again : Object Bytes ArtifactBody}
    {type : ArtifactCondition} (reason message : Bytes) (requeue : Requeue) (t₁ t₂ : Nat)
    (hreported : type ∈ reportedConditions)
    (hagain : again.body = (withStatus seen (failureStatus t₁ (modelArtifact opts seen) type reason
      (failureMessage opts message))).body) :
    ((∀ a : ModelArtifact,
      failureStatus t₂ { a with status := failureStatus t₁ a type reason message } type reason
        message = failureStatus t₁ a type reason message) ∧
    artifactFailure opts again type reason message requeue = (do
      let _ ← timeNow
      pure requeue)) ↔ type ≠ .storageReady := by
  constructor
  · rintro ⟨-, hagain⟩ rfl
    exact artifactFailure_storage_ne opts again reason message requeue hagain
  · intro hstorage
    have htype : type ∈ artifactFailureConditions :=
      (List.mem_cons.1 hreported).resolve_left hstorage
    refine ⟨fun a => failureStatus_settled t₂ rfl fun c hc => ?_,
      artifactFailure_settled htype requeue hagain⟩
    exact (settled_failureStatus t₁ a htype reason message c hc).1

/-- The same report about the source reads the clock only. -/
theorem artifactFailure_source_again :
    let seen := sampleArtifact
    let status := failureStatus (10 ^ 9) (modelArtifact sampleOptions seen) .sourceUnavailable
      (ascii "SourceUnavailable") (failureMessage sampleOptions (ascii "error"))
    artifactFailure sampleOptions (withStatus seen status) .sourceUnavailable
      (ascii "SourceUnavailable") (ascii "error") minute = (do
        let _ ← timeNow
        pure minute) :=
  ((artifactFailure_again sampleOptions (ascii "SourceUnavailable") (ascii "error") minute (10 ^ 9)
    (3 * 10 ^ 9) (by decide) rfl).2 (by decide)).2

/-- The sample artifact after a second, once its storage has been reported to be missing. -/
def unstoredArtifact : Object Bytes ArtifactBody :=
  withStatus sampleArtifact (failureStatus (10 ^ 9) (modelArtifact sampleOptions sampleArtifact)
    .storageReady (ascii "StorageUnavailable") (ascii "error"))

/-- Two seconds later the same report is built anew and written again. -/
theorem artifactFailure_storage_again :
    ArtifactCondition.storageReady ∈ reportedConditions ∧
    (∀ a : ModelArtifact,
      failureStatus (3 * 10 ^ 9)
          { a with
            status := failureStatus (10 ^ 9) a .storageReady (ascii "StorageUnavailable")
              (ascii "error") }
          .storageReady (ascii "StorageUnavailable") (ascii "error") ≠
        failureStatus (10 ^ 9) a .storageReady (ascii "StorageUnavailable") (ascii "error")) ∧
    (let status := failureStatus (3 * 10 ^ 9) (modelArtifact sampleOptions unstoredArtifact)
      .storageReady (ascii "StorageUnavailable") (failureMessage sampleOptions (ascii "error"))
    writeStatus unstoredArtifact status = updateArtifact (withStatus unstoredArtifact status)) := by
  refine ⟨by decide, fun a => failureStatus_storage_ne (by decide) _ _, if_neg fun h => ?_⟩
  have hold : (findStatusCondition unstoredArtifact.body.status.conditions .storageReady).map
      Condition.lastTransitionTime = some (10 ^ 9) := by decide +kernel
  rw [← h, transition_storageFailure] at hold
  revert hold
  decide

end Kama.Controller
