import RunLedger.Proofs.Event.Transition
import RunLedger.Proofs.Run.StepReplay

/-!
# Transitions in any order

A step that starts, succeeds and fails at most once has at most three transitions to tell of it.
They make the same row in whatever order they come, however often they are repeated and however they
are cut into batches. `StepFacts.row?` says which row that is.
-/

namespace RunLedger

open Time (Instant)

/-- What there is to tell of a step: when it started, when it succeeded, and when and why it failed. -/
structure StepFacts where
  stepCode : String
  started : Option Instant
  succeeded : Option Instant
  failed : Option (Instant × Option String)

namespace StepFacts

open StepRecord

variable {f : StepFacts} {l : List StepTransition} {t : StepTransition} {runId : RunId}
  {externalRunId : String}

/-- The transitions that tell it. -/
def transitions (f : StepFacts) : List StepTransition :=
  f.started.toList.map (.start f.stepCode) ++ f.succeeded.toList.map (.success f.stepCode) ++
    f.failed.toList.map fun (time, reason) => .failure f.stepCode time reason

/-- The time of the failure, or else of the success. -/
def finished (f : StepFacts) : Option Instant := (f.failed.map (·.1)).or f.succeeded

/-- The row of a step of which all is told, in a state. -/
def rowIn (f : StepFacts) (runId : RunId) (externalRunId : String) (state : StepState) :
    StepRecord where
  runId := runId
  externalRunId := externalRunId
  stepCode := f.stepCode
  status := state
  startedAt := f.started
  finishedAt := f.finished
  durationSeconds := durationBetween f.started f.finished
  errorMessage := f.failed.bind (·.2)

/-- The row of a step of which all is told. Its state is the highest that is told, and there is none
if there is nothing to tell. -/
def row? (f : StepFacts) (runId : RunId) (externalRunId : String) : Option StepRecord :=
  (f.transitions.map (·.status)).max?.map (f.rowIn runId externalRunId)

/-- The list tells all of it and nothing else, in any order and with any repetitions. -/
def ToldBy (f : StepFacts) (l : List StepTransition) : Prop := ∀ t, t ∈ l ↔ t ∈ f.transitions

/-- The transitions of a step are its start, its success and its failure, as far as there are
any. -/
theorem mem_transitions :
    t ∈ f.transitions ↔
      (∃ time, f.started = some time ∧ t = .start f.stepCode time) ∨
      (∃ time, f.succeeded = some time ∧ t = .success f.stepCode time) ∨
      ∃ time reason, f.failed = some (time, reason) ∧ t = .failure f.stepCode time reason := by
  simp [transitions, eq_comm]

/-! ## What a transition shows -/

/-- The end that the transition with a state shows. -/
def endAt (f : StepFacts) : StepState → Option Instant
  | .started => none
  | .success => f.succeeded
  | .failure => f.failed.map (·.1)

/-- The error that the transition with a state shows. -/
def errorAt (f : StepFacts) : StepState → Option String
  | .failure => f.failed.bind (·.2)
  | _ => none

theorem stepCode_of_mem (member : t ∈ f.transitions) : t.stepCode = f.stepCode := by
  rcases mem_transitions.mp member with ⟨_, _, rfl⟩ | ⟨_, _, rfl⟩ | ⟨_, _, _, rfl⟩ <;> rfl

/-- Only the start tells when the step started. -/
theorem startedAt_of_mem (member : t ∈ f.transitions) :
    t.startedAt = if t.status = .started then f.started else none := by
  rcases mem_transitions.mp member with ⟨_, told, rfl⟩ | ⟨_, _, rfl⟩ | ⟨_, _, _, rfl⟩
  · exact told.symm
  · rfl
  · rfl

/-- A transition tells the end that belongs to its state. -/
theorem finishedAt_of_mem (member : t ∈ f.transitions) : t.finishedAt = f.endAt t.status := by
  rcases mem_transitions.mp member with ⟨_, _, rfl⟩ | ⟨_, told, rfl⟩ | ⟨_, _, told, rfl⟩
  · rfl
  · exact told.symm
  · exact (congrArg (Option.map Prod.fst) told).symm

/-- A transition tells the error that belongs to its state. -/
theorem errorMessage_of_mem (member : t ∈ f.transitions) : t.errorMessage = f.errorAt t.status := by
  rcases mem_transitions.mp member with ⟨_, _, rfl⟩ | ⟨_, _, rfl⟩ | ⟨_, _, told, rfl⟩
  · rfl
  · rfl
  · exact (congrArg (Option.bind · Prod.snd) told).symm

/-! ## What a row shows that was told all of it -/

section Told

variable (told : f.ToldBy l)

include told

theorem start_mem {time : Instant} (started : f.started = some time) :
    .start f.stepCode time ∈ l :=
  (told _).mpr (mem_transitions.mpr (.inl ⟨time, started, rfl⟩))

theorem success_mem {time : Instant} (succeeded : f.succeeded = some time) :
    .success f.stepCode time ∈ l :=
  (told _).mpr (mem_transitions.mpr (.inr (.inl ⟨time, succeeded, rfl⟩)))

theorem failure_mem {time : Instant} {reason : Option String}
    (failed : f.failed = some (time, reason)) : .failure f.stepCode time reason ∈ l :=
  (told _).mpr (mem_transitions.mpr (.inr (.inr ⟨time, reason, failed, rfl⟩)))

variable {row : StepRecord}

/-- Whatever the order, a step that failed ends as failed. -/
theorem status_of_failed {failure : Instant × Option String} (failed : f.failed = some failure) :
    (l.foldl next row).status = .failure :=
  StepState.eq_failure_of_ge (le_status_foldl_next (failure_mem told failed))

/-- A step that succeeded and did not fail ends as succeeded. -/
theorem status_of_succeeded {time : Instant} (unfailed : f.failed = none)
    (succeeded : f.succeeded = some time) (reached : ∃ t ∈ l, t.status = (l.foldl next row).status) :
    (l.foldl next row).status = .success := by
  obtain ⟨t, member, state⟩ := reached
  have above : StepState.success ≤ (l.foldl next row).status :=
    le_status_foldl_next (success_mem told succeeded)
  rw [← state] at above ⊢
  rcases mem_transitions.mp ((told t).mp member) with ⟨_, _, rfl⟩ | ⟨_, _, rfl⟩ | ⟨_, _, known, rfl⟩
  · exact absurd above (by decide : ¬ StepState.success ≤ .started)
  · rfl
  · simp [unfailed] at known

/-- Whatever the order, the row shows when the step started. -/
theorem startedAt_of_told (blank : row.startedAt = none) :
    (l.foldl next row).startedAt = f.started := by
  rw [startedAt_foldl_next]
  have unknown : (l.foldl startField.step row.startCell).value = none →
      (l.foldl startField.step row.startCell).value = f.started := by
    intro missing
    rw [missing]
    by_contra started
    obtain ⟨time, known⟩ := Option.ne_none_iff_exists'.mp (Ne.symm started)
    cases (startField.foldl_value_eq_none missing).2.1 _ (start_mem told known) rfl
  rcases startField.value_foldl_cases row.startCell l with kept | ⟨t, member, -, read⟩
  · exact unknown (kept.trans blank)
  · have shown : t.startedAt = (l.foldl startField.step row.startCell).value := read
    rw [startedAt_of_mem ((told t).mp member)] at shown
    split at shown
    · exact shown.symm
    · exact unknown shown.symm

/-- Whatever the order, the row shows the end that belongs to its last state. -/
theorem finishedAt_of_told (blank : row.finishedAt = none)
    (reached : ∃ t ∈ l, t.status = (l.foldl next row).status) :
    (l.foldl next row).finishedAt = f.finished := by
  rw [finishedAt_foldl_next]
  have state := state_endField row l
  have reads : ∀ t ∈ l, endField.read t = f.endAt t.status :=
    fun t member => finishedAt_of_mem ((told t).mp member)
  cases failed : f.failed with
  | some failure =>
    have final := (state.trans (status_of_failed told failed)).symm
    rw [endField.value_eq_of_reads reads (failure_mem told failed) final rfl] <;>
      simp [StepTransition.failure, endAt, finished, failed]
  | none =>
    cases succeeded : f.succeeded with
    | some time =>
      have final := (state.trans (status_of_succeeded told failed succeeded reached)).symm
      rw [endField.value_eq_of_reads reads (success_mem told succeeded) final rfl] <;>
        simp [StepTransition.success, endAt, finished, failed, succeeded]
    | none =>
      have nothing : f.finished = none := by simp [finished, failed, succeeded]
      rw [nothing]
      rcases endField.value_foldl_cases row.endCell l with kept | ⟨t, member, ended, read⟩
      · exact kept.trans blank
      · rw [← read, reads t member]
        cases t.status <;> simp [endAt, failed, succeeded]

/-- Whatever the order, the row shows the error of the failure. -/
theorem errorMessage_of_told (blank : row.errorMessage = none) :
    (l.foldl next row).errorMessage = f.failed.bind (·.2) := by
  rw [errorMessage_foldl_next]
  have reads : ∀ t ∈ l, errorField.read t = f.errorAt t.status :=
    fun t member => errorMessage_of_mem ((told t).mp member)
  cases reason : f.failed.bind (·.2) with
  | some message =>
    obtain ⟨failure, failed, -⟩ := Option.bind_eq_some_iff.mp reason
    have final := ((state_errorField row l).trans (status_of_failed told failed)).symm
    rw [errorField.value_eq_of_reads reads (failure_mem told failed) final rfl] <;>
      simp [StepTransition.failure, errorAt, reason]
  | none =>
    rcases errorField.value_foldl_cases row.errorCell l with kept | ⟨t, member, -, read⟩
    · exact kept.trans blank
    · rw [← read, reads t member]
      cases t.status <;> simp [errorAt, reason]

/-- A row that was told everything is the one that the facts describe, in every field. -/
theorem foldl_next_blank (member : t ∈ l)
    (reached : ∃ u ∈ l, u.status = (l.foldl next (blank runId externalRunId t)).status) :
    l.foldl next (blank runId externalRunId t) =
      f.rowIn runId externalRunId (l.foldl next (blank runId externalRunId t)).status := by
  obtain ⟨runIds, externalRunIds, stepCodes⟩ := (foldl_next (blank runId externalRunId t) l).2.1
  refine ext_of_cells (timed_foldl_next (timed_blank runId externalRunId t) l) rfl
    ⟨runIds, externalRunIds, ?_⟩ ?_ ?_ ?_
  · exact stepCodes.trans (stepCode_of_mem ((told t).mp member))
  · exact congrArg (Cell.mk _) (startedAt_of_told told rfl)
  · exact congrArg (Cell.mk _) (finishedAt_of_told told rfl reached)
  · exact congrArg (Cell.mk _) (errorMessage_of_told told rfl)

/-- The highest state that was told of is the highest that there is. -/
theorem max?_map_status :
    (l.map (·.status)).max? = (f.transitions.map (·.status)).max? := by
  apply Option.ext
  intro state
  simp [List.max?_eq_some_iff, told _]

/-- Merging transitions that tell everything gives the row of the facts, or none if nothing is
known. -/
theorem mergeAll_of_told : mergeAll runId externalRunId none l = f.row? runId externalRunId := by
  rw [row?, ← max?_map_status told]
  cases l with
  | nil => rfl
  | cons t rest =>
    have merged : mergeAll runId externalRunId none (t :: rest) =
        some ((t :: rest).foldl next (blank runId externalRunId t)) :=
      mergeAll_eq_map none (t :: rest)
    have state : some ((t :: rest).foldl next (blank runId externalRunId t)).status =
        ((t :: rest).map (·.status)).max? := by
      rw [← Option.map_some (f := StepRecord.status), ← merged]
      exact status_mergeAll none (t :: rest)
    have reached := List.mem_map.mp (List.max?_mem state.symm)
    rw [merged, ← state, Option.map_some,
      ← foldl_next_blank told (List.mem_cons_self ..) reached]

end Told

/-! ## Batches -/

/-- The row of a step after batches. -/
def mergeBatches (runId : RunId) (externalRunId : String) (row : Option StepRecord)
    (batches : List (List StepTransition)) : Option StepRecord :=
  batches.foldl (mergeAll runId externalRunId) row

/-- Where one batch ends and the next begins does not matter. -/
theorem mergeBatches_eq_mergeAll (row : Option StepRecord) (batches : List (List StepTransition)) :
    mergeBatches runId externalRunId row batches =
      mergeAll runId externalRunId row batches.flatten :=
  List.foldl_flatten.symm

/-- A step that started after 100 seconds, yielded a success after 105 and failed after 106. -/
def loadFacts : StepFacts where
  stepCode := "load"
  started := some (.utc 100000000000)
  succeeded := some (.utc 105000000000)
  failed := some (.utc 106000000000, some "boom")

/-- It is told backwards, and the start is told twice. -/
def loadBackwards : List (List StepTransition) :=
  [[.failure "load" (.utc 106000000000) (some "boom"), .start "load" (.utc 100000000000)],
    [.success "load" (.utc 105000000000), .start "load" (.utc 100000000000)]]

end StepFacts

end RunLedger
