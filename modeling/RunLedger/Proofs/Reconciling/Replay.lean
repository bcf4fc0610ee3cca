import RunLedger.Proofs.Run.StepReplay
import RunLedger.Proofs.Store.Coherence
import RunLedger.Proofs.Sync.Resync
import RunLedger.Sync.Persist

/-!
# Carrying out the plan of a run again

The plan of a sync is carried out on a store that has carried out a plan for the same answer. The
transitions, the log entries and the update are merged into rows that have them already, so no row
changes.
-/

namespace RunLedger

open Time (Instant)

variable {runId : RunId} {externalRunId : String}

/-! ## Tables -/

/-- Replaying the transitions of a step on a timed row, or on none, changes nothing. -/
theorem stepMerging_mergeAll_mergeAll {row : Option StepRecord}
    (timed : ∀ r, row = some r → r.Timed)
    (l : List StepTransition) :
    (stepMerging runId externalRunId).mergeAll ((stepMerging runId externalRunId).mergeAll row l) l =
      (stepMerging runId externalRunId).mergeAll row l :=
  StepRecord.mergeAll_mergeAll (fun r found => (timed r found).not_unfounded) l

/-- Entries that are merged again change nothing. -/
theorem logMerging_mergeAll_mergeAll (row : Option LogEntry) (l : List LogEntry) :
    logMerging.mergeAll (logMerging.mergeAll row l) l = logMerging.mergeAll row l := by
  simp only [logMerging_mergeAll, ← Option.or_assoc, Option.or_self]

/-! ## Plans -/

namespace Sync

variable {spec : OutputSpec} {detail : RunDetail} {run stale : RunRecord} {now : Instant}

/-- The plan of a sync which has read a row of the run. -/
def planFor (externalRunId : String) (spec : OutputSpec) (detail : RunDetail) (run : RunRecord)
    (now : Instant) : Plan :=
  planOf externalRunId run detail (locationsFor spec detail run now) now

end Sync

namespace Store

open Sync

variable {spec : OutputSpec} {detail : RunDetail} {run stale : RunRecord} {now : Instant}
  {s s' s'' : Store}

/-- The rows of two stores are the same. -/
structure SameRows (s s' : Store) : Prop where
  runs : s'.runs = s.runs
  steps : s'.steps = s.steps
  logs : s'.logs = s.logs

theorem SameRows.symm (same : SameRows s s') : SameRows s' s :=
  ⟨same.runs.symm, same.steps.symm, same.logs.symm⟩

theorem SameRows.trans (first : SameRows s s') (second : SameRows s' s'') : SameRows s s'' :=
  ⟨second.runs.trans first.runs, second.steps.trans first.steps, second.logs.trans first.logs⟩

/-- A plan makes the same rows of the same rows. -/
theorem SameRows.foldl_apply (same : SameRows s s') (p : Plan) :
    SameRows (p.writes.foldl apply s) (p.writes.foldl apply s') := by
  rw [foldl_apply_writes, foldl_apply_writes]
  refine ⟨?_, ?_, ?_⟩
  · exact congrArg (updateRuns p.runId p.update) same.runs
  · exact congrArg (Merging.upsertAll _ · p.transitions) same.steps
  · exact congrArg (Merging.upsertAll _ · p.logs) same.logs

/-- The row of the run after the plan of a sync. -/
theorem updateRuns_updateRuns (coherent : s.Coherent) (known : run ∈ s.runs) (now' : Instant)
    (read : stale = run ∨ stale = run.merge (updateFor spec detail run now)) :
    updateRuns run.id (updateFor spec detail stale now')
        (updateRuns run.id (updateFor spec detail run now) s.runs) =
      updateRuns run.id (updateFor spec detail run now) s.runs := by
  unfold updateRuns
  rw [List.map_map]
  refine List.map_congr_left fun row member => ?_
  by_cases same : row.id = run.id
  · obtain rfl := List.inj_on_of_nodup_map coherent.runIds member known same
    have same' := (row.merge_names (updateFor spec detail row now)).1
    simp only [Function.comp, beq_self_eq_true, if_true, same']
    exact merge_updateFor_again now' read
  · simp [same]

/-- Once the plan of a sync has been carried out, that of another one with the same answer changes no
row. -/
theorem sameRows_replay (externalRunId : String) (coherent : s.Coherent) (known : run ∈ s.runs)
    (now' : Instant)
    (read : stale = run ∨ stale = run.merge (updateFor spec detail run now)) :
    SameRows ((planFor externalRunId spec detail run now).writes.foldl apply s)
      ((planFor externalRunId spec detail stale now').writes.foldl apply
        ((planFor externalRunId spec detail run now).writes.foldl apply s)) := by
  have sameId : stale.id = run.id := by
    rcases read with rfl | rfl
    · rfl
    · exact (run.merge_names _).1
  rw [foldl_apply_writes, foldl_apply_writes]
  refine ⟨?_, ?_, ?_⟩
  · show updateRuns stale.id (updateFor spec detail stale now') _ = _
    rw [sameId]
    exact updateRuns_updateRuns coherent known now' read
  · show (stepMerging stale.id externalRunId).upsertAll ((stepMerging run.id externalRunId).upsertAll
      s.steps (transitionsOf (readable detail.events))) _ = _
    rw [sameId]
    refine Merging.upsertAll_upsertAll _ coherent.stepKeys fun k => ?_
    refine stepMerging_mergeAll_mergeAll (fun r found => ?_) _
    exact coherent.timed r (List.mem_of_find?_eq_some found)
  · show logMerging.upsertAll (logMerging.upsertAll s.logs
      (logsOf run.id externalRunId (readable detail.events))) (logsOf stale.id externalRunId _) = _
    rw [sameId]
    exact Merging.upsertAll_upsertAll _ coherent.logKeys fun k => logMerging_mergeAll_mergeAll _ _

end Store

end RunLedger
