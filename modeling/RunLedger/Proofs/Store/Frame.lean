import RunLedger.Proofs.Sync.Persistence

/-!
# The rows of one run

The rows that carry the name of a run are a part of the store. A plan for a run changes the rows of
this run as if there were no others, and no row of another run, because no two runs share a number.
-/

namespace RunLedger

open Sync

/-- The rows that carry the name of a run. -/
structure RunRows where
  run : Option RunRecord
  steps : List StepRecord
  logs : List LogEntry

/-- What a plan for the run makes of its rows. -/
def RunRows.carryOut (rows : RunRows) (p : Plan) : RunRows where
  run := rows.run.map (·.merge p.update)
  steps := (stepMerging p.runId p.externalRunId).upsertAll rows.steps p.transitions
  logs := logMerging.upsertAll rows.logs p.logs

namespace Store

variable {s s' s'' : Store} {p : Plan} {name : String} {row : RunRecord}

/-- The rows of a run in a store. -/
def rowsOf (s : Store) (name : String) : RunRows where
  run := s.findRun name
  steps := s.steps.filter (·.externalRunId == name)
  logs := s.logs.filter (·.externalRunId == name)

/-- Two stores have the same rows of a run and the same declarations. -/
structure SameFor (name : String) (s s' : Store) : Prop where
  rows : s'.rowsOf name = s.rowsOf name
  specs : s'.specs = s.specs

theorem SameFor.refl (name : String) (s : Store) : SameFor name s s := ⟨rfl, rfl⟩

theorem SameFor.trans (first : SameFor name s s') (second : SameFor name s' s'') :
    SameFor name s s'' :=
  ⟨second.rows.trans first.rows, second.specs.trans first.specs⟩

/-- Failures that are to come make no difference to what is found. -/
theorem sameFor_of_calm (same : s'.calm = s.calm) (name : String) : SameFor name s s' where
  rows := by
    change s'.calm.rowsOf name = s.calm.rowsOf name
    rw [same]
  specs := by
    change s'.calm.specs = s.calm.specs
    rw [same]

/-- A plan whose writes belong to one recorded run. -/
structure Owns (s : Store) (p : Plan) (row : RunRecord) : Prop where
  found : s.findRun p.externalRunId = some row
  runId : p.runId = row.id
  logs : ∀ entry ∈ p.logs, entry.runId = row.id ∧ entry.externalRunId = p.externalRunId

/-- All writes of a plan are for the run that the plan is for. -/
theorem Owns.knows (owns : s.Owns p row) : s.Knows p.writes := by
  have known : (s.run? row.id).isSome = true := by
    rw [run?, List.find?_isSome]
    exact ⟨row, List.mem_of_find?_eq_some owns.found, beq_self_eq_true _⟩
  refine knows_writes_iff.mpr ⟨owns.runId ▸ known, fun entry member => ?_⟩
  rw [(owns.logs entry member).1]
  exact known

/-- Of the steps under a name a plan changes those of its own run. -/
theorem steps_carryOut (s : Store) (p : Plan) (name : String) :
    (s.carryOut p.writes).steps.filter (·.externalRunId == name) =
      (stepMerging p.runId p.externalRunId).upsertAll (s.steps.filter (·.externalRunId == name))
        (p.transitions.filter fun _ => p.externalRunId == name) := by
  rw [carryOut, foldl_apply_writes]
  exact (stepMerging p.runId p.externalRunId).filter_upsertAll (fun key => key.1 == name) _ _

/-- Of the entries under a name a plan adds those that it has for the name. -/
theorem logs_carryOut (s : Store) (p : Plan) (name : String) :
    (s.carryOut p.writes).logs.filter (·.externalRunId == name) =
      logMerging.upsertAll (s.logs.filter (·.externalRunId == name))
        (p.logs.filter (·.externalRunId == name)) := by
  rw [carryOut, foldl_apply_writes]
  exact logMerging.filter_upsertAll (fun key => key.1 == name) _ _

/-- A plan updates the row with its number, whatever its name. -/
theorem findRun_carryOut (s : Store) (p : Plan) (name : String) :
    (s.carryOut p.writes).findRun name =
      (s.findRun name).map fun row => if row.id == p.runId then row.merge p.update else row := by
  rw [← findRun_putRun, carryOut, foldl_apply_writes]
  rfl

theorem failingCommits_carryOut (s : Store) (p : Plan) :
    (s.carryOut p.writes).failingCommits = s.failingCommits := by
  rw [carryOut, foldl_apply_writes]

theorem outputSpec_carryOut (s : Store) (p : Plan) (workflowId : Int) :
    (s.carryOut p.writes).outputSpec workflowId = s.outputSpec workflowId := by
  rw [carryOut, foldl_apply_writes]
  rfl

/-- A plan changes the rows of its run as if there were no others. -/
theorem rowsOf_carryOut (owns : s.Owns p row) :
    (s.carryOut p.writes).rowsOf p.externalRunId = (s.rowsOf p.externalRunId).carryOut p := by
  have entries : p.logs.filter (·.externalRunId == p.externalRunId) = p.logs := by
    rw [List.filter_eq_self]
    intro entry member
    simp [(owns.logs entry member).2]
  unfold rowsOf RunRows.carryOut
  simp [steps_carryOut, logs_carryOut, findRun_carryOut, owns.found, owns.runId, entries]

/-- Under the name of a plan its row is found, updated. -/
theorem findRun_carryOut_self (owns : s.Owns p row) :
    (s.carryOut p.writes).findRun p.externalRunId = some (row.merge p.update) := by
  rw [findRun_carryOut, owns.found, Option.map_some, if_pos (beq_iff_eq.mpr owns.runId.symm)]

/-- Under any other name the same row is found as before. -/
theorem findRun_carryOut_of_ne (coherent : s.Coherent) (owns : s.Owns p row)
    (other : name ≠ p.externalRunId) : (s.carryOut p.writes).findRun name = s.findRun name := by
  rw [findRun_carryOut]
  cases found : s.findRun name with
  | none => rfl
  | some r =>
    have distinct : r.id ≠ p.runId := by
      intro same
      have sameRow := List.inj_on_of_nodup_map coherent.runIds (List.mem_of_find?_eq_some found)
        (List.mem_of_find?_eq_some owns.found) (same.trans owns.runId)
      apply other
      rw [← externalRunId_of_findRun found, sameRow, externalRunId_of_findRun owns.found]
    simp [distinct]

/-- A plan changes nothing for another run. -/
theorem sameFor_carryOut (coherent : s.Coherent) (owns : s.Owns p row)
    (other : name ≠ p.externalRunId) : SameFor name s (s.carryOut p.writes) := by
  have different : ¬ p.externalRunId = name := fun same => other same.symm
  have transitions : p.transitions.filter (fun _ => p.externalRunId == name) = [] := by
    rw [List.filter_eq_nil_iff]
    intro t _
    simpa using different
  have entries : p.logs.filter (·.externalRunId == name) = [] := by
    rw [List.filter_eq_nil_iff]
    intro entry member
    simp [(owns.logs entry member).2, different]
  have run := findRun_carryOut_of_ne coherent owns other
  constructor
  · unfold rowsOf
    rw [steps_carryOut, logs_carryOut, transitions, entries, run]
    rfl
  · rw [carryOut, foldl_apply_writes]

end Store

end RunLedger
