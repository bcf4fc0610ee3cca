import RunLedger.Store.Conformance.Trial

/-!
# Trials of runs and of refusals

A run is recorded once and found again; an update merges into its row; what does not exist is
neither found nor written.
-/

namespace RunLedger.Conformance

open RunLedger.Time (Instant)

section Runs

variable {m : Type → Type} [Monad m] {σ : Type}

def insertAssignsId (b : Backend m σ) : Trying m Unit := do
  let inserted ← seed b "run-a"
  let run ← found b "run-a"
  expect (run.id == inserted.id) "id mismatch"
  expect (run.status == .queued && run.workflowId == 7) "unexpected stored run"
  expect (run.runConfig == inserted.runConfig) "run_config not preserved"
  expect (run.outputLocations.isEmpty && run.finishedAt.isNone)
    "new run should have no outputs or finish"

def insertIdsDistinct (b : Backend m σ) : Trying m Unit := do
  let first ← seed b "run-a"
  let second ← seed b "run-b"
  expect (first.id != second.id) "both runs got one id"

def terminalSetsFinish (b : Backend m σ) : Trying m Unit := do
  let run ← seed b "run-a"
  commitWrites b [.run run.id { status := some .running, startedAt := some (timeAt 0) }]
  commitWrites b [.run run.id { status := some .failed, finishedAt := some (timeAt 30),
                                errorMessage := some "step x failed" }]
  let run ← found b "run-a"
  expect (run.status == .failed) "expected failed"
  expect (run.finishedAt == some (timeAt 30)) "unexpected finished_at"
  expect (run.durationSeconds == some 30.0) "unexpected duration"
  expect (run.errorMessage == some "step x failed") "unexpected error"

def terminalKeepsStatus (b : Backend m σ) : Trying m Unit := do
  let run ← seed b "run-a"
  let done : RunUpdate :=
    { status := some .completed, startedAt := some (timeAt 0), finishedAt := some (timeAt 10) }
  commitWrites b [.run run.id done]
  commitWrites b [.run run.id { status := some .running, finishedAt := some (timeAt 99) }]
  commitWrites b [.run run.id done]
  let run ← found b "run-a"
  expect (run.status == .completed && run.finishedAt == some (timeAt 10) &&
    run.durationSeconds == some 10.0) "terminal run changed"

def startSetOnce (b : Backend m σ) : Trying m Unit := do
  let run ← seed b "run-a"
  commitWrites b [.run run.id { startedAt := some (timeAt 5) }]
  commitWrites b [.run run.id { startedAt := some (timeAt 50) }]
  let run ← found b "run-a"
  expect (run.startedAt == some (timeAt 5)) "started_at overwritten"

def locationsPreserved (b : Backend m σ) : Trying m Unit := do
  let run ← seed b "run-a"
  let locations : List OutputLocation :=
    [{ path := "out/7/b1.json", name := some "Output Path",
       description := some "Output written by step 'save'" }]
  commitWrites b [.run run.id { outputLocations := some locations }]
  commitWrites b [.run run.id { status := some .running }]
  let run ← found b "run-a"
  expect (run.outputLocations == locations) "unexpected output locations"

def locationsFrozen (b : Backend m σ) : Trying m Unit := do
  let run ← seed b "run-a"
  let first : List OutputLocation := [{ path := "out/20240305_140709.csv" }]
  let second : List OutputLocation := [{ path := "out/20240306_090000.csv" }]
  commitWrites b [.run run.id { status := some .completed, finishedAt := some (timeAt 10),
                                outputLocations := some first }]
  commitWrites b [.run run.id { status := some .completed, outputLocations := some second }]
  let run ← found b "run-a"
  expect (run.outputLocations == first) "terminal run output locations changed"

def runTrials : List (Trial m σ) :=
  [⟨"run", "insert_run_assigns_id_and_is_findable", insertAssignsId⟩,
   ⟨"run", "insert_run_ids_are_distinct", insertIdsDistinct⟩,
   ⟨"run", "update_run_to_terminal_sets_finish_fields", terminalSetsFinish⟩,
   ⟨"run", "terminal_run_keeps_status_and_finish_time", terminalKeepsStatus⟩,
   ⟨"run", "started_at_set_only_once", startSetOnce⟩,
   ⟨"run", "output_locations_replaced_and_preserved", locationsPreserved⟩,
   ⟨"run", "terminal_run_output_locations_are_frozen", locationsFrozen⟩]

end Runs

section Refusals

variable {m : Type → Type} [Monad m] {σ : Type}

/-- The number of a run that does not exist. -/
def unknownId : RunId := 424242

/-- A write to an unknown run is refused when it is staged or when it is committed. -/
def expectRefusal (b : Backend m σ) (w : Write) : Trying m Unit := do
  let snap ← must b.beginSnapshot
  match ← attempt (b.stage snap w) with
  | .ok snap =>
    match ← attempt (b.commit snap) with
    | .error e => expect (e == .runNotFound unknownId) "expected the run not to be found"
    | .ok () => throw "expected the run not to be found"
  | .error e =>
    let _ ← attempt (b.abort snap)
    expect (e == .runNotFound unknownId) "expected the run not to be found"

def unknownRunNotFound (b : Backend m σ) : Trying m Unit := do
  let run ← must (b.findRun "missing")
  expect run.isNone "expected no run"

def duplicateRejected (b : Backend m σ) : Trying m Unit := do
  let _ ← seed b "run-a"
  match ← attempt (b.insertRun (launched "run-a")) with
  | .error e => expect (e == .duplicateRun "run-a") "expected a duplicate"
  | .ok _ => throw "expected a duplicate"

def updateUnknownFails (b : Backend m σ) : Trying m Unit :=
  expectRefusal b (.run unknownId {})

def stepUnknownFails (b : Backend m σ) : Trying m Unit := do
  expectRefusal b (.step unknownId "ghost" (starting "load" 0))
  let steps ← must (b.listSteps "ghost")
  expect steps.isEmpty "orphan step rows stored"

def listsEmpty (b : Backend m σ) : Trying m Unit := do
  let steps ← must (b.listSteps "missing")
  let logs ← must (b.listLogs "missing")
  expect (steps.isEmpty && logs.isEmpty) "expected no rows"

def specAbsent (b : Backend m σ) : Trying m Unit := do
  let spec ← must (b.outputSpec 99999)
  expect (spec == .absent) "expected no declaration"

def errorTrials : List (Trial m σ) :=
  [⟨"error", "find_run_unknown_is_none", unknownRunNotFound⟩,
   ⟨"error", "insert_run_duplicate_rejected", duplicateRejected⟩,
   ⟨"error", "update_run_unknown_id_fails", updateUnknownFails⟩,
   ⟨"error", "upsert_step_unknown_run_fails", stepUnknownFails⟩,
   ⟨"error", "lists_empty_for_unknown_run", listsEmpty⟩,
   ⟨"error", "workflow_output_spec_unknown_is_absent", specAbsent⟩]

end Refusals

end RunLedger.Conformance
