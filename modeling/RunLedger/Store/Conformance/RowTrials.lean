import RunLedger.Store.Conformance.Trial

/-!
# Trials of steps, log entries and the cursor

Steps only move up and keep their times; log entries are replaced by key; rows are listed in order;
the last cursor counts.
-/

namespace RunLedger.Conformance

section Steps

variable {m : Type → Type} [Monad m] {σ : Type}

def durationRecorded (b : Backend m σ) : Trying m Unit := do
  let run ← seed b "run-a"
  commitStep b run (starting "load" 10)
  commitStep b run (ending "load" .success 15 none)
  let step ← onlyStep b "run-a"
  expect (step.status == .success && step.startedAt == some (timeAt 10) &&
    step.finishedAt == some (timeAt 15) && step.durationSeconds == some 5.0) "unexpected step row"
  expect (step.runId == run.id) "run id differs"

def startDoesNotRegress (b : Backend m σ) : Trying m Unit := do
  let run ← seed b "run-a"
  commitStep b run (starting "x" 10)
  commitStep b run (ending "x" .failure 20 (some "boom"))
  let before ← onlyStep b "run-a"
  commitStep b run (starting "x" 30)
  let after ← onlyStep b "run-a"
  expect (before == after) "terminal step changed"

def successDoesNotOverride (b : Backend m σ) : Trying m Unit := do
  let run ← seed b "run-a"
  commitStep b run (ending "x" .failure 20 (some "boom"))
  commitStep b run (ending "x" .success 25 none)
  let step ← onlyStep b "run-a"
  expect (step.status == .failure && step.finishedAt == some (timeAt 20) &&
    step.errorMessage == some "boom") "failure was overridden"

def failureOverrides (b : Backend m σ) : Trying m Unit := do
  let run ← seed b "run-a"
  commitStep b run (ending "x" .success 20 none)
  commitStep b run (ending "x" .failure 21 (some "late"))
  let step ← onlyStep b "run-a"
  expect (step.status == .failure && step.errorMessage == some "late") "expected failure to win"

def lateStartFills (b : Backend m σ) : Trying m Unit := do
  let run ← seed b "run-a"
  commitStep b run (ending "x" .success 20 none)
  commitStep b run (starting "x" 12)
  let step ← onlyStep b "run-a"
  expect (step.status == .success && step.startedAt == some (timeAt 12) &&
    step.durationSeconds == some 8.0) "unexpected step row"

def stepsInOrder (b : Backend m σ) : Trying m Unit := do
  let run ← seed b "run-a"
  for code in ["transform", "extract", "load"] do
    commitStep b run (starting code 1)
  let steps ← must (b.listSteps "run-a")
  expect (steps.map (·.stepCode) == ["extract", "load", "transform"]) "unexpected order"

def stepTrials : List (Trial m σ) :=
  [⟨"step", "start_then_success_records_duration", durationRecorded⟩,
   ⟨"step", "started_does_not_regress_terminal", startDoesNotRegress⟩,
   ⟨"step", "success_does_not_override_failure", successDoesNotOverride⟩,
   ⟨"step", "failure_overrides_success", failureOverrides⟩,
   ⟨"step", "late_start_fills_started_at", lateStartFills⟩,
   ⟨"step", "steps_listed_by_step_code", stepsInOrder⟩]

end Steps

section Logs

variable {m : Type → Type} [Monad m] {σ : Type}

def fieldsPreserved (b : Backend m σ) : Trying m Unit := do
  let run ← seed b "run-a"
  let written : LogEntry :=
    { entry run .stepFailure 3 "boom" with
      stepCode := some "load"
      level := .error
      payload := .obj
        [("__typename", .str "ExecutionStepFailureEvent"),
         ("error", .obj [("message", .str "boom")]), ("stepKey", .str "load")] }
  commitWrites b [.log written]
  let logs ← must (b.listLogs "run-a")
  expect (logs == [written]) "stored log differs"

def sameKeyReplaces (b : Backend m σ) : Trying m Unit := do
  let run ← seed b "run-a"
  commitWrites b [.log (entry run .message 3 "first")]
  commitWrites b [.log (entry run .message 3 "second")]
  let logs ← must (b.listLogs "run-a")
  expect (logs.map (·.message) == ["second"]) "expected one replaced entry"

def kindsKept (b : Backend m σ) : Trying m Unit := do
  let run ← seed b "run-a"
  commitWrites b [.log (entry run .stepStart 3 "start"), .log (entry run .message 3 "message")]
  let logs ← must (b.listLogs "run-a")
  expect (logs.length == 2) "expected 2 entries"

def logsInOrder (b : Backend m σ) : Trying m Unit := do
  let run ← seed b "run-a"
  commitWrites b ([(9, "third"), (1, "first"), (5, "second")].map fun (seconds, message) =>
    .log (entry run .message seconds message))
  let logs ← must (b.listLogs "run-a")
  expect (logs.map (·.message) == ["first", "second", "third"]) "unexpected order"

def logTrials : List (Trial m σ) :=
  [⟨"log", "log_fields_preserved", fieldsPreserved⟩,
   ⟨"log", "same_key_replaces_entry", sameKeyReplaces⟩,
   ⟨"log", "distinct_kinds_at_same_time_both_kept", kindsKept⟩,
   ⟨"log", "logs_ordered_by_timestamp", logsInOrder⟩]

end Logs

section Cursor

variable {m : Type → Type} [Monad m] {σ : Type}

def cursorAbsent (b : Backend m σ) : Trying m Unit := do
  let cursor ← must b.loadCursor
  expect cursor.isNone "expected no cursor"

def cursorLoaded (b : Backend m σ) : Trying m Unit := do
  must (b.storeCursor (timeAt 100))
  must (b.storeCursor (timeAt 200))
  let cursor ← must b.loadCursor
  expect (cursor == some (timeAt 200)) "expected latest cursor"

def cursorTrials : List (Trial m σ) :=
  [⟨"cursor", "cursor_initially_absent", cursorAbsent⟩,
   ⟨"cursor", "stored_cursor_is_loaded", cursorLoaded⟩]

end Cursor

end RunLedger.Conformance
