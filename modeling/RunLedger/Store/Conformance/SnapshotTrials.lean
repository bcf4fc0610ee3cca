import RunLedger.Store.Conformance.Trial

/-!
# Trials of snapshots

What is staged is invisible until it is committed, and then all of it is there; what is committed
twice is there once; tasks that overlap lose nothing. A task of these trials runs to its end before
the next one goes on, since no operation of a store waits.
-/

namespace RunLedger.Conformance

section Snapshots

variable {m : Type → Type} [Monad m] {σ : Type}

def emptyCommits (b : Backend m σ) : Trying m Unit := do
  let snap ← must b.beginSnapshot
  must (b.commit snap)
  let snap ← must b.beginSnapshot
  must (b.abort snap)

def uncommittedInvisible (b : Backend m σ) : Trying m Unit := do
  let run ← seed b "run-a"
  let snap ← must b.beginSnapshot
  let snap ← stageEach b snap
    [.step run.id "run-a" (starting "load" 1), .log (entry run .message 1 "hi"),
     .run run.id { status := some .running }]
  let steps ← must (b.listSteps "run-a")
  let logs ← must (b.listLogs "run-a")
  let stored ← must (b.findRun "run-a")
  must (b.abort snap)
  expect (steps.isEmpty && logs.isEmpty) "uncommitted rows visible"
  match stored with
  | some run => expect (run.status == .queued) "uncommitted run update visible"
  | none => throw "uncommitted run update visible"

def abortedDiscarded (b : Backend m σ) : Trying m Unit := do
  let run ← seed b "run-a"
  let snap ← must b.beginSnapshot
  let snap ← stageEach b snap
    [.step run.id "run-a" (starting "load" 1), .log (entry run .stepStart 1 "start")]
  must (b.abort snap)
  let steps ← must (b.listSteps "run-a")
  let logs ← must (b.listLogs "run-a")
  expect (steps.isEmpty && logs.isEmpty) "aborted writes were persisted"

def droppedDiscarded (b : Backend m σ) : Trying m Unit := do
  let run ← seed b "run-a"
  let snap ← must b.beginSnapshot
  let _ ← must (b.stage snap (.step run.id "run-a" (starting "load" 1)))
  let steps ← must (b.listSteps "run-a")
  expect steps.isEmpty "dropped snapshot's writes were persisted"

def snapshotTrials : List (Trial m σ) :=
  [⟨"snapshot", "empty_snapshot_commits", emptyCommits⟩,
   ⟨"snapshot", "uncommitted_writes_invisible", uncommittedInvisible⟩,
   ⟨"snapshot", "aborted_writes_discarded", abortedDiscarded⟩,
   ⟨"snapshot", "dropped_snapshot_discarded", droppedDiscarded⟩]

end Snapshots

section Commits

variable {m : Type → Type} [Monad m] {σ : Type}

/-- The writes of a small complete run: two steps, three log entries, and the end. -/
def completeRun (run : RunRecord) : List Write :=
  [starting "load" 0, ending "load" .success 4 none, starting "save" 5,
    ending "save" .success 9 none].map (.step run.id run.externalRunId) ++
  [entry run .stepStart 0 "load started", entry run .message 2 "loading rows",
    entry run .stepSuccess 9 "save done"].map .log ++
  [.run run.id { status := some .completed, startedAt := some (timeAt 0),
                 finishedAt := some (timeAt 10) }]

def visibleAfterCommit (b : Backend m σ) : Trying m Unit := do
  let run ← seed b "run-a"
  commitWrites b (completeRun run)
  let steps ← must (b.listSteps "run-a")
  expect (steps.length == 2 && steps.all (·.status == .success)) "unexpected steps"
  let logs ← must (b.listLogs "run-a")
  expect (logs.length == 3) "expected 3 logs"
  let stored ← found b "run-a"
  expect (stored.status == .completed && stored.durationSeconds == some 10.0) "unexpected run"

def reapplyingIdempotent (b : Backend m σ) : Trying m Unit := do
  let run ← seed b "run-a"
  commitWrites b (completeRun run)
  let stepsOnce ← must (b.listSteps "run-a")
  let logsOnce ← must (b.listLogs "run-a")
  let runOnce ← must (b.findRun "run-a")
  commitWrites b (completeRun run)
  let stepsTwice ← must (b.listSteps "run-a")
  let logsTwice ← must (b.listLogs "run-a")
  let runTwice ← must (b.findRun "run-a")
  expect (stepsOnce == stepsTwice) "steps changed"
  expect (logsOnce == logsTwice) "logs changed"
  expect (runOnce == runTwice) "run changed"

def runsIndependent (b : Backend m σ) : Trying m Unit := do
  let first ← seed b "run-a"
  let second ← seed b "run-b"
  commitWrites b (completeRun first)
  let snap ← must b.beginSnapshot
  let snap ← must (b.stage snap (.step second.id "run-b" (starting "load" 0)))
  must (b.abort snap)
  let firstSteps ← must (b.listSteps "run-a")
  let secondSteps ← must (b.listSteps "run-b")
  expect (firstSteps.length == 2 && secondSteps.isEmpty)
    "expected 2 steps for run-a and none for run-b"

def commitTrials : List (Trial m σ) :=
  [⟨"commit", "run_steps_and_logs_visible_after_commit", visibleAfterCommit⟩,
   ⟨"commit", "reapplying_same_writes_is_idempotent", reapplyingIdempotent⟩,
   ⟨"commit", "commits_of_different_runs_are_independent", runsIndependent⟩]

end Commits

section Tasks

variable {m : Type → Type} [Monad m] {σ : Type}

/-- How many tasks overlap. -/
def taskCount : Nat := 10

def parallelRunsPersist (b : Backend m σ) : Trying m Unit := do
  let names := (List.range taskCount).map fun i => "run-" ++ toString i
  let runs ← names.mapM (seed b)
  for run in runs do
    commitStep b run (starting "load" 1)
    commitStep b run (ending "load" .success 2 none)
  for name in names do
    match ← must (b.listSteps name) with
    | [row] => expect (row.status == .success) (name ++ ": unexpected steps")
    | _ => throw (name ++ ": unexpected steps")

def racingEndsTerminal (b : Backend m σ) : Trying m Unit := do
  let run ← seed b "run-a"
  for i in List.range taskCount do
    commitStep b run (if i % 2 = 0 then starting "load" 1 else ending "load" .success 2 none)
  match ← must (b.listSteps "run-a") with
  | [row] => expect (row.status == .success) "expected a single SUCCESS row"
  | _ => throw "expected a single SUCCESS row"

def concurrentTrials : List (Trial m σ) :=
  [⟨"concurrent", "parallel_runs_all_persist", parallelRunsPersist⟩,
   ⟨"concurrent", "racing_start_and_success_end_terminal", racingEndsTerminal⟩]

end Tasks

end RunLedger.Conformance
