import RunLedger.Run.Merge
import RunLedger.Store.Error

/-!
# The store

A store keeps the rows of runs, steps and log entries, the declarations of workflows, and the cursor
of the periodic pass. A step is known by its run's name and its code, a log entry by its run's name,
its kind and its time.

The rows of a run change only through a snapshot, which collects writes and applies them all at once
when it is committed. A write to a run that does not exist is refused when it is staged. A commit
checks all of its writes before it applies the first, so it applies all of them or none.
-/

namespace RunLedger

open Time (Instant)

/-- The name of a run and the code of a step. -/
abbrev StepKey := String × String

/-- The name of a run, a kind, and a point in time in nanoseconds. -/
abbrev LogKey := String × EventKind × Int

/-- A step is known by the name of its run and its code. -/
def StepRecord.key (row : StepRecord) : StepKey := (row.externalRunId, row.stepCode)

/-- A log entry is known by the name of its run, its kind and its point in time. -/
def LogEntry.key (entry : LogEntry) : LogKey :=
  (entry.externalRunId, entry.kind, entry.timestamp.nanos)

/-- A row put in place of the first row with its key, or added after the others. -/
def putRow {α : Type} (sameKey : α → α → Bool) (row : α) : List α → List α
  | [] => [row]
  | r :: rest => if sameKey row r then row :: rest else r :: putRow sameKey row rest

/-- A write to the rows of a run. -/
inductive Write where
  | step (runId : RunId) (externalRunId : String) (transition : StepTransition)
  | log (entry : LogEntry)
  | run (runId : RunId) (update : RunUpdate)
deriving Repr, Inhabited

/-- The run that a write belongs to. -/
def Write.runId : Write → RunId
  | step runId _ _ => runId
  | log entry => entry.runId
  | run runId _ => runId

/-- The writes that an open transaction has staged, the first one first. -/
structure Snapshot where
  writes : List Write := []
deriving Repr, Inhabited

/-- The rows and the bookkeeping of a store. -/
structure Store where
  /-- The number of the last run that was recorded. -/
  lastRunId : RunId := 0
  runs : List RunRecord := []
  steps : List StepRecord := []
  logs : List LogEntry := []
  specs : List (Int × OutputSpec) := []
  cursor : Option Instant := none
  /-- How many of the next commits are made to fail. -/
  failingCommits : Nat := 0
  /-- How many snapshots have been committed. -/
  commits : Nat := 0
deriving Repr, Inhabited

namespace Store

/-- The row of the run with a number. -/
def run? (s : Store) (runId : RunId) : Option RunRecord :=
  s.runs.find? (·.id == runId)

/-- The row of the run with a name. -/
def findRun (s : Store) (externalRunId : String) : Option RunRecord :=
  s.runs.find? (·.externalRunId == externalRunId)

/-- The row of a step. -/
def step? (s : Store) (externalRunId stepCode : String) : Option StepRecord :=
  s.steps.find? fun row => row.externalRunId == externalRunId && row.stepCode == stepCode

/-- The steps of a run in the order of their codes. -/
def listSteps (s : Store) (externalRunId : String) : List StepRecord :=
  (s.steps.filter (·.externalRunId == externalRunId)).mergeSort fun a b =>
    decide (a.stepCode ≤ b.stepCode)

/-- Whether a log entry comes before another or has its place: by time, then by kind. -/
def logLe (a b : LogEntry) : Bool :=
  a.timestamp < b.timestamp || (a.timestamp == b.timestamp && a.kind.rank ≤ b.kind.rank)

/-- The log entries of a run in the order of their times, then of their kinds. -/
def listLogs (s : Store) (externalRunId : String) : List LogEntry :=
  (s.logs.filter (·.externalRunId == externalRunId)).mergeSort logLe

/-- What a workflow declares. -/
def outputSpec (s : Store) (workflowId : Int) : OutputSpec :=
  (s.specs.lookup workflowId).getD .absent

/-- Declares where the runs of a workflow write files. -/
def declareOutput (s : Store) (workflowId : Int) (spec : OutputSpec) : Store :=
  { s with specs := (workflowId, spec) :: s.specs.filter (·.1 != workflowId) }

/-- Records a run under the next number, unless its name is taken. -/
def insertRun (s : Store) (run : NewRun) : Except StoreError (RunRecord × Store) :=
  if (s.findRun run.externalRunId).isSome then .error (.duplicateRun run.externalRunId)
  else
    let row := run.record (s.lastRunId + 1)
    .ok (row, { s with lastRunId := row.id, runs := s.runs ++ [row] })

/-- Refuses a number that no run has. -/
def checkRun (s : Store) (runId : RunId) : Except StoreError Unit :=
  if (s.run? runId).isSome then .ok () else .error (.runNotFound runId)

/-- Adds a write to a snapshot. -/
def stage (s : Store) (snap : Snapshot) (w : Write) : Except StoreError Snapshot := do
  s.checkRun w.runId
  pure { writes := snap.writes ++ [w] }

/-- Puts a log entry in place of the one with its key. -/
def putLog (s : Store) (entry : LogEntry) : Store :=
  let sameKey (a b : LogEntry) := a.externalRunId == b.externalRunId && a.kind == b.kind &&
    a.timestamp == b.timestamp
  { s with logs := putRow sameKey entry s.logs }

/-- Merges a transition into the row of its step. -/
def putStep (s : Store) (runId : RunId) (externalRunId : String) (t : StepTransition) : Store :=
  let sameKey (a b : StepRecord) := a.externalRunId == b.externalRunId && a.stepCode == b.stepCode
  let row := StepRecord.merge (s.step? externalRunId t.stepCode) runId externalRunId t
  { s with steps := putRow sameKey row s.steps }

/-- Merges an update into the row of its run. -/
def putRun (s : Store) (runId : RunId) (u : RunUpdate) : Store :=
  { s with runs := s.runs.map fun row => if row.id == runId then row.merge u else row }

/-- Applies a write. -/
def apply (s : Store) : Write → Store
  | .step runId externalRunId t => s.putStep runId externalRunId t
  | .log entry => s.putLog entry
  | .run runId u => s.putRun runId u

/-- The failure that a test asks a commit to have. -/
def injectedFailure : StoreError := .backend "injected commit failure"

/-- Commits a snapshot. -/
def commit (s : Store) (snap : Snapshot) : Except StoreError Unit × Store :=
  match s.failingCommits with
  | left + 1 => (.error injectedFailure, { s with failingCommits := left })
  | 0 =>
    match snap.writes.forM fun w => s.checkRun w.runId with
    | .error e => (.error e, s)
    | .ok () => (.ok (), { snap.writes.foldl apply s with commits := s.commits + 1 })

end Store

end RunLedger
