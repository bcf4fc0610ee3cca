import RunLedger.Store.Backend
import Std.Data.TreeMap

/-!
# Keyed stores

A keyed store holds its rows in maps: runs by their numbers, with an index from names to numbers
beside them, steps and log entries by keys of their own. A write is stored under the key that the
write gives, which need not be the one that the stored row gives. `Backend.keyed` is the store that
is kept in this way.
-/

namespace RunLedger

open Std (TreeMap)
open Time (Instant)

instance : Ord StepKey := lexOrd

instance : Ord LogKey := @lexOrd String (EventKind × Int) _ lexOrd

/-- The rows of a store by their keys, and its bookkeeping. -/
structure KeyedStore where
  /-- The number of the last run that was recorded. -/
  lastRunId : RunId := 0
  runs : TreeMap RunId RunRecord := {}
  /-- The numbers of the runs by their names. -/
  runIds : TreeMap String RunId := {}
  steps : TreeMap StepKey StepRecord := {}
  logs : TreeMap LogKey LogEntry := {}
  specs : TreeMap Int OutputSpec := {}
  cursor : Option Instant := none
  /-- How many of the next commits are made to fail. -/
  failingCommits : Nat := 0
  /-- How many snapshots have been committed. -/
  commits : Nat := 0
deriving Repr, Inhabited

namespace KeyedStore

/-- The row of the run to whose number a name leads. -/
def findRun (s : KeyedStore) (externalRunId : String) : Option RunRecord :=
  s.runIds[externalRunId]?.bind fun runId => s.runs[runId]?

/-- The steps of a run as they stand in the map. -/
def listSteps (s : KeyedStore) (externalRunId : String) : List StepRecord :=
  (s.steps.toList.map (·.2)).filter (·.externalRunId == externalRunId)

/-- The log entries of a run in the order of their times, then of their kinds. -/
def listLogs (s : KeyedStore) (externalRunId : String) : List LogEntry :=
  ((s.logs.toList.map (·.2)).filter (·.externalRunId == externalRunId)).mergeSort Store.logLe

/-- What a workflow declares. -/
def outputSpec (s : KeyedStore) (workflowId : Int) : OutputSpec :=
  s.specs[workflowId]?.getD .absent

/-- Declares where the runs of a workflow write files. -/
def declareOutput (s : KeyedStore) (workflowId : Int) (spec : OutputSpec) : KeyedStore :=
  { s with specs := s.specs.insert workflowId spec }

/-- Makes so many of the next commits fail. -/
def failNext (s : KeyedStore) (count : Nat) : KeyedStore := { s with failingCommits := count }

/-- Records a run under the next number, unless its name is taken. -/
def insertRun (s : KeyedStore) (run : NewRun) : Except StoreError (RunRecord × KeyedStore) :=
  if s.runIds.contains run.externalRunId then .error (.duplicateRun run.externalRunId)
  else
    let row := run.record (s.lastRunId + 1)
    .ok (row,
      { s with
        lastRunId := row.id
        runIds := s.runIds.insert row.externalRunId row.id
        runs := s.runs.insert row.id row })

/-- Refuses a number that no run has. -/
def checkRun (s : KeyedStore) (runId : RunId) : Except StoreError Unit :=
  if s.runs.contains runId then .ok () else .error (.runNotFound runId)

/-- Adds a write to a snapshot. -/
def stage (s : KeyedStore) (snap : Snapshot) (w : Write) : Except StoreError Snapshot := do
  s.checkRun w.runId
  pure { writes := snap.writes ++ [w] }

/-- The rows of runs after an update; an update of a run that is not there does nothing. -/
def updateRuns (runId : RunId) (u : RunUpdate) (runs : TreeMap RunId RunRecord) :
    TreeMap RunId RunRecord :=
  match runs[runId]? with
  | none => runs
  | some row => runs.insert runId (row.merge u)

/-- Applies a write. -/
def apply (s : KeyedStore) : Write → KeyedStore
  | .step runId externalRunId t =>
    let key := (externalRunId, t.stepCode)
    { s with steps := s.steps.insert key (StepRecord.merge s.steps[key]? runId externalRunId t) }
  | .log entry => { s with logs := s.logs.insert entry.key entry }
  | .run runId u => { s with runs := updateRuns runId u s.runs }

/-- Commits a snapshot. -/
def commit (s : KeyedStore) (snap : Snapshot) : Except StoreError Unit × KeyedStore :=
  match s.failingCommits with
  | left + 1 => (.error Store.injectedFailure, { s with failingCommits := left })
  | 0 =>
    match snap.writes.forM fun w => s.checkRun w.runId with
    | .error e => (.error e, s)
    | .ok () => (.ok (), { snap.writes.foldl apply s with commits := s.commits + 1 })

end KeyedStore

/-- The store whose rows are kept by their keys. -/
def Backend.keyed : Backend (StateM KeyedStore) Snapshot where
  beginSnapshot := inspect fun _ => {}
  stage snap w := fun s => (s.stage snap w, s)
  commit snap := fun s => s.commit snap
  abort _ := inspect fun _ => ()
  insertRun run := fun s =>
    match s.insertRun run with
    | .ok (row, s) => (.ok row, s)
    | .error e => (.error e, s)
  findRun externalRunId := inspect (·.findRun externalRunId)
  listSteps externalRunId := inspect (·.listSteps externalRunId)
  listLogs externalRunId := inspect (·.listLogs externalRunId)
  outputSpec workflowId := inspect (·.outputSpec workflowId)
  loadCursor := inspect (·.cursor)
  storeCursor cursor := fun s => (.ok (), { s with cursor := some cursor })

end RunLedger
