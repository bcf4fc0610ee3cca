import RunLedger.Rehearsal.EngineScript
import RunLedger.Store.Keyed
import RunLedger.Store.Operation
import RunLedger.Sync.Reconciler

/-!
# Rehearsed worlds

A world in which the program is rehearsed: a scripted engine, a store whose operations can be made
to fail, a clock that stands still, and a virtual time that only slow listings let pass. The world
keeps an account of the queries to the engine and of the snapshots that are open.
-/

namespace RunLedger.Rehearsal

open RunLedger.Sync (Reconciler)
open RunLedger.Time (Instant)

/-- A listing that was asked for. -/
structure ListCall where
  /-- Milliseconds of virtual time at which it was asked for. -/
  askedAt : Nat
  limit : Nat
  after : Option Instant
  before : Option Instant
  /-- How many runs it returned, unless it failed. -/
  returned : Option Nat
deriving Repr, Inhabited

/-- A rehearsed world. -/
structure World where
  engine : EngineScript := {}
  store : KeyedStore := {}
  /-- How many of the next calls of an operation fail. -/
  failing : List (Operation × Nat) := []
  /-- How many snapshots were aborted. -/
  aborts : Nat := 0
  /-- The open snapshots by name. -/
  snapshots : List (String × Snapshot) := []
  now : Instant
  pageSize : Nat
  /-- Milliseconds of virtual time that have passed. -/
  elapsed : Nat := 0
  listCalls : List ListCall := []
  detailCalls : List String := []
deriving Repr, Inhabited

/-- Actions in a rehearsed world. -/
abbrev Rehearse := StateM World

namespace World

/-- Makes the next calls of an operation fail. -/
def setFailing (w : World) (op : Operation) (count : Nat) : World :=
  { w with failing := (op, count) :: w.failing.filter (·.1 != op) }

/-- Runs an operation unless it is to fail. -/
def guarded {α : Type} (op : Operation) (act : Rehearse (Except StoreError α)) :
    Rehearse (Except StoreError α) := fun w =>
  match w.failing.lookup op with
  | some (left + 1) => (.error op.injected, w.setFailing op left)
  | _ => act w

/-- Runs an operation of the store inside the world. -/
def inStore {α : Type} (act : StateM KeyedStore α) : Rehearse α := fun w =>
  let (a, store) := act w.store
  (a, { w with store := store })

/-- Counts an abort. -/
def countAbort (w : World) : World :=
  { w with aborts := w.aborts + 1 }

/-- The store of the world as the program sees it. -/
def backend : Backend Rehearse Snapshot :=
  let b := Backend.keyed.lift inStore
  { beginSnapshot := guarded .beginSnapshot b.beginSnapshot
    stage := fun snap w => guarded (.ofWrite w) (b.stage snap w)
    commit := fun snap => guarded .commitSnapshot (b.commit snap)
    abort := fun snap => guarded .abortSnapshot (modify countAbort *> b.abort snap)
    insertRun := fun run => guarded .insertRun (b.insertRun run)
    findRun := fun externalRunId => guarded .findRun (b.findRun externalRunId)
    listSteps := fun externalRunId => guarded .listStepStatuses (b.listSteps externalRunId)
    listLogs := fun externalRunId => guarded .listLogs (b.listLogs externalRunId)
    outputSpec := fun workflowId => guarded .workflowOutputSpec (b.outputSpec workflowId)
    loadCursor := guarded .loadCursor b.loadCursor
    storeCursor := fun cursor => guarded .storeCursor (b.storeCursor cursor) }

/-- Answers a detail query and keeps account of it. -/
def runDetail (runId : String) : Rehearse (Except EngineError RunDetail) := fun w =>
  (w.engine.runDetail runId, { w with detailCalls := w.detailCalls ++ [runId] })

/-- Answers a listing, lets it take its time, and keeps account of it. -/
def recentRuns (limit : Nat) (after before : Option Instant) :
    Rehearse (Except EngineError (List RunSummary)) := fun w =>
  let (answer, engine) := w.engine.recentRuns limit after before
  let call : ListCall :=
    { askedAt := w.elapsed, limit, after, before, returned := answer.toOption.map (·.length) }
  (answer,
    { w with
      engine := { engine with listDelays := engine.listDelays.tail }
      elapsed := w.elapsed + engine.listDelays.headD 0
      listCalls := w.listCalls ++ [call] })

/-- The program in this world. -/
def reconciler (w : World) : Reconciler Rehearse Snapshot where
  engine := { runDetail := runDetail, recentRuns := recentRuns }
  store := backend
  clock := (·.now) <$> get
  pageSize := w.pageSize

end World

end RunLedger.Rehearsal
