import RunLedger.Http.Router
import RunLedger.Rehearsal.World
import RunLedger.Sync.Schedule

/-!
# Rehearsals

A rehearsal is a list of actions: changes of the scripted engine, of the clock and of what is to
fail, operations of the store, and uses of the program. `Action.perform` carries one out and tells
what came of it.
-/

namespace RunLedger.Rehearsal

open RunLedger.Sync
open RunLedger.Time (Instant)

/-- How the periodic passes are told to stop. -/
inductive StopSignal where
  /-- At once. -/
  | stop
  /-- By leaving them alone. -/
  | leave
  /-- After a first signal that tells them to go on, and as much time again. -/
  | continueThenStop
deriving DecidableEq, Repr, Inhabited

/-- What is done in a rehearsal. -/
inductive Action where
  | publish (run : PublishedRun)
  | remove (runId : String)
  | heal (runId : String)
  | failDetail (runId : String) (e : EngineError)
  | failLists (errors : List EngineError)
  | scriptPages (pages : Option (List (List RunSummary)))
  | delayLists (delays : List Nat)
  | setNow (now : Instant)
  | failCommits (count : Nat)
  | failOperation (op : Operation) (count : Nat)
  | insertRun (run : NewRun)
  | setSpec (workflowId : Int) (spec : OutputSpec)
  | getSpec (workflowId : Int)
  | findRun (runId : String)
  | listSteps (runId : String)
  | listLogs (runId : String)
  | state (runId : String)
  | loadCursor
  | storeCursor (cursor : Instant)
  | counts
  | handles (runId : String)
  | openSnapshot (snap : String)
  | commit (snap : String)
  | abort (snap : String)
  | drop (snap : String)
  | stage (snap : String) (w : Write)
  | persist (plan : Plan)
  | sync (runId : String)
  | trigger (runId : String)
  | tick
  /-- Runs the periodic passes for some milliseconds. -/
  | drive (interval run : Nat) (signal : StopSignal)
  | http (request : Http.Request)
deriving Repr, Inhabited

/-- What comes of an action. -/
inductive Outcome where
  | done
  | failed (e : StoreError)
  | run (row : RunRecord)
  | foundRun (row : Option RunRecord)
  | steps (rows : List StepRecord)
  | logs (rows : List LogEntry)
  | spec (spec : OutputSpec)
  | cursor (cursor : Option Instant)
  | state (run : Except StoreError (Option RunRecord)) (steps : Except StoreError (List StepRecord))
      (logs : Except StoreError (List LogEntry))
  | counts (commits aborts : Nat)
  | handles (pageSize : Nat) (run : Except StoreError (Option RunRecord))
  | persisted (summary : PersistSummary)
  | synced (result : Except SyncError RunOutcome)
  | triggered (response : TriggerResponse)
  | ticked (report : Except SyncError TickReport) (listCalls : List ListCall)
      (detailCalls : List String)
  | driven (clean : Bool) (listedAt : List Nat) (stoppedAt : Nat)
  | answered (response : Http.Response)
  /-- The action names a snapshot that is not open. -/
  | noSuchSnapshot
  /-- The engine did not come to the end of its listings. -/
  | unfinished
deriving Inhabited

namespace Outcome

/-- The outcome of an operation of the store. -/
def ofStore {α : Type} (f : α → Outcome) : Except StoreError α → Outcome
  | .ok a => f a
  | .error e => failed e

end Outcome

namespace World

/-- Opens a snapshot under a name. -/
def keepSnapshot (name : String) (snap : Snapshot) (w : World) : World :=
  { w with snapshots := (name, snap) :: w.snapshots.filter (·.1 != name) }

/-- Closes the snapshot with a name. -/
def dropSnapshot (name : String) (w : World) : World :=
  { w with snapshots := w.snapshots.filter (·.1 != name) }

/-- Forgets the account of queries. -/
def forgetCalls (w : World) : World :=
  { w with listCalls := [], detailCalls := [] }

/-- Runs a pass; the outcome is nothing if the engine does not come to the end of its listings. -/
def tick : Rehearse (Except SyncError (Option TickReport)) := do
  let w ← get
  w.reconciler.tick w.engine.requestBound

/-- Lets virtual time pass up to a point. -/
def waitUntil (t : Nat) : Rehearse Unit :=
  modify fun w => { w with elapsed := max w.elapsed t }

/-- Runs the periodic passes up to a point of virtual time, and returns when they stopped. -/
def drive (interval stop : Nat) : Rehearse Nat := do
  modify fun w => { w.forgetCalls with elapsed := 0 }
  runPasses ((·.elapsed) <$> get) waitUntil (tick *> pure ()) interval stop (stop / interval + 2) 0

end World

namespace Action

/-- Changes the world. -/
def change (f : World → World) : Rehearse Outcome := do
  modify f
  pure .done

/-- Changes the scripted engine. -/
def changeEngine (f : EngineScript → EngineScript) : Rehearse Outcome :=
  change fun w => { w with engine := f w.engine }

/-- Closes an open snapshot by an operation of the store. -/
def close (name : String) (act : Snapshot → Rehearse (Except StoreError Unit)) :
    Rehearse Outcome := do
  match (← get).snapshots.lookup name with
  | none => pure .noSuchSnapshot
  | some snap =>
    modify (World.dropSnapshot name)
    .ofStore (fun () => .done) <$> act snap

/-- Adds a write to an open snapshot; a write that is refused leaves it as it was. -/
def stageIn (name : String) (w : Write) : Rehearse Outcome := do
  match (← get).snapshots.lookup name with
  | none => pure .noSuchSnapshot
  | some snap =>
    match ← World.backend.stage snap w with
    | .error e => pure (.failed e)
    | .ok snap =>
      modify (World.keepSnapshot name snap)
      pure .done

/-- When the periodic passes stop that run for some time before the first signal. -/
def stopTime (run : Nat) : StopSignal → Nat
  | .continueThenStop => 2 * run
  | .stop => run
  | .leave => run

/-- Carries out an action. -/
def perform : Action → Rehearse Outcome
  | publish run => changeEngine (·.publish run)
  | remove runId => changeEngine (·.remove runId)
  | heal runId => changeEngine (·.heal runId)
  | failDetail runId e => changeEngine (·.fail runId e)
  | failLists errors => changeEngine fun s => { s with listErrors := errors }
  | scriptPages pages => changeEngine fun s => { s with pages := pages }
  | delayLists delays => changeEngine fun s => { s with listDelays := delays }
  | setNow now => change fun w => { w with now := now }
  | failCommits count => change fun w => { w with store := w.store.failNext count }
  | failOperation op count => change (·.setFailing op count)
  | insertRun run => .ofStore .run <$> World.backend.insertRun run
  | setSpec workflowId spec =>
    change fun w => { w with store := w.store.declareOutput workflowId spec }
  | getSpec workflowId => .ofStore .spec <$> World.backend.outputSpec workflowId
  | findRun runId => .ofStore .foundRun <$> World.backend.findRun runId
  | listSteps runId => .ofStore .steps <$> World.backend.listSteps runId
  | listLogs runId => .ofStore .logs <$> World.backend.listLogs runId
  | state runId => do
    let run ← World.backend.findRun runId
    let steps ← World.backend.listSteps runId
    let logs ← World.backend.listLogs runId
    pure (.state run steps logs)
  | loadCursor => .ofStore .cursor <$> World.backend.loadCursor
  | storeCursor cursor => .ofStore (fun () => .done) <$> World.backend.storeCursor cursor
  | counts => do
    let w ← get
    pure (.counts w.store.commits w.aborts)
  | handles runId => do
    let w ← get
    .handles w.pageSize <$> World.backend.findRun runId
  | openSnapshot name => do
    match ← World.backend.beginSnapshot with
    | .error e => pure (.failed e)
    | .ok snap => change (World.keepSnapshot name snap)
  | commit name => close name World.backend.commit
  | abort name => close name World.backend.abort
  | drop name => change (World.dropSnapshot name)
  | stage name w => stageIn name w
  | persist plan => .ofStore .persisted <$> Sync.persist World.backend plan
  | sync runId => do .synced <$> (← get).reconciler.syncRun runId
  | trigger runId => do .triggered <$> (← get).reconciler.trigger runId
  | tick => do
    modify World.forgetCalls
    let report ← World.tick
    let w ← get
    match report with
    | .ok none => pure .unfinished
    | .ok (some report) => pure (.ticked (.ok report) w.listCalls w.detailCalls)
    | .error e => pure (.ticked (.error e) w.listCalls w.detailCalls)
  | drive interval run signal => do
    if interval = 0 then pure (.driven false [] (stopTime run signal))
    else
      let stopped ← World.drive interval (stopTime run signal)
      let w ← get
      pure (.driven true (w.listCalls.map (·.askedAt)) stopped)
  | http request => do .answered <$> Http.respond (← get).reconciler request

/-- Carries out actions in turn. -/
def performAll (actions : List Action) : Rehearse (List Outcome) :=
  actions.mapM perform

end Action

end RunLedger.Rehearsal
