import RunLedger.Sync.Candidates
import RunLedger.Sync.Cursor
import RunLedger.Sync.Persist

/-!
# Reconciling

A reconciler brings a store up to date with an engine. `Reconciler.syncRun` does so for one run,
`trigger` does it on demand, and `tick` for all runs that were updated since the cursor. Each run is
stored by itself: a run that fails is counted and does not stop a pass.
-/

namespace RunLedger.Sync

open RunLedger.Time (Instant)

/-- Why a sync failed. -/
inductive SyncError where
  | engine (e : EngineError)
  | store (e : StoreError)
deriving DecidableEq, Repr, Inhabited

def SyncError.message : SyncError → String
  | engine e => "engine error: " ++ e.message
  | store e => "storage error: " ++ e.message

/-- What became of the sync of a run. -/
inductive RunOutcome where
  | synced (summary : RunSyncSummary)
  /-- The engine has no such run. -/
  | engineRunMissing
  /-- The engine has the run, but its launch was never recorded. -/
  | localRunMissing
deriving Repr, Inhabited

/-- The answer to a sync on demand. -/
inductive TriggerResponse where
  | synced (success : Bool) (status : String) (outputLocations : List OutputLocation)
      (logCount : Nat)
  | notFound (message : String)
  | error (message : String)
deriving Repr, Inhabited

/-- The answer that tells of an outcome. -/
def TriggerResponse.ofOutcome (externalRunId : String) :
    Except SyncError RunOutcome → TriggerResponse
  | .ok (.synced summary) =>
    .synced true summary.status.text summary.outputLocations summary.logEntries
  | .ok .engineRunMissing =>
    .notFound ("run " ++ externalRunId ++ " not found in the execution engine")
  | .ok .localRunMissing => .notFound ("run " ++ externalRunId ++ " is not recorded locally")
  | .error e => .error e.message

/-- The account of a pass. -/
structure TickReport where
  candidates : Nat
  synced : Nat
  skipped : Nat
  failed : Nat
  cursorBefore : Option Instant
  cursorAfter : Option Instant
deriving Repr, Inhabited

/-- What a pass has counted so far, and the update times of the runs that it handled and of those
that failed. -/
structure Tally where
  synced : Nat := 0
  skipped : Nat := 0
  failed : Nat := 0
  handledAt : List Instant := []
  failedAt : List Instant := []
deriving Repr, Inhabited

/-- Counts the outcome of one run. -/
def Tally.add (t : Tally) (updateTime : Instant) : Except SyncError RunOutcome → Tally
  | .ok (.synced _) =>
    { t with synced := t.synced + 1, handledAt := t.handledAt ++ [updateTime] }
  | .ok .engineRunMissing =>
    { t with skipped := t.skipped + 1, handledAt := t.handledAt ++ [updateTime] }
  | .ok .localRunMissing =>
    { t with skipped := t.skipped + 1, handledAt := t.handledAt ++ [updateTime] }
  | .error _ => { t with failed := t.failed + 1, failedAt := t.failedAt ++ [updateTime] }

/-- An engine and the store that is to follow it. -/
structure Reconciler (m : Type → Type) (σ : Type) where
  engine : Engine m
  store : Backend m σ
  clock : m Instant
  /-- How many runs are asked for at a time; 0 counts as 1. -/
  pageSize : Nat

namespace Reconciler

variable {m : Type → Type} [Monad m] {σ : Type} (r : Reconciler m σ)

/-- The output locations of a run, if they are to be resolved. -/
def locations (run : RunRecord) (detail : RunDetail) (now : Instant) :
    m (Except StoreError (Option (List OutputLocation))) :=
  if needsLocations run detail then do
    match ← r.store.outputSpec run.workflowId with
    | .error e => pure (.error e)
    | .ok spec => pure (.ok (some (Output.resolveOrNone (effectiveConfig run detail) spec now)))
  else pure (.ok none)

/-- Stores what the engine answered about a run whose row was read. -/
def storeDetail (externalRunId : String) (run : RunRecord) (detail : RunDetail) :
    m (Except SyncError RunOutcome) := do
  let now ← r.clock
  match ← r.locations run detail now with
  | .error e => pure (.error (.store e))
  | .ok locations =>
    match ← persist r.store (planOf externalRunId run detail locations now) with
    | .error e => pure (.error (.store e))
    | .ok _ => pure (.ok (.synced (summaryOf externalRunId run detail locations)))

/-- Brings one run up to date. -/
def syncRun (externalRunId : String) : m (Except SyncError RunOutcome) := do
  match ← r.engine.runDetail externalRunId with
  | .error (.runNotFound _) => pure (.ok .engineRunMissing)
  | .error e => pure (.error (.engine e))
  | .ok detail =>
    match ← r.store.findRun externalRunId with
    | .error e => pure (.error (.store e))
    | .ok none => pure (.ok .localRunMissing)
    | .ok (some run) => r.storeDetail externalRunId run detail

/-- Brings one run up to date on demand; the cursor stays where it is. -/
def trigger (externalRunId : String) : m TriggerResponse :=
  TriggerResponse.ofOutcome externalRunId <$> r.syncRun externalRunId

/-- Syncs candidates in turn. -/
def syncAll (t : Tally) (candidates : List RunSummary) : m Tally :=
  candidates.foldlM (fun t c => t.add c.updateTime <$> r.syncRun c.runId) t

/-- Stores a cursor that has moved. -/
def moveCursor (before after : Option Instant) : m (Except StoreError Unit) :=
  match after with
  | some cursor => if after == before then pure (.ok ()) else r.store.storeCursor cursor
  | none => pure (.ok ())

/-- Syncs the candidates of a pass and moves the cursor. -/
def handle (cursor : Option Instant) (c : Candidates) : m (Except SyncError TickReport) := do
  let tally ← r.syncAll { failedAt := c.incompleteAt.toList } c.inOrder
  let after := nextCursor cursor tally.handledAt tally.failedAt
  match ← r.moveCursor cursor after with
  | .error e => pure (.error (.store e))
  | .ok () => pure (.ok
      { candidates := c.runs.length
        synced := tally.synced
        skipped := tally.skipped
        failed := tally.failed
        cursorBefore := cursor
        cursorAfter := after })

/-- One pass over the runs that were updated since the cursor. The pass asks for at most `fuel`
pages; there is no report if the engine has not come to an end by then. -/
def tick (fuel : Nat) : m (Except SyncError (Option TickReport)) := do
  match ← r.store.loadCursor with
  | .error e => pure (.error (.store e))
  | .ok cursor =>
    match ← collect r.engine r.pageSize cursor fuel (.start r.pageSize) with
    | .error e => pure (.error (.engine e))
    | .ok none => pure (.ok none)
    | .ok (some candidates) => do
      let report ← r.handle cursor candidates
      pure (report.map some)

end Reconciler

end RunLedger.Sync
