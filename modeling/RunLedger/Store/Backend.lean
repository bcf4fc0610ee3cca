import RunLedger.Store.Basic

/-!
# Backends

`Backend m σ` is a store whose operations are actions of `m` and whose open snapshots are values of
`σ`. `Backend.plain` is the store that is kept as plain data.
-/

namespace RunLedger

open Time (Instant)

/-- The operations of a store. -/
structure Backend (m : Type → Type) (σ : Type) where
  /-- Opens a snapshot. -/
  beginSnapshot : m (Except StoreError σ)
  /-- Adds a write to a snapshot. -/
  stage : σ → Write → m (Except StoreError σ)
  /-- Applies what a snapshot has staged and closes it. -/
  commit : σ → m (Except StoreError Unit)
  /-- Closes a snapshot without applying it. -/
  abort : σ → m (Except StoreError Unit)
  /-- Records a run that was launched. -/
  insertRun : NewRun → m (Except StoreError RunRecord)
  findRun : String → m (Except StoreError (Option RunRecord))
  /-- The steps of a run in the order of their codes. -/
  listSteps : String → m (Except StoreError (List StepRecord))
  /-- The log entries of a run in the order of their times. -/
  listLogs : String → m (Except StoreError (List LogEntry))
  /-- What a workflow declares; an unknown one declares nothing. -/
  outputSpec : Int → m (Except StoreError OutputSpec)
  loadCursor : m (Except StoreError (Option Instant))
  storeCursor : Instant → m (Except StoreError Unit)

namespace Backend

/-- The same store with its operations carried into another monad. -/
def lift {m n : Type → Type} {σ : Type} (f : {α : Type} → m α → n α) (b : Backend m σ) :
    Backend n σ where
  beginSnapshot := f b.beginSnapshot
  stage snap w := f (b.stage snap w)
  commit snap := f (b.commit snap)
  abort snap := f (b.abort snap)
  insertRun run := f (b.insertRun run)
  findRun externalRunId := f (b.findRun externalRunId)
  listSteps externalRunId := f (b.listSteps externalRunId)
  listLogs externalRunId := f (b.listLogs externalRunId)
  outputSpec workflowId := f (b.outputSpec workflowId)
  loadCursor := f b.loadCursor
  storeCursor cursor := f (b.storeCursor cursor)

/-- Asks a store a question that changes nothing and cannot fail. -/
def inspect {S α : Type} (f : S → α) : StateM S (Except StoreError α) :=
  fun s => (.ok (f s), s)

/-- The store that is kept as plain data. -/
def plain : Backend (StateM Store) Snapshot where
  beginSnapshot := inspect fun _ => {}
  stage snap w := fun s => (s.stage snap w, s)
  commit snap := fun s => s.commit snap
  abort _ := inspect fun _ => ()
  insertRun run := fun s =>
    match s.insertRun run with
    | .ok (row, s) => (.ok row, s)
    | .error e => (.error e, s)
  findRun externalRunId := inspect (·.findRun externalRunId)
  listSteps externalRunId := inspect (·.listSteps externalRunId)
  listLogs externalRunId := inspect (·.listLogs externalRunId)
  outputSpec workflowId := inspect (·.outputSpec workflowId)
  loadCursor := inspect (·.cursor)
  storeCursor cursor := fun s => (.ok (), { s with cursor := some cursor })

end Backend

end RunLedger
