import RunLedger.Store.Basic

/-!
# Operations of a store

The operations by name, so that single ones can be made to fail.
-/

namespace RunLedger

/-- The operations of a store. -/
inductive Operation where
  | beginSnapshot
  | commitSnapshot
  | abortSnapshot
  | upsertStep
  | appendLog
  | updateRun
  | insertRun
  | findRun
  | listStepStatuses
  | listLogs
  | workflowOutputSpec
  | loadCursor
  | storeCursor
deriving DecidableEq, Repr, Inhabited

namespace Operation

def all : List Operation :=
  [beginSnapshot, commitSnapshot, abortSnapshot, upsertStep, appendLog, updateRun, insertRun,
    findRun, listStepStatuses, listLogs, workflowOutputSpec, loadCursor, storeCursor]

/-- The name of an operation. -/
def text : Operation → String
  | beginSnapshot => "begin_snapshot"
  | commitSnapshot => "commit_snapshot"
  | abortSnapshot => "abort_snapshot"
  | upsertStep => "upsert_step"
  | appendLog => "append_log"
  | updateRun => "update_run"
  | insertRun => "insert_run"
  | findRun => "find_run"
  | listStepStatuses => "list_step_statuses"
  | listLogs => "list_logs"
  | workflowOutputSpec => "workflow_output_spec"
  | loadCursor => "load_cursor"
  | storeCursor => "store_cursor"

/-- The operation with a name. -/
def parse? (name : String) : Option Operation :=
  all.find? (·.text == name)

/-- The operation that stages a write. -/
def ofWrite : Write → Operation
  | .step .. => upsertStep
  | .log _ => appendLog
  | .run .. => updateRun

/-- The failure of an operation that was made to fail. -/
def injected (op : Operation) : StoreError :=
  .backend ("injected " ++ op.text ++ " failure")

end Operation

end RunLedger
