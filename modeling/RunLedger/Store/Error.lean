import RunLedger.Run.Record

/-!
# Storage failures
-/

namespace RunLedger

/-- A failed operation of a store. -/
inductive StoreError where
  /-- No run has this number. -/
  | runNotFound (runId : RunId)
  /-- A run with this name is already recorded. -/
  | duplicateRun (externalRunId : String)
  /-- A stored value cannot be written or read. -/
  | serialization (reason : String)
  /-- The store itself failed. -/
  | backend (reason : String)
deriving DecidableEq, Repr, Inhabited

namespace StoreError

def message : StoreError → String
  | runNotFound runId => "run not found: " ++ toString runId
  | duplicateRun externalRunId => "run already recorded for external id " ++ externalRunId
  | serialization reason => "storage serialization error: " ++ reason
  | backend reason => "storage backend error: " ++ reason

end StoreError

end RunLedger
