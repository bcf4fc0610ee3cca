import RunLedger.Json.Basic
import RunLedger.Run.Status
import RunLedger.Text.Blank
import RunLedger.Time.Instant

/-!
# Rows of the ledger

What the ledger keeps of a run, of its steps and of its events, and what is asked to be written. A
run has two names: the number that the ledger gave it and the name it has in the engine.
-/

namespace RunLedger

open Time (Instant)

/-- The number that the ledger gave a run. -/
abbrev RunId := Int

/-- A place where a run wrote a file. -/
structure OutputLocation where
  path : String
  name : Option String := none
  description : Option String := none
deriving DecidableEq, Repr, Inhabited

/-- A named path with placeholders. Usually a text, but any document may serve. -/
structure OutputTemplate where
  name : String
  pathTemplate : Json
  description : Option String := none
deriving BEq, Repr, Inhabited

/-- How a workflow declares where its runs write files. -/
inductive OutputSpec where
  | templates (templates : List OutputTemplate)
  | pattern (pattern : String)
  | absent
deriving BEq, Repr, Inhabited

/-- Named templates win over a pattern; neither counts when it is empty. -/
def OutputSpec.ofParts (templates : Option (List OutputTemplate)) (pattern : Option String) :
    OutputSpec :=
  let byPattern := match pattern with
    | some p => if Text.allBlank p then .absent else .pattern p
    | none => .absent
  match templates with
  | some (t :: ts) => .templates (t :: ts)
  | _ => byPattern

/-- The row of a run. -/
structure RunRecord where
  id : RunId
  externalRunId : String
  workflowId : Int
  status : RunStatus
  startedAt : Option Instant
  finishedAt : Option Instant
  durationSeconds : Option Float
  errorMessage : Option String
  outputLocations : List OutputLocation
  runConfig : Json
deriving BEq, Repr, Inhabited

/-- A run as it is recorded when it is launched. -/
structure NewRun where
  externalRunId : String
  workflowId : Int
  status : RunStatus
  startedAt : Option Instant
  runConfig : Json
deriving BEq, Repr, Inhabited

/-- The row of a run when it is recorded. -/
def NewRun.record (run : NewRun) (id : RunId) : RunRecord where
  id := id
  externalRunId := run.externalRunId
  workflowId := run.workflowId
  status := run.status
  startedAt := run.startedAt
  finishedAt := none
  durationSeconds := none
  errorMessage := none
  outputLocations := []
  runConfig := run.runConfig

/-- Changes to the row of a run; an absent field leaves the stored value alone. -/
structure RunUpdate where
  status : Option RunStatus := none
  startedAt : Option Instant := none
  finishedAt : Option Instant := none
  /-- Stands in for the duration between start and finish. -/
  durationSeconds : Option Float := none
  errorMessage : Option String := none
  outputLocations : Option (List OutputLocation) := none
  runConfig : Option Json := none
deriving BEq, Repr, Inhabited

/-- A change of the state of a step. -/
structure StepTransition where
  stepCode : String
  status : StepState
  startedAt : Option Instant
  finishedAt : Option Instant
  errorMessage : Option String
deriving BEq, Repr, Inhabited

/-- The row of a step of a run. -/
structure StepRecord where
  runId : RunId
  externalRunId : String
  stepCode : String
  status : StepState
  startedAt : Option Instant
  finishedAt : Option Instant
  durationSeconds : Option Float
  errorMessage : Option String
deriving BEq, Repr, Inhabited

/-- A log entry, which tells of one event of a run. -/
structure LogEntry where
  runId : RunId
  externalRunId : String
  stepCode : Option String
  kind : EventKind
  message : String
  level : LogLevel
  /-- The time of the event on the engine's clock. -/
  timestamp : Instant
  /-- The event as it was received. -/
  payload : Json
deriving BEq, Repr, Inhabited

end RunLedger
