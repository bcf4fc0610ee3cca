import RunLedger.Engine.Basic
import RunLedger.Event.Effect
import RunLedger.Output.Resolve
import RunLedger.Store.Basic

/-!
# Plans

What the engine knows of a run becomes a plan: the transitions of its steps, its log entries and the
update of its row. The plan is a function of the run's row, the engine's answer, the declaration of
the workflow and the time, and nothing is stored before it is complete.
-/

namespace RunLedger.Sync

open RunLedger.Time (Instant)

/-- The events of a history that can be read. -/
def readable (events : List Json) : List EngineEvent :=
  events.filterMap fun j => (EngineEvent.parse j).toOption

/-- How many events of a history cannot be read. -/
def unreadableCount (events : List Json) : Nat :=
  events.countP fun j => (EngineEvent.parse j).toOption.isNone

/-- The changes of steps that a history tells of. -/
def transitionsOf (events : List EngineEvent) : List StepTransition :=
  events.filterMap (·.reduce.transition)

/-- The log entries that a history leaves. -/
def logsOf (runId : RunId) (externalRunId : String) (events : List EngineEvent) : List LogEntry :=
  events.filterMap fun e => e.reduce.log.map (·.toEntry runId externalRunId)

/-- The error of the first failed step. -/
def firstFailure (transitions : List StepTransition) : Option String :=
  (transitions.find? (·.status == .failure)).map fun t =>
    t.errorMessage.getD ("step '" ++ t.stepCode ++ "' failed")

/-- The time of the latest event. -/
def latestEvent (events : List EngineEvent) : Option Instant :=
  Instant.latest? (events.filterMap (·.timestamp))

/-- All that one sync writes. -/
structure Plan where
  runId : RunId
  externalRunId : String
  /-- In the order of the events. -/
  transitions : List StepTransition
  logs : List LogEntry
  update : RunUpdate
deriving Repr, Inhabited

/-- The writes of a plan in the order in which they are applied. -/
def Plan.writes (p : Plan) : List Write :=
  p.transitions.map (.step p.runId p.externalRunId) ++ p.logs.map .log ++ [.run p.runId p.update]

/-- The configuration of a run: the engine's, or the stored one if the engine has none. -/
def effectiveConfig (run : RunRecord) (detail : RunDetail) : Json :=
  if detail.config.isNull then run.runConfig else detail.config

/-- Output locations are resolved for a run that finished successfully, unless they are settled. -/
def needsLocations (run : RunRecord) (detail : RunDetail) : Bool :=
  engineSucceeded detail.status && !run.locationsSettled

/-- When a run ended: the engine's end time, else its latest event, else now. -/
def finishTime (detail : RunDetail) (now : Instant) : Instant :=
  (detail.endTime.or (latestEvent (readable detail.events))).getD now

/-- The update of a run's row. -/
def updateOf (detail : RunDetail) (locations : Option (List OutputLocation)) (now : Instant) :
    RunUpdate :=
  let status := RunStatus.ofEngine detail.status
  { status := some status
    startedAt := detail.startTime
    finishedAt := if status.isTerminal then some (finishTime detail now) else none
    durationSeconds := none
    errorMessage :=
      if status = .failed then firstFailure (transitionsOf (readable detail.events)) else none
    outputLocations := locations
    runConfig := if detail.config.isNull then none else some detail.config }

/-- The plan for a run, with its output locations if they are resolved. -/
def planOf (externalRunId : String) (run : RunRecord) (detail : RunDetail)
    (locations : Option (List OutputLocation)) (now : Instant) : Plan :=
  let events := readable detail.events
  { runId := run.id
    externalRunId := externalRunId
    transitions := transitionsOf events
    logs := logsOf run.id externalRunId events
    update := updateOf detail locations now }

/-- What a sync of a run did. -/
structure RunSyncSummary where
  externalRunId : String
  status : RunStatus
  outputLocations : List OutputLocation
  stepTransitions : Nat
  logEntries : Nat
  /-- How many events could not be read. -/
  droppedEvents : Nat
deriving Repr, Inhabited

/-- The summary of a plan that was carried out. -/
def summaryOf (externalRunId : String) (run : RunRecord) (detail : RunDetail)
    (locations : Option (List OutputLocation)) : RunSyncSummary :=
  let events := readable detail.events
  { externalRunId := externalRunId
    status := RunStatus.ofEngine detail.status
    outputLocations := locations.getD run.outputLocations
    stepTransitions := (transitionsOf events).length
    logEntries := (logsOf run.id externalRunId events).length
    droppedEvents := unreadableCount detail.events }

end RunLedger.Sync
