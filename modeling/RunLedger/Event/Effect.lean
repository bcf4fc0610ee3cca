import RunLedger.Event.Basic
import RunLedger.Run.Record

/-!
# Effects of events

An event changes the state of at most one step and leaves at most one log entry. Events of types
that the ledger does not know do neither. A step changes only if the event names it; a log entry is
known by its time, so an event without one leaves none.
-/

namespace RunLedger

open Time (Instant)

/-- A log entry of a run that is not yet known to the ledger. -/
structure LogDraft where
  stepCode : Option String
  kind : EventKind
  message : String
  level : LogLevel
  timestamp : Instant
  payload : Json
deriving Repr, Inhabited

/-- The log entry of a run. -/
def LogDraft.toEntry (d : LogDraft) (runId : RunId) (externalRunId : String) : LogEntry where
  runId := runId
  externalRunId := externalRunId
  stepCode := d.stepCode
  kind := d.kind
  message := d.message
  level := d.level
  timestamp := d.timestamp
  payload := d.payload

/-- What an event contributes to the ledger. -/
structure Effect where
  transition : Option StepTransition
  log : Option LogDraft
deriving Repr, Inhabited

namespace EngineEvent

/-- The name of the step in a sentence. -/
def stepName (e : EngineEvent) : String :=
  e.stepKey.getD "?"

/-- The state that an event brings its step to. -/
def stepState (e : EngineEvent) : Option StepState :=
  match e.happening with
  | .stepStart => some .started
  | .stepSuccess => some .success
  | .stepOutput _ _ => some .success
  | .stepFailure _ => some .failure
  | .stepInput _ _ => none
  | .message => none
  | .unknown _ => none

/-- The kind of log entry that an event leaves. -/
def logKind (e : EngineEvent) : Option EventKind :=
  match e.happening with
  | .stepStart => some .stepStart
  | .stepSuccess => some .stepSuccess
  | .stepOutput _ _ => some .stepOutput
  | .stepFailure _ => some .stepFailure
  | .stepInput _ _ => some .stepInput
  | .message => some .message
  | .unknown _ => none

/-- The severity of the log entry; a type check that is not reported counts as passed. -/
def logLevel (e : EngineEvent) : LogLevel :=
  match e.happening with
  | .stepFailure _ => .error
  | .stepInput _ passed => if passed.getD true then .info else .error
  | .stepOutput _ passed => if passed.getD true then .info else .error
  | .message => (e.level.map LogLevel.ofEngine).getD .info
  | _ => .info

/-- The sentence of the log entry. -/
def logMessage (e : EngineEvent) : String :=
  let step := e.stepName
  match e.happening with
  | .stepStart => e.message.getD ("Step '" ++ step ++ "' started")
  | .stepSuccess => e.message.getD ("Step '" ++ step ++ "' succeeded")
  | .stepOutput name passed =>
    let name := name.getD "result"
    if passed.getD true then "Step '" ++ step ++ "' yielded output '" ++ name ++ "'"
    else "Output '" ++ name ++ "' of step '" ++ step ++ "' failed its type check"
  | .stepFailure error => (error.or e.message).getD ("Step '" ++ step ++ "' failed")
  | .stepInput name passed =>
    let name := name.getD "input"
    if passed.getD true then "Input '" ++ name ++ "' of step '" ++ step ++ "' passed its type check"
    else "Input '" ++ name ++ "' of step '" ++ step ++ "' failed its type check"
  | .message => e.message.getD ""
  | .unknown _ => ""

/-- The change of a step: a start tells when it started, an end when it ended, a failure why. -/
def transition (e : EngineEvent) : Option StepTransition :=
  match e.stepState, e.stepKey with
  | some status, some stepCode => some
      { stepCode := stepCode
        status := status
        startedAt := if status = .started then e.timestamp else none
        finishedAt := if status.isTerminal then e.timestamp else none
        errorMessage := if status = .failure then some e.logMessage else none }
  | _, _ => none

/-- The log entry of an event. -/
def logDraft (e : EngineEvent) : Option LogDraft :=
  match e.logKind, e.timestamp with
  | some kind, some timestamp => some
      { stepCode := e.stepKey
        kind := kind
        message := e.logMessage
        level := e.logLevel
        timestamp := timestamp
        payload := e.raw }
  | _, _ => none

/-- What an event contributes to the ledger. -/
def reduce (e : EngineEvent) : Effect :=
  ⟨e.transition, e.logDraft⟩

end EngineEvent

end RunLedger
