import RunLedger.Json.Basic
import RunLedger.Text.Blank
import RunLedger.Time.EpochSeconds

/-!
# Engine events

An engine tells the history of a run as a list of JSON objects, each with a type name.
`EngineEvent.parse` reads one of them. Members that are missing, of another kind or blank count as
absent; only a document that is no object, or that has no type name, is refused.
-/

namespace RunLedger

open Time (Instant)

/-- Why a document is no event. -/
inductive MalformedEvent where
  | notAnObject
  | missingTypename
deriving DecidableEq, Repr, Inhabited

def MalformedEvent.message : MalformedEvent → String
  | notAnObject => "event is not a JSON object"
  | missingTypename => "event has no __typename"

/-- What an event tells. -/
inductive Happening where
  | stepStart
  | stepSuccess
  | stepFailure (error : Option String)
  | stepInput (name : Option String) (passed : Option Bool)
  | stepOutput (name : Option String) (passed : Option Bool)
  | message
  | unknown (typename : String)
deriving DecidableEq, Repr, Inhabited

/-- An event of a run. -/
structure EngineEvent where
  happening : Happening
  stepKey : Option String
  /-- Absent also when the engine sent a time that cannot be read. -/
  timestamp : Option Instant
  message : Option String
  level : Option String
  /-- The event as it was received. -/
  raw : Json
deriving Repr, Inhabited

/-- A text that is not blank. -/
def presentText? (j : Option Json) : Option String :=
  (j.bind Json.asString?).filter fun s => !Text.allBlank s

namespace EngineEvent

/-- What an event of a type tells. -/
def happeningOf (typename : String) (raw : Json) : Happening :=
  let passed := ((raw.get? "typeCheck").bind (·.get? "success")).bind Json.asBool?
  if typename = "ExecutionStepStartEvent" then .stepStart
  else if typename = "ExecutionStepSuccessEvent" then .stepSuccess
  else if typename = "ExecutionStepFailureEvent" then
    .stepFailure (presentText? ((raw.get? "error").bind (·.get? "message")))
  else if typename = "ExecutionStepInputEvent" then
    .stepInput (presentText? (raw.get? "inputName")) passed
  else if typename = "ExecutionStepOutputEvent" then
    .stepOutput (presentText? (raw.get? "outputName")) passed
  else if typename = "LogMessageEvent" || typename = "MessageEvent" then .message
  else .unknown typename

/-- Reads an event. -/
def parse (raw : Json) : Except MalformedEvent EngineEvent :=
  match raw with
  | .obj members =>
    match (Json.Members.get? members "__typename").bind Json.asString? with
    | some typename => .ok
        { happening := happeningOf typename raw
          stepKey := presentText? (raw.get? "stepKey")
          timestamp := (raw.get? "timestamp").bind Time.epochSeconds?
          message := presentText? (raw.get? "message")
          level := presentText? (raw.get? "level")
          raw := raw }
    | none => .error .missingTypename
  | _ => .error .notAnObject

end EngineEvent

end RunLedger
