import RunLedger.Engine.Basic
import RunLedger.Json.Record
import RunLedger.Time.EpochSeconds

/-!
# Answers

An answer is an envelope with data, with errors or with both; errors count only where there are no
data. The data hold what was asked for or an error of the engine, told apart by a type name. An
entry of the list of runs that has no run id or no readable update time is passed over.
-/

namespace RunLedger.Graphql

open RunLedger (Json)
open RunLedger.Time (Instant)

/-- An error with an optional message. -/
def asErrorMessage? (j : Json) : Option (Option String) := do
  let r ← j.asRecord? ["message"]
  r.defaulted "message" none (Json.nullable Json.asString?)

/-- The data and the errors of an envelope. -/
def asEnvelope? (j : Json) : Option (Option Json × List (Option String)) := do
  let r ← j.asRecord? ["data", "errors"]
  let data ← r.defaulted "data" none (Json.nullable Json.asDocument?)
  let errors ← r.defaulted "errors" [] (Json.asList? asErrorMessage?)
  pure (data, errors)

/-- A failure to read an answer. -/
def unreadable (headline : String) (detail : String) : EngineError :=
  .decode { headline, detail }

/-- Opens an envelope. -/
def openEnvelope (answer : Json) : Except EngineError Json :=
  match asEnvelope? answer with
  | none => .error (unreadable "malformed GraphQL envelope: " "not an object with data and errors")
  | some (some data, _) => .ok data
  | some (none, []) => .error (unreadable "response has neither data nor errors" "")
  | some (none, errors) =>
    .error (.engine ("; ".intercalate (errors.map fun message => message.getD "unknown error")))

/-- A time in seconds; what cannot be read counts as absent. -/
def timeOf (j : Option Json) : Option Instant :=
  j.bind Time.epochSeconds?

/-- A page of the events of a run. -/
structure EventPage where
  cursor : Option String := none
  hasMore : Option Bool := none
  events : Option (List Json) := none
deriving Repr, Inhabited

def asEventPage? (j : Json) : Option EventPage := do
  let r ← j.asRecord? ["cursor", "hasMore", "events"]
  let cursor ← r.defaulted "cursor" none (Json.nullable Json.asString?)
  let hasMore ← r.defaulted "hasMore" none (Json.nullable Json.asBool?)
  let events ← r.defaulted "events" none (Json.nullable (Json.asList? Json.asDocument?))
  pure { cursor, hasMore, events }

/-- A run with a page of its events. -/
structure RunPage where
  detail : RunDetail
  cursor : Option String
  hasMore : Bool
deriving Repr, Inhabited

/-- Reads a run; one without an id is the run that was asked for. -/
def asRunPage? (asked : String) (j : Json) : Option RunPage := do
  let r ← j.asRecord? ["runId", "status", "startTime", "endTime", "updateTime", "runConfig",
    "eventConnection"]
  let document (key : String) := r.defaulted key none (Json.nullable Json.asDocument?)
  let runId ← r.defaulted "runId" none (Json.nullable Json.asString?)
  let status ← r.required "status" Json.asString?
  let startTime ← document "startTime"
  let endTime ← document "endTime"
  let updateTime ← document "updateTime"
  let config ← r.defaulted "runConfig" .null Json.asDocument?
  let page ← r.defaulted "eventConnection" none (Json.nullable asEventPage?)
  let page := page.getD {}
  pure
    { detail :=
        { runId := runId.getD asked
          status := status
          startTime := timeOf startTime
          endTime := timeOf endTime
          updateTime := timeOf updateTime
          config := config
          events := page.events.getD [] }
      cursor := page.cursor
      hasMore := page.hasMore.getD false }

/-- An error that the engine reports in place of data. -/
def reported (message : Option String) : EngineError :=
  .engine (message.getD "(no message)")

/-- The data under the only key that is asked for, split into its type name and its fields. -/
def asChoice? (key : String) (data : Json) : Option (String × Json) := do
  let r ← data.asRecord? [key]
  let choice ← r.required key Json.asDocument?
  choice.asTagged? "__typename"

/-- The outcome that data with a type name stand for; nothing if they cannot be read. -/
def runOutcome? (asked : String) (typename : String) (fields : Json) :
    Option (Except EngineError RunPage) :=
  if typename = "Run" then .ok <$> asRunPage? asked fields
  else if typename = "RunNotFoundError" then
    (asErrorMessage? fields).map fun _ => .error (.runNotFound asked)
  else if typename = "PythonError" then (asErrorMessage? fields).map (.error ∘ reported)
  else none

/-- Reads the answer to a query for a run. -/
def decodeRunPage (asked : String) (data : Json) : Except EngineError RunPage :=
  match (asChoice? "runOrError" data).bind fun (typename, fields) =>
      runOutcome? asked typename fields with
  | some outcome => outcome
  | none => .error (unreadable "runOrError: " "not a run")

/-- A label with a name and a value. -/
def asTag? (j : Json) : Option (Option (String × Json)) := do
  let r ← j.asRecord? ["key", "value"]
  let key ← r.optional "key" Json.asString?
  let value ← r.optional "value" Json.asString?
  pure (do
    let key ← key
    let value ← value
    pure (key, .str value))

/-- The labels by name; of two with one name the last counts. -/
def tagsOf (tags : List (Option (String × Json))) : List (String × String) :=
  (Json.Members.ofList (tags.filterMap id)).filterMap fun (key, value) =>
    value.asString?.map (key, ·)

/-- Reads an entry of the list of runs: nothing if it cannot be read at all, an empty answer if it
is passed over. -/
def asEntry? (j : Json) : Option (Option RunSummary) := do
  let r ← j.asRecord? ["runId", "status", "updateTime", "tags"]
  let runId ← r.defaulted "runId" none (Json.nullable Json.asString?)
  let status ← r.defaulted "status" none (Json.nullable Json.asString?)
  let updateTime ← r.defaulted "updateTime" none (Json.nullable Json.asDocument?)
  let tags ← r.defaulted "tags" none (Json.nullable (Json.asList? asTag?))
  pure (do
    let runId ← runId
    let updateTime ← timeOf updateTime
    pure { runId, status := status.getD "", updateTime, tags := tagsOf (tags.getD []) })

/-- The usable entries, the latest update first. -/
def listing (entries : List (Option RunSummary)) : List RunSummary :=
  (entries.filterMap id).mergeSort fun a b => decide (b.updateTime ≤ a.updateTime)

/-- The list of runs. -/
def asListing? (j : Json) : Option (List RunSummary) := do
  let r ← j.asRecord? ["results"]
  listing <$> r.required "results" (Json.asList? asEntry?)

/-- The outcome that data with a type name stand for; nothing if they cannot be read. -/
def listOutcome? (typename : String) (fields : Json) :
    Option (Except EngineError (List RunSummary)) :=
  if typename = "Runs" then .ok <$> asListing? fields
  else if typename = "InvalidPipelineRunsFilterError" || typename = "PythonError" then
    (asErrorMessage? fields).map (.error ∘ reported)
  else none

/-- Reads the answer to a query for the runs that were updated last. -/
def decodeRunList (data : Json) : Except EngineError (List RunSummary) :=
  match (asChoice? "runsOrError" data).bind fun (typename, fields) =>
      listOutcome? typename fields with
  | some outcome => outcome
  | none => .error (unreadable "runsOrError: " "not a list of runs")

end RunLedger.Graphql
