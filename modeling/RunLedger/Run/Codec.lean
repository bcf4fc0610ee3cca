import RunLedger.Json.Record
import RunLedger.Run.Record
import RunLedger.Time.Stamp

/-!
# Rows as JSON

Each row has a written form, an object with one member per field, and a reader that takes the
written form back. A row that holds a time without a stamp has no written form. In an object a time
must be present, if only as null; the other optional fields may be left out.
-/

namespace RunLedger

open Time (Instant)

/-- An optional text, or null. -/
def textOrNull (s : Option String) : Json :=
  Json.ofOption .str s

/-- An optional number of seconds, or null. -/
def secondsOrNull (x : Option Float) : Json :=
  Json.ofOption Json.ofFloat x

/-- Reads a time that may be null. -/
def nullableInstant? : Json → Option (Option Instant) :=
  Json.nullable Instant.ofJson?

namespace RunStatus

def toJson (s : RunStatus) : Json := .str s.text

def ofJson? (j : Json) : Option RunStatus := j.asString?.map parse

end RunStatus

namespace StepState

def toJson (s : StepState) : Json := .str s.text

def ofJson? : Json → Option StepState := Json.asWord? parse?

end StepState

namespace EventKind

def toJson (k : EventKind) : Json := .str k.text

def ofJson? : Json → Option EventKind := Json.asWord? parse?

end EventKind

namespace LogLevel

def toJson (l : LogLevel) : Json := .str l.text

def ofJson? : Json → Option LogLevel := Json.asWord? parse?

end LogLevel

namespace OutputLocation

/-- Name and description are left out when there are none. -/
def toJson (l : OutputLocation) : Json :=
  let optional (key : String) (s : Option String) := s.toList.map fun s => (key, Json.str s)
  .obj (optional "description" l.description ++ optional "name" l.name ++ [("path", .str l.path)])

def ofJson? (j : Json) : Option OutputLocation := do
  let r ← j.asRecord? ["path", "name", "description"]
  let path ← r.required "path" Json.asString?
  let name ← r.defaulted "name" none (Json.nullable Json.asString?)
  let description ← r.defaulted "description" none (Json.nullable Json.asString?)
  pure { path, name, description }

end OutputLocation

namespace OutputTemplate

def toJson (t : OutputTemplate) : Json :=
  .obj [("description", textOrNull t.description), ("name", .str t.name),
    ("path_template", t.pathTemplate)]

def ofJson? (j : Json) : Option OutputTemplate := do
  let r ← j.asRecord? ["name", "path_template", "description"]
  let name ← r.required "name" Json.asString?
  let pathTemplate ← r.required "path_template" Json.asDocument?
  let description ← r.defaulted "description" none (Json.nullable Json.asString?)
  pure { name, pathTemplate, description }

end OutputTemplate

namespace OutputSpec

def toJson : OutputSpec → Json
  | templates ts => .obj [("kind", .str "templates"), ("templates", .arr (ts.map (·.toJson)))]
  | pattern p => .obj [("kind", .str "pattern"), ("pattern", .str p)]
  | absent => .obj [("kind", .str "absent")]

def ofJson? (j : Json) : Option OutputSpec := do
  let (kind, fields) ← j.asTagged? "kind"
  if kind = "templates" then
    let r ← fields.asRecord? ["templates"]
    .templates <$> r.required "templates" (Json.asList? OutputTemplate.ofJson?)
  else if kind = "pattern" then
    let r ← fields.asRecord? ["pattern"]
    .pattern <$> r.required "pattern" Json.asString?
  else if kind = "absent" then
    fields.asNoFields?.map fun () => .absent
  else none

end OutputSpec

namespace RunRecord

def toJson? (r : RunRecord) : Option Json := do
  let startedAt ← Instant.optionToJson? r.startedAt
  let finishedAt ← Instant.optionToJson? r.finishedAt
  pure (.obj [
    ("duration_seconds", secondsOrNull r.durationSeconds),
    ("error_message", textOrNull r.errorMessage),
    ("external_run_id", .str r.externalRunId),
    ("finished_at", finishedAt),
    ("id", .ofInt r.id),
    ("output_locations", .arr (r.outputLocations.map (·.toJson))),
    ("run_config", r.runConfig),
    ("started_at", startedAt),
    ("status", r.status.toJson),
    ("workflow_id", .ofInt r.workflowId)])

def ofJson? (j : Json) : Option RunRecord := do
  let r ← j.asRecord? ["id", "external_run_id", "workflow_id", "status", "started_at",
    "finished_at", "duration_seconds", "error_message", "output_locations", "run_config"]
  let id ← r.required "id" Json.asInt64?
  let externalRunId ← r.required "external_run_id" Json.asString?
  let workflowId ← r.required "workflow_id" Json.asInt64?
  let status ← r.required "status" RunStatus.ofJson?
  let startedAt ← r.required "started_at" nullableInstant?
  let finishedAt ← r.required "finished_at" nullableInstant?
  let durationSeconds ← r.optional "duration_seconds" Json.asFloat?
  let errorMessage ← r.optional "error_message" Json.asString?
  let outputLocations ← r.required "output_locations" (Json.asList? OutputLocation.ofJson?)
  let runConfig ← r.required "run_config" Json.asDocument?
  pure { id, externalRunId, workflowId, status, startedAt, finishedAt, durationSeconds,
         errorMessage, outputLocations, runConfig }

end RunRecord

namespace NewRun

def toJson? (r : NewRun) : Option Json := do
  let startedAt ← Instant.optionToJson? r.startedAt
  pure (.obj [
    ("external_run_id", .str r.externalRunId),
    ("run_config", r.runConfig),
    ("started_at", startedAt),
    ("status", r.status.toJson),
    ("workflow_id", .ofInt r.workflowId)])

def ofJson? (j : Json) : Option NewRun := do
  let r ← j.asRecord? ["external_run_id", "workflow_id", "status", "started_at", "run_config"]
  let externalRunId ← r.required "external_run_id" Json.asString?
  let workflowId ← r.required "workflow_id" Json.asInt64?
  let status ← r.required "status" RunStatus.ofJson?
  let startedAt ← r.required "started_at" nullableInstant?
  let runConfig ← r.required "run_config" Json.asDocument?
  pure { externalRunId, workflowId, status, startedAt, runConfig }

end NewRun

namespace StepTransition

def toJson? (t : StepTransition) : Option Json := do
  let startedAt ← Instant.optionToJson? t.startedAt
  let finishedAt ← Instant.optionToJson? t.finishedAt
  pure (.obj [
    ("error_message", textOrNull t.errorMessage),
    ("finished_at", finishedAt),
    ("started_at", startedAt),
    ("status", t.status.toJson),
    ("step_code", .str t.stepCode)])

def ofJson? (j : Json) : Option StepTransition := do
  let r ← j.asRecord? ["step_code", "status", "started_at", "finished_at", "error_message"]
  let stepCode ← r.required "step_code" Json.asString?
  let status ← r.required "status" StepState.ofJson?
  let startedAt ← r.required "started_at" nullableInstant?
  let finishedAt ← r.required "finished_at" nullableInstant?
  let errorMessage ← r.optional "error_message" Json.asString?
  pure { stepCode, status, startedAt, finishedAt, errorMessage }

end StepTransition

namespace StepRecord

def toJson? (s : StepRecord) : Option Json := do
  let startedAt ← Instant.optionToJson? s.startedAt
  let finishedAt ← Instant.optionToJson? s.finishedAt
  pure (.obj [
    ("duration_seconds", secondsOrNull s.durationSeconds),
    ("error_message", textOrNull s.errorMessage),
    ("external_run_id", .str s.externalRunId),
    ("finished_at", finishedAt),
    ("run_id", .ofInt s.runId),
    ("started_at", startedAt),
    ("status", s.status.toJson),
    ("step_code", .str s.stepCode)])

def ofJson? (j : Json) : Option StepRecord := do
  let r ← j.asRecord? ["run_id", "external_run_id", "step_code", "status", "started_at",
    "finished_at", "duration_seconds", "error_message"]
  let runId ← r.required "run_id" Json.asInt64?
  let externalRunId ← r.required "external_run_id" Json.asString?
  let stepCode ← r.required "step_code" Json.asString?
  let status ← r.required "status" StepState.ofJson?
  let startedAt ← r.required "started_at" nullableInstant?
  let finishedAt ← r.required "finished_at" nullableInstant?
  let durationSeconds ← r.optional "duration_seconds" Json.asFloat?
  let errorMessage ← r.optional "error_message" Json.asString?
  pure { runId, externalRunId, stepCode, status, startedAt, finishedAt, durationSeconds,
         errorMessage }

end StepRecord

namespace LogEntry

def toJson? (e : LogEntry) : Option Json := do
  let timestamp ← e.timestamp.toJson?
  pure (.obj [
    ("event_kind", e.kind.toJson),
    ("external_run_id", .str e.externalRunId),
    ("level", e.level.toJson),
    ("message", .str e.message),
    ("payload", e.payload),
    ("run_id", .ofInt e.runId),
    ("step_code", textOrNull e.stepCode),
    ("timestamp", timestamp)])

def ofJson? (j : Json) : Option LogEntry := do
  let r ← j.asRecord? ["run_id", "external_run_id", "step_code", "event_kind", "message", "level",
    "timestamp", "payload"]
  let runId ← r.required "run_id" Json.asInt64?
  let externalRunId ← r.required "external_run_id" Json.asString?
  let stepCode ← r.optional "step_code" Json.asString?
  let kind ← r.required "event_kind" EventKind.ofJson?
  let message ← r.required "message" Json.asString?
  let level ← r.required "level" LogLevel.ofJson?
  let timestamp ← r.required "timestamp" Instant.ofJson?
  let payload ← r.required "payload" Json.asDocument?
  pure { runId, externalRunId, stepCode, kind, message, level, timestamp, payload }

end LogEntry

end RunLedger
