import RunLedger.Engine.Error
import RunLedger.Json.Record
import RunLedger.Time.Stamp

/-!
# Execution engines

An engine runs workflows and can be asked about its runs: for all it knows of one run, and for the
runs that were updated last. `Engine m` is an engine whose queries are actions of `m`.
-/

namespace RunLedger

open Time (Instant)

/-- What an engine knows of a run. -/
structure RunDetail where
  runId : String
  /-- The status in the engine's own words. -/
  status : String
  startTime : Option Instant
  endTime : Option Instant
  updateTime : Option Instant
  /-- The configuration that the run was launched with. -/
  config : Json
  /-- The events in the order of the engine, the oldest first. -/
  events : List Json
deriving Repr, Inhabited

/-- An entry in the list of runs that were updated last. -/
structure RunSummary where
  runId : String
  /-- The status in the engine's own words. -/
  status : String
  updateTime : Instant
  /-- Labels of the run, by name. -/
  tags : List (String × String)
deriving Repr, Inhabited

/-- The two queries to an engine. -/
structure Engine (m : Type → Type) where
  /-- All that is known of a run. -/
  runDetail : String → m (Except EngineError RunDetail)
  /-- At most `limit` runs that were updated later than `after` and not later than `before`, the
  latest first. -/
  recentRuns (limit : Nat) (after before : Option Instant) :
    m (Except EngineError (List RunSummary))

namespace RunDetail

def toJson? (d : RunDetail) : Option Json := do
  let startTime ← Instant.optionToJson? d.startTime
  let endTime ← Instant.optionToJson? d.endTime
  let updateTime ← Instant.optionToJson? d.updateTime
  pure (.obj [
    ("config", d.config),
    ("end_time", endTime),
    ("events", .arr d.events),
    ("run_id", .str d.runId),
    ("start_time", startTime),
    ("status", .str d.status),
    ("update_time", updateTime)])

def ofJson? (j : Json) : Option RunDetail := do
  let r ← j.asRecord? ["run_id", "status", "start_time", "end_time", "update_time", "config",
    "events"]
  let runId ← r.required "run_id" Json.asString?
  let status ← r.required "status" Json.asString?
  let startTime ← r.required "start_time" (Json.nullable Instant.ofJson?)
  let endTime ← r.required "end_time" (Json.nullable Instant.ofJson?)
  let updateTime ← r.required "update_time" (Json.nullable Instant.ofJson?)
  let config ← r.required "config" Json.asDocument?
  let events ← r.required "events" (Json.asList? Json.asDocument?)
  pure { runId, status, startTime, endTime, updateTime, config, events }

end RunDetail

namespace RunSummary

def toJson? (s : RunSummary) : Option Json := do
  let updateTime ← s.updateTime.toJson?
  pure (.obj [
    ("run_id", .str s.runId),
    ("status", .str s.status),
    ("tags", .obj (s.tags.map fun (key, value) => (key, .str value))),
    ("update_time", updateTime)])

def ofJson? (j : Json) : Option RunSummary := do
  let r ← j.asRecord? ["run_id", "status", "update_time", "tags"]
  let runId ← r.required "run_id" Json.asString?
  let status ← r.required "status" Json.asString?
  let updateTime ← r.required "update_time" Instant.ofJson?
  let tags ← r.defaulted "tags" [] Json.asStringMap?
  pure { runId, status, updateTime, tags }

end RunSummary

end RunLedger
