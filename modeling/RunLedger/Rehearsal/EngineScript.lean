import RunLedger.Engine.Basic

/-!
# Scripted engines

A scripted engine holds the runs that were published to it and answers as an engine does, unless the
script says that a query fails, that listings are given page by page, or that they take their time.
-/

namespace RunLedger.Rehearsal

open RunLedger.Time (Instant)

/-- A run as it is published. -/
structure PublishedRun where
  runId : String
  status : String
  startTime : Option Instant := none
  endTime : Option Instant := none
  updateTime : Option Instant := none
  config : Json := .null
  events : List Json := []
deriving Repr, Inhabited

/-- All that the engine knows of a published run. -/
def PublishedRun.detail (r : PublishedRun) : RunDetail where
  runId := r.runId
  status := r.status
  startTime := r.startTime
  endTime := r.endTime
  updateTime := r.updateTime
  config := r.config
  events := r.events

/-- The entry of a published run in a listing; a run without an update time has none. -/
def PublishedRun.summary? (r : PublishedRun) : Option RunSummary :=
  r.updateTime.map fun updateTime =>
    { runId := r.runId, status := r.status, updateTime := updateTime, tags := [] }

/-- What a scripted engine knows and what is to go wrong. -/
structure EngineScript where
  runs : List PublishedRun := []
  /-- The runs whose detail queries fail, and how. -/
  failing : List (String × EngineError) := []
  /-- How the next listings fail, in turn. -/
  listErrors : List EngineError := []
  /-- The next listings, in turn, in place of listings of the published runs. -/
  pages : Option (List (List RunSummary)) := none
  /-- How many milliseconds the next listings take, in turn. -/
  listDelays : List Nat := []
deriving Repr, Inhabited

namespace EngineScript

/-- Publishes a run, in place of the one with its id. -/
def publish (s : EngineScript) (run : PublishedRun) : EngineScript :=
  { s with runs := s.runs.filter (·.runId != run.runId) ++ [run] }

/-- Takes a run back. -/
def remove (s : EngineScript) (runId : String) : EngineScript :=
  { s with runs := s.runs.filter (·.runId != runId) }

/-- Lets the detail queries of a run succeed. -/
def heal (s : EngineScript) (runId : String) : EngineScript :=
  { s with failing := s.failing.filter (·.1 != runId) }

/-- Makes the detail queries of a run fail. -/
def fail (s : EngineScript) (runId : String) (e : EngineError) : EngineScript :=
  { s with failing := (runId, e) :: (s.heal runId).failing }

/-- The answer to a detail query. -/
def runDetail (s : EngineScript) (runId : String) : Except EngineError RunDetail :=
  match s.failing.lookup runId with
  | some e => .error e
  | none =>
    match s.runs.find? (·.runId == runId) with
    | some run => .ok run.detail
    | none => .error (.runNotFound runId)

/-- Whether an update time lies within the bounds of a listing. -/
def within (after before : Option Instant) (t : Instant) : Bool :=
  (match after with | some a => decide (a < t) | none => true) &&
    (match before with | some b => decide (t ≤ b) | none => true)

/-- Whether an entry comes first in a listing: by update time, the latest first, then by id. -/
def listingLe (a b : RunSummary) : Bool :=
  b.updateTime < a.updateTime || (a.updateTime == b.updateTime && decide (a.runId ≤ b.runId))

/-- The listing of the published runs. -/
def listing (s : EngineScript) (limit : Nat) (after before : Option Instant) : List RunSummary :=
  let entries := (s.runs.filterMap (·.summary?)).filter (within after before ·.updateTime)
  (entries.mergeSort listingLe).take limit

/-- The answer to a listing, and the script that is left. -/
def recentRuns (s : EngineScript) (limit : Nat) (after before : Option Instant) :
    Except EngineError (List RunSummary) × EngineScript :=
  match s.listErrors, s.pages with
  | e :: errors, _ => (.error e, { s with listErrors := errors })
  | [], some (page :: pages) => (.ok page, { s with pages := some pages })
  | [], some [] => (.ok [], s)
  | [], none => (.ok (s.listing limit after before), s)

/-- More requests than a search for candidates makes of this engine: each published run and each
scripted page accounts for a bounded number of them. -/
def requestBound (s : EngineScript) : Nat :=
  8 * (s.runs.length + 2) + (s.pages.getD []).length

end EngineScript

end RunLedger.Rehearsal
