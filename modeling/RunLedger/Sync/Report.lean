import RunLedger.Run.Codec
import RunLedger.Sync.Reconciler

/-!
# Reports

How the accounts of syncs and passes are written.
-/

namespace RunLedger.Sync

open RunLedger.Time (Instant)

namespace RunSyncSummary

def toJson (s : RunSyncSummary) : Json :=
  .obj [
    ("dropped_events", .ofNat s.droppedEvents),
    ("external_run_id", .str s.externalRunId),
    ("log_entries", .ofNat s.logEntries),
    ("output_locations", .arr (s.outputLocations.map (·.toJson))),
    ("status", s.status.toJson),
    ("step_transitions", .ofNat s.stepTransitions)]

end RunSyncSummary

namespace TriggerResponse

def toJson : TriggerResponse → Json
  | synced success status outputLocations logCount => .obj [
      ("log_count", .ofNat logCount),
      ("output_locations", .arr (outputLocations.map (·.toJson))),
      ("result", .str "synced"),
      ("status", .str status),
      ("success", .bool success)]
  | notFound message => .obj [("message", .str message), ("result", .str "not_found")]
  | error message => .obj [("message", .str message), ("result", .str "error")]

end TriggerResponse

namespace TickReport

/-- What became of the cursor, as the end of a sentence. -/
def cursorText (before after : Option Instant) : String :=
  if before == after then "; cursor unchanged"
  else
    match after with
    | some t => "; cursor advanced to " ++ t.sentence
    | none => ""

/-- The account in one sentence. -/
def text (r : TickReport) : String :=
  toString r.candidates ++ " candidate(s): " ++ toString r.synced ++ " synced, " ++
    toString r.skipped ++ " skipped, " ++ toString r.failed ++ " failed" ++
    cursorText r.cursorBefore r.cursorAfter

def toJson? (r : TickReport) : Option Json := do
  let cursorAfter ← Instant.optionToJson? r.cursorAfter
  let cursorBefore ← Instant.optionToJson? r.cursorBefore
  pure (.obj [
    ("candidates", .ofNat r.candidates),
    ("cursor_after", cursorAfter),
    ("cursor_before", cursorBefore),
    ("failed", .ofNat r.failed),
    ("skipped", .ofNat r.skipped),
    ("synced", .ofNat r.synced)])

end TickReport

end RunLedger.Sync
