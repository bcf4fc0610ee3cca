import RunLedger.Json.Printer
import RunLedger.Time.Instant

/-!
# Queries

The two GraphQL queries and their variables.
-/

namespace RunLedger.Graphql

open RunLedger (Json)
open RunLedger.Time (Instant)

/-- A GraphQL query. -/
structure Query where
  name : String
  text : String
deriving DecidableEq, Repr, Inhabited

/-- Lines of text between two line breaks. -/
def textOfLines (lines : List String) : String :=
  "\n" ++ String.join (lines.map (· ++ "\n"))

/-- Asks for a run with one page of its events. -/
def runDetailQuery : Query where
  name := "RunDetail"
  text := textOfLines
    ["query RunDetail($runId: ID!, $afterCursor: String) \x7b",
     "  runOrError(runId: $runId) \x7b",
     "    __typename",
     "    ... on Run \x7b",
     "      runId",
     "      status",
     "      startTime",
     "      endTime",
     "      updateTime",
     "      runConfig",
     "      eventConnection(afterCursor: $afterCursor) \x7b",
     "        cursor",
     "        hasMore",
     "        events \x7b",
     "          __typename",
     "          ... on MessageEvent \x7b message timestamp level stepKey \x7d",
     "          ... on ExecutionStepFailureEvent \x7b error \x7b message \x7d \x7d",
     "          ... on ExecutionStepInputEvent \x7b inputName typeCheck \x7b success \x7d \x7d",
     "          ... on ExecutionStepOutputEvent \x7b outputName typeCheck \x7b success \x7d \x7d",
     "        \x7d",
     "      \x7d",
     "    \x7d",
     "    ... on RunNotFoundError \x7b message \x7d",
     "    ... on PythonError \x7b message \x7d",
     "  \x7d",
     "\x7d"]

/-- Asks for the runs that were updated last. -/
def recentRunsQuery : Query where
  name := "RecentlyUpdatedRuns"
  text := textOfLines
    ["query RecentlyUpdatedRuns($limit: Int!, $updatedAfter: Float, $updatedBefore: Float) \x7b",
     "  runsOrError(",
     "    limit: $limit",
     "    filter: \x7b updatedAfter: $updatedAfter, updatedBefore: $updatedBefore \x7d",
     "  ) \x7b",
     "    __typename",
     "    ... on Runs \x7b",
     "      results \x7b",
     "        runId",
     "        status",
     "        updateTime",
     "        tags \x7b key value \x7d",
     "      \x7d",
     "    \x7d",
     "    ... on InvalidPipelineRunsFilterError \x7b message \x7d",
     "    ... on PythonError \x7b message \x7d",
     "  \x7d",
     "\x7d"]

/-- The page of events of a run that follows a cursor. -/
def runDetailVariables (runId : String) (afterCursor : Option String) : Json :=
  .obj [("afterCursor", Json.ofOption .str afterCursor), ("runId", .str runId)]

/-- At most `limit` runs that were updated between two times, both bounds excluded. -/
def recentRunsVariables (limit : Nat) (updatedAfter updatedBefore : Option Instant) : Json :=
  let seconds (t : Option Instant) := Json.ofOption (fun t => .ofFloat t.floatSeconds) t
  .obj [("limit", .ofNat limit), ("updatedAfter", seconds updatedAfter),
    ("updatedBefore", seconds updatedBefore)]

end RunLedger.Graphql
