import RunLedger.Store.Conformance.RowTrials
import RunLedger.Store.Conformance.RunTrials
import RunLedger.Store.Conformance.SnapshotTrials

/-!
# The conformance suite

All trials of a store, each run in a fresh one, and the report of how they went.
-/

namespace RunLedger.Conformance

/-- How a trial went. -/
structure TrialResult where
  category : String
  name : String
  /-- What the trial complained of. -/
  complaint : Option String
deriving DecidableEq, Repr, Inhabited

namespace TrialResult

def passed (r : TrialResult) : Bool := r.complaint.isNone

/-- The full name of the trial. -/
def title (r : TrialResult) : String := r.category ++ "/" ++ r.name

end TrialResult

section Suite

variable {m : Type → Type} [Monad m] {σ : Type}

/-- All trials in their order. -/
def trials : List (Trial m σ) :=
  runTrials ++ errorTrials ++ snapshotTrials ++ commitTrials ++ stepTrials ++ logTrials ++
    cursorTrials ++ concurrentTrials

/-- Runs all trials of a store; `fresh` runs an action in a store without rows. -/
def runTrialsIn (fresh : {α : Type} → m α → α) (b : Backend m σ) : List TrialResult :=
  trials.map fun (t : Trial m σ) =>
    let complaint := match fresh (t.run b).run with
      | .ok () => none
      | .error complaint => some complaint
    { category := t.category, name := t.name, complaint := complaint }

end Suite

/-- The trials of a report that passed. -/
def passedOf (results : List TrialResult) : List TrialResult :=
  results.filter (·.passed)

/-- The trials of a report that failed. -/
def failedOf (results : List TrialResult) : List TrialResult :=
  results.filter (!·.passed)

/-- The first line of a report. -/
def headline (results : List TrialResult) : String :=
  "Conformance: " ++ toString (passedOf results).length ++ "/" ++ toString results.length ++
    " passed (" ++ toString (failedOf results).length ++ " failed)"

/-- A report: the headline, and a line for each trial that failed. -/
def reportLines (results : List TrialResult) : List String :=
  headline results :: (failedOf results).map fun r =>
    "  FAIL [" ++ r.title ++ "]: " ++ r.complaint.getD "(no message)"

end RunLedger.Conformance
