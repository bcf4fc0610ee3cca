import RunLedger.Run.Record

/-!
# Merging news into rows

Syncs of one run may overlap, repeat and arrive out of order, so a row is never simply overwritten.
A step only moves up in the order started, success, failure; a run that has ended keeps its status,
its end and its duration; a start once known stays known.
-/

namespace RunLedger

open Time (Instant)

/-- Seconds between two instants, if both are known. -/
def durationBetween (start finish : Option Instant) : Option Float :=
  match start, finish with
  | some start, some finish => some (start.secondsUntil finish)
  | _, _ => none

/-- There is a duration exactly if both times are known, and it leads from the first to the
second. -/
theorem durationBetween_eq_some_iff {start finish : Option Instant} {seconds : Float} :
    durationBetween start finish = some seconds ↔
      ∃ s f, start = some s ∧ finish = some f ∧ s.secondsUntil f = seconds := by
  cases start <;> cases finish <;> simp [durationBetween]

theorem durationBetween_eq_none_iff {start finish : Option Instant} :
    durationBetween start finish = none ↔ start = none ∨ finish = none := by
  cases start <;> cases finish <;> simp [durationBetween]

/-- Whether a step may go from one state to another: an ended step does not start again, and a
failure is not taken back. -/
def StepState.mayBecome : StepState → StepState → Bool
  | .success, .started => false
  | .failure, .started => false
  | .failure, .success => false
  | _, _ => true

namespace StepRecord

/-- The row of a step of which nothing is known but its state. -/
def blank (runId : RunId) (externalRunId : String) (t : StepTransition) : StepRecord where
  runId := runId
  externalRunId := externalRunId
  stepCode := t.stepCode
  status := t.status
  startedAt := none
  finishedAt := none
  durationSeconds := none
  errorMessage := none

/-- A row after a transition that its state does not allow: a late start still tells when the step
started. -/
def refuse (row : StepRecord) (t : StepTransition) : StepRecord :=
  if t.status = .started && row.startedAt.isNone then
    { row with
      startedAt := t.startedAt
      durationSeconds := durationBetween t.startedAt row.finishedAt }
  else row

/-- A row after a transition that its state allows. Times are set and never cleared; the end and the
error belong to the states that have them. -/
def accept (row : StepRecord) (t : StepTransition) : StepRecord :=
  let startedAt := t.startedAt.or row.startedAt
  let finishedAt := if t.status.isTerminal then t.finishedAt.or row.finishedAt else row.finishedAt
  let errorMessage :=
    if t.status = .failure then t.errorMessage.or row.errorMessage else row.errorMessage
  { row with
    status := t.status
    startedAt := startedAt
    finishedAt := finishedAt
    errorMessage := errorMessage
    durationSeconds := (durationBetween startedAt finishedAt).or row.durationSeconds }

/-- The row of a step after a transition. The first transition of a step makes its row. -/
def merge (row : Option StepRecord) (runId : RunId) (externalRunId : String)
    (t : StepTransition) : StepRecord :=
  match row with
  | none => (blank runId externalRunId t).accept t
  | some row => if row.status.mayBecome t.status then row.accept t else row.refuse t

end StepRecord

namespace RunRecord

/-- The locations of an ended run that has any are settled. -/
def locationsSettled (run : RunRecord) : Bool :=
  run.status.isTerminal && !run.outputLocations.isEmpty

/-- The fields of a running run that the status of an update decides. -/
def advance (run : RunRecord) (u : RunUpdate) : RunRecord :=
  match u.status with
  | none => run
  | some status =>
    if status.isTerminal then
      let finishedAt := u.finishedAt.or run.finishedAt
      { run with
        status := status
        finishedAt := finishedAt
        durationSeconds := u.durationSeconds.or (durationBetween run.startedAt finishedAt) }
    else { run with status := status }

/-- The row of a run after an update. -/
def merge (run : RunRecord) (u : RunUpdate) : RunRecord :=
  let ended := run.status.isTerminal
  let settled := run.locationsSettled
  let started := { run with startedAt := run.startedAt.or u.startedAt }
  let advanced := if ended then started else started.advance u
  let errorMessage :=
    if ended then run.errorMessage.or u.errorMessage else u.errorMessage.or run.errorMessage
  { advanced with
    errorMessage := errorMessage
    outputLocations :=
      if settled then run.outputLocations else u.outputLocations.getD run.outputLocations
    runConfig := u.runConfig.getD run.runConfig }

end RunRecord

end RunLedger
