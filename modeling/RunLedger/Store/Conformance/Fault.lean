import RunLedger.Store.Operation

/-!
# Faults of a store

The ways in which a store can be made to break its contract, to see which trials notice.
-/

namespace RunLedger.Conformance

/-- A fault of a store. -/
inductive Fault where
  /-- An operation always fails. -/
  | fails (op : Operation)
  /-- Writes of a kind are ignored. -/
  | dropSteps | dropLogs | dropUpdates
  /-- Keys or fields of writes are lost. -/
  | stepCodesMerged | logTimesMerged | logKindsMerged | locationsCleared
  /-- Writes are checked only at commit, stored at once, or not refused. -/
  | lateCheck | eager | noCheck
  /-- Refusals name the wrong run or the wrong reason. -/
  | wrongErrorId | wrongErrorKind
  /-- An abort commits. -/
  | abortCommits
  /-- A run is recorded otherwise than it was launched. -/
  | statusRunning | configDropped | idPlusOne | idAlwaysOne | duplicateOk
  /-- A run is not found, or another one is. -/
  | findNone | findAny | findGhost | findFinished | findDrift
  /-- Fields of rows are lost. -/
  | finishLost | durationLost | startedLost | errorLost | locationsLost
  /-- Steps are listed wrongly. -/
  | stepsAnyRun | stepsGhost | stepsDrift | stepsReversed | stepsDoubled | stepsRunId
  | stepsAll (state : StepState)
  /-- Log entries are listed wrongly. -/
  | logsDrift | logsReversed | logsDoubled | logTextLost | logStepLost | logLevelInfo
  | logPayloadLost
  /-- Every workflow declares a pattern. -/
  | specPattern
  /-- The cursor is there too early, never moves, or is never stored. -/
  | cursorPreset | cursorFirstOnly | cursorLost
deriving DecidableEq, Repr, Inhabited

namespace Fault

/-- The name of a fault. -/
def text : Fault → String
  | fails op => op.text ++ "_fails"
  | dropSteps => "drop_steps"
  | dropLogs => "drop_logs"
  | dropUpdates => "drop_updates"
  | stepCodesMerged => "step_codes_merged"
  | logTimesMerged => "log_times_merged"
  | logKindsMerged => "log_kinds_merged"
  | locationsCleared => "locations_cleared"
  | lateCheck => "late_check"
  | eager => "eager"
  | noCheck => "no_check"
  | wrongErrorId => "wrong_error_id"
  | wrongErrorKind => "wrong_error_kind"
  | abortCommits => "abort_commits"
  | statusRunning => "status_running"
  | configDropped => "config_dropped"
  | idPlusOne => "id_plus_one"
  | idAlwaysOne => "id_always_one"
  | duplicateOk => "duplicate_ok"
  | findNone => "find_none"
  | findAny => "find_any"
  | findGhost => "find_ghost"
  | findFinished => "find_finished"
  | findDrift => "find_drift"
  | finishLost => "finish_lost"
  | durationLost => "duration_lost"
  | startedLost => "started_lost"
  | errorLost => "error_lost"
  | locationsLost => "locations_lost"
  | stepsAnyRun => "steps_any_run"
  | stepsGhost => "steps_ghost"
  | stepsDrift => "steps_drift"
  | stepsReversed => "steps_reversed"
  | stepsDoubled => "steps_doubled"
  | stepsRunId => "steps_run_id"
  | stepsAll .success => "steps_all_success"
  | stepsAll .failure => "steps_all_failure"
  | stepsAll .started => "steps_all_started"
  | logsDrift => "logs_drift"
  | logsReversed => "logs_reversed"
  | logsDoubled => "logs_doubled"
  | logTextLost => "log_text_lost"
  | logStepLost => "log_step_lost"
  | logLevelInfo => "log_level_info"
  | logPayloadLost => "log_payload_lost"
  | specPattern => "spec_pattern"
  | cursorPreset => "cursor_preset"
  | cursorFirstOnly => "cursor_first_only"
  | cursorLost => "cursor_lost"

/-- The faults that belong to no single operation. -/
def simple : List Fault :=
  [dropSteps, dropLogs, dropUpdates, stepCodesMerged, logTimesMerged, logKindsMerged,
    locationsCleared, lateCheck, eager, noCheck, wrongErrorId, wrongErrorKind, abortCommits,
    statusRunning, configDropped, idPlusOne, idAlwaysOne, duplicateOk, findNone, findAny,
    findGhost, findFinished, findDrift, finishLost, durationLost, startedLost, errorLost,
    locationsLost, stepsAnyRun, stepsGhost, stepsDrift, stepsReversed, stepsDoubled, stepsRunId,
    stepsAll .success, stepsAll .failure, stepsAll .started, logsDrift, logsReversed,
    logsDoubled, logTextLost, logStepLost, logLevelInfo, logPayloadLost, specPattern,
    cursorPreset, cursorFirstOnly, cursorLost]

/-- All faults. -/
def all : List Fault :=
  Operation.all.map fails ++ simple

/-- The fault with a name. -/
def parse? (name : String) : Option Fault :=
  all.find? (·.text == name)

end Fault

end RunLedger.Conformance
