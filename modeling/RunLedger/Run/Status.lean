/-!
# States of runs and steps

The vocabulary of the ledger and its spelling in records. A run status that the ledger does not know
is carried as it was spelled.
-/

namespace RunLedger

/-- The status of a run. -/
inductive RunStatus where
  | queued
  | running
  | cancelling
  | completed
  | failed
  | cancelled
  | other (text : String)
deriving DecidableEq, Repr, Inhabited

namespace RunStatus

/-- The spelling of a status. -/
def text : RunStatus → String
  | queued => "queued"
  | running => "running"
  | cancelling => "cancelling"
  | completed => "completed"
  | failed => "failed"
  | cancelled => "cancelled"
  | other text => text

/-- The status with a spelling; an unknown one is carried along. -/
def parse (text : String) : RunStatus :=
  if text = "queued" then queued
  else if text = "running" then running
  else if text = "cancelling" then cancelling
  else if text = "completed" then completed
  else if text = "failed" then failed
  else if text = "cancelled" then cancelled
  else other text

/-- Whether a run with this status has ended. -/
def isTerminal : RunStatus → Bool
  | completed | failed | cancelled => true
  | _ => false

/-- Whether the ledger has no word for the status. -/
def isOther : RunStatus → Bool
  | other _ => true
  | _ => false

/-- The status that an engine reports in its own words. -/
def ofEngine (word : String) : RunStatus :=
  if word = "SUCCESS" then completed
  else if word = "FAILURE" then failed
  else if word = "CANCELED" then cancelled
  else if word = "QUEUED" || word = "NOT_STARTED" then queued
  else if word = "STARTED" || word = "STARTING" || word = "RUNNING" then running
  else if word = "CANCELING" then cancelling
  else other word

end RunStatus

/-- Whether the engine's word says that a run finished successfully. -/
def engineSucceeded (word : String) : Bool :=
  word == "SUCCESS"

/-- The state of a step within a run. -/
inductive StepState where
  | started
  | success
  | failure
deriving DecidableEq, Repr, Inhabited

namespace StepState

/-- The spelling of a state. -/
def text : StepState → String
  | started => "STARTED"
  | success => "SUCCESS"
  | failure => "FAILURE"

/-- The state with a spelling. -/
def parse? (text : String) : Option StepState :=
  if text = "STARTED" then some started
  else if text = "SUCCESS" then some success
  else if text = "FAILURE" then some failure
  else none

/-- Whether a step in this state has ended. -/
def isTerminal : StepState → Bool
  | started => false
  | _ => true

end StepState

/-- The kind of event that a log entry tells of, in the alphabetical order of the spellings. -/
inductive EventKind where
  | message
  | stepFailure
  | stepInput
  | stepOutput
  | stepStart
  | stepSuccess
deriving DecidableEq, Repr, Inhabited

namespace EventKind

/-- The spelling of a kind. -/
def text : EventKind → String
  | message => "MESSAGE"
  | stepFailure => "STEP_FAILURE"
  | stepInput => "STEP_INPUT"
  | stepOutput => "STEP_OUTPUT"
  | stepStart => "STEP_START"
  | stepSuccess => "STEP_SUCCESS"

/-- The kind with a spelling. -/
def parse? (text : String) : Option EventKind :=
  if text = "MESSAGE" then some message
  else if text = "STEP_FAILURE" then some stepFailure
  else if text = "STEP_INPUT" then some stepInput
  else if text = "STEP_OUTPUT" then some stepOutput
  else if text = "STEP_START" then some stepStart
  else if text = "STEP_SUCCESS" then some stepSuccess
  else none

/-- The place of a kind in the alphabetical order. -/
def rank : EventKind → Nat
  | message => 0
  | stepFailure => 1
  | stepInput => 2
  | stepOutput => 3
  | stepStart => 4
  | stepSuccess => 5

instance : Ord EventKind := ⟨fun a b => compare a.rank b.rank⟩

end EventKind

/-- The severity of a log entry. -/
inductive LogLevel where
  | debug
  | info
  | warning
  | error
  | critical
deriving DecidableEq, Repr, Inhabited

namespace LogLevel

/-- The spelling of a severity. -/
def text : LogLevel → String
  | debug => "DEBUG"
  | info => "INFO"
  | warning => "WARNING"
  | error => "ERROR"
  | critical => "CRITICAL"

/-- The severity with exactly this spelling. -/
def parse? (text : String) : Option LogLevel :=
  if text = "DEBUG" then some debug
  else if text = "INFO" then some info
  else if text = "WARNING" then some warning
  else if text = "ERROR" then some error
  else if text = "CRITICAL" then some critical
  else none

/-- The severity that an engine's word means, in any case of its letters; an unknown word means
`info`. -/
def ofEngine (word : String) : LogLevel :=
  let upper := String.ofList (word.toList.map Char.toUpper)
  if upper = "DEBUG" then debug
  else if upper = "WARN" || upper = "WARNING" then warning
  else if upper = "ERROR" then error
  else if upper = "CRITICAL" || upper = "FATAL" then critical
  else info

end LogLevel

end RunLedger
