import RunLedger.Store.Backend

/-!
# Trials of a store

A trial uses a store and complains when it answers otherwise than the contract of a store says. The
rows that trials write are made here.
-/

namespace RunLedger.Conformance

open RunLedger.Time (Instant)

/-- Actions that may end in a complaint. -/
abbrev Trying (m : Type → Type) := ExceptT String m

/-- A named use of a store. -/
structure Trial (m : Type → Type) (σ : Type) where
  category : String
  name : String
  run : Backend m σ → Trying m Unit

section Trying

variable {m : Type → Type} [Monad m] {σ : Type} {α : Type}

/-- An operation that has to succeed. -/
def must (act : m (Except StoreError α)) : Trying m α :=
  ExceptT.mk act |>.adapt StoreError.message

/-- An operation that may fail. -/
def attempt (act : m (Except StoreError α)) : Trying m (Except StoreError α) :=
  ExceptT.lift act

/-- Complains unless a condition holds. -/
def expect (condition : Bool) (complaint : String) : Trying m Unit :=
  if condition then pure () else throw complaint

end Trying

/-- A whole second, well after 1970. -/
def timeAt (seconds : Int) : Instant :=
  .utc ((1700000000 + seconds) * Instant.second)

/-- A run as it is launched. -/
def launched (externalRunId : String) : NewRun where
  externalRunId := externalRunId
  workflowId := 7
  status := .queued
  startedAt := none
  runConfig := .obj [("ops", .obj [("save", .obj [("config", .obj [("batch_name", .str "b1")])])])]

/-- The start of a step. -/
def starting (stepCode : String) (seconds : Int) : StepTransition where
  stepCode := stepCode
  status := .started
  startedAt := some (timeAt seconds)
  finishedAt := none
  errorMessage := none

/-- The end of a step. -/
def ending (stepCode : String) (status : StepState) (seconds : Int) (error : Option String) :
    StepTransition where
  stepCode := stepCode
  status := status
  startedAt := none
  finishedAt := some (timeAt seconds)
  errorMessage := error

/-- A log entry. -/
def entry (run : RunRecord) (kind : EventKind) (seconds : Int) (message : String) : LogEntry where
  runId := run.id
  externalRunId := run.externalRunId
  stepCode := none
  kind := kind
  message := message
  level := .info
  timestamp := timeAt seconds
  payload := .obj [("message", .str message)]

section Uses

variable {m : Type → Type} [Monad m] {σ : Type} (b : Backend m σ)

/-- Records a run. -/
def seed (externalRunId : String) : Trying m RunRecord :=
  must (b.insertRun (launched externalRunId))

/-- Stages writes in a snapshot. -/
def stageEach (snap : σ) (writes : List Write) : Trying m σ :=
  writes.foldlM (fun snap w => must (b.stage snap w)) snap

/-- Commits writes in a snapshot of their own. -/
def commitWrites (writes : List Write) : Trying m Unit := do
  let snap ← must b.beginSnapshot
  let snap ← stageEach b snap writes
  must (b.commit snap)

/-- Commits a transition of a step. -/
def commitStep (run : RunRecord) (t : StepTransition) : Trying m Unit :=
  commitWrites b [.step run.id run.externalRunId t]

/-- The row of a run that has to be there. -/
def found (externalRunId : String) : Trying m RunRecord := do
  match ← must (b.findRun externalRunId) with
  | some run => pure run
  | none => throw ("run " ++ externalRunId ++ " not found")

/-- The only step of a run. -/
def onlyStep (externalRunId : String) : Trying m StepRecord := do
  match ← must (b.listSteps externalRunId) with
  | [row] => pure row
  | _ => throw "expected exactly one step row"

end Uses

end RunLedger.Conformance
