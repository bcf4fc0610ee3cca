import RunLedger.Store.Backend
import RunLedger.Store.Conformance.Fault

/-!
# Faulty stores

`FaultyStore.backend faults` is the plain store with faults. Where two faults concern the same
thing, the one that is looked at first wins.
-/

namespace RunLedger.Conformance

open RunLedger.Time (Instant)

/-- A store with faults, and how often it was asked. -/
structure FaultyStore where
  store : Store := {}
  findCalls : Nat := 0
  listStepCalls : Nat := 0
  listLogCalls : Nat := 0
deriving Repr, Inhabited

/-- An open snapshot of a faulty store. -/
structure FaultySnapshot where
  /-- What was staged as it should be. -/
  staged : Snapshot := {}
  /-- What is to be checked at commit. -/
  unchecked : List Write := []
deriving Repr, Inhabited

namespace FaultyStore

/-- Operations of a faulty store. -/
abbrev Act := StateM FaultyStore

/-- Runs an operation of the store inside. -/
def inStore {α : Type} (act : StateM Store α) : Act α := fun s =>
  let (a, store) := act s.store
  (a, { s with store := store })

/-- The store inside. -/
def inner : Backend Act Snapshot :=
  Backend.plain.lift inStore

section Faults

variable (faults : List Fault)

/-- Whether a store has a fault. -/
def has (fault : Fault) : Bool :=
  faults.contains fault

/-- Runs an operation unless it always fails. -/
def working {α : Type} (op : Operation) (act : Act (Except StoreError α)) :
    Act (Except StoreError α) :=
  if has faults (.fails op) then pure (.error op.injected) else act

/-- A refusal as a faulty store words it. -/
def misreport : StoreError → StoreError
  | .runNotFound runId =>
    if has faults .wrongErrorId then .runNotFound 0
    else if has faults .wrongErrorKind then .serialization "no such run"
    else .runNotFound runId
  | .duplicateRun externalRunId =>
    if has faults .wrongErrorId then .duplicateRun "?"
    else if has faults .wrongErrorKind then .serialization "run already recorded"
    else .duplicateRun externalRunId
  | e => e

/-- A result with its refusal reworded. -/
def misreported {α : Type} (result : Except StoreError α) : Except StoreError α :=
  result.mapError (misreport faults)

/-- A write as a faulty store takes it; nothing if it is ignored. -/
def distort : Write → Option Write
  | .step runId externalRunId t =>
    if has faults .dropSteps then none
    else if has faults .stepCodesMerged then
      some (.step runId externalRunId { t with stepCode := "step" })
    else some (.step runId externalRunId t)
  | .log entry =>
    if has faults .dropLogs then none
    else
      let timed := if has faults .logTimesMerged then { entry with timestamp := .epoch } else entry
      some (.log (if has faults .logKindsMerged then { timed with kind := .message } else timed))
  | .run runId u =>
    if has faults .dropUpdates then none
    else if has faults .locationsCleared then
      some (.run runId { u with outputLocations := u.outputLocations.or (some []) })
    else some (.run runId u)

/-- Stages writes in turn, up to the first that is refused. -/
def stageUnchecked (snap : Snapshot) : List Write → Act (Except StoreError Snapshot)
  | [] => pure (.ok snap)
  | w :: ws => do
    match ← inner.stage snap w with
    | .ok snap => stageUnchecked snap ws
    | .error e => pure (.error e)

/-- Stores a write at once. -/
def storeNow (w : Write) : Act (Except StoreError Unit) := do
  match ← inner.stage {} w with
  | .ok snap => inner.commit snap
  | .error e => pure (.error e)

/-- Stages a write that is not ignored. -/
def stage (snap : FaultySnapshot) (w : Write) : Act (Except StoreError FaultySnapshot) := do
  if has faults .lateCheck then pure (.ok { snap with unchecked := snap.unchecked ++ [w] })
  else if has faults .eager then
    match ← storeNow w with
    | .ok () => pure (.ok snap)
    | .error e => pure (.error (misreport faults e))
  else
    match ← inner.stage snap.staged w with
    | .ok staged => pure (.ok { snap with staged := staged })
    | .error (.runNotFound runId) =>
      if has faults .noCheck then pure (.ok snap)
      else pure (.error (misreport faults (.runNotFound runId)))
    | .error e => pure (.error (misreport faults e))

/-- Commits a snapshot, with the checks that are still to be made. -/
def commit (snap : FaultySnapshot) : Act (Except StoreError Unit) := do
  match ← stageUnchecked snap.staged snap.unchecked with
  | .error e => pure (.error (misreport faults e))
  | .ok staged => misreported faults <$> inner.commit staged

/-- Aborts a snapshot. -/
def abort (snap : FaultySnapshot) : Act (Except StoreError Unit) :=
  if has faults .abortCommits then misreported faults <$> inner.commit snap.staged
  else inner.abort snap.staged

/-- A run as a faulty store records it. -/
def recorded (run : NewRun) : NewRun :=
  let run := if has faults .statusRunning then { run with status := .running } else run
  if has faults .configDropped then { run with runConfig := .null } else run

/-- The row of a run as a faulty store returns it when it is recorded. -/
def returned (run : NewRun) (row : RunRecord) : RunRecord :=
  let row := { row with runConfig := run.runConfig }
  if has faults .idPlusOne then { row with id := row.id + 1 }
  else if has faults .idAlwaysOne then { row with id := 1 }
  else row

/-- The answer to a run that could not be recorded. -/
def refused (existing : Option RunRecord) (e : StoreError) : Except StoreError RunRecord :=
  match existing with
  | some row => if has faults .duplicateOk then .ok row else .error (misreport faults e)
  | none => .error (misreport faults e)

/-- Records a run. -/
def insertRun (run : NewRun) : Act (Except StoreError RunRecord) := do
  match ← inner.insertRun (recorded faults run) with
  | .ok row => pure (.ok (returned faults run row))
  | .error e =>
    let s ← get
    pure (refused faults (s.store.findRun run.externalRunId) e)

/-- A made-up run. -/
def ghostRun (externalRunId : String) : RunRecord where
  id := 0
  externalRunId := externalRunId
  workflowId := 0
  status := .queued
  startedAt := none
  finishedAt := none
  durationSeconds := none
  errorMessage := none
  outputLocations := []
  runConfig := .null

/-- The row of a run as a faulty store returns it, asked for the `calls`th time. -/
def distortRun (calls : Nat) (row : RunRecord) : RunRecord :=
  let finishedAt := if has faults .finishLost then none else row.finishedAt
  { row with
    workflowId :=
      if has faults .findDrift && calls ≥ 2 then row.workflowId + 1 else row.workflowId
    startedAt := if has faults .startedLost then none else row.startedAt
    finishedAt := if has faults .findFinished then finishedAt.or (some .epoch) else finishedAt
    durationSeconds := if has faults .durationLost then none else row.durationSeconds
    errorMessage := if has faults .errorLost then none else row.errorMessage
    outputLocations := if has faults .locationsLost then [] else row.outputLocations }

/-- Finds a run. -/
def findRun (externalRunId : String) : Act (Except StoreError (Option RunRecord)) := do
  modify fun s => { s with findCalls := s.findCalls + 1 }
  let s ← get
  let shown (row : Option RunRecord) := row.map (distortRun faults s.findCalls)
  if has faults .findNone then pure (.ok none)
  else
    match s.store.findRun externalRunId with
    | some row => pure (.ok (shown (some row)))
    | none =>
      if has faults .findAny then pure (.ok (shown (s.store.findRun "run-a")))
      else if has faults .findGhost then pure (.ok (some (ghostRun externalRunId)))
      else pure (.ok none)

/-- A made-up step. -/
def ghostStep (externalRunId : String) : StepRecord where
  runId := 0
  externalRunId := externalRunId
  stepCode := "ghost"
  status := .started
  startedAt := none
  finishedAt := none
  durationSeconds := none
  errorMessage := none

/-- The state that a faulty store gives a step. -/
def distortState (state : StepState) : StepState :=
  if has faults (.stepsAll .success) then .success
  else if has faults (.stepsAll .failure) then .failure
  else if has faults (.stepsAll .started) then .started
  else state

/-- The row of a step as a faulty store lists it, asked for the `calls`th time. -/
def distortStep (calls : Nat) (row : StepRecord) : StepRecord :=
  let runId := if has faults .stepsDrift && calls ≥ 2 then row.runId + 100 else row.runId
  { row with
    runId := if has faults .stepsRunId then 0 else runId
    status := distortState faults row.status
    startedAt := if has faults .startedLost then none else row.startedAt
    finishedAt := if has faults .finishLost then none else row.finishedAt
    durationSeconds := if has faults .durationLost then none else row.durationSeconds
    errorMessage := if has faults .errorLost then none else row.errorMessage }

/-- Rows in the order and as often as a faulty store lists them. -/
def arrange {α : Type} (reversed doubled : Bool) (rows : List α) : List α :=
  let rows := if reversed then rows.reverse else rows
  if doubled then rows ++ rows else rows

/-- Lists steps. -/
def listSteps (externalRunId : String) : Act (Except StoreError (List StepRecord)) := do
  modify fun s => { s with listStepCalls := s.listStepCalls + 1 }
  let s ← get
  let own := s.store.listSteps externalRunId
  let rows := if own.isEmpty && has faults .stepsAnyRun then s.store.listSteps "run-a" else own
  let rows :=
    if rows.isEmpty && has faults .stepsGhost then [ghostStep externalRunId] else rows
  pure (.ok (arrange (has faults .stepsReversed) (has faults .stepsDoubled)
    (rows.map (distortStep faults s.listStepCalls))))

/-- A log entry as a faulty store lists it. -/
def distortLog (entry : LogEntry) : LogEntry :=
  { entry with
    message := if has faults .logTextLost then "" else entry.message
    stepCode := if has faults .logStepLost then none else entry.stepCode
    level := if has faults .logLevelInfo then .info else entry.level
    payload := if has faults .logPayloadLost then .null else entry.payload }

/-- Lists log entries. -/
def listLogs (externalRunId : String) : Act (Except StoreError (List LogEntry)) := do
  modify fun s => { s with listLogCalls := s.listLogCalls + 1 }
  let s ← get
  let rows := s.store.listLogs externalRunId
  let rows := if has faults .logsDrift && s.listLogCalls ≥ 2 then rows.dropLast else rows
  pure (.ok (arrange (has faults .logsReversed) (has faults .logsDoubled)
    (rows.map (distortLog faults))))

/-- Tells what a workflow declares. -/
def outputSpec (workflowId : Int) : Act (Except StoreError OutputSpec) :=
  if has faults .specPattern then pure (.ok (.pattern "x")) else inner.outputSpec workflowId

/-- Loads the cursor. -/
def loadCursor : Act (Except StoreError (Option Instant)) := do
  let cursor := (← get).store.cursor
  pure (.ok (if has faults .cursorPreset then cursor.or (some .epoch) else cursor))

/-- Stores the cursor. -/
def storeCursor (cursor : Instant) : Act (Except StoreError Unit) := do
  let stored := (← get).store.cursor
  if has faults .cursorFirstOnly && stored.isSome then pure (.ok ())
  else if has faults .cursorLost then pure (.ok ())
  else inner.storeCursor cursor

/-- The store with its faults. -/
def backend : Backend Act FaultySnapshot where
  beginSnapshot := working faults .beginSnapshot (pure (.ok {}))
  stage snap w := working faults (.ofWrite w)
    (match distort faults w with
    | some w => stage faults snap w
    | none => pure (.ok snap))
  commit snap := working faults .commitSnapshot (commit faults snap)
  abort snap := working faults .abortSnapshot (abort faults snap)
  insertRun run := working faults .insertRun (insertRun faults run)
  findRun externalRunId := working faults .findRun (findRun faults externalRunId)
  listSteps externalRunId := working faults .listStepStatuses (listSteps faults externalRunId)
  listLogs externalRunId := working faults .listLogs (listLogs faults externalRunId)
  outputSpec workflowId := working faults .workflowOutputSpec (outputSpec faults workflowId)
  loadCursor := working faults .loadCursor (loadCursor faults)
  storeCursor cursor := working faults .storeCursor (storeCursor faults cursor)

/-- Runs an action in a fresh store. -/
def fresh {α : Type} (act : Act α) : α :=
  (act.run {}).1

end Faults

end FaultyStore

end RunLedger.Conformance
