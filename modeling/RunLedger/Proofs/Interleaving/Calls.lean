import RunLedger.Proofs.Interleaving.Program
import RunLedger.Store.Keyed
import RunLedger.Sync.Reconciler

/-!
# Calls to an engine, a clock and a store

A call is an operation together with its arguments. `reconciler` is the reconciler whose operations
are questions, so that `syncRun`, `trigger` and `tick` become programs and anything may happen
between two of their calls. `StoreCall.perform` carries out a call to a store that is kept as data,
in lists or in maps.
-/

namespace RunLedger.Interleaving

open RunLedger.Time (Instant)

/-- A kind of store that is kept as data: its operations, and what is done to it from outside. -/
class StoreModel (S : Type) where
  backend : Backend (StateM S) Snapshot
  /-- Declares where the runs of a workflow write files. -/
  declareOutput : S → Int → OutputSpec → S
  /-- Makes so many of the next commits fail. -/
  failNext : S → Nat → S

instance : StoreModel Store where
  backend := .plain
  declareOutput := .declareOutput
  failNext s count := { s with failingCommits := count }

instance : StoreModel KeyedStore where
  backend := .keyed
  declareOutput := .declareOutput
  failNext := .failNext

/-- An operation of a store with its arguments. -/
inductive StoreCall where
  | beginSnapshot
  | stage (snap : Snapshot) (w : Write)
  | commit (snap : Snapshot)
  | abort (snap : Snapshot)
  | insertRun (run : NewRun)
  | findRun (externalRunId : String)
  | listSteps (externalRunId : String)
  | listLogs (externalRunId : String)
  | outputSpec (workflowId : Int)
  | loadCursor
  | storeCursor (cursor : Instant)

namespace StoreCall

/-- What a call to a store returns. -/
abbrev Answer : StoreCall → Type
  | beginSnapshot => Except StoreError Snapshot
  | stage .. => Except StoreError Snapshot
  | commit _ => Except StoreError Unit
  | abort _ => Except StoreError Unit
  | insertRun _ => Except StoreError RunRecord
  | findRun _ => Except StoreError (Option RunRecord)
  | listSteps _ => Except StoreError (List StepRecord)
  | listLogs _ => Except StoreError (List LogEntry)
  | outputSpec _ => Except StoreError OutputSpec
  | loadCursor => Except StoreError (Option Instant)
  | storeCursor _ => Except StoreError Unit

/-- The store whose operations make calls. -/
def backend {m : Type → Type} (f : (call : StoreCall) → m call.Answer) : Backend m Snapshot where
  beginSnapshot := f .beginSnapshot
  stage snap w := f (.stage snap w)
  commit snap := f (.commit snap)
  abort snap := f (.abort snap)
  insertRun run := f (.insertRun run)
  findRun externalRunId := f (.findRun externalRunId)
  listSteps externalRunId := f (.listSteps externalRunId)
  listLogs externalRunId := f (.listLogs externalRunId)
  outputSpec workflowId := f (.outputSpec workflowId)
  loadCursor := f .loadCursor
  storeCursor cursor := f (.storeCursor cursor)

/-- Carries out a call to a store that is kept as data. -/
def perform {S : Type} [StoreModel S] : (call : StoreCall) → StateM S call.Answer
  | beginSnapshot => StoreModel.backend.beginSnapshot
  | stage snap w => StoreModel.backend.stage snap w
  | commit snap => StoreModel.backend.commit snap
  | abort snap => StoreModel.backend.abort snap
  | insertRun run => StoreModel.backend.insertRun run
  | findRun externalRunId => StoreModel.backend.findRun externalRunId
  | listSteps externalRunId => StoreModel.backend.listSteps externalRunId
  | listLogs externalRunId => StoreModel.backend.listLogs externalRunId
  | outputSpec workflowId => StoreModel.backend.outputSpec workflowId
  | loadCursor => StoreModel.backend.loadCursor
  | storeCursor cursor => StoreModel.backend.storeCursor cursor

/-- Whether a call moves the cursor. -/
def movesCursor : StoreCall → Bool
  | storeCursor _ => true
  | _ => false

theorem foldl_apply_cursor (writes : List Write) (s : Store) :
    (writes.foldl Store.apply s).cursor = s.cursor := by
  induction writes generalizing s with
  | nil => rfl
  | cons w ws ih =>
    rw [List.foldl_cons, ih]
    cases w <;> rfl

/-- A commit leaves the cursor alone. -/
theorem commit_cursor (s : Store) (snap : Snapshot) : (s.commit snap).2.cursor = s.cursor := by
  unfold Store.commit
  split
  · rfl
  · split
    · rfl
    · exact foldl_apply_cursor snap.writes s

/-- A run that was recorded has the next number and comes last. -/
theorem of_insertRun_eq_ok {s after : Store} {run : NewRun} {row : RunRecord}
    (inserted : s.insertRun run = .ok (row, after)) : row.id = s.lastRunId + 1 ∧
      after = { s with lastRunId := row.id, runs := s.runs ++ [row] } := by
  unfold Store.insertRun at inserted
  split at inserted
  · cases inserted
  · cases inserted
    exact ⟨rfl, rfl⟩

/-- A call to record a run succeeds as the store does, or fails and leaves it as it is. -/
theorem perform_insertRun_cases (run : NewRun) (s : Store) :
    (∃ row after, s.insertRun run = .ok (row, after) ∧
      (insertRun run).perform s = (.ok row, after)) ∨
    ∃ e, s.insertRun run = .error e ∧ (insertRun run).perform s = (.error e, s) := by
  cases inserted : s.insertRun run with
  | error e =>
    right
    refine ⟨e, rfl, ?_⟩
    simp only [perform, StoreModel.backend, Backend.plain, inserted]
  | ok result =>
    left
    refine ⟨result.1, result.2, rfl, ?_⟩
    simp only [perform, StoreModel.backend, Backend.plain, inserted]

/-- A relation between stores to which commits, recordings and moves of the cursor keep is kept to
by every call. -/
theorem perform_rel (rel : Store → Store → Prop) (refl : ∀ s, rel s s)
    (commit : ∀ snap s, rel s (s.commit snap).2)
    (record : ∀ {run s row after}, s.insertRun run = .ok (row, after) → rel s after)
    (moveCursor : ∀ cursor s, rel s { s with cursor := cursor }) (call : StoreCall) (s : Store) :
    rel s (call.perform s).2 := by
  cases call with
  | commit snap => exact commit snap s
  | insertRun run =>
    rcases perform_insertRun_cases run s with ⟨row, after, inserted, done⟩ | ⟨e, _, failed⟩
    · rw [done]
      exact record inserted
    · rw [failed]
      exact refl s
  | storeCursor cursor => exact moveCursor (some cursor) s
  | _ => exact refl s

theorem insertRun_cursor {s after : Store} {run : NewRun} {row : RunRecord}
    (inserted : s.insertRun run = .ok (row, after)) : after.cursor = s.cursor := by
  rw [(of_insertRun_eq_ok inserted).2]

/-- Every call but one leaves the cursor alone. -/
theorem perform_cursor {call : StoreCall} (still : call.movesCursor = false) (s : Store) :
    (call.perform s).2.cursor = s.cursor := by
  cases call with
  | commit snap => exact commit_cursor s snap
  | insertRun run =>
    rcases perform_insertRun_cases run s with ⟨row, after, inserted, done⟩ | ⟨e, _, failed⟩
    · rw [done]
      exact insertRun_cursor inserted
    · rw [failed]
  | storeCursor cursor => cases still
  | _ => rfl

end StoreCall

/-- A call of a reconciler. -/
inductive Call where
  | runDetail (runId : String)
  | recentRuns (limit : Nat) (after before : Option Instant)
  | now
  | store (call : StoreCall)

namespace Call

/-- What a call returns. -/
abbrev Answer : Call → Type
  | runDetail _ => Except EngineError RunDetail
  | recentRuns .. => Except EngineError (List RunSummary)
  | now => Instant
  | store call => call.Answer

/-- Whether a call moves the cursor of the store. -/
def movesCursor : Call → Bool
  | store call => call.movesCursor
  | _ => false

/-- The calls of a sync that has the answer of the engine. -/
def storesDetail : Call → Bool
  | now | store .beginSnapshot | store (.stage ..) | store (.commit _) | store (.abort _)
  | store (.findRun _) | store (.outputSpec _) => true
  | _ => false

end Call

open Program (question)

/-- The reconciler whose operations are questions. -/
def reconciler (pageSize : Nat) : Sync.Reconciler (Program Call.Answer) Snapshot where
  engine :=
    { runDetail := fun runId => question (Call.runDetail runId)
      recentRuns := fun limit after before => question (Call.recentRuns limit after before) }
  store := StoreCall.backend fun call => question (Call.store call)
  clock := question Call.now
  pageSize := pageSize

/-! ## The calls of a sync -/

section Asks

open Sync

variable (pageSize : Nat)

/-- Staging makes no other calls than those that store a detail. -/
theorem asks_stageAll (writes : List Write) (snap : Snapshot) :
    (stageAll (reconciler pageSize).store snap writes).Asks (·.storesDetail = true) := by
  induction writes generalizing snap with
  | nil => trivial
  | cons w ws ih =>
    refine ⟨rfl, fun answer => ?_⟩
    cases answer with
    | error e => trivial
    | ok snap => exact ih snap

/-- Storing a plan makes no other calls, whether it succeeds or fails. -/
theorem asks_persist (plan : Plan) :
    (persist (reconciler pageSize).store plan).Asks (·.storesDetail = true) := by
  refine ⟨rfl, fun opened => ?_⟩
  cases opened with
  | error e => trivial
  | ok snap =>
    refine (asks_stageAll pageSize plan.writes snap).bind fun staged => ?_
    cases staged with
    | error refused => exact ⟨rfl, fun _ => trivial⟩
    | ok snap =>
      refine ⟨rfl, fun committed => ?_⟩
      cases committed <;> trivial

theorem asks_locations (run : RunRecord) (detail : RunDetail) (now : Instant) :
    ((reconciler pageSize).locations run detail now).Asks (·.storesDetail = true) := by
  unfold Reconciler.locations
  split
  · refine ⟨rfl, fun declared => ?_⟩
    cases declared <;> trivial
  · trivial

theorem asks_storeDetail (externalRunId : String) (run : RunRecord) (detail : RunDetail) :
    ((reconciler pageSize).storeDetail externalRunId run detail).Asks (·.storesDetail = true) := by
  refine ⟨rfl, fun now => (asks_locations pageSize run detail now).bind fun resolved => ?_⟩
  cases resolved with
  | error e => trivial
  | ok locations =>
    refine (asks_persist pageSize _).bind fun persisted => ?_
    cases persisted <;> trivial

/-- A sync asks the engine first and never again. -/
theorem asks_syncRun (externalRunId : String) : ∃ next,
    (reconciler pageSize).syncRun externalRunId = .ask (.runDetail externalRunId) next ∧
      ∀ answer, (next answer).Asks (·.storesDetail = true) := by
  refine ⟨_, rfl, fun answer => ?_⟩
  cases answer with
  | error e => cases e <;> trivial
  | ok detail =>
    refine ⟨rfl, fun row => ?_⟩
    match row with
    | .error e => trivial
    | .ok none => trivial
    | .ok (some run) => exact asks_storeDetail pageSize externalRunId run detail

end Asks

end RunLedger.Interleaving
