import RunLedger.Proofs.Interleaving.Calls
import RunLedger.Proofs.Run.StepMerge
import RunLedger.Proofs.Store.Table
import RunLedger.Proofs.Time.Order

/-!
# Coherent stores

The steps and the log entries of a store are tables, and its writes are merged into them. A store
is coherent if its keys are distinct and its steps are timed. Every store that can be reached from
the empty one by operations is coherent.
-/

namespace RunLedger

open Time (Instant)

/-- An update leaves a row with its number, its name and its workflow. -/
theorem RunRecord.merge_names (row : RunRecord) (u : RunUpdate) :
    (row.merge u).id = row.id ∧ (row.merge u).externalRunId = row.externalRunId ∧
      (row.merge u).workflowId = row.workflowId := by
  unfold RunRecord.merge RunRecord.advance
  dsimp only
  split
  · exact ⟨rfl, rfl, rfl⟩
  · split
    · exact ⟨rfl, rfl, rfl⟩
    · split <;> exact ⟨rfl, rfl, rfl⟩

/-! ## Writes as items of tables -/

/-- Transitions of a run are merged into its steps. -/
def stepMerging (runId : RunId) (externalRunId : String) :
    Merging StepRecord StepTransition StepKey where
  key := StepRecord.key
  keyOf t := (externalRunId, t.stepCode)
  merge row t := StepRecord.merge row runId externalRunId t
  key_merge row t keyed := by
    cases row with
    | none => rfl
    | some row =>
      obtain ⟨_, name, code⟩ := row.next_names t
      show ((row.next t).externalRunId, (row.next t).stepCode) = _
      rw [name, code]
      exact keyed row rfl

/-- A log entry takes the place of the one with its key. -/
def logMerging : Merging LogEntry LogEntry LogKey where
  key := LogEntry.key
  keyOf := LogEntry.key
  merge _ entry := entry
  key_merge _ _ _ := rfl

/-- Of the entries that take one another's place the last one stays. -/
theorem logMerging_mergeAll (row : Option LogEntry) (l : List LogEntry) :
    logMerging.mergeAll row l = l.getLast?.or row := by
  induction l generalizing row with
  | nil => simp [Merging.mergeAll]
  | cons entry rest ih =>
    change logMerging.mergeAll (some entry) rest = _
    rw [ih, List.getLast?_cons]
    cases rest.getLast? <;> rfl

namespace Store

/-- A step is looked up in its table by its key. -/
theorem step?_eq_find (s : Store) (runId : RunId) (externalRunId name stepCode : String) :
    s.step? name stepCode = (stepMerging runId externalRunId).find (name, stepCode) s.steps := by
  unfold step? Merging.find
  congr 1
  funext row
  rw [Bool.eq_iff_iff]
  simp [stepMerging, StepRecord.key]

/-- To put a step is to merge a transition into the table of steps. -/
theorem putStep_eq (s : Store) (runId : RunId) (externalRunId : String) (t : StepTransition) :
    s.putStep runId externalRunId t =
      { s with steps := (stepMerging runId externalRunId).upsert s.steps t } := by
  have sameKey : (fun a b : StepRecord => a.externalRunId == b.externalRunId &&
      a.stepCode == b.stepCode) = fun a b => decide (a.key = b.key) := by
    funext a b
    rw [Bool.eq_iff_iff]
    simp [StepRecord.key]
  unfold putStep
  rw [step?_eq_find s runId externalRunId, sameKey]
  rfl

/-- To put an entry is to merge it into the table of entries. -/
theorem putLog_eq (s : Store) (entry : LogEntry) :
    s.putLog entry = { s with logs := logMerging.upsert s.logs entry } := by
  have sameKey : (fun a b : LogEntry => a.externalRunId == b.externalRunId && a.kind == b.kind &&
      a.timestamp == b.timestamp) = fun a b => decide (a.key = b.key) := by
    funext a b
    rw [Bool.eq_iff_iff]
    simp [LogEntry.key, and_assoc]
  unfold putLog
  rw [sameKey]
  rfl

/-- The rows of runs after an update. -/
def updateRuns (runId : RunId) (u : RunUpdate) (runs : List RunRecord) : List RunRecord :=
  runs.map fun row => if row.id == runId then row.merge u else row

theorem putRun_eq (s : Store) (runId : RunId) (u : RunUpdate) :
    s.putRun runId u = { s with runs := updateRuns runId u s.runs } := rfl

/-- Writes for steps change the table of steps alone. -/
theorem foldl_apply_steps (runId : RunId) (externalRunId : String) (l : List StepTransition)
    (s : Store) : (l.map (.step runId externalRunId)).foldl apply s =
      { s with steps := (stepMerging runId externalRunId).upsertAll s.steps l } := by
  induction l generalizing s with
  | nil => rfl
  | cons t rest ih =>
    rw [List.map_cons, List.foldl_cons, ih, apply, putStep_eq]
    rfl

/-- Writes of entries change the table of entries alone. -/
theorem foldl_apply_logs (l : List LogEntry) (s : Store) :
    (l.map .log).foldl apply s = { s with logs := logMerging.upsertAll s.logs l } := by
  induction l generalizing s with
  | nil => rfl
  | cons entry rest ih =>
    rw [List.map_cons, List.foldl_cons, ih, apply, putLog_eq]
    rfl

/-- What the writes of a plan make of a store. -/
theorem foldl_apply_writes (p : Sync.Plan) (s : Store) :
    p.writes.foldl apply s =
      { s with
        runs := updateRuns p.runId p.update s.runs
        steps := (stepMerging p.runId p.externalRunId).upsertAll s.steps p.transitions
        logs := logMerging.upsertAll s.logs p.logs } := by
  unfold Sync.Plan.writes
  rw [List.foldl_append, List.foldl_append, foldl_apply_steps, foldl_apply_logs]
  rfl

/-! ## Coherence -/

/-- The keys of a store are distinct, its numbers are used up in turn, and its steps are timed. -/
structure Coherent (s : Store) : Prop where
  runIds : (s.runs.map (·.id)).Nodup
  below : ∀ row ∈ s.runs, row.id ≤ s.lastRunId
  stepKeys : (s.steps.map StepRecord.key).Nodup
  logKeys : (s.logs.map LogEntry.key).Nodup
  timed : ∀ row ∈ s.steps, row.Timed

/-- What no update changes in a row is what it was in all rows. -/
theorem map_updateRuns {β : Type} {f : RunRecord → β} (keeps : ∀ row u, f (row.merge u) = f row)
    (runId : RunId) (u : RunUpdate) (runs : List RunRecord) :
    (updateRuns runId u runs).map f = runs.map f := by
  unfold updateRuns
  rw [List.map_map]
  refine List.map_congr_left fun row _ => ?_
  dsimp only [Function.comp]
  split
  · exact keeps row u
  · rfl

theorem map_id_updateRuns (runId : RunId) (u : RunUpdate) (runs : List RunRecord) :
    (updateRuns runId u runs).map (·.id) = runs.map (·.id) :=
  map_updateRuns (fun row u => (row.merge_names u).1) runId u runs

theorem exists_id_of_mem_updateRuns {runId : RunId} {u : RunUpdate} {runs : List RunRecord}
    {row : RunRecord} (member : row ∈ updateRuns runId u runs) : ∃ r ∈ runs, r.id = row.id := by
  have number : row.id ∈ runs.map (·.id) := by
    rw [← map_id_updateRuns runId u]
    exact List.mem_map_of_mem member
  exact List.mem_map.mp number

/-- A transition makes a timed row of a timed row or of none. -/
theorem timed_merge {rows : List StepRecord} (timed : ∀ row ∈ rows, row.Timed) (runId : RunId)
    (externalRunId : String) (k : String × String) (t : StepTransition) :
    (StepRecord.merge ((stepMerging runId externalRunId).find k rows) runId externalRunId
      t).Timed := by
  cases found : (stepMerging runId externalRunId).find k rows with
  | none =>
    rw [StepRecord.merge_none]
    exact (StepRecord.timed_blank runId externalRunId t).next t
  | some row => exact (timed row (List.mem_of_find?_eq_some found)).next t

/-- A write keeps the keys of every table distinct. -/
theorem Coherent.apply {s : Store} (coherent : s.Coherent) (w : Write) : (s.apply w).Coherent := by
  cases w with
  | step runId externalRunId t =>
    rw [Store.apply, putStep_eq]
    refine { coherent with stepKeys := ?_, timed := ?_ }
    · exact (stepMerging runId externalRunId).nodup_put _ coherent.stepKeys
    · intro row member
      rcases (stepMerging runId externalRunId).mem_put member with rfl | old
      · exact timed_merge coherent.timed ..
      · exact coherent.timed row old
  | log entry =>
    rw [Store.apply, putLog_eq]
    exact { coherent with logKeys := logMerging.nodup_put _ coherent.logKeys }
  | run runId u =>
    rw [Store.apply, putRun_eq]
    refine { coherent with runIds := ?_, below := ?_ }
    · rw [map_id_updateRuns]
      exact coherent.runIds
    · intro row member
      obtain ⟨r, known, same⟩ := exists_id_of_mem_updateRuns member
      exact same ▸ coherent.below r known

/-- Writes keep the keys of every table distinct. -/
theorem Coherent.foldl_apply {s : Store} (coherent : s.Coherent) (writes : List Write) :
    (writes.foldl Store.apply s).Coherent := by
  induction writes generalizing s with
  | nil => exact coherent
  | cons w ws ih => exact ih (coherent.apply w)

/-- A commit keeps the keys of every table distinct, whether it succeeds or fails. -/
theorem Coherent.commit {s : Store} (coherent : s.Coherent) (snap : Snapshot) :
    (s.commit snap).2.Coherent := by
  unfold Store.commit
  split
  · exact { coherent with }
  · split
    · exact coherent
    · exact { coherent.foldl_apply snap.writes with }

/-- A recorded run has a number and a name of its own. -/
theorem Coherent.insertRun {s after : Store} {run : NewRun} {row : RunRecord}
    (coherent : s.Coherent) (inserted : s.insertRun run = .ok (row, after)) : after.Coherent := by
  obtain ⟨number, rfl⟩ := Interleaving.StoreCall.of_insertRun_eq_ok inserted
  refine { coherent with runIds := ?_, below := ?_ }
  · dsimp only
    rw [List.map_append, List.map_singleton, List.nodup_append_comm]
    refine List.nodup_cons.mpr ⟨fun taken => ?_, coherent.runIds⟩
    obtain ⟨other, known, same⟩ := List.mem_map.mp taken
    have bound : s.lastRunId + 1 ≤ s.lastRunId := number ▸ same ▸ coherent.below other known
    exact absurd bound (Int.not_le.mpr (Int.lt_succ s.lastRunId))
  · intro r member
    rcases List.mem_append.mp member with old | new
    · rw [number]
      exact Int.le_trans (coherent.below r old) (Int.le_add_one (Int.le_refl _))
    · exact Int.le_of_eq (congrArg RunRecord.id (List.mem_singleton.mp new))

open Interleaving in
/-- A store that can be reached from the empty one by operations and declarations, with any commits
made to fail. -/
inductive Reachable : Store → Prop where
  | empty : Reachable {}
  | call {s : Store} (call : StoreCall) : Reachable s → Reachable (call.perform s).2
  | declare {s : Store} (workflowId : Int) (spec : OutputSpec) :
      Reachable s → Reachable (s.declareOutput workflowId spec)
  | failCommits {s : Store} (count : Nat) :
    Reachable s → Reachable { s with failingCommits := count }

open Interleaving in
/-- What the empty store has, and what commits, recordings and bookkeeping keep, every store has
that can be reached. -/
theorem Reachable.keeps {p : Store → Prop} (empty : p {})
    (commit : ∀ snap s, p s → p (s.commit snap).2)
    (record : ∀ {run s row after}, s.insertRun run = .ok (row, after) → p s → p after)
    (bookkeeping : ∀ cursor specs count s, p s →
      p { s with cursor := cursor, specs := specs, failingCommits := count })
    {s : Store} (reachable : s.Reachable) : p s := by
  induction reachable with
  | empty => exact empty
  | @call s call _ ih =>
    exact StoreCall.perform_rel (fun s s' => p s → p s') (fun _ kept => kept) commit record
      (fun cursor s => bookkeeping cursor s.specs s.failingCommits s) call s ih
  | @declare s workflowId spec _ ih => exact bookkeeping s.cursor _ s.failingCommits s ih
  | @failCommits s count _ ih => exact bookkeeping s.cursor s.specs count s ih

/-- Every store that can be reached is coherent. -/
theorem Reachable.coherent {s : Store} (reachable : s.Reachable) : s.Coherent := by
  refine reachable.keeps ?_ (fun snap s coherent => coherent.commit snap)
    (fun inserted coherent => coherent.insertRun inserted) fun _ _ _ _ coherent => { coherent with }
  exact ⟨List.nodup_nil, fun _ member => absurd member List.not_mem_nil, List.nodup_nil,
    List.nodup_nil, fun _ member => absurd member List.not_mem_nil⟩

end Store

end RunLedger
