import RunLedger.Proofs.Interleaving.Session
import RunLedger.Proofs.Sync.Resync

/-!
# What lasts of a run

A run that is recorded stays recorded under its number and its name, and a start that is known stays
known. A run that has ended keeps its status, its end and its duration, and as soon as it has
locations or an error it keeps them too. No operation of a store can undo any of this, whatever the
updates say and however the snapshots that carry them are opened, staged and committed.
-/

namespace RunLedger

/-- What a later row of a run has kept of an earlier one. -/
structure RunRecord.Lasts (row later : RunRecord) : Prop where
  id : later.id = row.id
  externalRunId : later.externalRunId = row.externalRunId
  workflowId : later.workflowId = row.workflowId
  startedAt : row.startedAt ≠ none → later.startedAt = row.startedAt
  ended : row.status.isTerminal = true → later.status = row.status ∧
    later.finishedAt = row.finishedAt ∧ later.durationSeconds = row.durationSeconds
  outputLocations : row.status.isTerminal = true → row.outputLocations ≠ [] →
    later.outputLocations = row.outputLocations
  errorMessage : row.status.isTerminal = true → row.errorMessage ≠ none →
    later.errorMessage = row.errorMessage

namespace RunRecord

theorem Lasts.refl (row : RunRecord) : row.Lasts row :=
  ⟨rfl, rfl, rfl, fun _ => rfl, fun _ => ⟨rfl, rfl, rfl⟩, fun _ _ => rfl, fun _ _ => rfl⟩

theorem Lasts.trans {row later last : RunRecord} (first : row.Lasts later)
    (second : later.Lasts last) : row.Lasts last where
  id := second.id.trans first.id
  externalRunId := second.externalRunId.trans first.externalRunId
  workflowId := second.workflowId.trans first.workflowId
  startedAt known := by
    have kept := first.startedAt known
    rw [second.startedAt (kept ▸ known), kept]
  ended ended := by
    obtain ⟨status, finishedAt, duration⟩ := first.ended ended
    obtain ⟨status', finishedAt', duration'⟩ := second.ended (status ▸ ended)
    exact ⟨status'.trans status, finishedAt'.trans finishedAt, duration'.trans duration⟩
  outputLocations ended some := by
    have kept := first.outputLocations ended some
    rw [second.outputLocations ((first.ended ended).1 ▸ ended) (kept ▸ some), kept]
  errorMessage ended known := by
    have kept := first.errorMessage ended known
    rw [second.errorMessage ((first.ended ended).1 ▸ ended) (kept ▸ known), kept]

/-- No update takes from an ended run what it has settled. -/
theorem lasts_merge (row : RunRecord) (u : RunUpdate) : row.Lasts (row.merge u) where
  id := (row.merge_names u).1
  externalRunId := (row.merge_names u).2.1
  workflowId := (row.merge_names u).2.2
  startedAt known := by
    rw [startedAt_merge, Option.or_of_isSome (Option.isSome_iff_ne_none.mpr known)]
  ended ended := by
    rw [merge_of_ended ended]
    exact ⟨rfl, rfl, rfl⟩
  outputLocations ended some := by
    have settled : row.locationsSettled = true := by
      rw [← Bool.not_eq_false]
      exact fun unsettled => some ((locationsSettled_eq_false ended).mp unsettled)
    rw [merge_outputLocations, if_pos settled]
  errorMessage ended known := by
    rw [merge_of_ended ended]
    exact Option.or_of_isSome (Option.isSome_iff_ne_none.mpr known)

end RunRecord

namespace Store

/-- Every recorded run is still recorded under its name, and what is to last of its row does. -/
def KeepsRuns (s s' : Store) : Prop :=
  ∀ name row, s.findRun name = some row → ∃ later, s'.findRun name = some later ∧ row.Lasts later

theorem KeepsRuns.refl (s : Store) : s.KeepsRuns s := fun _ row found => ⟨row, found, .refl row⟩

theorem keepsRuns_of_runs {s s' : Store} (same : s'.runs = s.runs) : s.KeepsRuns s' := by
  intro name row found
  refine ⟨row, ?_, .refl row⟩
  rw [findRun, same]
  exact found

theorem KeepsRuns.trans {s s' s'' : Store} (first : s.KeepsRuns s') (second : s'.KeepsRuns s'') :
    s.KeepsRuns s'' := by
  intro name row found
  obtain ⟨later, found', lasts⟩ := first name row found
  obtain ⟨last, found'', lasts'⟩ := second name later found'
  exact ⟨last, found'', lasts.trans lasts'⟩

/-- Every write keeps the runs: it updates one of them or leaves them all alone. -/
theorem keepsRuns_apply (s : Store) (w : Write) : s.KeepsRuns (s.apply w) := by
  cases w with
  | step runId externalRunId t => exact keepsRuns_of_runs rfl
  | log entry => exact keepsRuns_of_runs rfl
  | run runId u =>
    intro name row found
    refine ⟨if row.id == runId then row.merge u else row, ?_, ?_⟩
    · rw [apply, findRun_putRun, found, Option.map_some]
    · split
      · exact row.lasts_merge u
      · exact .refl row

theorem keepsRuns_foldl_apply (ws : List Write) (s : Store) : s.KeepsRuns (ws.foldl apply s) := by
  induction ws generalizing s with
  | nil => exact .refl s
  | cons w rest ih => exact (keepsRuns_apply s w).trans (ih (s.apply w))

/-- A commit keeps the runs, whether it succeeds or fails. -/
theorem keepsRuns_commit (s : Store) (snap : Snapshot) : s.KeepsRuns (s.commit snap).2 := by
  rcases s.commit_cases snap with ⟨_, failed⟩ | ⟨_, _, e, refused⟩ | ⟨_, _, done⟩
  · rw [failed]
    exact keepsRuns_of_runs rfl
  · rw [refused]
    exact .refl s
  · rw [done]
    exact (keepsRuns_foldl_apply snap.writes s).trans (keepsRuns_of_runs rfl)

/-- A new run comes after the others and takes the place of none. -/
theorem keepsRuns_insertRun {s after : Store} {run : NewRun} {row : RunRecord}
    (inserted : s.insertRun run = .ok (row, after)) : s.KeepsRuns after := by
  obtain ⟨_, rfl⟩ := Interleaving.StoreCall.of_insertRun_eq_ok inserted
  intro name row found
  refine ⟨row, ?_, .refl row⟩
  -- The new row comes last and cannot hide any other.
  rw [findRun] at found ⊢
  rw [List.find?_append, found, Option.some_or]

open Interleaving in
/-- Every call to a store keeps the runs. -/
theorem keepsRuns_perform (call : StoreCall) (s : Store) : s.KeepsRuns (call.perform s).2 :=
  StoreCall.perform_rel KeepsRuns .refl (fun snap s => keepsRuns_commit s snap) keepsRuns_insertRun
    (fun _ _ => keepsRuns_of_runs rfl) call s

end Store

namespace Interleaving

open Session

/-- Every step of a session keeps the runs, whoever takes it. -/
theorem Session.Step.keepsRuns {σ σ' : Session Store} {e : Session.Event} (step : Session.Step σ e σ') :
    σ.store.KeepsRuns σ'.store :=
  step.store_rel Store.KeepsRuns Store.KeepsRuns.refl Store.keepsRuns_perform
    (fun _ _ _ => Store.keepsRuns_of_runs rfl) (fun _ _ => Store.keepsRuns_of_runs rfl)

/-- A session keeps the runs, by induction on its events. -/
theorem Session.Executes.keepsRuns {σ σ' : Session Store} {events : List Session.Event}
    (execution : Executes σ events σ') : σ.store.KeepsRuns σ'.store := by
  induction execution with
  | nil => exact .refl _
  | snoc _ step ih => exact ih.trans step.keepsRuns

/-- A row that is found by its name is found by its number too. -/
theorem run?_of_findRun {s : Store} (coherent : s.Coherent) {name : String} {row : RunRecord}
    (found : s.findRun name = some row) : s.run? row.id = some row := by
  have member : row ∈ s.runs := List.mem_of_find?_eq_some found
  cases known : s.run? row.id with
  | none => simpa using List.find?_eq_none.mp known row member
  | some other =>
    have same := List.inj_on_of_nodup_map coherent.runIds (List.mem_of_find?_eq_some known) member
      (Store.id_of_run? known)
    rw [same]

/-- Whatever happens in a session, a recorded run stays recorded under its name and its number, and
what is to last of its row does. -/
theorem lasts_of_executes {σ σ' : Session Store} {events : List Session.Event} {name : String}
    {row : RunRecord} (reachable : σ.store.Reachable) (recorded : σ.store.findRun name = some row)
    (execution : Executes σ events σ') : ∃ later, σ'.store.findRun name = some later ∧
      σ'.store.run? row.id = some later ∧ row.Lasts later := by
  obtain ⟨later, found, lasts⟩ := execution.keepsRuns name row recorded
  refine ⟨later, found, ?_, lasts⟩
  have coherent := (execution.reachable reachable).coherent
  rw [← lasts.id]
  exact run?_of_findRun coherent found

/-- A run that succeeded at 20 nanoseconds, with an error that was told too late. -/
def endedStore : Store :=
  ((StoreCall.commit ⟨[.run 1 { status := some .completed, finishedAt := some (.utc 20) },
    .run 1 { errorMessage := some "late" }]⟩).perform
      ((StoreCall.insertRun ⟨"x", 1, .queued, none, .null⟩).perform {}).2).2

/-- An update that contradicts a run which has ended in every field. -/
def contradiction : RunUpdate where
  status := some .failed
  finishedAt := some (.utc 30)
  durationSeconds := some 1.0
  errorMessage := some "other"

/-- The contradiction is staged and committed, and the run is still as it ended. -/
theorem lasts_of_executes_endedStore : ∃ σ : Session Store, Executes (.start endedStore)
    [.opened 0, .staged 0 (.run 1 contradiction), .committed 0 (.ok ())] σ ∧
    σ.store.commits = 2 ∧ ∃ later, σ.store.findRun "x" = some later ∧
      later.status = .completed ∧ later.finishedAt = some (.utc 20) ∧
      later.durationSeconds = none ∧ later.errorMessage = some "late" := by
  have opened : Executes (.start endedStore) [.opened 0] _ := .single (.begin rfl)
  have staged : Executes (.start endedStore) [.opened 0, .staged 0 (.run 1 contradiction)] _ :=
    opened.snoc (.stage rfl rfl)
  have committed : Executes (.start endedStore)
      [.opened 0, .staged 0 (.run 1 contradiction), .committed 0 (.ok ())] _ :=
    staged.snoc (.commit rfl rfl)
  refine ⟨_, committed, rfl, ?_⟩
  have reachable : endedStore.Reachable := .call _ (.call _ .empty)
  have recorded : endedStore.findRun "x" = some ⟨1, "x", 1, .completed, none, some (.utc 20), none,
      some "late", [], .null⟩ := rfl
  obtain ⟨later, found, _, lasts⟩ := lasts_of_executes reachable recorded committed
  obtain ⟨status, finishedAt, duration⟩ := lasts.ended rfl
  exact ⟨later, found, status, finishedAt, duration, lasts.errorMessage rfl nofun⟩

end Interleaving

end RunLedger
