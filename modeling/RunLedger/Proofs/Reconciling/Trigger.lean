import RunLedger.Proofs.Reconciling.Isolation
import RunLedger.Proofs.Reconciling.Noninterference

/-!
# Syncs on demand

A sync on demand carries out the plan of its run, or it leaves every row as it is and says so
(`trigger_cases`). Its response is made from the row that was read before the commit, while the
store decides again when it commits whether the output locations are settled. The two decisions
agree, so the locations in the response are those that are stored afterwards. So is the status,
unless the run had ended before the sync.
-/

namespace RunLedger.Sync

open RunLedger.Time (Instant)

variable {row : RunRecord} {detail : RunDetail} {spec : OutputSpec} {now : Instant} {x : String}

/-! ## What is stored of an answer -/

/-- Locations are resolved only for a run whose locations are not settled, so the store never keeps
others than those that the sync has in hand. -/
theorem outputLocations_merge_updateFor (spec : OutputSpec) (detail : RunDetail) (row : RunRecord)
    (now : Instant) : (row.merge (updateFor spec detail row now)).outputLocations =
      (locationsFor spec detail row now).getD row.outputLocations := by
  rw [RunRecord.merge_outputLocations]
  cases settled : row.locationsSettled with
  | false => exact if_neg Bool.false_ne_true
  | true =>
    have unresolved : locationsFor spec detail row now = none := by
      unfold locationsFor needsLocations
      rw [settled, Bool.not_true, Bool.and_false, if_neg Bool.false_ne_true]
    rw [if_pos rfl, unresolved, Option.getD_none]

/-- An ended run keeps its status. -/
theorem status_merge_of_ended (ended : row.status.isTerminal = true) (u : RunUpdate) :
    (row.merge u).status = row.status := by
  rw [RunRecord.merge_of_ended ended]

/-- A running run takes the status that the engine tells. -/
theorem status_merge_updateFor (running : row.status.isTerminal = false) :
    (row.merge (updateFor spec detail row now)).status = RunStatus.ofEngine detail.status := by
  cases final : (RunStatus.ofEngine detail.status).isTerminal with
  | true => rw [RunRecord.merge_of_ending running rfl final]
  | false => rw [RunRecord.merge_of_running running rfl final]

/-! ## Responses -/

/-- The run is missing, or the sync failed. -/
def TriggerResponse.Declines (response : TriggerResponse) : Prop :=
  ∃ message, response = .notFound message ∨ response = .error message

/-- Without a sync the response declines. -/
theorem TriggerResponse.ofOutcome_declines {outcome : Except SyncError RunOutcome}
    (unsynced : ∀ summary, outcome ≠ .ok (.synced summary)) : (ofOutcome x outcome).Declines := by
  match outcome with
  | .ok (.synced summary) => exact absurd rfl (unsynced summary)
  | .ok .engineRunMissing | .ok .localRunMissing => exact ⟨_, .inl rfl⟩
  | .error e => exact ⟨_, .inr rfl⟩

end RunLedger.Sync

namespace RunLedger.Interleaving

open RunLedger.Sync RunLedger.Time
open Store (SameFor)

variable {engine : Engine Id} {clock : Instant} {s after : Store} {x : String}
  {response : TriggerResponse}

/-- The response to a sync that stored what the engine answered. -/
def responseFor (x : String) (spec : OutputSpec) (detail : RunDetail) (row : RunRecord)
    (now : Instant) : TriggerResponse :=
  .ofOutcome x (.ok (.synced (summaryOf x row detail (locationsFor spec detail row now))))

/-- A sync on demand does what a sync does, and answers for it. -/
theorem trigger_of_syncRun {outcome : Except SyncError RunOutcome}
    (ended : (alone engine clock).syncRun x s = (outcome, after)) :
    (alone engine clock).trigger x s = (.ofOutcome x outcome, after) := by
  change (TriggerResponse.ofOutcome x ((alone engine clock).syncRun x s).1,
    ((alone engine clock).syncRun x s).2) = _
  rw [ended]

/-- All that a sync on demand can do: it carries out the plan of its run, or it declines and uses up
at most one of the failures that are to come. -/
theorem trigger_cases (ran : (alone engine clock).trigger x s = (response, after)) :
    (∃ detail row, engine.runDetail x = .ok detail ∧ s.findRun x = some row ∧
      s.failingCommits = 0 ∧
      response = responseFor x (s.outputSpec row.workflowId) detail row clock ∧
      after = s.carryOut (planFor x (s.outputSpec row.workflowId) detail row clock).writes) ∨
    (response.Declines ∧ ∃ left, after = { s with failingCommits := left }) := by
  rcases syncRun_cases engine clock s x with
    ⟨detail, row, answered, found⟩ | ⟨outcome, ended, unsynced⟩
  · by_cases calm : s.failingCommits = 0
    · have ended := trigger_of_syncRun (syncRun_of_found clock calm answered found)
      cases ended.symm.trans ran
      exact .inl ⟨detail, row, answered, found, calm, rfl, rfl⟩
    · have failed := Store.commit_of_pending
        ⟨(planFor x (s.outputSpec row.workflowId) detail row clock).writes⟩ calm
      have ended := trigger_of_syncRun (syncRun_of_commit answered found failed)
      cases ended.symm.trans ran
      exact .inr ⟨⟨_, .inr rfl⟩, _, rfl⟩
  · cases (trigger_of_syncRun ended).symm.trans ran
    exact .inr ⟨TriggerResponse.ofOutcome_declines unsynced, s.failingCommits, rfl⟩

/-! ## What a sync on demand touches -/

/-- Two stores have the same cursor, and the same rows of all runs but one. -/
structure OnlyIn (x : String) (before after : Store) : Prop where
  cursor : after.cursor = before.cursor
  others : ∀ name, name ≠ x → SameFor name before after

/-- A sync on demand leaves the cursor and all other runs as they are. -/
theorem onlyIn_trigger (coherent : s.Coherent)
    (ran : (alone engine clock).trigger x s = (response, after)) : OnlyIn x s after := by
  rcases trigger_cases ran with ⟨detail, row, _, found, _, rfl, rfl⟩ | ⟨_, left, rfl⟩
  · exact ⟨StoreCall.foldl_apply_cursor _ s,
      fun name other => Store.sameFor_carryOut coherent (owns_planFor found _ detail clock) other⟩
  · exact ⟨rfl, fun name _ => ⟨rfl, rfl⟩⟩

/-! ## Syncs on demand in turn -/

/-- A plan that is carried out leads to a reachable store. -/
theorem reachable_carryOut {p : Plan} {row : RunRecord} (reachable : s.Reachable)
    (calm : s.failingCommits = 0) (owns : s.Owns p row) : (s.carryOut p.writes).Reachable := by
  have committed := reachable.call (.commit ⟨p.writes⟩)
  rwa [show (StoreCall.commit ⟨p.writes⟩).perform s = _ from
    Store.commit_of_knows _ calm owns.knows] at committed

/-- What a sync on demand makes of a store that can be reached can be reached. -/
theorem reachable_trigger (reachable : s.Reachable)
    (ran : (alone engine clock).trigger x s = (response, after)) : after.Reachable := by
  rcases trigger_cases ran with ⟨detail, row, _, found, calm, rfl, rfl⟩ | ⟨_, left, rfl⟩
  · exact reachable_carryOut reachable calm (owns_planFor found _ detail clock)
  · exact reachable.failCommits left

/-- A request for a sync, with the engine and the clock as they are when it comes. -/
structure Demand where
  engine : Engine Id
  clock : Instant
  runId : String

/-- Meets requests one after another. -/
def meet (s : Store) (demands : List Demand) : Store :=
  demands.foldl (fun s d => ((alone d.engine d.clock).trigger d.runId s).2) s

/-- Syncs on demand lead to reachable stores. -/
theorem reachable_meet (reachable : s.Reachable) (demands : List Demand) :
    (meet s demands).Reachable := by
  induction demands generalizing s with
  | nil => exact reachable
  | cons d rest ih => exact ih (reachable_trigger reachable rfl)

/-- However many syncs are asked for, none of them moves the cursor. -/
theorem cursor_meet (reachable : s.Reachable) (demands : List Demand) :
    (meet s demands).cursor = s.cursor := by
  induction demands generalizing s with
  | nil => rfl
  | cons d rest ih =>
    have first : OnlyIn d.runId s ((alone d.engine d.clock).trigger d.runId s).2 :=
      onlyIn_trigger reachable.coherent rfl
    exact (ih (reachable_trigger reachable rfl)).trans first.cursor

/-- A run that is never asked for keeps its rows. -/
theorem sameFor_meet {name : String} (reachable : s.Reachable) {demands : List Demand}
    (unasked : name ∉ demands.map (·.runId)) : SameFor name s (meet s demands) := by
  induction demands generalizing s with
  | nil => exact .refl name s
  | cons d rest ih =>
    rw [List.map_cons, List.mem_cons, not_or] at unasked
    obtain ⟨other, unasked⟩ := unasked
    have first : OnlyIn d.runId s ((alone d.engine d.clock).trigger d.runId s).2 :=
      onlyIn_trigger reachable.coherent rfl
    exact (first.others name other).trans (ih (reachable_trigger reachable rfl) unasked)

/-! ## What a sync on demand reports -/

/-- What a response says of its run, given the stores before and after the sync. A run that had
ended keeps its status, whatever the response says. -/
def Reports (x : String) (before after : Store) : TriggerResponse → Prop
  | .synced _ status locations _ => ∃ row row', before.findRun x = some row ∧
      after.findRun x = some row' ∧ row'.outputLocations = locations ∧
      if row.status.isTerminal then row'.status = row.status else row'.status.text = status
  | .notFound _ | .error _ => Store.SameRows before after

/-- A response that declines reports that nothing has changed. -/
theorem reports_of_declines (declines : response.Declines) (left : Nat) :
    Reports x s { s with failingCommits := left } response := by
  obtain ⟨message, rfl | rfl⟩ := declines
  · exact ⟨rfl, rfl, rfl⟩
  · exact ⟨rfl, rfl, rfl⟩

/-- The response to a sync reports what is in the store after it. -/
theorem reports_carryOut {row : RunRecord} (found : s.findRun x = some row) (spec : OutputSpec)
    (detail : RunDetail) (now : Instant) :
    Reports x s (s.carryOut (planFor x spec detail row now).writes)
      (responseFor x spec detail row now) := by
  refine ⟨row, _, found, Store.findRun_carryOut_self (owns_planFor found spec detail now),
    outputLocations_merge_updateFor spec detail row now, ?_⟩
  cases ended : row.status.isTerminal with
  | true => exact status_merge_of_ended ended _
  | false => exact congrArg RunStatus.text (status_merge_updateFor ended)

/-- A sync on demand touches the rows of its run alone, and its response tells what is stored: if
it declines, that no row has changed, and else the output locations and the status of the run. -/
theorem trigger_exact (reachable : s.Reachable)
    (ran : (alone engine clock).trigger x s = (response, after)) :
    OnlyIn x s after ∧ Reports x s after response := by
  refine ⟨onlyIn_trigger reachable.coherent ran, ?_⟩
  rcases trigger_cases ran with ⟨detail, row, _, found, _, rfl, rfl⟩ | ⟨declines, left, rfl⟩
  · exact reports_carryOut found _ detail clock
  · exact reports_of_declines declines left

/-- Two launched runs of a workflow that writes one file. -/
def declaredLaunches : Store := twoLaunches.declareOutput 1 (.pattern "/out")

/-- A request that finds the first run successful. -/
def succeeding : Demand := ⟨telling ⟨"a", "SUCCESS", none, none, none, .obj [], []⟩, .utc 10, "a"⟩

/-- The engine takes back a success. The response gives the status that the engine has now, and the
output location that was stored before; the row keeps both its status and its location. -/
theorem trigger_exact_relapse :
    (meet declaredLaunches [succeeding]).Reachable ∧
    ∃ after, (alone twoRunsEngine (.utc 20)).trigger "a" (meet declaredLaunches [succeeding]) =
        (.synced true "failed" [⟨"/out", none, none⟩] 0, after) ∧
      OnlyIn "a" (meet declaredLaunches [succeeding]) after ∧
      Reports "a" (meet declaredLaunches [succeeding]) after
        (.synced true "failed" [⟨"/out", none, none⟩] 0) := by
  have reachable : (meet declaredLaunches [succeeding]).Reachable :=
    reachable_meet (.declare _ _ (.call _ (.call _ .empty))) _
  have located : Output.resolveOrNone (.obj []) (.pattern "/out") (.utc 10) =
      [⟨"/out", none, none⟩] := by decide +kernel
  have ran : (alone twoRunsEngine (.utc 20)).trigger "a" (meet declaredLaunches [succeeding]) =
      (.synced true "failed" (Output.resolveOrNone (.obj []) (.pattern "/out") (.utc 10)) 0, _) :=
    rfl
  rw [located] at ran
  exact ⟨reachable, _, ran, trigger_exact reachable ran⟩

end RunLedger.Interleaving
