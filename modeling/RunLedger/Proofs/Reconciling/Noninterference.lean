import RunLedger.Proofs.Reconciling.Alone
import RunLedger.Proofs.Reconciling.Overlap
import RunLedger.Proofs.Sync.Noise

/-!
# Syncs with and without noise

Two syncs of a run start from one store at one time, and the engine of the second tells the history
of the first with some noise inserted. Documents that are no events are counted, and the two stores
are equal. Events of unknown types leave the outcome as it is; the stores may differ in the end and
the duration of the run, and only if it is the sync that ends the run, at a time that the engine did
not tell (`syncRun_noise`).
-/

namespace RunLedger.Interleaving

open RunLedger.Sync RunLedger.Time
open EngineEvent (Malformed Foreign)

variable {engine engine' : Engine Id} {clock : Instant} {s : Store} {x : String} {run : RunRecord}
  {detail : RunDetail} {events' : List Json} {n : Nat}

/-- The outcome of a sync that counted so many more unreadable events. -/
def dropping (n : Nat) : Except SyncError RunOutcome → Except SyncError RunOutcome
  | .ok (.synced summary) =>
    .ok (.synced { summary with droppedEvents := summary.droppedEvents + n })
  | outcome => outcome

/-- Two stores that two syncs of a run leave are the same, but that the run may have ended apart if
the engine told no end. -/
structure SameButEnd (endTime : Option Instant) (name : String) (before left right : Store) :
    Prop where
  rest : right = { left with runs := right.runs }
  runs : ∀ i : Nat, right.runs[i]? = left.runs[i]? ∨
    endTime = none ∧ ∃ run row ended ended', before.findRun name = some run ∧ row.id = run.id ∧
      before.runs[i]? = some row ∧ left.runs[i]? = some ended ∧ right.runs[i]? = some ended' ∧
      row.EndedApart ended ended'

theorem SameButEnd.refl (endTime : Option Instant) (name : String) (before after : Store) :
    SameButEnd endTime name before after after :=
  ⟨rfl, fun _ => .inl rfl⟩

/-! ## Documents that are no events -/

/-- Malformed events change nothing that a sync stores, and are counted in its summary. -/
theorem syncRun_of_malformed (answered : engine.runDetail x = .ok detail)
    (answered' : engine'.runDetail x = .ok { detail with events := events' })
    (inserted : Inserted Malformed detail.events events' n) :
    (alone engine' clock).syncRun x s =
      (dropping n ((alone engine clock).syncRun x s).1, ((alone engine clock).syncRun x s).2) := by
  cases found : s.findRun x with
  | none =>
    rw [syncRun_of_unrecorded clock answered found, syncRun_of_unrecorded clock answered' found]
    rfl
  | some run =>
    let spec := s.outputSpec run.workflowId
    let locations := locationsFor spec detail run clock
    have samePlan : planFor x spec { detail with events := events' } run clock =
      planFor x spec detail run clock := planOf_of_malformed inserted
    have sameSummary : summaryOf x run { detail with events := events' } locations =
      { summaryOf x run detail locations with
        droppedEvents := (summaryOf x run detail locations).droppedEvents + n } :=
      summaryOf_of_malformed inserted
    cases committed : s.commit ⟨(planFor x spec detail run clock).writes⟩ with
    | mk answer after =>
      have committed' := committed
      rw [← samePlan] at committed'
      rw [syncRun_of_commit answered found committed, syncRun_of_commit answered' found committed']
      cases answer with
      | error e => rfl
      | ok _ =>
        exact congrArg (fun summary => (Except.ok (RunOutcome.synced summary), after)) sameSummary

/-! ## Events of unknown types -/

/-- Two updates of a run that tell different ends make the same rows, but that the run may end
apart. -/
theorem getElem?_updateRuns_of_finishedAt {u u' : RunUpdate} {status : RunStatus}
    (hasStatus : u.status = some status) (differs : u' = { u with finishedAt := u'.finishedAt })
    (runId : RunId) (runs : List RunRecord) (i : Nat) :
    (Store.updateRuns runId u' runs)[i]? = (Store.updateRuns runId u runs)[i]? ∨
      ∃ row ended ended', row.id = runId ∧ runs[i]? = some row ∧
        (Store.updateRuns runId u runs)[i]? = some ended ∧
        (Store.updateRuns runId u' runs)[i]? = some ended' ∧ row.EndedApart ended ended' := by
  simp only [Store.updateRuns, List.getElem?_map]
  cases here : runs[i]? with
  | none => exact .inl rfl
  | some row =>
    by_cases own : row.id = runId
    · subst own
      simp only [Option.map_some, beq_self_eq_true, if_true, Option.some.injEq]
      rcases row.merge_of_finishedAt hasStatus differs with same | apart
      · exact .inl same
      · exact .inr ⟨row, _, _, rfl, rfl, rfl, rfl, apart⟩
    · left
      simp [own]

/-- The plans of the two syncs make the same rows of a store, but for the end of the run. -/
theorem sameButEnd_carryOut (inserted : Inserted Foreign detail.events events' n)
    (found : s.findRun x = some run) (spec : OutputSpec) (clock : Instant) :
    SameButEnd detail.endTime x s (s.carryOut (planFor x spec detail run clock).writes)
      (s.carryOut (planFor x spec { detail with events := events' } run clock).writes) := by
  let u := updateFor spec detail run clock
  let u' := updateFor spec { detail with events := events' } run clock
  have plan' : planFor x spec { detail with events := events' } run clock =
      { planFor x spec detail run clock with update := u' } := planOf_of_foreign inserted
  rw [plan', Store.carryOut, Store.carryOut, Store.foldl_apply_writes, Store.foldl_apply_writes]
  refine ⟨rfl, fun i => ?_⟩
  change (Store.updateRuns run.id u' s.runs)[i]? = (Store.updateRuns run.id u s.runs)[i]? ∨ _
  cases told : detail.endTime with
  | some finish =>
    have same : u' = u := updateOf_of_endTime inserted told
    exact .inl (by rw [same])
  | none =>
    have differs : u' = { u with finishedAt := u'.finishedAt } := updateOf_of_foreign inserted
    refine (getElem?_updateRuns_of_finishedAt rfl differs run.id s.runs i).imp_right ?_
    rintro ⟨row, ended, ended', own, here, left, right, apart⟩
    exact ⟨rfl, run, row, ended, ended', found, own, here, left, right, apart⟩

/-- Events of unknown types change at most the end of a run, where the engine does not tell it. -/
theorem syncRun_of_foreign (answered : engine.runDetail x = .ok detail)
    (answered' : engine'.runDetail x = .ok { detail with events := events' })
    (inserted : Inserted Foreign detail.events events' n) :
    ((alone engine' clock).syncRun x s).1 = ((alone engine clock).syncRun x s).1 ∧
      SameButEnd detail.endTime x s ((alone engine clock).syncRun x s).2
        ((alone engine' clock).syncRun x s).2 := by
  cases found : s.findRun x with
  | none =>
    rw [syncRun_of_unrecorded clock answered found, syncRun_of_unrecorded clock answered' found]
    exact ⟨rfl, .refl ..⟩
  | some run =>
    by_cases calm : s.failingCommits = 0
    · rw [syncRun_of_found clock calm answered found, syncRun_of_found clock calm answered' found]
      constructor
      · exact congrArg (fun summary => Except.ok (RunOutcome.synced summary))
          (summaryOf_of_foreign inserted)
      · exact sameButEnd_carryOut inserted found _ clock
    · rw [syncRun_of_commit answered found (Store.commit_of_pending _ calm),
        syncRun_of_commit answered' found (Store.commit_of_pending _ calm)]
      exact ⟨rfl, .refl ..⟩

/-! ## Noise -/

/-- Documents that are no events are counted and change nothing. Events of unknown types change
neither the outcome nor a row, but for the end and the duration of the run if the sync ends the run
and the engine told no end. -/
theorem syncRun_noise (answered : engine.runDetail x = .ok detail) (clock : Instant) (s : Store) :
    (∀ (engine' : Engine Id) (events' : List Json) (n : Nat),
      engine'.runDetail x = .ok { detail with events := events' } →
      Inserted Malformed detail.events events' n →
      (alone engine' clock).syncRun x s =
        (dropping n ((alone engine clock).syncRun x s).1, ((alone engine clock).syncRun x s).2)) ∧
    (∀ (engine' : Engine Id) (events' : List Json) (n : Nat),
      engine'.runDetail x = .ok { detail with events := events' } →
      Inserted Foreign detail.events events' n →
      ((alone engine' clock).syncRun x s).1 = ((alone engine clock).syncRun x s).1 ∧
      SameButEnd detail.endTime x s ((alone engine clock).syncRun x s).2
        ((alone engine' clock).syncRun x s).2) :=
  ⟨fun _ _ _ answered' inserted => syncRun_of_malformed answered answered' inserted,
    fun _ _ _ answered' inserted => syncRun_of_foreign answered answered' inserted⟩

/-- An engine that answers alike for every run. -/
def telling (detail : RunDetail) : Engine Id where
  runDetail _ := .ok detail
  recentRuns _ _ _ := .ok []

/-- A step started. -/
def stepStartEvent : Json :=
  .obj [("__typename", .str "ExecutionStepStartEvent"), ("stepKey", .str "load"),
    ("timestamp", .str "1700000000")]

/-- The engine took up the run, which is nothing that the ledger keeps. -/
def engineEvent : Json :=
  .obj [("__typename", .str "EngineEvent"), ("timestamp", .str "1700000100")]

/-- A run that succeeded without saying when, after a step. -/
def oneStepDetail : RunDetail := { timelessDetail with events := [stepStartEvent] }

/-- Two malformed documents around the event of a run, and an event of an unknown type before it. -/
theorem syncRun_noise_oneStepDetail :
    (telling oneStepDetail).runDetail "x" = .ok oneStepDetail ∧
    (Inserted Malformed oneStepDetail.events [.null, stepStartEvent, .obj []] 2 ∧
      (alone (telling { oneStepDetail with events := [.null, stepStartEvent, .obj []] })
          (.utc 10)).syncRun "x" launchedStore =
        (dropping 2 ((alone (telling oneStepDetail) (.utc 10)).syncRun "x" launchedStore).1,
          ((alone (telling oneStepDetail) (.utc 10)).syncRun "x" launchedStore).2)) ∧
    (Inserted Foreign oneStepDetail.events [engineEvent, stepStartEvent] 1 ∧
      ((alone (telling { oneStepDetail with events := [engineEvent, stepStartEvent] })
          (.utc 10)).syncRun "x" launchedStore).1 =
        ((alone (telling oneStepDetail) (.utc 10)).syncRun "x" launchedStore).1 ∧
      SameButEnd none "x" launchedStore
        ((alone (telling oneStepDetail) (.utc 10)).syncRun "x" launchedStore).2
        ((alone (telling { oneStepDetail with events := [engineEvent, stepStartEvent] })
          (.utc 10)).syncRun "x" launchedStore).2) := by
  have malformed : Inserted Malformed oneStepDetail.events [.null, stepStartEvent, .obj []] 2 :=
    .insert nofun (.keep _ (.insert nofun .nil))
  have foreign : Inserted Foreign oneStepDetail.events [engineEvent, stepStartEvent] 1 :=
    .insert ⟨"EngineEvent", rfl, by decide⟩ (.keep _ .nil)
  have answered : (telling oneStepDetail).runDetail "x" = .ok oneStepDetail := rfl
  have noise := syncRun_noise answered (.utc 10) launchedStore
  exact ⟨answered, ⟨malformed, noise.1 _ _ _ rfl malformed⟩, foreign, noise.2 _ _ _ rfl foreign⟩

end RunLedger.Interleaving
