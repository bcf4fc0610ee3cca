import RunLedger.Proofs.Reconciling.Alone
import RunLedger.Proofs.Reconciling.Search

/-!
# Runs in a pass

A pass syncs its candidates one after another, and some of the syncs fail. The runs do not see one
another: the rows of a run whose sync succeeded are what that sync alone would have made of the
store from before the pass, and the rows of any other run are what they were. So it does not matter
in which order a pass takes its candidates.
-/

namespace RunLedger.Interleaving

open RunLedger.Sync RunLedger.Time
open Store (SameFor)
open Program (runsIn_bind_iff)

variable {engine : Engine Id} {clock : Instant} {s s' after : Store} {x y : String}
  {pageSize : Nat} {outcome : Except SyncError RunOutcome} {summary : RunSyncSummary}

/-- A sync that succeeds in a store succeeds in any other that is the same for it, and makes the
same rows. -/
theorem syncRun_of_sameFor (same : SameFor x s s') (calm : s.failingCommits = 0)
    (calm' : s'.failingCommits = 0) {done' : Store}
    (synced : (alone engine clock).syncRun x s' = (.ok (.synced summary), done')) :
    ∃ done, (alone engine clock).syncRun x s = (.ok (.synced summary), done) ∧
      done'.rowsOf x = done.rowsOf x := by
  rcases syncRun_cases engine clock s' x with ⟨detail, row, answered, found'⟩ | ⟨_, ended, unsynced⟩
  · have found : s.findRun x = some row := (congrArg RunRows.run same.rows).symm.trans found'
    have spec : s'.outputSpec row.workflowId = s.outputSpec row.workflowId := by
      rw [Store.outputSpec, same.specs]
      rfl
    rw [syncRun_of_found clock calm' answered found', spec] at synced
    cases synced
    refine ⟨_, syncRun_of_found clock calm answered found, ?_⟩
    have owns := owns_planFor found (s.outputSpec row.workflowId) detail clock
    have owns' := owns_planFor found' (s.outputSpec row.workflowId) detail clock
    calc (s'.carryOut (planFor x _ detail row clock).writes).rowsOf x
        = (s'.rowsOf x).carryOut (planFor x _ detail row clock) := Store.rowsOf_carryOut owns'
      _ = (s.rowsOf x).carryOut (planFor x _ detail row clock) := by rw [same.rows]
      _ = (s.carryOut (planFor x _ detail row clock).writes).rowsOf x :=
        (Store.rowsOf_carryOut owns).symm
  · rw [synced] at ended
    cases ended
    exact absurd rfl (unsynced summary)

/-! ## What a sync makes of a store -/

/-- What becomes of a store while a run is synced. -/
structure Settles (engine : Engine Id) (clock : Instant) (s : Store) (x : String)
    (outcome : Except SyncError RunOutcome) (after : Store) : Prop where
  /-- A sync that succeeds does what it does alone. -/
  synced : ∀ summary, outcome = .ok (.synced summary) →
    (alone engine clock).syncRun x s.calm = (.ok (.synced summary), after.calm)
  unsynced : (∀ summary, outcome ≠ .ok (.synced summary)) → SameFor x s after
  others : ∀ name, name ≠ x → SameFor name s after

/-- A sync that stored nothing has settled with the store as it was. -/
theorem settles_of_calm (unsynced : ∀ summary, outcome ≠ .ok (.synced summary))
    (still : after.calm = s.calm) : Settles engine clock s x outcome after where
  synced summary succeeded := absurd succeeded (unsynced summary)
  unsynced _ := Store.sameFor_of_calm still x
  others name _ := Store.sameFor_of_calm still name

/-- A sync settles the run and leaves all others as they are. -/
theorem settles_syncRun {exchanges : List (Exchange Call.Answer)} (coherent : s.Coherent)
    (run : ((reconciler pageSize).syncRun x).RunsIn (steady engine clock) s exchanges outcome
      after) : Settles engine clock s x outcome after := by
  rcases mirrors_syncRun x s exchanges outcome after run with ended | ⟨⟨e, rfl⟩, still⟩
  · rcases syncRun_cases engine clock s.calm x with ⟨detail, row, answered, found⟩ |
      ⟨_, same, unsynced⟩
    · have done := syncRun_of_found clock rfl answered found
      rw [ended] at done
      obtain ⟨succeeded, made⟩ := Prod.mk.inj done
      refine ⟨fun summary succeeded => succeeded ▸ ended, ?_, fun name other => ?_⟩
      · intro unsynced
        exact absurd succeeded (unsynced _)
      · have owns := owns_planFor found (s.calm.outputSpec row.workflowId) detail clock
        have coherent : s.calm.Coherent := { coherent with }
        have kept := Store.sameFor_carryOut coherent owns other
        rw [← made] at kept
        exact ⟨kept.rows, kept.specs⟩
    · rw [ended] at same
      obtain ⟨rfl, still⟩ := Prod.mk.inj same
      exact settles_of_calm unsynced still
  · exact settles_of_calm nofun still

/-! ## The syncs of a conversation -/

/-- Among exchanges is a whole sync of a run that succeeded. -/
def SyncedDuring (pageSize : Nat) (exchanges : List (Exchange Call.Answer)) (x : String)
    (summary : RunSyncSummary) : Prop :=
  ∃ before during after, exchanges = before ++ during ++ after ∧
    ((reconciler pageSize).syncRun x).Runs during (.ok (.synced summary))

def Call.beginsSync : Call → Bool
  | .runDetail _ => true
  | _ => false

variable {exchanges later : List (Exchange Call.Answer)}

/-- A sync begins with its query and has no other. -/
theorem exists_cons_of_runs (sync : ((reconciler pageSize).syncRun x).Runs exchanges outcome) :
    ∃ answer rest, exchanges = ⟨.runDetail x, answer⟩ :: rest ∧
      ∀ e ∈ rest, e.1.beginsSync = false := by
  obtain ⟨next, asked, onwards⟩ := asks_syncRun pageSize x
  rw [asked] at sync
  obtain ⟨answer, rest, rfl, run⟩ := Program.runs_ask_iff.mp sync
  refine ⟨answer, rest, rfl, fun e member => ?_⟩
  have stores := run.allowed (onwards answer) e member
  obtain ⟨call, _⟩ := e
  cases call with
  | runDetail runId => cases stores
  | _ => rfl

theorem SyncedDuring.append_left (synced : SyncedDuring pageSize later x summary)
    (exchanges : List (Exchange Call.Answer)) :
    SyncedDuring pageSize (exchanges ++ later) x summary := by
  obtain ⟨before, during, after, rfl, sync⟩ := synced
  exact ⟨exchanges ++ before, during, after, by simp, sync⟩

/-- No sync begins among exchanges without a query. -/
theorem SyncedDuring.of_append (synced : SyncedDuring pageSize (exchanges ++ later) x summary)
    (quiet : ∀ e ∈ exchanges, e.1.beginsSync = false) : SyncedDuring pageSize later x summary := by
  induction exchanges with
  | nil => exact synced
  | cons e rest ih =>
    obtain ⟨first, others⟩ := List.forall_mem_cons.mp quiet
    obtain ⟨before, during, after, split, sync⟩ := synced
    refine ih ?_ others
    -- A sync begins with its query, and the first exchange is none.
    cases before with
    | nil =>
      obtain ⟨answer, tail, rfl, _⟩ := exists_cons_of_runs sync
      obtain ⟨rfl, _⟩ := List.cons.inj split
      cases first
    | cons b before =>
      exact ⟨before, during, after, (List.cons.inj split).2, sync⟩

/-- Without a question for a run nothing is synced. -/
theorem not_syncedDuring (quiet : ∀ e ∈ exchanges, e.1.beginsSync = false) :
    ¬ SyncedDuring pageSize exchanges x summary := by
  intro synced
  rw [← List.append_nil exchanges] at synced
  obtain ⟨before, during, after, split, sync⟩ := synced.of_append quiet
  obtain ⟨answer, rest, rfl, _⟩ := exists_cons_of_runs sync
  simp at split

/-- What was synced in a conversation that begins with a sync: that run, or one later. -/
theorem syncedDuring_append_iff
    (sync : ((reconciler pageSize).syncRun y).Runs exchanges outcome) :
    SyncedDuring pageSize (exchanges ++ later) x summary ↔
      x = y ∧ outcome = .ok (.synced summary) ∨ SyncedDuring pageSize later x summary := by
  constructor
  · rintro ⟨before, during, after, split, sync'⟩
    obtain ⟨answer, rest, rfl, quiet⟩ := exists_cons_of_runs sync
    cases before with
    | nil =>
      left
      obtain ⟨answer', rest', rfl, _⟩ := exists_cons_of_runs sync'
      have same : x = y := by
        obtain ⟨head, _⟩ := List.cons.inj split
        cases head
        rfl
      subst same
      exact ⟨rfl, (sync.eq_of_append_eq sync' split).2⟩
    | cons b before =>
      -- The sync of `x` begins within that of `y` or after it, and there is no query within.
      right
      have synced : SyncedDuring pageSize (rest ++ later) x summary :=
        ⟨before, during, after, (List.cons.inj split).2, sync'⟩
      exact synced.of_append quiet
  · rintro (⟨rfl, rfl⟩ | synced)
    · exact ⟨[], exchanges, later, rfl, sync⟩
    · exact synced.append_left exchanges

/-! ## Calls that only guide a pass -/

/-- The calls of a pass that do not belong to its syncs. -/
def Call.guidesPass : Call → Bool
  | .recentRuns .. | .store .loadCursor | .store (.storeCursor _) => true
  | _ => false

/-- The search of a pass begins no sync. -/
theorem asks_collect (pageSize : Nat) (cursor : Option Instant) (fuel : Nat) (p : Paging) :
    (collect (reconciler pageSize).engine pageSize cursor fuel p).Asks (·.guidesPass = true) := by
  refine (lists_collect pageSize cursor fuel p).mono fun call lists => ?_
  cases call with
  | recentRuns limit lower upper => rfl
  | _ => cases lists

theorem asks_moveCursor (pageSize : Nat) (before after : Option Instant) :
    ((reconciler pageSize).moveCursor before after).Asks (·.guidesPass = true) := by
  unfold Reconciler.moveCursor
  split
  · split
    · trivial
    · exact ⟨rfl, fun _ => trivial⟩
  · trivial

variable {α : Type} {p : Program Call.Answer α} {result : α}

/-- Calls that only guide a pass change nothing for any sync and begin none. -/
theorem sameFor_of_guides (guides : p.Asks (·.guidesPass = true))
    (run : p.RunsIn (steady engine clock) s exchanges result after) (x : String) :
    SameFor x s after := by
  refine run.rel (SameFor x) (SameFor.refl x) (fun _ _ _ => .trans) ?_ ?_ guides
  · rintro a _ ⟨count, rfl⟩
    exact ⟨rfl, rfl⟩
  · intro a call answer b guide answered
    cases call with
    | recentRuns limit lower upper => exact answered.2 ▸ .refl x _
    | store call =>
      cases call with
      | loadCursor =>
        cases answered
        exact .refl x _
      | storeCursor cursor =>
        cases answered
        exact ⟨rfl, rfl⟩
      | _ => cases guide
    | _ => cases guide

/-- Calls that only guide a pass begin no sync. -/
theorem quiet_of_guides (guides : p.Asks (·.guidesPass = true)) (run : p.Runs exchanges result) :
    ∀ e ∈ exchanges, e.1.beginsSync = false := by
  intro e member
  have guide := run.allowed guides e member
  obtain ⟨call, _⟩ := e
  cases call with
  | runDetail runId => cases guide
  | _ => rfl

/-- The candidates of a pass have different names. -/
theorem nodup_of_collect {cursor : Option Instant} {fuel : Nat} {paging : Paging} {c : Candidates}
    (distinct : (paging.found.map (·.runId)).Nodup)
    (run : (collect (reconciler pageSize).engine pageSize cursor fuel paging).Runs exchanges
      (.ok (some c))) : (c.runs.map (·.runId)).Nodup :=
  runs_of_collect (fun found => (found.map (·.runId)).Nodup)
    (fun _ page => Paging.nodup_foldl_add _ page) distinct run

/-- What can be reached is all that a program makes of it. -/
theorem reachable_of_runsIn (reachable : s.Reachable)
    (run : p.RunsIn (steady engine clock) s exchanges result after) : after.Reachable := by
  induction run with
  | done result w => exact reachable
  | @ask call next answer rest result w now mid after others answered _ ih =>
    obtain ⟨count, rfl⟩ := others
    refine ih ?_
    have disturbed := reachable.failCommits count
    cases call with
    | store call =>
      have called := disturbed.call call
      rwa [show call.perform _ = (answer, mid) from answered] at called
    | _ => exact answered.2 ▸ disturbed

/-! ## Isolation -/

/-- The runs of a pass do not see one another: a run that was synced has the rows that its sync
makes alone of the store from before, and any other run has the rows of that store. -/
structure Isolated (engine : Engine Id) (clock : Instant) (pageSize : Nat) (s : Store)
    (exchanges : List (Exchange Call.Answer)) (after : Store) : Prop where
  synced : ∀ x summary, SyncedDuring pageSize exchanges x summary → ∃ done,
    (alone engine clock).syncRun x s.calm = (.ok (.synced summary), done) ∧
      after.rowsOf x = done.rowsOf x
  unsynced : ∀ x, (∀ summary, ¬ SyncedDuring pageSize exchanges x summary) →
    SameFor x s after

/-- Where nothing is synced and no rows change, every run is isolated. -/
theorem isolated_nil (quiet : ∀ e ∈ exchanges, e.1.beginsSync = false)
    (same : ∀ x, SameFor x s after) : Isolated engine clock pageSize s exchanges after where
  synced _ _ synced := absurd synced (not_syncedDuring quiet)
  unsynced x _ := same x

/-- One more sync, of a run that is not synced again. -/
theorem Isolated.cons {mid : Store}
    (sync : ((reconciler pageSize).syncRun y).Runs exchanges outcome)
    (settles : Settles engine clock s y outcome mid)
    (rest : Isolated engine clock pageSize mid later after)
    (once : ∀ summary, ¬ SyncedDuring pageSize later y summary) :
    Isolated engine clock pageSize s (exchanges ++ later) after where
  synced x summary synced := by
    rcases (syncedDuring_append_iff sync).mp synced with ⟨rfl, succeeded⟩ | synced
    · exact ⟨mid.calm, settles.synced summary succeeded, (rest.unsynced x once).rows⟩
    · have other : x ≠ y := by
        rintro rfl
        exact once summary synced
      -- The sync of `x` comes later and finds for itself what was there before.
      obtain ⟨done', alone', rows'⟩ := rest.synced x summary synced
      have kept := settles.others x other
      have same : SameFor x s.calm mid.calm := ⟨kept.rows, kept.specs⟩
      obtain ⟨done, alone, rows⟩ := syncRun_of_sameFor same rfl rfl alone'
      exact ⟨done, alone, rows'.trans rows⟩
  unsynced x unsynced := by
    have first : SameFor x s mid := by
      by_cases same : x = y
      · subst same
        refine settles.unsynced fun summary succeeded => unsynced summary ?_
        exact (syncedDuring_append_iff sync).mpr (.inl ⟨rfl, succeeded⟩)
      · exact settles.others x same
    refine first.trans (rest.unsynced x fun summary synced => unsynced summary ?_)
    exact synced.append_left exchanges

/-- The syncs of a pass are the sync of the first candidate and then those of the others. -/
theorem runsIn_syncAll_cons_iff {env : Program.Surroundings Call.Answer Store} {c : RunSummary}
    {rest : List RunSummary} {t tally : Tally} :
    ((reconciler pageSize).syncAll t (c :: rest)).RunsIn env s exchanges tally after ↔
      ∃ outcome mid first second, exchanges = first ++ second ∧
        ((reconciler pageSize).syncRun c.runId).RunsIn env s first outcome mid ∧
        ((reconciler pageSize).syncAll (t.add c.updateTime outcome) rest).RunsIn env mid second
          tally after := by
  refine Iff.trans runsIn_bind_iff ⟨?_, ?_⟩
  · rintro ⟨t', mid, first, second, rfl, one, others⟩
    obtain ⟨outcome, mid', sync, _, rfl, one, ended⟩ := runsIn_bind_iff.mp one
    cases ended
    exact ⟨outcome, mid, sync, second, by rw [List.append_nil], one, others⟩
  · rintro ⟨outcome, mid, first, second, rfl, one, others⟩
    have counted : (t.add c.updateTime <$> (reconciler pageSize).syncRun c.runId).RunsIn env s
        (first ++ []) (t.add c.updateTime outcome) mid :=
      runsIn_bind_iff.mpr ⟨outcome, mid, first, [], rfl, one, .done _ mid⟩
    rw [List.append_nil] at counted
    exact ⟨t.add c.updateTime outcome, mid, first, second, rfl, counted, others⟩

/-- The syncs of a pass, and whatever follows without a sync. -/
theorem isolated_syncAll {candidates : List RunSummary} {t tally : Tally}
    (distinct : (candidates.map (·.runId)).Nodup) (reachable : s.Reachable)
    (run : ((reconciler pageSize).syncAll t candidates).RunsIn (steady engine clock) s exchanges
      tally after)
    (quiet : ∀ e ∈ later, e.1.beginsSync = false) :
    Isolated engine clock pageSize s (exchanges ++ later) after ∧
      ∀ x summary, SyncedDuring pageSize (exchanges ++ later) x summary →
        x ∈ candidates.map (·.runId) := by
  induction candidates generalizing t s exchanges with
  | nil =>
    change (Program.done t).RunsIn _ _ _ _ _ at run
    cases run
    exact ⟨isolated_nil quiet fun x => .refl x _,
      fun x summary synced => absurd synced (not_syncedDuring quiet)⟩
  | cons c rest ih =>
    rw [List.map_cons, List.nodup_cons] at distinct
    obtain ⟨outcome, mid, first, second, rfl, one, others⟩ := runsIn_syncAll_cons_iff.mp run
    obtain ⟨isolated, candidates⟩ := ih distinct.2 (reachable_of_runsIn reachable one) others
    rw [List.append_assoc]
    refine ⟨isolated.cons one.runs (settles_syncRun reachable.coherent one) ?_, ?_⟩
    · intro summary synced
      exact distinct.1 (candidates _ summary synced)
    · intro x summary synced
      rcases (syncedDuring_append_iff one.runs).mp synced with ⟨rfl, _⟩ | synced
      · exact List.mem_cons_self ..
      · exact List.mem_cons_of_mem _ (candidates x summary synced)

/-- What happens before and after the syncs without any meaning for them does not matter. -/
theorem Isolated.surround {first : List (Exchange Call.Answer)} {before : Store}
    (isolated : Isolated engine clock pageSize s exchanges s')
    (quiet : ∀ e ∈ first, e.1.beginsSync = false) (earlier : ∀ x, SameFor x before s)
    (later : ∀ x, SameFor x s' after) :
    Isolated engine clock pageSize before (first ++ exchanges) after where
  synced x summary synced := by
    obtain ⟨done', alone', rows'⟩ := isolated.synced x summary (synced.of_append quiet)
    have same : SameFor x before.calm s.calm := ⟨(earlier x).rows, (earlier x).specs⟩
    obtain ⟨done, alone, rows⟩ := syncRun_of_sameFor same rfl rfl alone'
    exact ⟨done, alone, (later x).rows.trans (rows'.trans rows)⟩
  unsynced x unsynced := by
    have during := isolated.unsynced x fun summary synced =>
      unsynced summary (synced.append_left first)
    exact ((earlier x).trans during).trans (later x)

/-- The syncs of a pass are isolated from each other, and moving the cursor changes no rows. -/
theorem isolated_handle {cursor : Option Instant} {c : Candidates}
    {report : Except SyncError TickReport} (distinct : (c.runs.map (·.runId)).Nodup)
    (reachable : s.Reachable)
    (run : ((reconciler pageSize).handle cursor c).RunsIn (steady engine clock) s exchanges report
      after) : Isolated engine clock pageSize s exchanges after := by
  obtain ⟨tally, mid, during, _, rfl, syncs, moves⟩ := runsIn_bind_iff.mp run
  obtain ⟨moved, after', last, _, rfl, moves, ended⟩ := runsIn_bind_iff.mp moves
  have distinct : (c.inOrder.map (·.runId)).Nodup :=
    ((List.mergeSort_perm c.runs _).map _).nodup_iff.mpr distinct
  have guides := asks_moveCursor pageSize cursor
    (nextCursor cursor tally.handledAt tally.failedAt)
  have isolated := isolated_syncAll distinct reachable syncs (quiet_of_guides guides moves.runs)
  have same := sameFor_of_guides guides moves
  have whole : Isolated engine clock pageSize s (during ++ last) after' :=
    isolated.1.surround (List.forall_mem_nil _) (fun x => .refl x s) same
  cases moved <;> cases ended <;> simpa using whole

/-- A whole pass isolates its runs from each other. -/
theorem isolated_tick {fuel : Nat} {report : Except SyncError (Option TickReport)}
    (reachable : s.Reachable)
    (run : ((reconciler pageSize).tick fuel).RunsIn (steady engine clock) s exchanges report
      after) : Isolated engine clock pageSize s exchanges after := by
  obtain ⟨loaded, now, load, _, rfl, loads, run⟩ := runsIn_bind_iff.mp run
  have guides : ((reconciler pageSize).store.loadCursor).Asks (·.guidesPass = true) :=
    ⟨rfl, fun _ => trivial⟩
  have quiet := quiet_of_guides guides loads.runs
  have same := sameFor_of_guides guides loads
  have reachable := reachable_of_runsIn reachable loads
  cases loaded with
  | error e =>
    cases run
    exact (isolated_nil (by simp) fun x => .refl x _).surround quiet same fun x => .refl x _
  | ok cursor =>
    obtain ⟨found, mid, search, rest, rfl, searches, run⟩ := runsIn_bind_iff.mp run
    have guides := asks_collect pageSize cursor fuel (.start pageSize)
    have quiet' := quiet_of_guides guides searches.runs
    have same' := sameFor_of_guides guides searches
    have nothing : Isolated engine clock pageSize mid [] mid :=
      isolated_nil (by simp) fun x => .refl x mid
    have rest : Isolated engine clock pageSize now (search ++ rest) after := by
      match found with
      | .error e =>
        cases run
        exact nothing.surround quiet' same' fun x => .refl x _
      | .ok none =>
        cases run
        exact nothing.surround quiet' same' fun x => .refl x _
      | .ok (some c) =>
        obtain ⟨report, _, handled, _, rfl, handles, ended⟩ := runsIn_bind_iff.mp run
        cases ended
        rw [List.append_nil]
        have distinct := nodup_of_collect (by exact List.nodup_nil) searches.runs
        have isolated := isolated_handle distinct (reachable_of_runsIn reachable searches) handles
        exact isolated.surround quiet' same' fun x => .refl x after
    exact rest.surround quiet same fun x => .refl x after

/-- A sync does not depend on what the engine lists. -/
theorem syncRun_alone_congr {engine' : Engine Id} (same : engine'.runDetail = engine.runDetail)
    (clock : Instant) (x : String) :
    (alone engine' clock).syncRun x = (alone engine clock).syncRun x := by
  obtain ⟨details, listing⟩ := engine
  obtain ⟨details', listing'⟩ := engine'
  obtain rfl : details' = details := same
  rfl

/-- In a pass among failing commits, with an engine whose answers do not change and a clock that
stands still, a run that was synced has the rows that its sync makes alone of the store from before
the pass when no commit is made to fail, and any other run has the rows that it had. So two passes
in which the same runs were synced leave the same rows, in whatever order the engine lists the
runs. -/
theorem rows_of_pass {fuel : Nat} {report : Except SyncError (Option TickReport)}
    (reachable : s.Reachable)
    (pass : ((reconciler pageSize).tick fuel).RunsIn (steady engine clock) s exchanges report
      after) :
    (∀ x summary, SyncedDuring pageSize exchanges x summary → ∃ done,
      (alone engine clock).syncRun x s.calm = (.ok (.synced summary), done) ∧
        after.rowsOf x = done.rowsOf x) ∧
    (∀ x, (∀ summary, ¬ SyncedDuring pageSize exchanges x summary) →
      after.rowsOf x = s.rowsOf x) ∧
    ∀ (engine' : Engine Id) (pageSize' fuel' : Nat) exchanges' report' after',
      engine'.runDetail = engine.runDetail →
      ((reconciler pageSize').tick fuel').RunsIn (steady engine' clock) s exchanges' report'
        after' →
      (∀ x, (∃ summary, SyncedDuring pageSize' exchanges' x summary) ↔
        ∃ summary, SyncedDuring pageSize exchanges x summary) →
      ∀ x, after'.rowsOf x = after.rowsOf x := by
  have isolated := isolated_tick reachable pass
  refine ⟨isolated.synced, fun x unsynced => (isolated.unsynced x unsynced).rows, ?_⟩
  intro engine' pageSize' fuel' exchanges' report' after' sameDetails pass' sameRuns x
  have isolated' := isolated_tick reachable pass'
  by_cases synced : ∃ summary, SyncedDuring pageSize exchanges x summary
  · obtain ⟨summary', synced'⟩ := (sameRuns x).mpr synced
    obtain ⟨summary, synced⟩ := synced
    obtain ⟨done, alone, rows⟩ := isolated.synced x summary synced
    obtain ⟨done', alone', rows'⟩ := isolated'.synced x summary' synced'
    rw [syncRun_alone_congr sameDetails, alone] at alone'
    cases alone'
    rw [rows, rows']
  · have unsynced := not_exists.mp synced
    have unsynced' := not_exists.mp fun synced' => synced ((sameRuns x).mp synced')
    rw [(isolated.unsynced x unsynced).rows, (isolated'.unsynced x unsynced').rows]

/-- Two runs that were updated at 20 and at 10 nanoseconds. -/
def twoRuns : List RunSummary := [⟨"a", "FAILURE", .utc 20, []⟩, ⟨"b", "FAILURE", .utc 10, []⟩]

/-- An engine with two failed runs, each of which says nothing but that. -/
def twoRunsEngine : Engine Id where
  runDetail runId := .ok ⟨runId, "FAILURE", none, none, none, .obj [], []⟩
  recentRuns _ _ _ := .ok twoRuns

/-- A store in which both runs are launched. -/
def twoLaunches : Store :=
  ((StoreCall.insertRun ⟨"b", 1, .queued, none, .null⟩).perform
    ((StoreCall.insertRun ⟨"a", 1, .queued, none, .null⟩).perform {}).2).2

theorem inOrder_twoRuns : (Candidates.mk twoRuns none).inOrder = twoRuns :=
  List.mergeSort_of_pairwise (by decide)

/-- In a pass over two runs the commit for the first is made to fail and the second is synced: the
rows of the first are as before, and those of the second are what its sync makes alone. -/
theorem rows_of_pass_twoRuns : ∃ exchanges report after,
    ((reconciler 3).tick 1).RunsIn (steady twoRunsEngine (.utc 30)) twoLaunches exchanges report
      after ∧ after.commits = 1 ∧ after.rowsOf "a" = twoLaunches.rowsOf "a" ∧
    ∃ done, (alone twoRunsEngine (.utc 30)).syncRun "b" twoLaunches =
      (.ok (.synced ⟨"b", .failed, [], 0, 0, 0⟩), done) ∧ after.rowsOf "b" = done.rowsOf "b" := by
  have load : ((reconciler 3).store.loadCursor).RunsIn (steady twoRunsEngine (.utc 30)) twoLaunches
      _ (.ok none) twoLaunches := runsIn_steady rfl (.done _ _)
  have search : (collect (reconciler 3).engine 3 none 1 (.start 3)).RunsIn
      (steady twoRunsEngine (.utc 30)) twoLaunches _ (.ok (some ⟨twoRuns, none⟩)) twoLaunches :=
    runsIn_steady ⟨rfl, rfl⟩ (.done _ _)
  have failing : ((reconciler 3).syncRun "a").RunsIn (steady twoRunsEngine (.utc 30)) twoLaunches _
      (.error (.store Store.injectedFailure)) twoLaunches :=
    runsIn_steady ⟨rfl, rfl⟩ <| runsIn_steady rfl <| runsIn_steady ⟨rfl, rfl⟩ <|
      runsIn_steady rfl <| runsIn_steady rfl <| .ask ⟨1, rfl⟩ rfl (.done _ _)
  have syncing : ((reconciler 3).syncRun "b").RunsIn (steady twoRunsEngine (.utc 30)) twoLaunches _
      (.ok (.synced ⟨"b", .failed, [], 0, 0, 0⟩)) _ :=
    runsIn_steady ⟨rfl, rfl⟩ <| runsIn_steady rfl <| runsIn_steady ⟨rfl, rfl⟩ <|
      runsIn_steady rfl <| runsIn_steady rfl <| runsIn_steady rfl (.done _ _)
  have syncs : ((reconciler 3).syncAll { failedAt := [] } twoRuns).RunsIn
      (steady twoRunsEngine (.utc 30)) twoLaunches _ _ _ :=
    runsIn_syncAll_cons_iff.mpr ⟨_, _, _, _, rfl, failing,
      runsIn_syncAll_cons_iff.mpr ⟨_, _, _, _, rfl, syncing, .done _ _⟩⟩
  rw [← inOrder_twoRuns] at syncs
  have handled : ((reconciler 3).handle none ⟨twoRuns, none⟩).RunsIn
      (steady twoRunsEngine (.utc 30)) twoLaunches _ _ _ :=
    runsIn_bind_iff.mpr ⟨_, _, _, _, rfl, syncs,
      runsIn_bind_iff.mpr ⟨_, _, _, _, rfl, runsIn_steady rfl (.done _ _), .done _ _⟩⟩
  have pass : ((reconciler 3).tick 1).RunsIn (steady twoRunsEngine (.utc 30)) twoLaunches _ _ _ :=
    runsIn_bind_iff.mpr ⟨_, _, _, _, rfl, load, runsIn_bind_iff.mpr ⟨_, _, _, _, rfl, search,
      runsIn_bind_iff.mpr ⟨_, _, _, _, rfl, handled, .done _ _⟩⟩⟩
  have reachable : twoLaunches.Reachable := .call _ (.call _ .empty)
  obtain ⟨synced, unsynced, _⟩ := rows_of_pass reachable pass
  have synced := synced "b" ⟨"b", .failed, [], 0, 0, 0⟩
    ⟨[_, _, _, _, _, _, _, _], _, [_], rfl, syncing.runs⟩
  refine ⟨_, _, _, pass, rfl, unsynced "a" fun summary during => ?_, synced⟩
  have during := during.of_append (by simp [Call.beginsSync])
  have during := during.of_append (by simp [Call.beginsSync])
  rw [List.append_nil, List.append_assoc, syncedDuring_append_iff failing.runs] at during
  rcases during with ⟨_, impossible⟩ | during
  · cases impossible
  · rw [List.append_assoc, syncedDuring_append_iff syncing.runs] at during
    rcases during with ⟨impossible, _⟩ | during
    · exact absurd impossible (by decide)
    · exact not_syncedDuring (by simp [Call.beginsSync]) during

end RunLedger.Interleaving
