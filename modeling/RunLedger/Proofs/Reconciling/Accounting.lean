import RunLedger.Proofs.Reconciling.Handling
import RunLedger.Proofs.Reconciling.Isolation

/-!
# The account of a pass

A pass uses a store that nobody else writes to, and an engine of which nothing is known: whatever it
answers, a pass that ends without a report has changed nothing, and the report of any other pass is
true (`Accounts`). Its numbers are those of the candidates that it visited, the stored cursor is the
one that it tells, and it lies before every candidate that failed.
-/

namespace RunLedger.Interleaving

open RunLedger.Sync RunLedger.Time
open Program (runsIn_bind_iff runsIn_ask_iff)

/-! ## An engine and a store -/

/-- What an engine and a clock may answer to a call. -/
abbrev Manner : Type := (call : Call) → call.Answer → Prop

/-- How a call is answered by an engine and a clock with a manner and by a store, and the store that
is left. -/
def AnswersIn (manner : Manner) (s : Store) : (call : Call) → call.Answer → Store → Prop
  | .store call, answer, after => call.perform s = (answer, after)
  | .runDetail runId, answer, after => manner (.runDetail runId) answer ∧ after = s
  | .recentRuns limit lower upper, answer, after =>
    manner (.recentRuns limit lower upper) answer ∧ after = s
  | .now, answer, after => manner .now answer ∧ after = s

/-- The surroundings in which others do nothing but make the next commits fail. -/
def facing (manner : Manner) : Program.Surroundings Call.Answer Store where
  others s s' := ∃ count, s' = { s with failingCommits := count }
  answers := AnswersIn manner

variable {manner : Manner} {pageSize fuel : Nat} {cursor : Option Instant} {c : Candidates}
  {s mid after : Store} {exchanges : List (Exchange Call.Answer)} {α : Type}
  {p : Program Call.Answer α} {result : α}

/-- A program that leaves the cursor alone leaves it alone in a store. -/
theorem cursor_of_still (still : Still p)
    (run : p.RunsIn (facing manner) s exchanges result after) : after.cursor = s.cursor := by
  refine run.same (·.cursor) ?_ ?_ still
  · rintro a _ ⟨count, rfl⟩
    rfl
  · intro a call answer b still answered
    cases call with
    | store call =>
        have same := StoreCall.perform_cursor still a
        rwa [show call.perform a = (answer, b) from answered] at same
    | runDetail runId | recentRuns limit lower upper | now => rw [answered.2]

/-- Listings change nothing in a store. -/
theorem calm_of_lists (lists : p.Asks (·.lists = true))
    (run : p.RunsIn (facing manner) s exchanges result after) : after.calm = s.calm := by
  refine run.same Store.calm ?_ ?_ lists
  · rintro a _ ⟨count, rfl⟩
    rfl
  · intro a call answer b lists answered
    cases call with
    | recentRuns limit lower upper => rw [answered.2]
    | store call | runDetail runId | now => cases lists

/-! ## Visits -/

/-- What a pass did about a candidate. -/
structure Visit where
  run : RunSummary
  outcome : Except SyncError RunOutcome
  exchanges : List (Exchange Call.Answer)

namespace Visit

/-- Whether the run was synced. -/
def synced (v : Visit) : Bool :=
  match v.outcome with
  | .ok (.synced _) => true
  | _ => false

/-- Whether the engine or the store did not know the run. -/
def skipped (v : Visit) : Bool :=
  match v.outcome with
  | .ok .engineRunMissing | .ok .localRunMissing => true
  | _ => false

/-- Whether the sync failed. -/
def failed (v : Visit) : Bool :=
  match v.outcome with
  | .error _ => true
  | _ => false

/-- A visit that did not fail synced its run or skipped it. -/
theorem failed_eq_false_iff {v : Visit} :
    v.failed = false ↔ v.synced = true ∨ v.skipped = true := by
  obtain ⟨run, outcome, exchanges⟩ := v
  match outcome with
  | .ok (.synced _) | .ok .engineRunMissing | .ok .localRunMissing | .error _ =>
      simp [failed, synced, skipped]

/-- Counts a visit. -/
def count (t : Tally) (v : Visit) : Tally := t.add v.run.updateTime v.outcome

end Visit

/-- What a tally has to say after some visits. -/
structure Counts (before : Tally) (visits : List Visit) (tally : Tally) : Prop where
  synced : tally.synced = before.synced + visits.countP (·.synced)
  skipped : tally.skipped = before.skipped + visits.countP (·.skipped)
  failed : tally.failed = before.failed + visits.countP (·.failed)
  total : tally.synced + tally.skipped + tally.failed =
    before.synced + before.skipped + before.failed + visits.length
  handledAt : tally.handledAt =
    before.handledAt ++ (visits.filter (!·.failed)).map (·.run.updateTime)
  failedAt : tally.failedAt = before.failedAt ++ (visits.filter (·.failed)).map (·.run.updateTime)

theorem counts_nil (t : Tally) : Counts t [] t where
  synced := rfl
  skipped := rfl
  failed := rfl
  total := rfl
  handledAt := (List.append_nil _).symm
  failedAt := (List.append_nil _).symm

/-- Each visit is counted once, and its time is among those handled or those failed. -/
theorem counts_one (t : Tally) (v : Visit) : Counts t [v] (Visit.count t v) := by
  obtain ⟨run, outcome, exchanges⟩ := v
  match outcome with
  | .ok (.synced _) =>
      refine ⟨rfl, rfl, rfl, ?_, rfl, (List.append_nil _).symm⟩
      show t.synced + 1 + t.skipped + t.failed = t.synced + t.skipped + t.failed + 1
      omega
  | .ok .engineRunMissing | .ok .localRunMissing =>
      refine ⟨rfl, rfl, rfl, ?_, rfl, (List.append_nil _).symm⟩
      show t.synced + (t.skipped + 1) + t.failed = t.synced + t.skipped + t.failed + 1
      omega
  | .error _ => exact ⟨rfl, rfl, rfl, rfl, (List.append_nil _).symm, rfl⟩

theorem Counts.trans {first second third : Tally} {earlier later : List Visit}
    (counted : Counts first earlier second) (counted' : Counts second later third) :
    Counts first (earlier ++ later) third where
  synced := by rw [counted'.synced, counted.synced, List.countP_append, Nat.add_assoc]
  skipped := by rw [counted'.skipped, counted.skipped, List.countP_append, Nat.add_assoc]
  failed := by rw [counted'.failed, counted.failed, List.countP_append, Nat.add_assoc]
  total := by rw [counted'.total, counted.total, List.length_append, Nat.add_assoc]
  handledAt := by
    rw [counted'.handledAt, counted.handledAt, List.filter_append, List.map_append,
      List.append_assoc]
  failedAt := by
    rw [counted'.failedAt, counted.failedAt, List.filter_append, List.map_append,
      List.append_assoc]

/-- The candidates were visited in turn, each by a sync of its own. -/
structure Visits (pageSize : Nat) (candidates : List RunSummary) (visits : List Visit)
    (exchanges : List (Exchange Call.Answer)) : Prop where
  runs : visits.map (·.run) = candidates
  syncs : ∀ v ∈ visits, ((reconciler pageSize).syncRun v.run.runId).Runs v.exchanges v.outcome
  exchanges_eq : exchanges = visits.flatMap (·.exchanges)

/-- Each candidate is visited in turn, and counted once. -/
theorem visits_of_syncAll {env : Program.Surroundings Call.Answer Store}
    {candidates : List RunSummary} {t tally : Tally}
    (run : ((reconciler pageSize).syncAll t candidates).RunsIn env s exchanges tally after) :
    ∃ visits, Visits pageSize candidates visits exchanges ∧ Counts t visits tally := by
  induction candidates generalizing t s exchanges with
  | nil =>
      change (Program.done t).RunsIn _ _ _ _ _ at run
      cases run
      exact ⟨[], ⟨rfl, nofun, rfl⟩, counts_nil _⟩
  | cons candidate candidates ih =>
      obtain ⟨outcome, mid, first, second, rfl, one, others⟩ := runsIn_syncAll_cons_iff.mp run
      obtain ⟨visits, ⟨rfl, syncs, rfl⟩, counted⟩ := ih others
      refine ⟨⟨candidate, outcome, first⟩ :: visits, ⟨rfl, ?_, rfl⟩, ?_⟩
      · exact List.forall_mem_cons.mpr ⟨one.runs, syncs⟩
      · exact (counts_one t ⟨candidate, outcome, first⟩).trans counted

/-- The syncs of a pass leave the cursor alone. -/
theorem still_syncAll (candidates : List RunSummary) (t : Tally) :
    Still ((reconciler pageSize).syncAll t candidates) := by
  induction candidates generalizing t with
  | nil => trivial
  | cons candidate candidates ih =>
      have one : Still (t.add candidate.updateTime <$>
          (reconciler pageSize).syncRun candidate.runId) :=
        (still_syncRun candidate.runId).bind fun _ => trivial
      exact one.bind ih

/-! ## Moving the cursor -/

/-- A cursor that has not moved is not stored; any other one is. -/
theorem moveCursor_cases {next : Option Instant} {handled failed : List Instant}
    {moved : Except StoreError Unit} (isNext : nextCursor s.cursor handled failed = next)
    (run : ((reconciler pageSize).moveCursor s.cursor next).RunsIn (facing manner) s exchanges moved
      after) :
    moved = .ok () ∧ after.cursor = next ∧ (next = s.cursor → exchanges = [] ∧ after = s) := by
  unfold Reconciler.moveCursor at run
  cases next with
  | none =>
      have kept : s.cursor = none := by
        rcases nextCursor_eq_or s.cursor handled failed with same | ⟨t, _, other, _⟩
        · exact same.symm.trans isNext
        · cases isNext.symm.trans other
      cases run
      exact ⟨rfl, kept, fun _ => ⟨rfl, rfl⟩⟩
  | some t =>
      dsimp only at run
      split at run
      · rename_i unmoved
        have same := nextCursor_eq_of_beq (isNext ▸ unmoved)
        cases run
        exact ⟨rfl, same.symm.trans isNext, fun _ => ⟨rfl, rfl⟩⟩
      · rename_i different
        obtain ⟨now, answer, mid, rest, rfl, ⟨count, rfl⟩, answered, run⟩ := runsIn_ask_iff.mp run
        cases run
        cases answered
        refine ⟨rfl, rfl, fun same => ?_⟩
        -- Times in different zones may be the same point, but the same cursor equals itself.
        rw [← same] at different
        exact absurd (Instant.beq_some_iff.mpr ⟨t, rfl, rfl⟩) different

/-! ## The account -/

/-- The report of a pass with a tally. -/
def reportOf (cursor : Option Instant) (c : Candidates) (tally : Tally) : TickReport where
  candidates := c.runs.length
  synced := tally.synced
  skipped := tally.skipped
  failed := tally.failed
  cursorBefore := cursor
  cursorAfter := nextCursor cursor tally.handledAt tally.failedAt

/-- The syncs of a pass and the move of its cursor. -/
theorem handle_cases {result : Except SyncError TickReport}
    (run : ((reconciler pageSize).handle s.cursor c).RunsIn (facing manner) s exchanges result
      after) :
    ∃ visits visiting moves tally, exchanges = visiting ++ moves ∧
      Visits pageSize c.inOrder visits visiting ∧
      Counts { failedAt := c.incompleteAt.toList } visits tally ∧
      result = .ok (reportOf s.cursor c tally) ∧
      after.cursor = (reportOf s.cursor c tally).cursorAfter ∧
      ((reportOf s.cursor c tally).cursorAfter = s.cursor → moves = []) ∧
      (visits = [] → after = s) := by
  obtain ⟨tally, mid, visiting, _, rfl, syncs, run⟩ := runsIn_bind_iff.mp run
  obtain ⟨moved, mid', moves, _, rfl, moving, run⟩ := runsIn_bind_iff.mp run
  obtain ⟨visits, visited, counted⟩ := visits_of_syncAll syncs
  have isCursor := cursor_of_still (still_syncAll c.inOrder _) syncs
  rw [← isCursor] at moving
  obtain ⟨rfl, stored, unmoved⟩ := moveCursor_cases rfl moving
  rw [isCursor] at stored unmoved
  cases run
  rw [List.append_nil]
  refine ⟨visits, visiting, moves, tally, rfl, visited, counted, rfl, stored,
    fun same => (unmoved same).1, ?_⟩
  rintro rfl
  have nothing : c.inOrder = [] := visited.runs.symm
  rw [nothing] at syncs
  change (Program.done _).RunsIn _ _ _ _ _ at syncs
  cases syncs
  exact (unmoved (nextCursor_nil s.cursor _)).2

/-- What the report of a pass says of the candidates, of the visits to them and of the stores from
before and after the pass. -/
structure Accounts (pageSize fuel : Nat) (s : Store) (exchanges : List (Exchange Call.Answer))
    (after : Store) (r : TickReport) (c : Candidates) (visits : List Visit) : Prop where
  /-- The pass loads the cursor, finds the candidates, visits them, and stores the cursor if it has
  moved. -/
  conversation : ∃ search visiting moves,
    exchanges = ⟨.store .loadCursor, .ok s.cursor⟩ :: (search ++ (visiting ++ moves)) ∧
      (collect (reconciler pageSize).engine pageSize s.cursor fuel (.start pageSize)).Runs search
        (.ok (some c)) ∧
      Visits pageSize c.inOrder visits visiting ∧ (r.cursorAfter = s.cursor → moves = [])
  candidates : r.candidates = visits.length
  synced : r.synced = visits.countP (·.synced)
  skipped : r.skipped = visits.countP (·.skipped)
  failed : r.failed = visits.countP (·.failed)
  total : r.candidates = r.synced + r.skipped + r.failed
  cursorBefore : r.cursorBefore = s.cursor
  stored : after.cursor = r.cursorAfter
  forward : ∀ b, r.cursorBefore = some b → ∃ a, r.cursorAfter = some a ∧ b ≤ a
  reached : r.cursorAfter = r.cursorBefore ∨
    ∃ v ∈ visits, (v.synced = true ∨ v.skipped = true) ∧ r.cursorAfter = some v.run.updateTime
  barrier : ∀ v ∈ visits, v.failed = true → floorOf r.cursorAfter < v.run.updateTime
  /-- If the search was whole and nothing failed, the cursor has caught up with every candidate. -/
  latest : c.incompleteAt = none → r.failed = 0 →
    ∀ v ∈ visits, v.run.updateTime ≤ floorOf r.cursorAfter
  idle : visits = [] → after.calm = s.calm

/-- A search finds runs after the floor only. -/
theorem floor_lt_of_collect
    (run : (collect (reconciler pageSize).engine pageSize cursor fuel (.start pageSize)).Runs
      exchanges (.ok (some c))) : ∀ run ∈ c.runs, floorOf cursor < run.updateTime := by
  refine runs_of_collect (fun found => ∀ run ∈ found, floorOf cursor < run.updateTime) ?_ ?_ run
  · intro found page above run member
    rcases Paging.mem_foldl_add member with known | ⟨_, later⟩
    · exact above run known
    · exact later
  · exact fun run member => absurd member List.not_mem_nil

section Account

variable {visits : List Visit} {visiting : List (Exchange Call.Answer)} {tally : Tally}

theorem Visits.mem_runs (visited : Visits pageSize c.inOrder visits visiting) {v : Visit}
    (member : v ∈ visits) : v.run ∈ c.runs := by
  refine mem_inOrder.mp ?_
  rw [← visited.runs]
  exact List.mem_map_of_mem member

/-- There are as many visits as candidates. -/
theorem Visits.length_eq (visited : Visits pageSize c.inOrder visits visiting) :
    c.runs.length = visits.length := by
  calc c.runs.length = c.inOrder.length := (List.length_mergeSort _).symm
    _ = (visits.map (·.run)).length := by rw [visited.runs]
    _ = visits.length := List.length_map ..

variable (counted : Counts { failedAt := c.incompleteAt.toList } visits tally)
include counted

/-- The times that count as handled are those of the visits that did not fail. -/
theorem Counts.mem_handledAt {t : Instant} :
    t ∈ tally.handledAt ↔ ∃ v ∈ visits, v.failed = false ∧ v.run.updateTime = t := by
  rw [counted.handledAt]
  simp only [List.nil_append, List.mem_map, List.mem_filter, Bool.not_eq_true', and_assoc]

/-- The time of a failed visit counts as failed. -/
theorem Counts.mem_failedAt {v : Visit} (member : v ∈ visits) (failed : v.failed = true) :
    v.run.updateTime ∈ tally.failedAt := by
  rw [counted.failedAt]
  refine List.mem_append_right _ (List.mem_map.mpr ⟨v, ?_, rfl⟩)
  exact List.mem_filter.mpr ⟨member, failed⟩

/-- The cursor of a report is not later than a failure. -/
theorem Counts.barrier (above : ∀ v ∈ visits, floorOf cursor < v.run.updateTime) :
    ∀ v ∈ visits, v.failed = true →
      floorOf (reportOf cursor c tally).cursorAfter < v.run.updateTime := by
  intro v member failed
  rcases nextCursor_eq_or cursor tally.handledAt tally.failedAt with same | ⟨t, _, next, before, _⟩
  · rw [reportOf, same]
    exact above v member
  · rw [reportOf, next]
    exact before _ (counted.mem_failedAt member failed)

/-- Without failures the cursor of a report is not before any candidate. -/
theorem Counts.latest (whole : c.incompleteAt = none)
    (none_failed : (reportOf cursor c tally).failed = 0) :
    ∀ v ∈ visits, v.run.updateTime ≤ floorOf (reportOf cursor c tally).cursorAfter := by
  intro v member
  have none_failed : visits.countP (·.failed) = 0 := by
    have total : (reportOf cursor c tally).failed = 0 + visits.countP (·.failed) := counted.failed
    omega
  have succeeded := List.countP_eq_zero.mp none_failed
  have no_barrier : tally.failedAt = [] := by
    rw [counted.failedAt, whole, List.filter_eq_nil_iff.mpr succeeded]
    rfl
  have handled : v.run.updateTime ∈ tally.handledAt :=
    counted.mem_handledAt.mpr ⟨v, member, Bool.eq_false_iff.mpr (succeeded v member), rfl⟩
  have caughtUp : ∃ n, nextCursor cursor tally.handledAt tally.failedAt = some n ∧
      v.run.updateTime ≤ n := by
    refine le_nextCursor handled ?_
    rw [no_barrier]
    exact nofun
  obtain ⟨n, next, bound⟩ := caughtUp
  rw [reportOf, next]
  exact bound

omit counted in
/-- A pass does not move the cursor back. -/
theorem forward_reportOf :
    ∀ b, cursor = some b → ∃ a, (reportOf cursor c tally).cursorAfter = some a ∧ b ≤ a := by
  rintro b rfl
  rcases nextCursor_eq_or (some b) tally.handledAt tally.failedAt with same | ⟨t, _, next, _, later⟩
  · exact ⟨b, same, Int.le_refl _⟩
  · exact ⟨t, next, Instant.le_of_lt (later b rfl)⟩

/-- The cursor stays, or moves to the time of a run that was synced or skipped. -/
theorem Counts.reached :
    (reportOf cursor c tally).cursorAfter = cursor ∨ ∃ v ∈ visits,
      (v.synced = true ∨ v.skipped = true) ∧
        (reportOf cursor c tally).cursorAfter = some v.run.updateTime := by
  rcases nextCursor_eq_or cursor tally.handledAt tally.failedAt with same | ⟨t, handled, next, _⟩
  · exact .inl same
  · obtain ⟨v, member, succeeded, rfl⟩ := counted.mem_handledAt.mp handled
    exact .inr ⟨v, member, Visit.failed_eq_false_iff.mp succeeded, next⟩

end Account

/-- The runs that a pass starts from lie no later than those that it leaves. -/
theorem Accounts.floor_le {r : TickReport} {visits : List Visit}
    (accounts : Accounts pageSize fuel s exchanges after r c visits) :
    floorOf s.cursor ≤ floorOf r.cursorAfter := by
  rw [← accounts.cursorBefore]
  cases before : r.cursorBefore with
  | none =>
      rcases accounts.reached with same | ⟨v, member, _, reached⟩
      · rw [same, before]
        exact Int.le_refl _
      · -- Without a cursor the floor is the epoch, and a search finds only runs after it.
        obtain ⟨search, visiting, moves, _, searched, visited, _⟩ := accounts.conversation
        have above := floor_lt_of_collect searched v.run (visited.mem_runs member)
        rw [← accounts.cursorBefore, before] at above
        rw [reached]
        exact Instant.le_of_lt above
  | some b =>
      obtain ⟨a, reached, later⟩ := accounts.forward b before
      rw [reached]
      exact later

/-- A pass ends because a listing failed, because it may ask for no more pages, or with a report,
and the report gives account of it. -/
theorem tick_cases {result : Except SyncError (Option TickReport)}
    (run : ((reconciler pageSize).tick fuel).RunsIn (facing manner) s exchanges result after) :
    (∃ search found, exchanges = ⟨.store .loadCursor, .ok s.cursor⟩ :: search ∧
      (collect (reconciler pageSize).engine pageSize s.cursor fuel (.start pageSize)).Runs search
        found ∧ after.calm = s.calm ∧
      (found = .ok none ∧ result = .ok none ∨
        ∃ e, found = .error e ∧ result = .error (.engine e))) ∨
    ∃ r c visits, result = .ok (some r) ∧
      Accounts pageSize fuel s exchanges after r c visits := by
  obtain ⟨loaded, mid, _, _, rfl, loads, run⟩ := runsIn_bind_iff.mp run
  obtain ⟨now, answer, mid, _, rfl, ⟨count, rfl⟩, answered, loads⟩ := runsIn_ask_iff.mp loads
  cases answered
  cases loads
  obtain ⟨found, mid, search, rest, rfl, searched, run⟩ := runsIn_bind_iff.mp run
  have still := calm_of_lists (lists_collect ..) searched
  change mid.calm = s.calm at still
  have isCursor : mid.cursor = s.cursor := by
    change mid.calm.cursor = s.calm.cursor
    rw [still]
  match found with
  | .error e =>
      cases run
      rw [List.append_nil]
      exact .inl ⟨search, _, rfl, searched.runs, still, .inr ⟨e, rfl, rfl⟩⟩
  | .ok none =>
      cases run
      rw [List.append_nil]
      exact .inl ⟨search, _, rfl, searched.runs, still, .inl ⟨rfl, rfl⟩⟩
  | .ok (some c) =>
      obtain ⟨handled, after', _, _, rfl, handling, run⟩ := runsIn_bind_iff.mp run
      change ((reconciler pageSize).handle s.cursor c).RunsIn _ _ _ _ _ at handling
      rw [← isCursor] at handling
      obtain ⟨visits, visiting, moves, tally, rfl, visited, counted, rfl, stored, unmoved, idle⟩ :=
        handle_cases handling
      rw [isCursor] at stored unmoved
      cases run
      rw [List.append_nil]
      have above : ∀ v ∈ visits, floorOf s.cursor < v.run.updateTime :=
        fun v member => floor_lt_of_collect searched.runs v.run (visited.mem_runs member)
      refine .inr ⟨reportOf s.cursor c tally, c, visits, by rw [isCursor]; rfl, ?_⟩
      have numbers := counted.total
      exact
        { conversation := ⟨search, visiting, moves, rfl, searched.runs, visited, unmoved⟩
          candidates := visited.length_eq
          synced := counted.synced.trans (Nat.zero_add _)
          skipped := counted.skipped.trans (Nat.zero_add _)
          failed := counted.failed.trans (Nat.zero_add _)
          total := visited.length_eq.trans (numbers.trans (Nat.zero_add _)).symm
          cursorBefore := rfl
          stored := stored
          forward := forward_reportOf
          reached := counted.reached
          barrier := counted.barrier above
          latest := counted.latest
          idle := fun nothing => (congrArg Store.calm (idle nothing)).trans still }

end RunLedger.Interleaving
