import RunLedger.Proofs.Reconciling.Accounting
import RunLedger.Proofs.Reconciling.Collection

/-!
# The next pass

An engine at rest holds the same runs during two passes that follow one another. The second one
starts from the cursor that the first has left and takes up exactly the runs after it
(`Retries.candidates`), so it visits every run again that the first one failed at. If the first one
did not fail at any, nothing is left: the second one only looks.
-/

namespace RunLedger.Interleaving

open RunLedger.Sync RunLedger.Time
open RunLedger.Rehearsal (EngineScript.within)
open Program (runsIn_bind_iff)

variable {pageSize fuel : Nat} {cursor : Option Instant} {runs : List RunSummary} {p : Paging}
  {s s' after after' : Store} {exchanges exchanges' : List (Exchange Call.Answer)}
  {c c' : Candidates} {r r' : TickReport} {visits visits' : List Visit}

/-! ## Passes over an engine at rest -/

/-- The manner of an engine at rest: it refuses a listing, or lists the newest of the runs that it
is asked for. A query for a run it answers as it likes. -/
def listsFrom (runs : List RunSummary) : Manner
  | .recentRuns limit lower upper, .ok page =>
    IsListing (fun run => some run.updateTime) limit
      (runs.filter fun run => EngineScript.within lower upper run.updateTime) page
  | _, _ => True

/-- All answers are those of an engine at rest. -/
def AtRestDuring (runs : List RunSummary) (exchanges : List (Exchange Call.Answer)) : Prop :=
  ∀ e ∈ exchanges, ∃ s after, AnswersIn (listsFrom runs) s e.1 e.2 after

/-- A listing was refused. -/
def Refused (exchanges : List (Exchange Call.Answer)) (e : EngineError) : Prop :=
  ∃ limit lower upper, ⟨.recentRuns limit lower upper, .error e⟩ ∈ exchanges

theorem Refused.cons {e : EngineError} (refused : Refused exchanges e)
    (first : Exchange Call.Answer) : Refused (first :: exchanges) e := by
  obtain ⟨limit, lower, upper, member⟩ := refused
  exact ⟨limit, lower, upper, List.mem_cons_of_mem first member⟩

/-- A search through an engine at rest collects what it should, unless a listing is refused or it
may not ask often enough. -/
theorem Exploring.ends {found : Except EngineError (Option Candidates)}
    (exploring : Exploring pageSize cursor runs p)
    (run : (Sync.collect (reconciler pageSize).engine pageSize cursor fuel p).Runs exchanges found)
    (rests : AtRestDuring runs exchanges) :
    (∃ e, found = .error e ∧ Refused exchanges e) ∨
      found = .ok none ∧ fuel ≤ remaining pageSize runs p ∨
      ∃ c, found = .ok (some c) ∧ Exact pageSize cursor runs c := by
  induction fuel generalizing p exchanges with
  | zero =>
      cases run
      exact .inr (.inl ⟨rfl, Nat.zero_le _⟩)
  | succ fuel ih =>
      rw [collect_eq_ask] at run
      obtain ⟨answer, rest, rfl, onwards⟩ := Program.runs_ask_iff.mp run
      obtain ⟨first, others⟩ := List.forall_mem_cons.mp rests
      cases answer with
      | error e =>
          cases onwards
          exact .inl ⟨e, rfl, _, _, _, List.mem_singleton_self _⟩
      | ok page =>
          obtain ⟨_, _, listing, _⟩ := first
          unfold Paging.resume at onwards
          cases led : p.advance pageSize (floorOf cursor) page with
          | finished c =>
              simp only [led] at onwards
              cases onwards
              exact .inr (.inr ⟨c, rfl, exploring.finish listing led⟩)
          | request next =>
              simp only [led] at onwards
              -- Each further page leaves less to explore, so the fuel lasts as long as that does.
              obtain ⟨exploring', fewer⟩ := exploring.advance listing led
              rcases ih exploring' onwards others with ⟨e, rfl, refused⟩ | ⟨rfl, few⟩ | exact
              · exact .inl ⟨e, rfl, refused.cons _⟩
              · exact .inr (.inl ⟨rfl, by omega⟩)
              · exact .inr (.inr exact)

/-- A pass over an engine at rest ends with a report, unless a listing is refused or it may not ask
often enough. -/
theorem tick_ends (distinct : (runs.map (·.runId)).Nodup)
    {result : Except SyncError (Option TickReport)}
    (run : ((reconciler pageSize).tick fuel).RunsIn (facing (listsFrom runs)) s exchanges result
      after)
    (enough : remaining pageSize runs (.start pageSize) < fuel) :
    (∃ r, result = .ok (some r)) ∨ ∃ e, result = .error (.engine e) ∧ Refused exchanges e := by
  rcases tick_cases run with ⟨search, found, rfl, searched, -, ended⟩ | ⟨r, _, _, rfl, _⟩
  · have rests : AtRestDuring runs search :=
      fun e member => run.answered e (List.mem_cons_of_mem _ member)
    have ends := (exploring_start pageSize s.cursor distinct).ends searched rests
    rcases ended with ⟨rfl, rfl⟩ | ⟨e, rfl, rfl⟩
    · rcases ends with ⟨_, ⟨⟩, _⟩ | ⟨_, few⟩ | ⟨_, ⟨⟩, _⟩
      exact absurd enough (Nat.not_lt.mpr few)
    · rcases ends with ⟨_, ⟨⟩, refused⟩ | ⟨⟨⟩, _⟩ | ⟨_, ⟨⟩, _⟩
      exact .inr ⟨e, rfl, refused.cons _⟩
  · exact .inl ⟨r, rfl⟩

/-- The candidates of a pass over an engine at rest. -/
theorem Accounts.exact (accounts : Accounts pageSize fuel s exchanges after r c visits)
    (distinct : (runs.map (·.runId)).Nodup) (rests : AtRestDuring runs exchanges) :
    Exact pageSize s.cursor runs c := by
  obtain ⟨search, visiting, moves, rfl, searched, _, _⟩ := accounts.conversation
  have rests : AtRestDuring runs search := fun e member =>
    rests e (List.mem_cons_of_mem _ (List.mem_append_left _ member))
  rcases (exploring_start pageSize s.cursor distinct).ends searched rests with
    ⟨_, ⟨⟩, _⟩ | ⟨⟨⟩, _⟩ | ⟨_, ⟨⟩, exact⟩
  exact exact

/-- A pass over an engine at rest that ended with a report, after a search that was not given up. -/
structure WholePass (pageSize : Nat) (runs : List RunSummary) (s : Store)
    (exchanges : List (Exchange Call.Answer)) (after : Store) (r : TickReport) (c : Candidates)
    (visits : List Visit) : Prop where
  accounts : ∃ fuel, Accounts pageSize fuel s exchanges after r c visits ∧
    ((reconciler pageSize).tick fuel).RunsIn (facing (listsFrom runs)) s exchanges (.ok (some r))
      after
  whole : c.incompleteAt = none

namespace WholePass

/-- A whole pass sees the runs above the floor, each of them once. -/
theorem perm (pass : WholePass pageSize runs s exchanges after r c visits)
    (distinct : (runs.map (·.runId)).Nodup) :
    c.runs.Perm (runs.filter fun run => decide (floorOf s.cursor < run.updateTime)) := by
  obtain ⟨fuel, accounts, run⟩ := pass.accounts
  exact (accounts.exact distinct run.answered).whole pass.whole

/-- A whole pass sees exactly the runs above the floor. -/
theorem mem_runs_iff (pass : WholePass pageSize runs s exchanges after r c visits)
    (distinct : (runs.map (·.runId)).Nodup) {run : RunSummary} :
    run ∈ c.runs ↔ run ∈ runs ∧ floorOf s.cursor < run.updateTime := by
  rw [(pass.perm distinct).mem_iff, List.mem_filter, decide_eq_true_eq]

/-- The runs that a pass visits are its candidates. -/
theorem exists_visit_iff (pass : WholePass pageSize runs s exchanges after r c visits)
    {run : RunSummary} : (∃ v ∈ visits, v.run = run) ↔ run ∈ c.runs := by
  obtain ⟨fuel, accounts, _⟩ := pass.accounts
  obtain ⟨search, visiting, moves, _, _, visited, _⟩ := accounts.conversation
  rw [← mem_inOrder, ← visited.runs, List.mem_map]

/-- A pass that failed at nothing leaves no run behind the cursor. -/
theorem le_floorOf (pass : WholePass pageSize runs s exchanges after r c visits)
    (distinct : (runs.map (·.runId)).Nodup) (none_failed : r.failed = 0) :
    ∀ run ∈ runs, run.updateTime ≤ floorOf r.cursorAfter := by
  obtain ⟨fuel, accounts, _⟩ := pass.accounts
  intro run member
  by_cases above : floorOf s.cursor < run.updateTime
  · obtain ⟨v, visited, rfl⟩ :=
      pass.exists_visit_iff.mpr ((pass.mem_runs_iff distinct).mpr ⟨member, above⟩)
    exact accounts.latest pass.whole none_failed v visited
  · exact Instant.le_trans (Instant.not_lt.mp above) accounts.floor_le

end WholePass

/-- What a pass makes of what the pass before it has left. -/
structure Retries (runs : List RunSummary) (r : TickReport) (visits : List Visit) (s' : Store)
    (exchanges' : List (Exchange Call.Answer)) (after' : Store) (r' : TickReport) (c' : Candidates)
    (visits' : List Visit) : Prop where
  candidates : c'.runs.Perm
    (runs.filter fun run => decide (floorOf r.cursorAfter < run.updateTime))
  retried : ∀ v ∈ visits, v.failed = true → ∃ v' ∈ visits', v'.run = v.run
  /-- If nothing failed before, there is nothing to do, and nothing is done. -/
  idle : r.failed = 0 → r'.candidates = 0 ∧
    (∀ e ∈ exchanges', e.1.lists = true ∨ e.1 = .store .loadCursor) ∧ after'.calm = s'.calm

/-- The next pass begins where this one left the cursor, so it sees again what failed and nothing
that is settled. -/
theorem retries (distinct : (runs.map (·.runId)).Nodup)
    (pass : WholePass pageSize runs s exchanges after r c visits)
    (next : WholePass pageSize runs s' exchanges' after' r' c' visits')
    (kept : s'.cursor = after.cursor) :
    Retries runs r visits s' exchanges' after' r' c' visits' := by
  obtain ⟨fuel, accounts, _⟩ := pass.accounts
  have start : s'.cursor = r.cursorAfter := kept.trans accounts.stored
  refine ⟨start ▸ next.perm distinct, ?_, ?_⟩
  · intro v member failed
    have known := (pass.mem_runs_iff distinct).mp (pass.exists_visit_iff.mp ⟨v, member, rfl⟩)
    -- The cursor stays before a failed run, so the next pass finds it after its floor.
    have left : floorOf s'.cursor < v.run.updateTime := start ▸ accounts.barrier v member failed
    exact next.exists_visit_iff.mpr ((next.mem_runs_iff distinct).mpr ⟨known.1, left⟩)
  · intro none_failed
    -- A run that was not visited lies behind the old cursor, and the new one is not before that.
    have nothing : visits' = [] := by
      refine List.eq_nil_iff_forall_not_mem.mpr fun v member => ?_
      obtain ⟨known, left⟩ :=
        (next.mem_runs_iff distinct).mp (next.exists_visit_iff.mp ⟨v, member, rfl⟩)
      rw [start] at left
      exact Instant.not_lt.mpr (pass.le_floorOf distinct none_failed v.run known) left
    obtain ⟨fuel', accounts', _⟩ := next.accounts
    subst nothing
    refine ⟨accounts'.candidates, ?_, accounts'.idle rfl⟩
    obtain ⟨search, visiting, moves, rfl, searched, visited, unmoved⟩ := accounts'.conversation
    have still : r'.cursorAfter = s'.cursor := by
      rcases accounts'.reached with same | ⟨v, impossible, _⟩
      · exact same.trans accounts'.cursorBefore
      · exact absurd impossible List.not_mem_nil
    rw [unmoved still, visited.exchanges_eq]
    intro e member
    rcases List.mem_cons.mp member with rfl | listing
    · exact .inr rfl
    · refine .inl (searched.allowed (lists_collect ..) e ?_)
      simpa using listing

/-- The account of passes and what the next pass does. Whatever the engine answers, a pass that ends
without a report has changed nothing, and the report of any other pass is true. Over an engine at
rest, a pass that may ask often enough ends with a report unless a listing is refused; and the pass
after a whole pass takes up exactly the runs after its cursor, so that every failed run is visited
again, and does nothing if none failed. -/
theorem accounts_and_retries (distinct : (runs.map (·.runId)).Nodup) (pageSize : Nat) :
    (∀ manner fuel s exchanges result after,
      ((reconciler pageSize).tick fuel).RunsIn (facing manner) s exchanges result after →
        (∀ r, result ≠ .ok (some r)) ∧ after.calm = s.calm ∨
          ∃ r c visits, result = .ok (some r) ∧
            Accounts pageSize fuel s exchanges after r c visits) ∧
      (∃ most, ∀ fuel s exchanges result after, most ≤ fuel →
        ((reconciler pageSize).tick fuel).RunsIn (facing (listsFrom runs)) s exchanges result
            after →
          (∃ r, result = .ok (some r)) ∨ ∃ e, result = .error (.engine e) ∧ Refused exchanges e) ∧
      ∀ s exchanges after r c visits s' exchanges' after' r' c' visits',
        WholePass pageSize runs s exchanges after r c visits → s'.cursor = after.cursor →
          WholePass pageSize runs s' exchanges' after' r' c' visits' →
            Retries runs r visits s' exchanges' after' r' c' visits' := by
  refine ⟨?_, ⟨remaining pageSize runs (.start pageSize) + 1, ?_⟩, ?_⟩
  · intro manner fuel s exchanges result after run
    rcases tick_cases run with ⟨_, _, _, _, still, ⟨_, rfl⟩ | ⟨e, _, rfl⟩⟩ | reported
    · exact .inl ⟨nofun, still⟩
    · exact .inl ⟨nofun, still⟩
    · exact .inr reported
  · intro fuel s exchanges result after enough run
    exact tick_ends distinct run enough
  · intro s exchanges after r c visits s' exchanges' after' r' c' visits' pass kept next
    exact retries distinct pass next kept

/-! ## Two passes over two runs -/

/-- The search through fewer runs than the widest page has room for is never given up. -/
theorem exists_wholePass (distinct : (runs.map (·.runId)).Nodup)
    (few : runs.length < min (max pageSize 1 * widestPages) greatestCount)
    (run : ((reconciler pageSize).tick fuel).RunsIn (facing (listsFrom runs)) s exchanges
      (.ok (some r)) after) : ∃ c visits, WholePass pageSize runs s exchanges after r c visits := by
  rcases tick_cases run with ⟨_, _, _, _, _, ⟨_, ⟨⟩⟩ | ⟨_, _, ⟨⟩⟩⟩ | ⟨_, c, visits, ⟨⟩, accounts⟩
  refine ⟨c, visits, ⟨fuel, accounts, run⟩, ?_⟩
  cases left : c.incompleteAt with
  | none => rfl
  | some b =>
      have crowd := (accounts.exact distinct run.answered).crowded b left
      exact absurd (Nat.le_trans crowd List.countP_le_length) (Nat.not_le.mpr few)

theorem runsIn_facing {manner : Manner} {α : Type} {call : Call}
    {next : call.Answer → Program Call.Answer α} {answer : call.Answer} {mid : Store} {result : α}
    (answered : AnswersIn manner s call answer mid)
    (run : (next answer).RunsIn (facing manner) mid exchanges result after) :
    (Program.ask call next).RunsIn (facing manner) s (⟨call, answer⟩ :: exchanges) result after :=
  .ask ⟨s.failingCommits, rfl⟩ answered run

/-- A pass from its parts. -/
theorem runsIn_tick {manner : Manner} {mid : Store} {tally : Tally}
    {order : List RunSummary} {search visiting moves : List (Exchange Call.Answer)}
    (searched : (Sync.collect (reconciler pageSize).engine pageSize s.cursor fuel
      (.start pageSize)).RunsIn (facing manner) s search (.ok (some c)) s)
    (ordered : c.inOrder = order)
    (visited : ((reconciler pageSize).syncAll { failedAt := c.incompleteAt.toList } order).RunsIn
      (facing manner) s visiting tally mid)
    (moved : ((reconciler pageSize).moveCursor s.cursor
      (nextCursor s.cursor tally.handledAt tally.failedAt)).RunsIn (facing manner) mid moves
        (.ok ()) after) :
    ∃ exchanges, ((reconciler pageSize).tick fuel).RunsIn (facing manner) s exchanges
      (.ok (some (reportOf s.cursor c tally))) after := by
  subst ordered
  have loaded : ((reconciler pageSize).store.loadCursor).RunsIn (facing manner) s
      [⟨.store .loadCursor, .ok s.cursor⟩] (.ok s.cursor) s := runsIn_facing rfl (.done _ _)
  have handled : ((reconciler pageSize).handle s.cursor c).RunsIn (facing manner) s
      (visiting ++ (moves ++ [])) (.ok (reportOf s.cursor c tally)) after :=
    runsIn_bind_iff.mpr ⟨tally, mid, visiting, _, rfl, visited,
      runsIn_bind_iff.mpr ⟨.ok (), after, moves, [], rfl, moved, .done _ _⟩⟩
  exact ⟨_, runsIn_bind_iff.mpr ⟨_, _, _, _, rfl, loaded,
    runsIn_bind_iff.mpr ⟨_, _, _, _, rfl, searched,
      runsIn_bind_iff.mpr ⟨_, _, _, _, rfl, handled, .done _ _⟩⟩⟩⟩

/-- The engine lists both runs, or those of them that were updated after a bound. -/
theorem answersIn_listsFrom_twoRuns (s : Store) (lower : Option Instant) :
    AnswersIn (listsFrom twoRuns) s (.recentRuns 3 lower none)
      (.ok ((twoRuns.filter fun run => EngineScript.within lower none run.updateTime).take 3))
      s := by
  have sorted : twoRuns.Pairwise (MayFollow fun run => some run.updateTime) := by
    simp [twoRuns, MayFollow, Instant.le_def, Instant.utc]
  exact ⟨⟨_, .refl _, sorted.filter _, rfl⟩, rfl⟩

/-- An engine may say that it has no run of the name. -/
theorem runsIn_syncRun_unknown (s : Store) (name : String) :
    ((reconciler 3).syncRun name).RunsIn (facing (listsFrom runs)) s
      [⟨.runDetail name, .error (.runNotFound name)⟩] (.ok .engineRunMissing) s :=
  runsIn_facing ⟨trivial, rfl⟩ (.done _ _)

/-- A pass that fails at the later of two runs and skips the earlier one. -/
theorem exists_pass_twoRuns : ∃ exchanges,
    ((reconciler 3).tick 1).RunsIn (facing (listsFrom twoRuns)) {} exchanges
      (.ok (some ⟨2, 0, 1, 1, none, some (.utc 10)⟩)) { cursor := some (.utc 10) } := by
  have search : (Sync.collect (reconciler 3).engine 3 none 1 (.start 3)).RunsIn
      (facing (listsFrom twoRuns)) {} [⟨.recentRuns 3 none none, .ok twoRuns⟩]
      (.ok (some ⟨twoRuns, none⟩)) {} :=
    runsIn_facing (answersIn_listsFrom_twoRuns {} none) (.done _ _)
  have unreachable : ((reconciler 3).syncRun "a").RunsIn (facing (listsFrom twoRuns)) {}
      [⟨.runDetail "a", .error (.transport "closed")⟩]
      (.error (.engine (.transport "closed"))) {} := runsIn_facing ⟨trivial, rfl⟩ (.done _ _)
  have syncs : ((reconciler 3).syncAll { failedAt := [] } twoRuns).RunsIn
      (facing (listsFrom twoRuns)) {} _ _ {} :=
    runsIn_syncAll_cons_iff.mpr ⟨_, _, _, _, rfl, unreachable,
      runsIn_syncAll_cons_iff.mpr ⟨_, _, _, _, rfl, runsIn_syncRun_unknown {} "b", .done _ _⟩⟩
  exact runsIn_tick search inOrder_twoRuns syncs (runsIn_facing rfl (.done _ _))

/-- The later of the two runs. -/
def laterRun : RunSummary := ⟨"a", "FAILURE", .utc 20, []⟩

/-- A pass that starts between the two runs and skips the later one. -/
theorem exists_pass_laterRun : ∃ exchanges,
    ((reconciler 3).tick 1).RunsIn (facing (listsFrom twoRuns)) { cursor := some (.utc 10) }
      exchanges (.ok (some ⟨1, 0, 1, 0, some (.utc 10), some (.utc 20)⟩))
      { cursor := some (.utc 20) } := by
  have search : (Sync.collect (reconciler 3).engine 3 (some (.utc 10)) 1 (.start 3)).RunsIn
      (facing (listsFrom twoRuns)) { cursor := some (.utc 10) }
      [⟨.recentRuns 3 (some (.utc 10)) none, .ok [laterRun]⟩] (.ok (some ⟨[laterRun], none⟩))
      { cursor := some (.utc 10) } := runsIn_facing (answersIn_listsFrom_twoRuns _ _) (.done _ _)
  have syncs : ((reconciler 3).syncAll { failedAt := [] } [laterRun]).RunsIn
      (facing (listsFrom twoRuns)) { cursor := some (.utc 10) } _ _ { cursor := some (.utc 10) } :=
    runsIn_syncAll_cons_iff.mpr ⟨_, _, _, _, rfl, runsIn_syncRun_unknown _ "a", .done _ _⟩
  have inOrder : (Candidates.mk [laterRun] none).inOrder = [laterRun] :=
    List.mergeSort_singleton laterRun
  exact runsIn_tick search inOrder syncs (runsIn_facing rfl (.done _ _))

/-- The second of two passes over two runs takes up the later one alone, at which the first one has
failed. -/
theorem accounts_and_retries_twoRuns :
    (twoRuns.map (·.runId)).Nodup ∧ ∃ exchanges c visits exchanges' c' visits',
      WholePass 3 twoRuns {} exchanges { cursor := some (.utc 10) }
        ⟨2, 0, 1, 1, none, some (.utc 10)⟩ c visits ∧
      WholePass 3 twoRuns { cursor := some (.utc 10) } exchanges' { cursor := some (.utc 20) }
        ⟨1, 0, 1, 0, some (.utc 10), some (.utc 20)⟩ c' visits' ∧
      Retries twoRuns ⟨2, 0, 1, 1, none, some (.utc 10)⟩ visits { cursor := some (.utc 10) }
        exchanges' { cursor := some (.utc 20) } ⟨1, 0, 1, 0, some (.utc 10), some (.utc 20)⟩ c'
        visits' := by
  have distinct : (twoRuns.map (·.runId)).Nodup := by decide
  obtain ⟨exchanges, run⟩ := exists_pass_twoRuns
  obtain ⟨exchanges', run'⟩ := exists_pass_laterRun
  obtain ⟨c, visits, pass⟩ := exists_wholePass distinct (by decide) run
  obtain ⟨c', visits', next⟩ := exists_wholePass distinct (by decide) run'
  obtain ⟨-, -, retries⟩ := accounts_and_retries distinct 3
  exact ⟨distinct, exchanges, c, visits, exchanges', c', visits', pass, next,
    retries _ _ _ _ _ _ _ _ _ _ _ _ pass rfl next⟩

end RunLedger.Interleaving
