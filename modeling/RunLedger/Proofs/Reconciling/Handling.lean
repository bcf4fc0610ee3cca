import RunLedger.Proofs.Reconciling.Search
import RunLedger.Proofs.Sync.Cursor

/-!
# Handling candidates

A sync of one run never moves the cursor. A pass that has collected its candidates syncs each of
them; those whose sync failed are accounted for as failures, and the cursor moves to the time of a
candidate before all of them.
-/

namespace RunLedger.Interleaving

open RunLedger.Sync RunLedger.Time

variable {pageSize : Nat} {cursor : Option Instant} {w : World}

/-! ## A sync leaves the cursor alone -/

/-- A program that leaves the cursor alone. -/
abbrev Still {α : Type} (p : Program Call.Answer α) : Prop := p.Asks (·.movesCursor = false)

/-- A sync of one run leaves the cursor alone. -/
theorem still_syncRun (externalRunId : String) :
    Still ((reconciler pageSize).syncRun externalRunId) := by
  obtain ⟨next, asked, onwards⟩ := asks_syncRun pageSize externalRunId
  rw [asked]
  refine ⟨rfl, fun answer => (onwards answer).mono fun call stores => ?_⟩
  cases call with
  | store call =>
    cases call with
    | storeCursor cursor => cases stores
    | _ => rfl
  | _ => rfl

/-- A sync on demand leaves the cursor alone. -/
theorem still_trigger (externalRunId : String) :
    Still ((reconciler pageSize).trigger externalRunId) :=
  (still_syncRun externalRunId).bind fun _ => trivial

/-! ## The syncs of a pass -/

/-- What a tally has to say about candidates that were synced while events happened. -/
structure Accounted (pageSize : Nat) (events : List Event) (candidates : List RunSummary)
    (before after : Tally) : Prop where
  /-- Each candidate was synced without failure, or its time is among the failures. -/
  each : ∀ run ∈ candidates, SyncedIn pageSize events run.runId ∨ run.updateTime ∈ after.failedAt
  handled : ∀ t ∈ after.handledAt, t ∈ before.handledAt ∨ ∃ run ∈ candidates, run.updateTime = t
  failed : ∀ t ∈ before.failedAt, t ∈ after.failedAt

/-- One more candidate. -/
theorem Accounted.cons {events later : List Event} {candidates : List RunSummary}
    {t after : Tally} {run : RunSummary} {outcome : Except SyncError RunOutcome}
    (sync : ((reconciler pageSize).syncRun run.runId).Runs (exchangesOf events) outcome)
    (rest : Accounted pageSize later candidates (t.add run.updateTime outcome) after) :
    Accounted pageSize (events ++ later) (run :: candidates) t after := by
  have first : SyncedIn pageSize (events ++ later) run.runId ∨ run.updateTime ∈ after.failedAt := by
    cases outcome with
    | error e => exact .inr (rest.failed _ (List.mem_append_right _ (List.mem_singleton_self _)))
    | ok result => exact .inl ⟨[], events, later, result, rfl, sync⟩
  refine ⟨fun r member => ?_, fun time handled => ?_, fun time failed => ?_⟩
  · rcases List.mem_cons.mp member with rfl | member
    · exact first
    · exact (rest.each r member).imp_left fun synced => synced.earlier events
  · rcases rest.handled time handled with known | ⟨r, member, same⟩
    · rcases mem_handledAt_add known with known | same
      · exact .inl known
      · exact .inr ⟨run, List.mem_cons_self .., same.symm⟩
    · exact .inr ⟨r, List.mem_cons_of_mem _ member, same⟩
  · exact rest.failed time (mem_failedAt_add run.updateTime outcome failed)

/-- A pass accounts for each candidate that it syncs. -/
theorem keeps_syncAll (candidates : List RunSummary) (t : Tally) (w : World) :
    ((reconciler pageSize).syncAll t candidates).Keeps surroundings (StaysSafe pageSize)
      (fun after w' => ∃ events, Evolves events w w' ∧
        Accounted pageSize events candidates t after) w := by
  induction candidates generalizing t w with
  | nil =>
    refine ⟨[], .refl w, fun _ member => absurd member List.not_mem_nil, fun _ => .inl, fun _ => id⟩
  | cons run rest ih =>
    have one : (t.add run.updateTime <$> (reconciler pageSize).syncRun run.runId).Keeps
        surroundings (StaysSafe pageSize) (fun t' w' => ∃ events outcome, Evolves events w w' ∧
          ((reconciler pageSize).syncRun run.runId).Runs (exchangesOf events) outcome ∧
          t' = t.add run.updateTime outcome) w := by
      refine (keeps_of_asks (still_syncRun run.runId) w).bind ?_
      rintro outcome w' ⟨events, evolved, sync⟩
      exact ⟨events, outcome, evolved, sync, rfl⟩
    refine one.bind ?_
    rintro _ w' ⟨events, outcome, evolved, sync, rfl⟩
    refine (ih (t.add run.updateTime outcome) w').mono ?_
    rintro after w'' ⟨later, evolved', accounted⟩
    exact ⟨events ++ later, evolved.trans evolved', accounted.cons sync⟩

/-! ## The cursor moves -/

section MoveCursor

variable {first now after : World} {c : Candidates} {events : List Event} {tally : Tally}
  {t : Instant} {run : RunSummary}

theorem mem_inOrder : run ∈ c.inOrder ↔ run ∈ c.runs := List.mem_mergeSort

/-- A run up to a handled time before all failures was found and synced, unless it was updated
meanwhile or lies before the floor. -/
theorem synced_of_le_handled (collected : Collected cursor first c w)
    (evolved : Evolves events w now)
    (accounted : Accounted pageSize events c.inOrder { failedAt := c.incompleteAt.toList } tally)
    (handled : t ∈ tally.handledAt) (barrier : ∀ f ∈ tally.failedAt, t < f)
    (known : run ∈ first.runs) (member : run ∈ now.runs) (above : floorOf cursor < run.updateTime)
    (behind : run.updateTime ≤ t) : SyncedIn pageSize events run.runId := by
  obtain ⟨earlier, before⟩ := collected.evolved
  have complete : c.incompleteAt = none := by
    by_contra incomplete
    obtain ⟨b, incomplete⟩ := Option.ne_none_iff_exists'.mp incomplete
    rcases accounted.handled t handled with impossible | ⟨r, candidate, rfl⟩
    · exact List.not_mem_nil impossible
    · have failure : b ∈ tally.failedAt := accounted.failed b (by simp [incomplete])
      exact Instant.not_lt.mpr (collected.lowest b incomplete r (mem_inOrder.mp candidate))
        (barrier b failure)
  have found := collected.complete complete run known (before.between evolved known member) above
  refine (accounted.each run (mem_inOrder.mpr found)).resolve_right fun failure => ?_
  exact Instant.not_lt.mpr behind (barrier _ failure)

/-- The cursor may move to a handled time before all failures. -/
theorem safe_moved (collected : Collected cursor first c w) (evolved : Evolves events w now)
    (accounted : Accounted pageSize events c.inOrder { failedAt := c.incompleteAt.toList } tally)
    (handled : t ∈ tally.handledAt) (barrier : ∀ f ∈ tally.failedAt, t < f)
    {answer : Except StoreError Unit}
    (answered : surroundings.answers now (.store (.storeCursor t)) answer after)
    (safe : Safe pageSize now) : Safe pageSize after := by
  obtain ⟨sameRuns, history, moved⟩ := answered
  obtain ⟨earlier, before⟩ := collected.evolved
  have whole := before.trans evolved
  have newCursor : after.store.cursor = some t :=
    congrArg (fun s : Store => s.cursor) (congrArg Prod.snd moved).symm
  -- The cursor is the time of a run of the first listing.
  obtain ⟨top, topKnown, rfl⟩ : ∃ top ∈ first.runs, top.updateTime = t := by
    rcases accounted.handled t handled with impossible | ⟨r, candidate, same⟩
    · exact absurd impossible List.not_mem_nil
    · exact ⟨r, collected.known r (mem_inOrder.mp candidate), same⟩
  refine ⟨sameRuns ▸ safe.distinct, fun t' isCursor => ?_,
    fun run member afterEpoch t' isCursor => ?_⟩
  · cases newCursor.symm.trans isCursor
    obtain ⟨r, known, later⟩ := whole.kept top topKnown
    exact ⟨r, sameRuns ▸ known, later⟩
  · cases newCursor.symm.trans isCursor
    intro behind
    rw [history]
    have member : run ∈ now.runs := sameRuns ▸ member
    obtain ⟨known, calm⟩ := whole.unchanged member topKnown behind
    refine SyncedSince.append ?_ (by simp)
    by_cases above : floorOf cursor < run.updateTime
    · have synced := synced_of_le_handled collected evolved accounted handled barrier known member
        above behind
      exact ⟨first.history, earlier ++ events, whole.history, calm, synced.earlier earlier⟩
    · have sameCursor := evolved.cursor.trans collected.cursor_eq
      cases cursor with
      | none => exact absurd afterEpoch above
      | some old => exact safe.synced run member afterEpoch old sameCursor (Instant.not_lt.mp above)

/-- A pass that has collected its candidates syncs them and moves the cursor safely. -/
theorem keeps_handle (collected : Collected cursor first c w) :
    ((reconciler pageSize).handle cursor c).Keeps surroundings (StaysSafe pageSize)
      (fun _ _ => True) w := by
  refine (keeps_syncAll _ _ w).bind ?_
  rintro tally w' ⟨events, evolved, accounted⟩
  have moved : ((reconciler pageSize).moveCursor cursor
      (nextCursor cursor tally.handledAt tally.failedAt)).Keeps surroundings (StaysSafe pageSize)
      (fun _ _ => True) w' := by
    unfold Reconciler.moveCursor
    split
    · rename_i t next
      split
      · trivial
      · rename_i different
        rintro now ⟨later, _, evolved'⟩ answer after answered
        refine ⟨fun safe => ?_, trivial⟩
        have accounted : Accounted pageSize (events ++ later) c.inOrder _ tally :=
          { accounted with
            each := fun run member => (accounted.each run member).imp_left (·.later later) }
        obtain ⟨handled, barrier⟩ := (nextCursor_cases next).resolve_left fun same => by
          rw [next, same] at different
          exact different (Instant.beq_some_iff.mpr ⟨t, rfl, rfl⟩)
        exact safe_moved collected (evolved.trans evolved') accounted handled barrier answered safe
    · trivial
  refine moved.bind fun result w'' _ => ?_
  cases result <;> trivial

/-- A pass keeps a safe world safe: its search misses nothing, and the cursor stops below its
failures. -/
theorem keeps_tick (fuel : Nat) (safe : Safe pageSize w) :
    ((reconciler pageSize).tick fuel).Keeps surroundings (StaysSafe pageSize) (fun _ _ => True)
      w := by
  rintro now ⟨_, _, evolved⟩ loaded after answered
  have step := evolves_of_answers answered rfl
  refine ⟨fun safe => safe.evolves step, ?_⟩
  have safe : Safe pageSize after := (safe.evolves evolved).evolves step
  have isCursor : loaded = .ok now.store.cursor := (congrArg Prod.fst answered.2.2).symm
  subst isCursor
  refine (keeps_collect_start fuel safe step.cursor).bind fun result w' found => ?_
  match result with
  | .error e => trivial
  | .ok none => trivial
  | .ok (some c) =>
    obtain ⟨first, collected⟩ := found c rfl
    exact (keeps_handle collected).bind fun _ _ _ => trivial

end MoveCursor

end RunLedger.Interleaving
