import RunLedger.Proofs.Graphql.Wire

/-!
# A pass over the wire

A pass that ends with a report has loaded the cursor, collected candidates, asked for each of them
and moved the cursor to a time that it had handled.
-/

namespace RunLedger.Interleaving

open RunLedger.Sync
open RunLedger.Time (Instant)
open RunLedger.Graphql (Connection)

variable {c : Connection} {pageSize fuel : Nat} {cursor : Option Instant}
  {exchanges : List WireExchange}

/-- What a conversation about candidates says of the tally. -/
structure Visited (c : Connection) (exchanges : List WireExchange) (candidates : List RunSummary)
    (before after : Tally) : Prop where
  asked : ∀ run ∈ candidates, AskedFor c exchanges run.runId
  handled : ∀ t ∈ after.handledAt, t ∈ before.handledAt ∨ ∃ run ∈ candidates, run.updateTime = t
  failed : ∀ t ∈ before.failedAt, t ∈ after.failedAt

/-- A sync begins with the request for its run. -/
theorem askedFor_of_syncRun {runId : String} {outcome : Except SyncError RunOutcome}
    (run : ((wired c pageSize).syncRun runId).run.Runs exchanges (.ok outcome)) :
    AskedFor c exchanges runId := by
  obtain ⟨detail, before, after, rfl, first, _⟩ := returns_bind_iff.mp run
  exact (askedFor_of_runDetail first).mono (List.subset_append_left ..)

/-- Every candidate is asked for, and counted as handled or as failed. -/
theorem visited_of_syncAll {candidates : List RunSummary} {tally after : Tally}
    (run : ((wired c pageSize).syncAll tally candidates).run.Runs exchanges (.ok after)) :
    Visited c exchanges candidates tally after := by
  induction candidates generalizing tally exchanges with
  | nil =>
    obtain ⟨rfl, same⟩ := Program.runs_done_iff.mp run
    cases same
    exact ⟨nofun, fun _ => .inl, fun _ => id⟩
  | cons candidate rest ih =>
    rw [Reconciler.syncAll, List.foldlM_cons] at run
    obtain ⟨next, now, later, rfl, first, second⟩ := returns_bind_iff.mp run
    have visited := ih second
    obtain ⟨outcome, sync, none, rfl, synced, counted⟩ := returns_bind_iff.mp first
    obtain ⟨rfl, same⟩ := Program.runs_done_iff.mp counted
    cases same
    refine ⟨fun r member => ?_, fun t handled => ?_, fun t failed => ?_⟩
    · rcases List.mem_cons.mp member with rfl | member
      · refine (askedFor_of_syncRun synced).mono ?_
        rw [List.append_nil]
        exact List.subset_append_left ..
      · exact (visited.asked r member).mono (List.subset_append_right ..)
    · rcases visited.handled t handled with known | ⟨r, member, same⟩
      · rcases mem_handledAt_add known with known | same
        · exact .inl known
        · exact .inr ⟨candidate, List.mem_cons_self .., same.symm⟩
      · exact .inr ⟨r, List.mem_cons_of_mem _ member, same⟩
    · exact visited.failed t (mem_failedAt_add _ _ failed)

/-- A pass that reports has visited its candidates in order, and moves the cursor by what it
counted. -/
theorem exists_visited {candidates : Candidates} {report : TickReport}
    (run : ((wired c pageSize).handle cursor candidates).run.Runs exchanges (.ok (.ok report))) :
    report.cursorBefore = cursor ∧ ∃ tally,
      Visited c exchanges candidates.inOrder { failedAt := candidates.incompleteAt.toList } tally ∧
      report.cursorAfter = nextCursor cursor tally.handledAt tally.failedAt := by
  obtain ⟨tally, syncs, moves, rfl, synced, moving⟩ := returns_bind_iff.mp run
  obtain ⟨moved, storing, none, rfl, _, done⟩ := returns_bind_iff.mp moving
  have visited := visited_of_syncAll synced
  cases moved with
  | error e => cases (Program.runs_done_iff.mp done).2
  | ok u =>
    obtain ⟨rfl, same⟩ := Program.runs_done_iff.mp done
    cases same
    refine ⟨rfl, tally, ⟨fun r member => ?_, visited.handled, visited.failed⟩, rfl⟩
    exact (visited.asked r member).mono (List.subset_append_left ..)

/-- A pass with a report has collected candidates after the cursor that it reports, and handled
them. -/
theorem exists_candidates {report : TickReport}
    (run : ((wired c pageSize).tick fuel).run.Runs exchanges (.ok (.ok (some report)))) :
    ∃ candidates collecting handling, collecting ⊆ exchanges ∧ handling ⊆ exchanges ∧
      (collect (Graphql.engine wire c) pageSize report.cursorBefore fuel
        (.start pageSize) : Wired _).run.Runs collecting (.ok (.ok (some candidates))) ∧
      ((wired c pageSize).handle report.cursorBefore candidates).run.Runs handling
        (.ok (.ok report)) := by
  obtain ⟨loaded, loading, others, rfl, _, onwards⟩ := returns_bind_iff.mp run
  cases loaded with
  | error e => cases (Program.runs_done_iff.mp onwards).2
  | ok cursor =>
    obtain ⟨collected, collecting, rest, rfl, search, passing⟩ := returns_bind_iff.mp onwards
    match collected with
    | .error e => cases (Program.runs_done_iff.mp passing).2
    | .ok none => cases (Program.runs_done_iff.mp passing).2
    | .ok (some candidates) =>
      obtain ⟨reported, handling, none, rfl, handled, done⟩ := returns_bind_iff.mp passing
      obtain ⟨rfl, same⟩ := Program.runs_done_iff.mp done
      cases reported with
      | error e => cases same
      | ok report' =>
        cases same
        obtain ⟨rfl, _⟩ := exists_visited handled
        refine ⟨candidates, collecting, handling, ?_, ?_, search, handled⟩
        · exact fun e member => List.mem_append_right _ (List.mem_append_left _ member)
        · exact fun e member => List.mem_append_right _ (List.mem_append_right _
            (List.mem_append_left _ member))

end RunLedger.Interleaving
