import RunLedger.Proofs.Graphql.Conversation
import RunLedger.Proofs.Graphql.Pass

/-!
# Runs that a pass does not see

The cursor must not pass a run that was not listed. It does not as long as no full listing loses an
entry that the client cannot use; one lost entry makes a full listing look like the last one, and
the runs behind it are never seen.
-/

namespace RunLedger.Interleaving

open RunLedger.Sync
open RunLedger.Time (Instant)
open RunLedger.Graphql (Connection Request)

/-- A full listing holds at most so many unusable entries. -/
def Spoilt (c : Connection) (cursor : Option Instant) (most : Nat) : WireExchange → Prop
  | ⟨.post request, answer⟩ => ∀ limit sent raw, request = listRequest c limit cursor sent →
      entriesOf? answer = some raw → limit ≤ raw.length →
        raw.countP (fun entry => (usable? entry).isNone) ≤ most
  | _ => True

variable {c : Connection} {pageSize fuel : Nat} {cursor : Option Instant} {entries : List Json}
  {exchanges : List WireExchange}

theorem isSome_of_countP_le {raw : List Json}
    (few : raw.countP (fun entry => (usable? entry).isNone) ≤ 0) :
    ∀ entry ∈ raw, (usable? entry).isSome := by
  intro entry member
  have notNone := List.countP_eq_zero.mp (Nat.le_zero.mp few) entry member
  rw [← Option.not_isNone, Bool.not_eq_true _ |>.mp notNone]
  rfl

/-- A search whose full listings lose no entry misses no run. -/
theorem exhausted_of_collect {candidates : Candidates} {p : Paging}
    (whole : Exhaustive pageSize (usable entries) cursor p)
    (honest : ∀ e ∈ exchanges, Honest c entries cursor e)
    (unspoilt : ∀ e ∈ exchanges, Spoilt c cursor 0 e)
    (run : (collect (Graphql.engine wire c) pageSize cursor fuel p : Wired _).run.Runs exchanges
      (.ok (.ok (some candidates)))) :
    Exhausted (usable entries) cursor candidates := by
  induction fuel generalizing p exchanges with
  | zero => cases (Program.runs_done_iff.mp run).2
  | succ fuel ih =>
    rw [Paging.collect_succ] at run
    obtain ⟨answered, listing, later, rfl, listed, onwards⟩ := returns_bind_iff.mp run
    cases answered with
    | error e => cases (Program.runs_done_iff.mp onwards).2
    | ok page =>
      have honestNow : ∀ e ∈ listing, Honest c entries cursor e :=
        fun e member => honest e (List.mem_append_left _ member)
      obtain ⟨sent, answer, raw, bounded, posted, holds, lists, rfl⟩ :=
        exists_listing listed honestNow whole.bound_mem
      have isPage : IsPage (usable entries) cursor p (newestFirst (usable raw)) := by
        refine isPage_of_lists lists bounded fun full => isSome_of_countP_le ?_
        exact unspoilt _ (List.mem_append_left _ posted) p.limit sent raw rfl holds full
      have step := Paging.advance_spec pageSize (floorOf cursor) p (newestFirst (usable raw))
      unfold Paging.resume at onwards
      dsimp only at onwards
      split at onwards
      · rename_i found finished
        rw [finished] at step
        cases (Program.runs_done_iff.mp onwards).2
        exact whole.finish isPage step
      · rename_i next requested
        rw [requested] at step
        refine ih (whole.advance isPage step) (fun e member => ?_) (fun e member => ?_) onwards
        · exact honest e (List.mem_append_right _ member)
        · exact unspoilt e (List.mem_append_right _ member)

/-- A cursor that has moved has not passed the time at which the search ended early. -/
theorem incompleteAt_eq_none {candidates : Candidates} {tally : Tally} {after : Instant}
    (exhausted : Exhausted (usable entries) cursor candidates)
    (visited : Visited c exchanges candidates.inOrder
      { failedAt := candidates.incompleteAt.toList } tally)
    (moved : nextCursor cursor tally.handledAt tally.failedAt = some after)
    (past : floorOf cursor < after) : candidates.incompleteAt = none := by
  rcases nextCursor_cases moved with same | ⟨handled, before⟩
  · rw [same] at past
    exact (Int.lt_irrefl _ past).elim
  · refine Option.eq_none_iff_forall_not_mem.mpr fun oldest early => ?_
    rcases visited.handled after handled with known | ⟨r, member, rfl⟩
    · exact List.not_mem_nil known
    · have failed := visited.failed oldest (Option.mem_toList.mpr early)
      have found := exhausted.le oldest early r (List.mem_mergeSort.mp member)
      exact Instant.not_lt.mpr found (before oldest failed)

/-- A pass whose full listings lose no entry asks for every run up to the new cursor. -/
theorem askedFor_of_tick {report : TickReport} {run : RunSummary} {after : Instant}
    (pass : ((wired c pageSize).tick fuel).run.Runs exchanges (.ok (.ok (some report))))
    (honest : ∀ e ∈ exchanges, Honest c entries report.cursorBefore e)
    (unspoilt : ∀ e ∈ exchanges, Spoilt c report.cursorBefore 0 e)
    (known : run ∈ usable entries) (above : floorOf report.cursorBefore < run.updateTime)
    (moved : report.cursorAfter = some after) (passed : run.updateTime ≤ after) :
    AskedFor c exchanges run.runId := by
  obtain ⟨candidates, collecting, handling, collects, handles, search, handled⟩ :=
    exists_candidates pass
  have exhausted := exhausted_of_collect (.start pageSize _ _)
    (fun e member => honest e (collects member)) (fun e member => unspoilt e (collects member))
    search
  obtain ⟨_, tally, visited, isNext⟩ := exists_visited handled
  have complete := incompleteAt_eq_none exhausted visited (isNext.symm.trans moved)
    (Instant.lt_of_lt_of_le above passed)
  obtain ⟨r, found, same⟩ := exhausted.found complete run known above
  rw [← same]
  exact (visited.asked r (List.mem_mergeSort.mpr found)).mono handles

/-! ## A run that hides behind an unusable entry -/

variable {n : Nat}

/-- A page of runs at the later time, one run at the earlier time and an unusable entry. -/
def shadowed (n : Nat) : List Json := twoTimes n 1 ++ [timeless]

/-- The same entries with the unusable one in front. -/
def shadowedFirst (n : Nat) : List Json := timeless :: twoTimes n 1

/-- The client can use all but one of the entries. -/
theorem usable_shadowed : usable (shadowed n) = runsAt late 0 n ++ runsAt early n 1 := by
  rw [← usable_twoTimes, usable, shadowed, List.filterMap_append,
    List.filterMap_cons_none usable?_timeless, List.filterMap_nil, List.append_nil]
  rfl

/-- An entry without a time may stand anywhere in a listing. -/
theorem mayFollow_timeless (entry : Json) :
    MayFollow updateTime? timeless entry ∧ MayFollow updateTime? entry timeless :=
  ⟨fun _ isTime => (nomatch isTime), fun _ _ _ isTime => (nomatch isTime)⟩

theorem order_shadowed : Order (shadowed n) (shadowed n) where
  perm := List.Perm.refl _
  sorted := by
    refine List.pairwise_append.mpr ⟨sorted_twoTimes, List.pairwise_singleton .., ?_⟩
    intro first _ last isLast
    rw [List.mem_singleton.mp isLast]
    exact (mayFollow_timeless first).2
  written entry member := by
    rcases List.mem_append.mp member with first | last
    · exact written_twoTimes entry first
    · rw [List.mem_singleton.mp last]
      exact written_timeless

theorem order_shadowedFirst : Order (shadowed n) (shadowedFirst n) where
  perm := (List.perm_append_singleton timeless (twoTimes n 1)).symm
  sorted := List.pairwise_cons.mpr ⟨fun entry _ => (mayFollow_timeless entry).1, sorted_twoTimes⟩
  written entry member := by
    rcases List.mem_cons.mp member with rfl | rest
    · exact written_timeless
    · exact written_twoTimes entry rest

/-- The first page holds the runs of the later time. -/
theorem take_shadowed : (shadowed n).take n = entriesAt "1.000999999" 0 n := by
  rw [shadowed, twoTimes, List.append_assoc, List.take_left' length_entriesAt]

/-- A listing that begins with the unusable entry leaves out one of the usable ones. -/
theorem take_shadowedFirst (some_run : 0 < n) :
    (shadowedFirst n).take n = timeless :: entriesAt "1.000999999" 0 (n - 1) := by
  obtain ⟨m, rfl⟩ := Nat.exists_eq_add_one_of_ne_zero (Nat.ne_of_gt some_run)
  have short : m ≤ (entriesAt "1.000999999" 0 (m + 1)).length := by
    rw [length_entriesAt]
    exact Nat.le_succ m
  rw [shadowedFirst, twoTimes, List.take_succ_cons, List.take_append_of_le_length short,
    take_entriesAt (Nat.le_succ m)]
  rfl

/-! ## The pass that does not see it -/

/-- A run of the later time, and not the one of the earlier time. -/
def IsLate (n : Nat) (run : RunSummary) : Prop :=
  run.updateTime = late ∧ run.runId ≠ nameOf n

theorem isLate_of_mem {m : Nat} {run : RunSummary} (few : m ≤ n) (member : run ∈ runsAt late 0 m) :
    IsLate n run := by
  obtain ⟨i, within, rfl⟩ := List.mem_map.mp member
  refine ⟨rfl, fun same => ?_⟩
  have index := nameOf_injective same
  have below := (List.mem_range'_1.mp within).2
  omega

/-- The search after the first page. -/
def afterFirst (n : Nat) : Paging where
  limit := n
  before := some late
  found := (newestFirst (runsAt late 0 n)).foldl (Paging.add (floorOf none)) []

/-- The candidates after the second page. -/
def seen (n : Nat) : Candidates where
  runs := (newestFirst (runsAt late 0 (n - 1))).foldl (Paging.add (floorOf none))
    (afterFirst n).found
  incompleteAt := none

theorem isLate_of_seen {r : RunSummary} (found : r ∈ (seen n).runs) : IsLate n r := by
  rcases Paging.mem_foldl_add found with earlier | ⟨member, _⟩
  · rcases Paging.mem_foldl_add earlier with none | ⟨member, _⟩
    · exact absurd none List.not_mem_nil
    · exact isLate_of_mem (Nat.le_refl n) (mem_newestFirst.mp member)
  · exact isLate_of_mem (Nat.sub_le n 1) (mem_newestFirst.mp member)

theorem mem_first_page (size : max pageSize 1 = n) :
    (⟨nameOf 0, "", late, []⟩ : RunSummary) ∈ newestFirst (runsAt late 0 n) :=
  mem_newestFirst.mpr (List.mem_map.mpr ⟨0, List.mem_range'_1.mpr (by omega), rfl⟩)

theorem seen_ne_nil (size : max pageSize 1 = n) : (seen n).runs ≠ [] := by
  have above : floorOf none < late := by decide
  obtain ⟨r, found, _⟩ : ∃ r ∈ (afterFirst n).found, r.runId = nameOf 0 :=
    Paging.exists_found_of_listed (mem_first_page size) above
  exact List.ne_nil_of_mem (Paging.mem_foldl_add_of_found found)

/-- The runs of the later time fill the first page. -/
theorem advance_first (size : max pageSize 1 = n) :
    (Paging.start pageSize).advance pageSize (floorOf none)
      (newestFirst (usable ((shadowed n).take n))) = .request (afterFirst n) := by
  have page : usable ((shadowed n).take n) = runsAt late 0 n := by
    rw [take_shadowed, usable_entriesAt writes_late]
  rw [page, afterFirst, ← size]
  refine Paging.advance_eq_moved ?_ (List.ne_nil_of_mem (mem_first_page rfl))
    (fun o isOldest => ?_) rfl
  · rw [length_newestFirst, length_runsAt]
    exact Nat.le_refl _
  · obtain ⟨run, member, rfl⟩ := isOldest.mem
    exact updateTime_of_mem (mem_newestFirst.mp member)

/-- The unusable entry makes the second page look like the last. -/
theorem advance_second (size : max pageSize 1 = n) :
    (afterFirst n).advance pageSize (floorOf none)
      (newestFirst (usable ((shadowedFirst n).take n))) = .finished (seen n) := by
  have page : usable ((shadowedFirst n).take n) = runsAt late 0 (n - 1) := by
    rw [take_shadowedFirst (by omega), usable, List.filterMap_cons_none usable?_timeless]
    exact usable_entriesAt writes_late
  rw [page]
  refine Paging.advance_eq_finished ?_
  rw [length_newestFirst, length_runsAt]
  show n - 1 < n
  omega

/-- The bound that is sent for the later time. -/
def afterLate : Option Instant := some (.utc 1001999999)

/-- Two listings are asked for. The second one is not full of usable runs, and the search ends. -/
theorem runs_search (c : Connection) (size : max pageSize 1 = n) :
    (collect (Graphql.engine wire c) pageSize none 2 (.start pageSize) : Wired _).run.Runs
      [listed c n none (shadowed n), listed c n afterLate (shadowedFirst n)]
      (.ok (.ok (some (seen n)))) := by
  subst size
  exact runs_collect_of_request rfl order_shadowed (advance_first rfl)
    (runs_collect_of_finished (p := afterFirst _) rfl order_shadowedFirst
      (advance_second rfl))

/-- A pass over candidates that do not exist moves the cursor to the time that they share. -/
theorem exists_handled (c : Connection) (size : max pageSize 1 = n) :
    ∃ report, report.cursorBefore = none ∧ report.cursorAfter = some late ∧
      ((wired c pageSize).handle none (seen n)).run.Runs
        ((seen n).inOrder.map (fun run => missed c run.runId) ++
          [⟨.store (.storeCursor late), .ok ()⟩]) (.ok (.ok report)) := by
  obtain ⟨tally, handled, failed, synced⟩ := runs_syncAll_missed c pageSize (seen n).inOrder
    { failedAt := (seen n).incompleteAt.toList }
  have next : nextCursor none tally.handledAt tally.failedAt = some late := by
    rw [handled, failed]
    refine nextCursor_none_of_forall_eq (fun none => seen_ne_nil size ?_) fun u member => ?_
    · have order : (seen n).inOrder = [] := List.map_eq_nil_iff.mp none
      have perm : (seen n).inOrder.Perm (seen n).runs := List.mergeSort_perm ..
      rw [order] at perm
      exact perm.nil_eq.symm
    · obtain ⟨r, found, rfl⟩ := List.mem_map.mp member
      exact (isLate_of_seen (List.mem_mergeSort.mp found)).1
  have moved : ((wired c pageSize).moveCursor none (some late)).run.Runs
      [⟨.store (.storeCursor late), .ok ()⟩] (.ok (.ok ())) :=
    runs_lift_iff.mpr ⟨_, rfl, .ask (.done _)⟩
  refine ⟨⟨(seen n).runs.length, tally.synced, tally.skipped, tally.failed, none, some late⟩,
    rfl, rfl, returns_bind_iff.mpr ⟨tally, _, _, rfl, synced, ?_⟩⟩
  rw [next]
  exact returns_bind_iff.mpr ⟨.ok (), _, [], rfl, moved, .done _⟩

/-- The conversation of a pass that hides the run of the earlier time. -/
def blindPass (c : Connection) (n : Nat) : List WireExchange :=
  ⟨.store .loadCursor, .ok none⟩ ::
    ([listed c n none (shadowed n), listed c n afterLate (shadowedFirst n)] ++
      ((seen n).inOrder.map (fun run => missed c run.runId) ++
        [⟨.store (.storeCursor late), .ok ()⟩]))

/-- The pass that does not see the hidden run ends well and moves the cursor past it. -/
theorem exists_blind (c : Connection) (size : max pageSize 1 = n) :
    ∃ report, report.cursorBefore = none ∧ report.cursorAfter = some late ∧
      ((wired c pageSize).tick 2).run.Runs (blindPass c n) (.ok (.ok (some report))) := by
  obtain ⟨report, before, after, handled⟩ := exists_handled c size
  have load : ((wired c pageSize).store.loadCursor : Wired _).run.Runs
      [⟨.store .loadCursor, .ok none⟩] (.ok (.ok none)) :=
    runs_lift_iff.mpr ⟨_, rfl, .ask (.done _)⟩
  refine ⟨report, before, after, returns_bind_iff.mpr ⟨_, _, _, rfl, load, ?_⟩⟩
  refine returns_bind_iff.mpr ⟨_, _, _, rfl, runs_search c size, ?_⟩
  exact returns_bind_iff.mpr ⟨_, _, [], (List.append_nil _).symm, handled, .done _⟩

/-- The exchanges of that pass: calls to the store, two listings, and a request for each run that it
saw. -/
theorem mem_blindPass {e : WireExchange} (member : e ∈ blindPass c n) :
    (∃ call answer, e = ⟨.store call, answer⟩) ∨
      e = listed c n none (shadowed n) ∨ e = listed c n afterLate (shadowedFirst n) ∨
      ∃ run ∈ (seen n).runs, e = missed c run.runId := by
  rcases List.mem_cons.mp member with rfl | member
  · exact .inl ⟨_, _, rfl⟩
  rcases List.mem_append.mp member with search | member
  · rcases List.mem_cons.mp search with rfl | search
    · exact .inr (.inl rfl)
    · exact .inr (.inr (.inl (List.mem_singleton.mp search)))
  rcases List.mem_append.mp member with visit | store
  · obtain ⟨run, found, rfl⟩ := List.mem_map.mp visit
    exact .inr (.inr (.inr ⟨run, List.mem_mergeSort.mp found, rfl⟩))
  · exact .inl ⟨_, _, List.mem_singleton.mp store⟩

/-- All its listings are honest. -/
theorem honest_blindPass (c : Connection) (n : Nat) :
    ∀ e ∈ blindPass c n, Honest c (shadowed n) none e := by
  intro e member
  rcases mem_blindPass member with ⟨_, _, rfl⟩ | rfl | rfl | ⟨run, _, rfl⟩
  · trivial
  · exact honest_listed order_shadowed usable_shadowed
  · exact honest_listed order_shadowedFirst usable_shadowed
  · intro limit before sent raw _ _ _ holds
    rw [entriesOf?_missing] at holds
    cases holds

/-- One of the entries is unusable. -/
theorem countP_shadowed : (shadowed n).countP (fun entry => (usable? entry).isNone) = 1 := by
  have all_usable : (twoTimes n 1).countP (fun entry => (usable? entry).isNone) = 0 := by
    refine List.countP_eq_zero.mpr fun entry member isNone => ?_
    have timed : (updateTime? entry).isSome := by
      rcases List.mem_append.mp member with first | second
      · rw [updateTime?_of_mem writes_late first]
        rfl
      · rw [updateTime?_of_mem writes_early second]
        rfl
    rw [updateTime?, Option.isNone_iff_eq_none.mp isNone] at timed
    cases timed
  rw [shadowed, List.countP_append, all_usable]
  rfl

theorem spoilt_listed {limit : Nat} {sent : Option Instant} {order : List Json}
    (isOrder : Order (shadowed n) order) : Spoilt c none 1 (listed c limit sent order) := by
  intro limit' sent' raw _ holds _
  rw [entriesOf?_listingOf isOrder.written_take] at holds
  cases holds
  calc (order.take limit).countP (fun entry => (usable? entry).isNone)
      ≤ order.countP (fun entry => (usable? entry).isNone) := (List.take_sublist ..).countP_le
    _ = (shadowed n).countP (fun entry => (usable? entry).isNone) := isOrder.perm.countP_eq _
    _ ≤ 1 := Nat.le_of_eq countP_shadowed

/-- No listing of the pass holds more than one unusable entry. -/
theorem spoilt_blindPass (c : Connection) (n : Nat) : ∀ e ∈ blindPass c n, Spoilt c none 1 e := by
  intro e member
  rcases mem_blindPass member with ⟨_, _, rfl⟩ | rfl | rfl | ⟨run, _, rfl⟩
  · trivial
  · exact spoilt_listed order_shadowed
  · exact spoilt_listed order_shadowedFirst
  · intro limit sent raw _ holds
    rw [entriesOf?_missing] at holds
    cases holds

/-- A request for a run is no request for a listing. -/
theorem detailRequest_ne_listRequest (c : Connection) (runId : String) (limit : Nat)
    (cursor sent : Option Instant) : detailRequest c runId ≠ listRequest c limit cursor sent := by
  intro same
  have name : "RunDetail" = "RecentlyUpdatedRuns" :=
    congrArg (fun request => request.query.name) same
  exact absurd name (by decide)

/-- A request for a run names it. -/
theorem runId_of_detailRequest {runId runId' : String}
    (same : detailRequest c runId = detailRequest c runId') : runId = runId' := by
  have bindings := congrArg Request.bindings same
  simpa [detailRequest, Connection.request, Graphql.runDetailVariables] using bindings

/-- The hidden run is not asked for. -/
theorem not_askedFor_blindPass (c : Connection) (n : Nat) :
    ¬ AskedFor c (blindPass c n) (nameOf n) := by
  rintro ⟨answer, member⟩
  rcases mem_blindPass member with ⟨_, _, same⟩ | same | same | ⟨run, found, same⟩
  · cases congrArg Sigma.fst same
  · exact detailRequest_ne_listRequest _ _ _ _ _ (WireCall.post.inj (congrArg Sigma.fst same))
  · exact detailRequest_ne_listRequest _ _ _ _ _ (WireCall.post.inj (congrArg Sigma.fst same))
  · exact (isLate_of_seen found).2
      (runId_of_detailRequest (WireCall.post.inj (congrArg Sigma.fst same))).symm

/-! ## The condition -/

/-- Fewer unusable entries are within a greater bound. -/
theorem Spoilt.mono {less more : Nat} (few : less ≤ more) {e : WireExchange}
    (spoilt : Spoilt c cursor less e) : Spoilt c cursor more e := by
  obtain ⟨call, answer⟩ := e
  cases call with
  | post request =>
    exact fun limit sent raw same holds full =>
      Nat.le_trans (spoilt limit sent raw same holds full) few
  | _ => trivial

/-- Every pass over servers whose full listings hold at most `most` unusable entries asks for every
run between the old cursor and the new one exactly if full listings hold no unusable entry. -/
theorem askedFor_iff (c : Connection) (pageSize most : Nat) :
    (∀ entries fuel exchanges report,
      ((wired c pageSize).tick fuel).run.Runs exchanges (.ok (.ok (some report))) →
      (∀ e ∈ exchanges, Honest c entries report.cursorBefore e ∧
        Spoilt c report.cursorBefore most e) →
      ∀ run ∈ usable entries, ∀ after, floorOf report.cursorBefore < run.updateTime →
        report.cursorAfter = some after → run.updateTime ≤ after →
          AskedFor c exchanges run.runId) ↔
      most = 0 := by
  constructor
  · intro asked
    by_contra some_spoilt
    obtain ⟨report, before, after, pass⟩ := exists_blind c (Eq.refl (max pageSize 1))
    have known : (⟨nameOf (max pageSize 1), "", early, []⟩ : RunSummary) ∈
        usable (shadowed (max pageSize 1)) := by
      rw [usable_shadowed]
      exact List.mem_append_right _ (List.mem_singleton_self _)
    have above : floorOf none < early ∧ early ≤ late := by decide
    refine not_askedFor_blindPass c (max pageSize 1) (asked _ _ _ report pass (fun e member => ?_)
      _ known late ?_ after above.2)
    · rw [before]
      exact ⟨honest_blindPass c _ e member,
        (spoilt_blindPass c _ e member).mono (Nat.one_le_iff_ne_zero.mpr some_spoilt)⟩
    · rw [before]
      exact above.1
  · rintro rfl entries fuel exchanges report pass fair run known after above moved passed
    exact askedFor_of_tick pass (fun e member => (fair e member).1)
      (fun e member => (fair e member).2) known above moved passed

end RunLedger.Interleaving
