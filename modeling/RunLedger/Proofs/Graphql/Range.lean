import RunLedger.Proofs.Graphql.Ending

/-!
# Where a pass breaks off

The bound of a listing is sent a millisecond later than it is meant, and the years of a clock end.
A pass breaks off where there is no later millisecond and nowhere else: nothing but a bound can stop
it, and the bounds are update times that answers list. `tick_breaks_iff` says that the times in the
last millisecond that can be read do break a pass off, with pages of any size.
-/

namespace RunLedger.Interleaving

open RunLedger.Sync
open RunLedger.Time (Instant)
open RunLedger.Graphql (Connection BoundOutOfRange boundToSend)

variable {c : Connection} {pageSize fuel : Nat} {cursor : Option Instant} {t : Instant}
  {exchanges : List WireExchange} {e : BoundOutOfRange} {α β : Type} {text : String}

/-! ## Programs that do not break off -/

/-- A program breaks off where its first part does, or else where the second does. -/
theorem breaks_bind_iff {x : Wired α} {f : α → Wired β} :
    (x >>= f).run.Runs exchanges (.error e) ↔ x.run.Runs exchanges (.error e) ∨
      ∃ a before after, exchanges = before ++ after ∧ x.run.Runs before (.ok a) ∧
        (f a).run.Runs after (.error e) := by
  rw [run_bind, Program.runs_bind_iff]
  constructor
  · rintro ⟨a, before, after, rfl, first, second⟩
    cases a with
    | ok a => exact .inr ⟨a, before, after, rfl, first, second⟩
    | error e' =>
      obtain ⟨rfl, same⟩ := Program.runs_done_iff.mp second
      cases same
      exact .inl ((List.append_nil before).symm ▸ first)
  · rintro (first | ⟨a, before, after, rfl, first, second⟩)
    · exact ⟨.error e, exchanges, [], (List.append_nil _).symm, first, .done _⟩
    · exact ⟨.ok a, before, after, rfl, first, second⟩

/-- No conversation breaks a program off. -/
def Completes (x : Wired α) : Prop := ∀ exchanges e, ¬ x.run.Runs exchanges (.error e)

theorem completes_pure (a : α) : Completes (pure a) := by
  intro exchanges e run
  cases (Program.runs_done_iff.mp run).2

/-- A program that knows no bounds does not break off. -/
theorem completes_lift (p : Program WireCall.Answer α) : Completes (ExceptT.lift p) := by
  intro exchanges e run
  obtain ⟨_, impossible, _⟩ := runs_lift_iff.mp run
  cases impossible

/-- A program completes if its parts do. -/
theorem Completes.bind {x : Wired α} {f : α → Wired β} (first : Completes x)
    (second : ∀ a, Completes (f a)) : Completes (x >>= f) := by
  intro exchanges e run
  rcases breaks_bind_iff.mp run with broken | ⟨a, _, after, _, _, broken⟩
  · exact first _ _ broken
  · exact second a _ _ broken

section Sync

variable (c pageSize)

theorem completes_stageAll (writes : List Write) (snap : Snapshot) :
    Completes (stageAll (wired c pageSize).store snap writes) := by
  induction writes generalizing snap with
  | nil => exact completes_pure _
  | cons w ws ih =>
    refine (completes_lift _).bind fun staged => ?_
    cases staged with
    | error refused => exact completes_pure _
    | ok snap => exact ih snap

theorem completes_persist (plan : Plan) : Completes (persist (wired c pageSize).store plan) := by
  refine (completes_lift _).bind fun opened => ?_
  cases opened with
  | error refused => exact completes_pure _
  | ok snap =>
    refine (completes_stageAll c pageSize plan.writes snap).bind fun staged => ?_
    cases staged with
    | error refused => exact (completes_lift _).bind fun _ => completes_pure _
    | ok snap =>
      refine (completes_lift _).bind fun committed => ?_
      cases committed <;> exact completes_pure _

theorem completes_locations (run : RunRecord) (detail : RunDetail) (now : Instant) :
    Completes ((wired c pageSize).locations run detail now) := by
  unfold Reconciler.locations
  split
  · refine (completes_lift _).bind fun declared => ?_
    cases declared <;> exact completes_pure _
  · exact completes_pure _

theorem completes_storeDetail (runId : String) (run : RunRecord) (detail : RunDetail) :
    Completes ((wired c pageSize).storeDetail runId run detail) := by
  refine (completes_lift _).bind fun now => ?_
  refine (completes_locations c pageSize run detail now).bind fun resolved => ?_
  cases resolved with
  | error failed => exact completes_pure _
  | ok locations =>
    refine (completes_persist c pageSize _).bind fun persisted => ?_
    cases persisted <;> exact completes_pure _

/-- A sync does not break off, since it asks for no listing. -/
theorem completes_syncRun (runId : String) : Completes ((wired c pageSize).syncRun runId) := by
  refine (completes_lift _).bind fun answered => ?_
  cases answered with
  | error failed => cases failed <;> exact completes_pure _
  | ok detail =>
    refine (completes_lift _).bind fun row => ?_
    match row with
    | .error failed => exact completes_pure _
    | .ok none => exact completes_pure _
    | .ok (some run) => exact completes_storeDetail c pageSize runId run detail

theorem completes_syncAll (candidates : List RunSummary) (tally : Tally) :
    Completes ((wired c pageSize).syncAll tally candidates) := by
  induction candidates generalizing tally with
  | nil => exact completes_pure _
  | cons run rest ih =>
    rw [Reconciler.syncAll, List.foldlM_cons]
    refine Completes.bind ?_ fun tally => ih tally
    exact (completes_syncRun c pageSize run.runId).bind fun _ => completes_pure _

/-- Once the candidates are found, a pass does not break off. -/
theorem completes_handle (cursor : Option Instant) (candidates : Candidates) :
    Completes ((wired c pageSize).handle cursor candidates) := by
  refine (completes_syncAll c pageSize _ _).bind fun tally => ?_
  refine Completes.bind ?_ fun moved => ?_
  · unfold Reconciler.moveCursor
    split
    · split
      · exact completes_pure _
      · exact completes_lift _
    · exact completes_pure _
  · cases moved <;> exact completes_pure _

end Sync

/-! ## Listed times -/

/-- The answer of an exchange lists a run with this update time. -/
def ListedAt (t : Instant) : WireExchange → Prop
  | ⟨.post _, answer⟩ => ∃ page, (dataOf answer).bind Graphql.decodeRunList = .ok page ∧
      ∃ run ∈ page, run.updateTime = t
  | _ => False

/-- A time that breaks a listing off as its bound. -/
theorem bound_eq_of_error {before : Option Instant} (unsent : boundToSend before = .error e) :
    before = some e.bound ∧ e.bound.add? Instant.millisecond = none := by
  unfold boundToSend at unsent
  split at unsent
  · cases unsent
  · split at unsent
    · cases unsent
    · rename_i none_later
      cases unsent
      exact ⟨rfl, none_later⟩

/-- The last nanosecond of the last year. -/
def lastNanosecond : Int := Instant.lastSecond * Instant.second + 999999999

/-- A time that was read from a document exists, on the clock of UTC. -/
theorem utc_of_epochSeconds? {j : Json} (reads : Time.epochSeconds? j = some t) :
    t.offset = 0 ∧ t.inRange = true := by
  obtain ⟨seconds, _, reads⟩ := Option.bind_eq_some_iff.mp reads
  unfold Time.ofFloatSeconds? at reads
  split at reads
  · dsimp only at reads
    split at reads
    · unfold Instant.ofNanos? at reads
      dsimp only at reads
      split at reads
      · rename_i inRange
        cases reads
        exact ⟨rfl, inRange⟩
      · cases reads
    · cases reads
  · cases reads

/-- There is no later millisecond exactly for the times in the last one. -/
theorem add?_eq_none_iff (utc : t.offset = 0) (inRange : t.inRange = true) :
    t.add? Instant.millisecond = none ↔ lastNanosecond < t.nanos + Instant.millisecond := by
  simp only [Instant.inRange, Instant.localSeconds, Bool.and_eq_true, decide_eq_true_eq, utc,
    Instant.firstSecond, Instant.lastSecond, Instant.second] at inRange
  simp only [Instant.add?, Instant.inRange, Instant.localSeconds, utc, lastNanosecond,
    Instant.firstSecond, Instant.lastSecond, Instant.second, Instant.millisecond,
    Bool.and_eq_true, decide_eq_true_eq]
  split
  · rename_i later
    exact iff_of_false nofun (by omega)
  · rename_i none_later
    exact iff_of_true rfl (by omega)

/-- The update time of a usable entry was read from a document. -/
theorem reads_of_usable? {entry : Json} {run : RunSummary} (isUsable : usable? entry = some run) :
    ∃ j, Time.epochSeconds? j = some run.updateTime := by
  obtain ⟨r, _, read⟩ := Option.bind_eq_some_iff.mp (Option.join_eq_some_iff.mp isUsable)
  obtain ⟨_, _, read⟩ := Option.bind_eq_some_iff.mp read
  obtain ⟨_, _, read⟩ := Option.bind_eq_some_iff.mp read
  obtain ⟨updateTime, _, read⟩ := Option.bind_eq_some_iff.mp read
  obtain ⟨_, _, read⟩ := Option.bind_eq_some_iff.mp read
  obtain ⟨_, _, made⟩ := Option.bind_eq_some_iff.mp (Option.some.inj read)
  obtain ⟨t, isTime, made⟩ := Option.bind_eq_some_iff.mp made
  cases made
  obtain ⟨j, _, reads⟩ := Option.bind_eq_some_iff.mp isTime
  exact ⟨j, reads⟩

/-- A listed time exists, on the clock of UTC. -/
theorem ListedAt.utc {x : WireExchange} (listed : ListedAt t x) :
    t.offset = 0 ∧ t.inRange = true := by
  obtain ⟨_ | _ | _ | _, answer⟩ := x
  · obtain ⟨page, decoded, run, member, rfl⟩ := listed
    obtain ⟨raw, _, rfl⟩ := exists_entries decoded
    obtain ⟨entry, _, isUsable⟩ := List.mem_filterMap.mp (mem_newestFirst.mp member)
    obtain ⟨j, reads⟩ := reads_of_usable? isUsable
    exact utc_of_epochSeconds? reads
  all_goals exact listed.elim

/-- A search breaks off at its bound, or at a time that was listed to it. -/
theorem broken_of_collect {p : Paging}
    (run : (collect (Graphql.engine wire c) pageSize cursor fuel p : Wired _).run.Runs exchanges
      (.error e)) :
    (p.before = some e.bound ∨ ∃ x ∈ exchanges, ListedAt e.bound x) ∧
      e.bound.add? Instant.millisecond = none := by
  induction fuel generalizing p exchanges with
  | zero => exact (completes_pure _ _ _ run).elim
  | succ fuel ih =>
    rw [Paging.collect_succ] at run
    rcases breaks_bind_iff.mp run with unsent | ⟨answered, listing, later, rfl, listed, onwards⟩
    · obtain ⟨isBound, none_later⟩ := bound_eq_of_error (bound_of_recentRuns_error unsent)
      exact ⟨.inl isBound, none_later⟩
    · cases answered with
      | error failed => exact (completes_pure _ _ _ onwards).elim
      | ok page =>
        have step := Paging.advance_spec pageSize (floorOf cursor) p page
        unfold Paging.resume at onwards
        dsimp only at onwards
        split at onwards
        · exact (completes_pure _ _ _ onwards).elim
        · rename_i next requested
          rw [requested] at step
          obtain ⟨bound, none_later⟩ := ih onwards
          refine ⟨?_, none_later⟩
          rcases bound with isBound | ⟨x, member, listedAt⟩
          · cases step with
            | widened => exact .inl isBound
            | moved isOldest _ _ =>
              cases isBound
              obtain ⟨sent, answer, _, posted, decoded⟩ := recentRuns_post listed
              exact .inr ⟨_, List.mem_append_left _ posted, page, decoded, isOldest.mem⟩
          · exact .inr ⟨x, List.mem_append_right _ member, listedAt⟩

/-- A pass breaks off only at a listed time in the last millisecond. -/
theorem listed_of_tick
    (run : ((wired c pageSize).tick fuel).run.Runs exchanges (.error e)) :
    (∃ x ∈ exchanges, ListedAt e.bound x) ∧
      lastNanosecond < e.bound.nanos + Instant.millisecond := by
  rcases breaks_bind_iff.mp run with broken | ⟨loaded, loading, rest, rfl, _, onwards⟩
  · exact (completes_lift _ _ _ broken).elim
  · cases loaded with
    | error failed => exact (completes_pure _ _ _ onwards).elim
    | ok cursor =>
      rcases breaks_bind_iff.mp onwards with broken | ⟨collected, _, _, rfl, _, passing⟩
      · obtain ⟨bound, none_later⟩ := broken_of_collect broken
        obtain ⟨x, member, listed⟩ := bound.resolve_left nofun
        obtain ⟨utc, inRange⟩ := listed.utc
        exact ⟨⟨x, List.mem_append_right _ member, listed⟩,
          (add?_eq_none_iff utc inRange).mp none_later⟩
      · match collected with
        | .error failed => exact (completes_pure _ _ _ passing).elim
        | .ok none => exact (completes_pure _ _ _ passing).elim
        | .ok (some candidates) =>
          exact ((completes_handle c pageSize cursor candidates).bind
            fun _ => completes_pure _) _ _ passing |>.elim

/-! ## Passes that break off -/

/-- A bound that no millisecond follows cannot be sent. -/
theorem boundToSend_eq_error (none_later : t.add? Instant.millisecond = none) :
    boundToSend (some t) = .error ⟨t⟩ := by
  simp only [boundToSend, none_later]

/-- A page of runs of one time makes that time the next bound. -/
theorem advance_entriesAt (writes : Writes text t) (pageSize : Nat) :
    ∃ found, (Paging.start pageSize).advance pageSize (floorOf none)
        (newestFirst (usable ((entriesAt text 0 (max pageSize 1)).take (max pageSize 1)))) =
      .request ⟨max pageSize 1, some t, found⟩ := by
  rw [take_entriesAt (Nat.le_refl _), usable_entriesAt writes]
  have length : (newestFirst (runsAt t 0 (max pageSize 1))).length = max pageSize 1 := by
    rw [length_newestFirst, length_runsAt]
  have listed : newestFirst (runsAt t 0 (max pageSize 1)) ≠ [] := by
    refine List.ne_nil_of_length_pos ?_
    omega
  refine ⟨_, Paging.advance_eq_moved (Nat.le_of_eq length.symm) listed (fun o isOldest => ?_) rfl⟩
  obtain ⟨run, member, rfl⟩ := isOldest.mem
  exact updateTime_of_mem (mem_newestFirst.mp member)

/-- Where there is no later millisecond, a page of runs of that time breaks the pass off. -/
theorem exists_broken (c : Connection) (pageSize : Nat) (writes : Writes text t)
    (none_later : t.add? Instant.millisecond = none) :
    ∃ exchanges, ((wired c pageSize).tick 2).run.Runs exchanges (.error ⟨t⟩) := by
  obtain ⟨found, step⟩ := advance_entriesAt writes pageSize
  have unsent : ((Graphql.engine wire c).recentRuns (max pageSize 1) none (some t) :
      Wired _).run.Runs [] (.error ⟨t⟩) := by
    refine breaks_bind_iff.mpr (.inl ?_)
    show (Program.done (boundToSend (some t))).Runs [] (.error ⟨t⟩)
    rw [boundToSend_eq_error none_later]
    exact .done _
  have broken : (collect (Graphql.engine wire c) pageSize none 1 ⟨max pageSize 1, some t, found⟩ :
      Wired _).run.Runs [] (.error ⟨t⟩) := by
    rw [Paging.collect_succ]
    exact breaks_bind_iff.mpr (.inl unsent)
  have search := runs_collect_of_request (c := c) rfl (order_entriesAt writes) step broken
  have loaded : (ExceptT.lift (Program.question (WireCall.store .loadCursor)) : Wired _).run.Runs
      [⟨.store .loadCursor, .ok none⟩] (.ok (.ok none)) :=
    runs_lift_iff.mpr ⟨_, rfl, .ask (.done _)⟩
  exact ⟨_, breaks_bind_iff.mpr (.inr ⟨_, _, _, rfl, loaded, breaks_bind_iff.mpr (.inl search)⟩)⟩

/-- A pass breaks off only at a listed time in the last millisecond of the last year; and every such
time that can be read from a text breaks a pass off, whatever the size of a page. -/
theorem tick_breaks_iff (c : Connection) (pageSize : Nat) :
    (∀ fuel exchanges e, ((wired c pageSize).tick fuel).run.Runs exchanges (.error e) →
      (∃ x ∈ exchanges, ListedAt e.bound x) ∧
        lastNanosecond < e.bound.nanos + Instant.millisecond) ∧
    ∀ text t, Writes text t → ((∃ fuel exchanges,
      ((wired c pageSize).tick fuel).run.Runs exchanges (.error ⟨t⟩)) ↔
        lastNanosecond < t.nanos + Instant.millisecond) := by
  refine ⟨fun fuel exchanges e run => listed_of_tick run, fun text t writes => ⟨?_, fun last => ?_⟩⟩
  · rintro ⟨fuel, exchanges, run⟩
    exact (listed_of_tick run).2
  · obtain ⟨utc, inRange⟩ := utc_of_epochSeconds? writes.reads
    exact ⟨2, exists_broken c pageSize writes ((add?_eq_none_iff utc inRange).mpr last)⟩

/-- Half a millisecond before the end of the last year. -/
theorem writes_lastMoment : Writes "253402300799.9995" (.utc 253402300799999508480) :=
  ⟨by decide +kernel, by decide +kernel⟩

/-- A run that was updated then breaks off a pass that asks for one run at a time. -/
theorem tick_breaks_iff_lastMoment : ∃ fuel exchanges,
    ((wired { baseUrl := "http://engine" } 1).tick fuel).run.Runs exchanges
      (.error ⟨.utc 253402300799999508480⟩) :=
  ((tick_breaks_iff { baseUrl := "http://engine" } 1).2 _ _ writes_lastMoment).mpr (by decide)

end RunLedger.Interleaving
