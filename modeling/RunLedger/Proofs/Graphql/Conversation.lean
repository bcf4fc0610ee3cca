import RunLedger.Proofs.Graphql.Answers

/-!
# Conversations with a server

The conversations of searches and syncs with a server that writes its answers as text. `twoTimes` is
a server whose runs were updated at one of two times, less than a millisecond apart: whatever bound
a search sends, all of its runs lie before it, so that a listing is cut by the limit alone.
-/

namespace RunLedger.Interleaving

open RunLedger.Sync
open RunLedger.Time (Instant)
open RunLedger.Graphql (Connection Request BoundOutOfRange boundToSend)

variable {c : Connection} {limit n m : Nat} {cursor before sent : Option Instant}
  {entries order : List Json}

/-! ## Runs of two times -/

/-- Two times that are less than a millisecond apart. -/
def early : Instant := .utc 1000000000

def late : Instant := .utc 1000999999

theorem writes_early : Writes "1" early := ⟨by decide +kernel, by decide +kernel⟩

theorem writes_late : Writes "1.000999999" late := ⟨by decide +kernel, by decide +kernel⟩

/-- `n` runs of the later time, and after them `m` runs of the earlier one. -/
def twoTimes (n m : Nat) : List Json := entriesAt "1.000999999" 0 n ++ entriesAt "1" n m

/-- All entries of the server are of use to the client. -/
theorem usable_twoTimes : usable (twoTimes n m) = runsAt late 0 n ++ runsAt early n m := by
  rw [usable, twoTimes, List.filterMap_append]
  exact congrArg₂ _ (usable_entriesAt writes_late) (usable_entriesAt writes_early)

theorem written_twoTimes : ∀ entry ∈ twoTimes n m, Written entry := by
  intro entry member
  rcases List.mem_append.mp member with first | second
  · exact written_entriesAt writes_late entry first
  · exact written_entriesAt writes_early entry second

/-- A listing that reaches the earlier time holds all runs of the later one. -/
theorem take_twoTimes (least : n ≤ limit) (most : limit ≤ n + m) :
    (twoTimes n m).take limit = twoTimes n (limit - n) := by
  have first : (entriesAt "1.000999999" 0 n).take limit = entriesAt "1.000999999" 0 n :=
    List.take_of_length_le (by rw [length_entriesAt]; exact least)
  rw [twoTimes, List.take_append, length_entriesAt, first, take_entriesAt (by omega)]
  rfl

/-- An entry may follow one whose time is not earlier. -/
theorem mayFollow_of_le {a b : Json} {s t : Instant} (sTime : updateTime? a = some s)
    (tTime : updateTime? b = some t) (le : t ≤ s) : MayFollow updateTime? a b := by
  intro s' isS t' isT
  cases sTime.symm.trans isS
  cases tTime.symm.trans isT
  exact le

/-- Entries of one time may stand in any order. -/
theorem sorted_entriesAt {text : String} {t : Instant} (writes : Writes text t)
    (start count : Nat) : (entriesAt text start count).Pairwise (MayFollow updateTime?) := by
  refine List.pairwise_of_forall_mem_list fun _ first _ second => ?_
  exact mayFollow_of_le (updateTime?_of_mem writes first) (updateTime?_of_mem writes second)
    (Int.le_refl _)

theorem sorted_twoTimes : (twoTimes n m).Pairwise (MayFollow updateTime?) := by
  refine List.pairwise_append.mpr
    ⟨sorted_entriesAt writes_late 0 n, sorted_entriesAt writes_early n m, ?_⟩
  intro first isFirst second isSecond
  exact mayFollow_of_le (updateTime?_of_mem writes_late isFirst)
    (updateTime?_of_mem writes_early isSecond) (by decide)

theorem early_or_late {run : RunSummary}
    (same : usable entries = runsAt late 0 n ++ runsAt early n m)
    (member : run ∈ usable entries) : run.updateTime = early ∨ run.updateTime = late := by
  rw [same] at member
  rcases List.mem_append.mp member with first | second
  · exact .inr (updateTime_of_mem first)
  · exact .inl (updateTime_of_mem second)

/-- Any bound lets runs of both times pass. -/
theorem isBetween_of_twoTimes {run : RunSummary}
    (same : usable entries = runsAt late 0 n ++ runsAt early n m)
    (bounded : boundToSend before = .ok sent)
    (known : ∀ b ∈ before, ∃ run ∈ usable entries, run.updateTime = b)
    (member : run ∈ usable entries) : isBetween none sent run.updateTime = true := by
  rw [isBetween_eq_reaches bounded]
  refine reaches_iff.mpr ⟨nofun, fun b isBound => ?_⟩
  obtain ⟨other, known, rfl⟩ := known b isBound
  have near : early.nanos ≤ late.nanos ∧ late.nanos < early.nanos + Instant.millisecond := by
    decide
  rcases early_or_late same member with time | time <;>
    rcases early_or_late same known with time' | time' <;> rw [time, time'] <;> omega

/-! ## Listings -/

/-- An order in which a server may list its entries in text. -/
structure Order (entries order : List Json) : Prop where
  perm : order.Perm entries
  sorted : order.Pairwise (MayFollow updateTime?)
  written : ∀ entry ∈ order, Written entry

theorem order_entriesAt {text : String} {t : Instant} {start count : Nat} (writes : Writes text t) :
    Order (entriesAt text start count) (entriesAt text start count) where
  perm := List.Perm.refl _
  sorted := sorted_entriesAt writes start count
  written := written_entriesAt writes

theorem Order.written_take (isOrder : Order entries order) :
    ∀ entry ∈ order.take limit, Written entry :=
  fun entry member => isOrder.written entry (List.mem_of_mem_take member)

/-- A server that takes every entry to be in the bounds answers with the first of them. -/
theorem Order.lists_take (isOrder : Order entries order)
    (inside : ∀ run ∈ usable entries, isBetween cursor sent run.updateTime = true) :
    Lists entries limit cursor sent (order.take limit) := by
  refine ⟨fun entry => (usable? entry).all fun run => isBetween cursor sent run.updateTime,
    fun entry run isUsable => congrArg (Option.all _) isUsable, order, ?_, isOrder.sorted, rfl⟩
  rw [List.filter_eq_self.mpr fun entry member => ?_]
  · exact isOrder.perm
  · cases isUsable : usable? entry with
    | none => rfl
    | some run => exact inside run (List.mem_filterMap.mpr ⟨entry, member, isUsable⟩)

/-- A request tells the limit that it was made with. -/
theorem limit_of_listRequest {limit' : Nat} {sent' : Option Instant}
    (same : listRequest c limit cursor sent = listRequest c limit' cursor sent') :
    limit = limit' := by
  have bindings := congrArg Request.bindings same
  simp only [listRequest, Connection.request, Graphql.recentRunsVariables, Json.ofNat,
    Json.obj.injEq, List.cons.injEq, Prod.mk.injEq, Json.num.injEq, Json.Number.int.injEq,
    true_and] at bindings
  exact Int.ofNat.inj bindings.1

/-- The exchange of a request for a listing and the first entries in some order. -/
def listed (c : Connection) (limit : Nat) (sent : Option Instant) (order : List Json) :
    WireExchange :=
  ⟨.post (listRequest c limit none sent), answerWith (listingOf (order.take limit))⟩

/-- To list the first entries of an order is an honest answer, whatever bound was sent. -/
theorem honest_listed (isOrder : Order entries order)
    (same : usable entries = runsAt late 0 n ++ runsAt early n m) :
    Honest c entries none (listed c limit sent order) := by
  intro limit' before' sent' raw known bounded sameRequest holds
  obtain rfl := limit_of_listRequest sameRequest
  rw [entriesOf?_listingOf isOrder.written_take] at holds
  cases holds
  exact isOrder.lists_take fun run member => isBetween_of_twoTimes same bounded known member

/-- A listing is asked for with one request and read from its answer. -/
theorem runs_recentRuns (bounded : boundToSend before = .ok sent) (isOrder : Order entries order) :
    ((Graphql.engine wire c).recentRuns limit none before : Wired _).run.Runs
      [listed c limit sent order] (.ok (.ok (newestFirst (usable (order.take limit))))) := by
  refine returns_bind_iff.mpr ⟨sent, [], _, rfl, ?_, runs_lift_iff.mpr ⟨_, rfl, ?_⟩⟩
  · show (Program.done (boundToSend before)).Runs [] (.ok sent)
    rw [bounded]
    exact .done _
  · have asked : (Graphql.ask wire c Graphql.recentRunsQuery
        (Graphql.recentRunsVariables limit none sent)).Runs [listed c limit sent order]
          (Graphql.openEnvelope (listingOf (order.take limit))) :=
      runs_ask (readResponse_answerWith (plain_listingOf isOrder.written_take))
    refine Program.runs_bind_iff.mpr ⟨_, _, [], rfl, asked, ?_⟩
    rw [decodeRunList_listingOf isOrder.written_take]
    exact .done _

section Search

variable {pageSize fuel : Nat} {p : Paging} {rest : List WireExchange}
  {result : Except BoundOutOfRange (Except EngineError (Option Candidates))}

/-- A search asks for one listing and goes on from the page that was read. -/
theorem runs_collect (bounded : boundToSend p.before = .ok sent) (isOrder : Order entries order)
    (onwards : (Paging.resume (Graphql.engine wire c) pageSize none fuel p
      (.ok (newestFirst (usable (order.take p.limit)))) : Wired _).run.Runs rest result) :
    (collect (Graphql.engine wire c) pageSize none (fuel + 1) p : Wired _).run.Runs
      (listed c p.limit sent order :: rest) result := by
  rw [Paging.collect_succ, run_bind]
  exact Program.runs_bind_iff.mpr ⟨_, [_], rest, rfl, runs_recentRuns bounded isOrder, onwards⟩

/-- A search that goes on after a listing. -/
theorem runs_collect_of_request {next : Paging} (bounded : boundToSend p.before = .ok sent)
    (isOrder : Order entries order)
    (step : p.advance pageSize (floorOf none) (newestFirst (usable (order.take p.limit))) =
      .request next)
    (run : (collect (Graphql.engine wire c) pageSize none fuel next : Wired _).run.Runs rest
      result) :
    (collect (Graphql.engine wire c) pageSize none (fuel + 1) p : Wired _).run.Runs
      (listed c p.limit sent order :: rest) result := by
  refine runs_collect bounded isOrder ?_
  unfold Paging.resume
  dsimp only
  rw [step]
  exact run

theorem runs_collect_of_finished {candidates : Candidates}
    (bounded : boundToSend p.before = .ok sent) (isOrder : Order entries order)
    (step : p.advance pageSize (floorOf none) (newestFirst (usable (order.take p.limit))) =
      .finished candidates) :
    (collect (Graphql.engine wire c) pageSize none (fuel + 1) p : Wired _).run.Runs
      [listed c p.limit sent order] (.ok (.ok (some candidates))) := by
  refine runs_collect bounded isOrder ?_
  unfold Paging.resume
  dsimp only
  rw [step]
  exact .done _

end Search

/-! ## Runs that do not exist -/

/-- The exchange about a run that does not exist. -/
def missed (c : Connection) (runId : String) : WireExchange :=
  ⟨.post (detailRequest c runId), answerWith missing⟩

/-- A run that does not exist is passed over. -/
theorem runs_syncRun_missed (c : Connection) (pageSize : Nat) (runId : String) :
    ((wired c pageSize).syncRun runId).run.Runs [missed c runId] (.ok (.ok .engineRunMissing)) := by
  have page : (Graphql.askPage wire c runId none).Runs [missed c runId]
      (.error (.runNotFound runId)) :=
    Program.runs_bind_iff.mpr ⟨_, _, [], rfl, runs_ask (readResponse_answerWith plain_missing),
      .done _⟩
  have detail : (Graphql.askRun wire c runId).Runs [missed c runId] (.error (.runNotFound runId)) :=
    Program.runs_bind_iff.mpr ⟨_, _, [], rfl, page, .done _⟩
  exact returns_bind_iff.mpr ⟨_, _, [], rfl, runs_lift_iff.mpr ⟨_, rfl, detail⟩, .done _⟩

/-- Runs that the engine no longer has are skipped one after the other. -/
theorem runs_syncAll_missed (c : Connection) (pageSize : Nat) (candidates : List RunSummary)
    (tally : Tally) :
    ∃ after, after.handledAt = tally.handledAt ++ candidates.map (·.updateTime) ∧
      after.failedAt = tally.failedAt ∧
      ((wired c pageSize).syncAll tally candidates).run.Runs
        (candidates.map fun run => missed c run.runId) (.ok after) := by
  induction candidates generalizing tally with
  | nil => exact ⟨tally, (List.append_nil _).symm, rfl, .done _⟩
  | cons run rest ih =>
    obtain ⟨after, handled, failed, later⟩ := ih (tally.add run.updateTime (.ok .engineRunMissing))
    refine ⟨after, ?_, failed, ?_⟩
    · rw [handled, List.map_cons, ← List.singleton_append, ← List.append_assoc]
      rfl
    · have first : (tally.add run.updateTime <$> (wired c pageSize).syncRun run.runId).run.Runs
          [missed c run.runId] (.ok (tally.add run.updateTime (.ok .engineRunMissing))) :=
        returns_bind_iff.mpr ⟨_, _, [], rfl, runs_syncRun_missed c pageSize run.runId, .done _⟩
      exact returns_bind_iff.mpr ⟨_, [_], _, rfl, first, later⟩

end RunLedger.Interleaving
