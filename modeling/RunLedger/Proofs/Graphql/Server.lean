import RunLedger.Proofs.Graphql.Wire
import RunLedger.Proofs.Sync.Slack

/-!
# Servers at rest

A server at rest answers every request for a listing from one list of entries, some of which may be
of no use to the client. It takes both bounds as exclusive, lists the usable entries newest first
and counts the others too, so that a full listing may hold fewer usable entries than the limit. Any
request may fail, and it is left to the server which unusable entries it takes to be in the bounds.

The server is idealised in one respect: a request carries the cursor and the bound as floating-point
seconds, and the server is taken to know the times that were meant, to the nanosecond. A server that
compares with the rounded seconds may list a run that lies within the rounding of a bound, or leave
it out.

The client drops what it cannot use. As long as no full listing loses an entry this way, what the
client gets is a page of the usable runs.
-/

namespace RunLedger.Interleaving

open RunLedger.Sync
open RunLedger.Time (Instant)
open RunLedger.Graphql (Connection Request Response BoundOutOfRange boundToSend)

/-- The run that an entry stands for, if it has a run id and a readable update time. -/
def usable? (entry : Json) : Option RunSummary := (Graphql.asEntry? entry).join

/-- The runs that some entries stand for. -/
def usable (entries : List Json) : List RunSummary := entries.filterMap usable?

/-- The update time of a usable entry. -/
def updateTime? (entry : Json) : Option Instant := (usable? entry).map (·.updateTime)

/-- Whether a time lies between two bounds, both excluded. The bounds are exact times, although a
request carries them rounded to floating-point seconds. -/
def isBetween (after before : Option Instant) (t : Instant) : Bool :=
  after.all (fun a => decide (a < t)) && before.all fun b => decide (t < b)

/-- `raw` is an answer from these entries to a request for a listing between two exact times. -/
def Lists (entries : List Json) (limit : Nat) (after before : Option Instant) (raw : List Json) :
    Prop :=
  ∃ admits : Json → Bool,
    (∀ entry run, usable? entry = some run → admits entry = isBetween after before run.updateTime) ∧
    IsListing updateTime? limit (entries.filter admits) raw

/-- The entries that an answer holds, if it answers a request for a listing. -/
def entriesOf? (answer : Except String Response) : Option (List Json) := do
  let data ← (dataOf answer).toOption
  let (typename, fields) ← Graphql.asChoice? "runsOrError" data
  if typename = "Runs" then
    let r ← fields.asRecord? ["results"]
    r.required "results" Json.asArray?
  else none

/-- An answer to a request for a listing after the cursor is taken from these entries, if it is a
listing at all. The request may ask for all runs or for those up to the time of a run. The server is
idealised: it compares with the cursor and the bound as they were before they were rounded. -/
def Honest (c : Connection) (entries : List Json) (cursor : Option Instant) : WireExchange → Prop
  | ⟨.post request, answer⟩ => ∀ limit before sent raw,
      (∀ b ∈ before, ∃ run ∈ usable entries, run.updateTime = b) → boundToSend before = .ok sent →
        request = listRequest c limit cursor sent → entriesOf? answer = some raw →
          Lists entries limit cursor sent raw
  | _ => True

/-! ## What the client reads -/

variable {entries raw : List Json} {page found : List RunSummary} {limit : Nat}
  {cursor before sent : Option Instant} {c : Connection} {exchanges : List WireExchange}

/-- Runs in the order of a page. -/
def newestFirst (runs : List RunSummary) : List RunSummary :=
  runs.mergeSort fun a b => decide (b.updateTime ≤ a.updateTime)

theorem mem_newestFirst {runs : List RunSummary} {run : RunSummary} :
    run ∈ newestFirst runs ↔ run ∈ runs := List.mem_mergeSort

theorem length_newestFirst (runs : List RunSummary) : (newestFirst runs).length = runs.length :=
  List.length_mergeSort _

/-- Entries that are read one by one stand for the usable ones among them. -/
theorem filterMap_of_mapM {read : List (Option RunSummary)}
    (readable : raw.mapM Graphql.asEntry? = some read) : read.filterMap id = usable raw := by
  induction raw generalizing read with
  | nil =>
    cases readable
    rfl
  | cons entry rest ih =>
    rw [List.mapM_cons] at readable
    obtain ⟨first, isFirst, others⟩ := Option.bind_eq_some_iff.mp readable
    obtain ⟨later, isLater, whole⟩ := Option.bind_eq_some_iff.mp others
    cases whole
    have usableFirst : usable? entry = first := by
      rw [usable?, isFirst, Option.join_some]
    cases first with
    | none =>
      rw [usable, List.filterMap_cons_none usableFirst, List.filterMap_cons_none rfl]
      exact ih isLater
    | some run =>
      rw [usable, List.filterMap_cons_some usableFirst]
      exact congrArg (run :: ·) (ih isLater)

/-- Only an answer of the type of listings is read as a page. -/
theorem listOutcome_eq_ok {typename : String} {fields : Json}
    (outcome : Graphql.listOutcome? typename fields = some (.ok page)) :
    typename = "Runs" ∧ Graphql.asListing? fields = some page := by
  unfold Graphql.listOutcome? at outcome
  split at outcome
  · obtain ⟨_, listed, same⟩ := Option.map_eq_some_iff.mp outcome
    cases same
    exact ⟨by assumption, listed⟩
  · split at outcome
    · obtain ⟨_, _, same⟩ := Option.map_eq_some_iff.mp outcome
      cases same
    · cases outcome

/-- A page holds the usable ones of the entries that it was read from. -/
theorem exists_entries {answer : Except String Response}
    (decoded : (dataOf answer).bind Graphql.decodeRunList = .ok page) :
    ∃ raw, entriesOf? answer = some raw ∧ page = newestFirst (usable raw) := by
  cases isData : dataOf answer with
  | error e =>
    rw [isData] at decoded
    cases decoded
  | ok data =>
    rw [isData] at decoded
    change Graphql.decodeRunList data = .ok page at decoded
    unfold Graphql.decodeRunList at decoded
    split at decoded
    · rename_i outcome chosen
      subst decoded
      obtain ⟨⟨typename, fields⟩, isChoice, decoded⟩ := Option.bind_eq_some_iff.mp chosen
      obtain ⟨rfl, listed⟩ := listOutcome_eq_ok decoded
      obtain ⟨r, isRecord, results⟩ := Option.bind_eq_some_iff.mp listed
      obtain ⟨read, required, rfl⟩ := Option.map_eq_some_iff.mp results
      obtain ⟨list, given, readable⟩ := Option.bind_eq_some_iff.mp required
      obtain ⟨raw, isArray, readable⟩ := Option.bind_eq_some_iff.mp readable
      refine ⟨raw, ?_, ?_⟩
      · simp only [entriesOf?, isData, Except.toOption, isChoice, isRecord, Json.Record.required,
          given, isArray, Option.bind_eq_bind, Option.bind_some, ↓reduceIte]
      · rw [newestFirst, ← filterMap_of_mapM readable]
        rfl
    · cases decoded

/-! ## When the client loses nothing -/

/-- The bound that is sent, a millisecond later and excluded, encloses the same times as the search
reaches. -/
theorem isBetween_eq_reaches (bounded : boundToSend before = .ok sent) (t : Instant) :
    isBetween cursor sent t = reaches cursor before t := by
  cases before with
  | none =>
    cases bounded
    rfl
  | some b =>
    unfold boundToSend Instant.add? at bounded
    dsimp only at bounded
    split at bounded
    · rename_i later inRange
      cases bounded
      split at inRange
      · cases inRange
        rfl
      · cases inRange
    · cases bounded

/-- If entries are admitted by their times, the usable ones among them are the runs within the
bounds. -/
theorem usable_filter {admits : Json → Bool} {within : Instant → Bool}
    (inBounds : ∀ entry run, usable? entry = some run → admits entry = within run.updateTime) :
    usable (entries.filter admits) = (usable entries).filter fun run => within run.updateTime := by
  rw [usable, usable, List.filterMap_filter, List.filter_filterMap]
  refine List.filterMap_congr fun entry _ => ?_
  cases isUsable : usable? entry with
  | none => simp
  | some run =>
    rw [inBounds entry run isUsable, Option.filter_some]

/-- The usable runs of a listing that lost no entry are listed like the entries. -/
theorem usable_take {order : List Json}
    (uncut : limit ≤ (order.take limit).length →
      ∀ entry ∈ order.take limit, (usable? entry).isSome) :
    usable (order.take limit) = (usable order).take limit := by
  rcases Nat.lt_or_ge order.length limit with short | long
  · have fewer : (usable order).length ≤ limit :=
      Nat.le_trans (List.length_filterMap_le ..) (Nat.le_of_lt short)
    rw [List.take_of_length_le (Nat.le_of_lt short), List.take_of_length_le fewer]
  · have full : (order.take limit).length = limit := by rw [List.length_take, Nat.min_eq_left long]
    have all : (usable (order.take limit)).length = limit := by
      rw [← full, full]
      exact (List.filterMap_length_eq_length.mpr (uncut (Nat.le_of_eq full.symm))).trans full
    have split : usable order = usable (order.take limit) ++ usable (order.drop limit) := by
      rw [usable, usable, usable, ← List.filterMap_append, List.take_append_drop]
    rw [split, List.take_left' all]

/-- A page from a listing that lost no entry, or that is not full, is a page of the usable runs. -/
theorem isPage_of_lists (lists : Lists entries limit cursor sent raw)
    (bounded : boundToSend before = .ok sent)
    (uncut : limit ≤ raw.length → ∀ entry ∈ raw, (usable? entry).isSome) :
    IsPage (usable entries) cursor ⟨limit, before, found⟩ (newestFirst (usable raw)) := by
  obtain ⟨admits, inBounds, order, perm, sorted, rfl⟩ := lists
  have newest : (usable order).Pairwise (MayFollow fun run => some run.updateTime) := by
    refine List.pairwise_filterMap.mpr (sorted.imp fun follows r isUsable r' isUsable' => ?_)
    rintro _ ⟨⟩ _ ⟨⟩
    exact follows _ (congrArg (Option.map _) isUsable) _ (congrArg (Option.map _) isUsable')
  refine ⟨usable order, ?_, newest, ?_⟩
  · refine (perm.filterMap usable?).trans (List.Perm.of_eq ?_)
    exact usable_filter fun entry run isUsable =>
      (inBounds entry run isUsable).trans (isBetween_eq_reaches bounded _)
  · rw [usable_take uncut]
    have first := newest.sublist (List.take_sublist limit (usable order))
    refine List.mergeSort_of_pairwise (first.imp fun follows => ?_)
    exact decide_eq_true (follows _ rfl _ rfl)

/-- A page that is full was read from a listing that lost no entry. -/
theorem uncut_of_full (lists : Lists entries limit cursor sent raw)
    (full : limit ≤ (newestFirst (usable raw)).length) : ∀ entry ∈ raw, (usable? entry).isSome := by
  obtain ⟨admits, inBounds, order, perm, sorted, rfl⟩ := lists
  rw [length_newestFirst] at full
  have most : (usable (order.take limit)).length ≤ (order.take limit).length :=
    List.length_filterMap_le ..
  have taken := List.length_take_le limit order
  exact List.filterMap_length_eq_length.mp (show (usable (order.take limit)).length = _ by omega)

/-- A page was read from an answer of the server. -/
theorem exists_listing
    (run : ((Graphql.engine wire c).recentRuns limit cursor before : Wired _).run.Runs exchanges
      (.ok (.ok page)))
    (honest : ∀ e ∈ exchanges, Honest c entries cursor e)
    (known : ∀ b ∈ before, ∃ run ∈ usable entries, run.updateTime = b) :
    ∃ sent answer raw, boundToSend before = .ok sent ∧
      ⟨.post (listRequest c limit cursor sent), answer⟩ ∈ exchanges ∧
      entriesOf? answer = some raw ∧ Lists entries limit cursor sent raw ∧
      page = newestFirst (usable raw) := by
  obtain ⟨sent, answer, bounded, posted, decoded⟩ := recentRuns_post run
  obtain ⟨raw, holds, read⟩ := exists_entries decoded
  have lists := honest _ posted limit before sent raw known bounded rfl holds
  exact ⟨sent, answer, raw, bounded, posted, holds, lists, read⟩

end RunLedger.Interleaving
