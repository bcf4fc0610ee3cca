import Mathlib.Data.List.Nodup
import RunLedger.Proofs.Reconciling.World
import RunLedger.Proofs.Sync.Paging

/-!
# Searching a changing engine

A search sees the runs that the engine had at the first listing, as far as they have not been
updated since: later pages reach no further than the first one. Whatever was not updated meanwhile
is found or lies behind the bound of the next request, so a search that ends with a page that is not
full has found all of it.
-/

namespace RunLedger.Interleaving

open RunLedger.Sync RunLedger.Time
open RunLedger.Rehearsal (EngineScript.within)

variable {pageSize fuel : Nat} {cursor : Option Instant} {first now w : World} {p : Paging}
  {page : List RunSummary} {run : RunSummary} {c : Candidates}

/-- A time above the floor and up to the bound is within what is asked for. -/
theorem within_of_floor_lt {before : Option Instant} {t : Instant} (above : floorOf cursor < t)
    (bound : ∀ b, before = some b → t ≤ b) : EngineScript.within cursor before t = true := by
  unfold EngineScript.within
  rw [Bool.and_eq_true]
  constructor
  · cases cursor with
    | none => rfl
    | some c => exact decide_eq_true above
  · cases before with
    | none => rfl
    | some b => exact decide_eq_true (bound b rfl)

/-- A time within what is asked for is not after the bound. -/
theorem le_of_within {before : Option Instant} {t : Instant}
    (within : EngineScript.within cursor before t = true) : ∀ b, before = some b → t ≤ b := by
  rintro b rfl
  exact of_decide_eq_true (Bool.and_eq_true_iff.mp within).2

/-- What a search knows between two requests, given the world of its first listing. -/
structure Searching (cursor : Option Instant) (first : World) (p : Paging) (w : World) : Prop where
  cursor_eq : w.store.cursor = cursor
  distinct : (first.runs.map (·.runId)).Nodup
  evolved : ∃ events, Evolves events first w
  positive : 0 < p.limit
  fresh : p.before = none → p.found = []
  known : ∀ run ∈ p.found, run ∈ first.runs
  bound : ∀ b, p.before = some b → ∃ run ∈ first.runs, run.updateTime = b
  lowest : ∀ b, p.before = some b → ∀ run ∈ p.found, b ≤ run.updateTime
  complete : ∀ run ∈ first.runs, run ∈ w.runs → floorOf cursor < run.updateTime →
    run ∈ p.found ∨ ∀ b, p.before = some b → run.updateTime ≤ b

/-- What is known of the candidates of a search, given the world of its first listing. -/
structure Collected (cursor : Option Instant) (first : World) (c : Candidates) (w : World) :
    Prop where
  cursor_eq : w.store.cursor = cursor
  distinct : (first.runs.map (·.runId)).Nodup
  evolved : ∃ events, Evolves events first w
  known : ∀ run ∈ c.runs, run ∈ first.runs
  lowest : ∀ b, c.incompleteAt = some b → ∀ run ∈ c.runs, b ≤ run.updateTime
  complete : c.incompleteAt = none → ∀ run ∈ first.runs, run ∈ w.runs →
    floorOf cursor < run.updateTime → run ∈ c.runs

/-- While the world evolves, what a search knows stays true. -/
theorem Searching.evolves {events : List Event} (searching : Searching cursor first p w)
    (step : Evolves events w now) : Searching cursor first p now where
  cursor_eq := step.cursor.trans searching.cursor_eq
  distinct := searching.distinct
  evolved := by
    obtain ⟨earlier, evolved⟩ := searching.evolved
    exact ⟨earlier ++ events, evolved.trans step⟩
  positive := searching.positive
  fresh := searching.fresh
  known := searching.known
  bound := searching.bound
  lowest := searching.lowest
  complete run known member := by
    obtain ⟨_, evolved⟩ := searching.evolved
    exact searching.complete run known (evolved.between step known member)

/-- The bound of a request lies within the first listing, so a page holds runs of that time. -/
theorem Searching.mem_first (searching : Searching cursor first p w) {b : Instant}
    (bound : p.before = some b) (member : run ∈ w.runs) (below : run.updateTime ≤ b) :
    run ∈ first.runs := by
  obtain ⟨r, known, time⟩ := searching.bound b bound
  obtain ⟨events, evolved⟩ := searching.evolved
  exact (evolved.unchanged member known (time ▸ below)).1

section Page

/-- A page of the runs that the engine has now, for the request of a search. -/
structure PageFacts (cursor : Option Instant) (first : World) (p : Paging) (now : World)
    (page : List RunSummary) : Prop where
  searching : Searching cursor first p now
  /-- What the request reaches was there at the first listing. -/
  reach : ∀ run ∈ now.runs, (∀ b, p.before = some b → run.updateTime ≤ b) → run ∈ first.runs
  listing : IsListing (fun run => some run.updateTime) p.limit
    (now.runs.filter fun run => EngineScript.within cursor p.before run.updateTime) page

variable (facts : PageFacts cursor first p now page)
include facts

/-- What is listed is a run of the engine, up to the bound. -/
theorem PageFacts.mem (listed : run ∈ page) :
    run ∈ first.runs ∧ ∀ b, p.before = some b → run.updateTime ≤ b := by
  obtain ⟨member, within⟩ := List.mem_filter.mp (facts.listing.mem listed)
  have below := le_of_within within
  exact ⟨facts.reach run member below, below⟩

/-- Whatever is found after a page was there at the first listing. -/
theorem PageFacts.known (member : run ∈ page.foldl (Paging.add (floorOf cursor)) p.found) :
    run ∈ first.runs := by
  rcases Paging.mem_foldl_add member with found | ⟨listed, _⟩
  · exact facts.searching.known run found
  · exact (facts.mem listed).1

/-- A listed run is found after the page, for run ids are distinct. -/
theorem PageFacts.found_of_listed (listed : run ∈ page) (above : floorOf cursor < run.updateTime) :
    run ∈ page.foldl (Paging.add (floorOf cursor)) p.found := by
  have named : ∃ r ∈ page.foldl (Paging.add (floorOf cursor)) p.found, r.runId = run.runId :=
    Paging.exists_found_of_listed listed above
  obtain ⟨r, member, same⟩ := named
  have eq : r = run := List.inj_on_of_nodup_map facts.searching.distinct
    (facts.known member) (facts.mem listed).1 same
  exact eq ▸ member

/-- Whatever was not updated meanwhile is found after a page, or the page is full and lists only
runs that are not older. -/
theorem PageFacts.complete (known : run ∈ first.runs) (member : run ∈ now.runs)
    (above : floorOf cursor < run.updateTime) :
    run ∈ page.foldl (Paging.add (floorOf cursor)) p.found ∨
      p.limit ≤ page.length ∧ ∀ r ∈ page, run.updateTime ≤ r.updateTime := by
  rcases facts.searching.complete run known member above with found | below
  · exact .inl (Paging.mem_foldl_add_of_found found)
  have asked : run ∈ now.runs.filter fun r => EngineScript.within cursor p.before r.updateTime :=
    List.mem_filter.mpr ⟨member, within_of_floor_lt above below⟩
  by_cases listed : run ∈ page
  · exact .inl (facts.found_of_listed listed above)
  · refine .inr ⟨Nat.not_lt.mp fun short => ?_, fun r other => ?_⟩
    · exact listed ((facts.listing.perm_of_short short).symm.subset asked)
    · exact facts.listing.le_of_not_mem asked listed other rfl rfl

/-- All that is found so far is not older than the oldest run of the page. -/
theorem PageFacts.lowest {oldest : Instant} (isOldest : Paging.IsOldest page oldest)
    (member : run ∈ page.foldl (Paging.add (floorOf cursor)) p.found) :
    oldest ≤ run.updateTime := by
  rcases Paging.mem_foldl_add member with found | ⟨listed, _⟩
  · cases before : p.before with
    | none => exact absurd (facts.searching.fresh before ▸ found) List.not_mem_nil
    | some b =>
      obtain ⟨r, listed, rfl⟩ := isOldest.mem
      exact Instant.le_trans ((facts.mem listed).2 b before)
        (facts.searching.lowest b before run found)
  · exact isOldest.le run listed

/-- A page that ends the search leaves nothing out above the time at which it is incomplete. -/
theorem PageFacts.finished (done : p.advance pageSize (floorOf cursor) page = .finished c) :
    Collected cursor first c now := by
  have step := done ▸ Paging.advance_spec pageSize (floorOf cursor) p page
  have common : ∀ run ∈ page.foldl (Paging.add (floorOf cursor)) p.found, run ∈ first.runs :=
    fun run member => facts.known member
  cases step with
  | ended short =>
    refine ⟨facts.searching.cursor_eq, facts.searching.distinct, facts.searching.evolved, common,
      fun b incomplete => (nomatch incomplete), fun _ run known member above => ?_⟩
    refine (facts.complete known member above).resolve_right fun ⟨full, _⟩ => ?_
    have positive := facts.searching.positive
    rcases short with short | rfl
    · omega
    · exact absurd full (Nat.not_le.mpr positive)
  | abandoned isOldest full same wide =>
    refine ⟨facts.searching.cursor_eq, facts.searching.distinct, facts.searching.evolved, common,
      fun b incomplete run member => ?_, fun complete => (nomatch complete)⟩
    cases incomplete
    exact facts.lowest isOldest member

/-- A page that does not end the search leaves nothing out above the next bound. -/
theorem PageFacts.request {next : Paging}
    (more : p.advance pageSize (floorOf cursor) page = .request next) :
    Searching cursor first next now ∧ next.before ≠ none := by
  have step := more ▸ Paging.advance_spec pageSize (floorOf cursor) p page
  have searching := facts.searching
  cases step with
  | widened isOldest full same narrow =>
    obtain ⟨b, before, time⟩ := Instant.beq_some_iff.mp same
    have repeated : ∀ b, p.before = some b → ∀ r ∈ page, r.updateTime ≤ b :=
      fun b before r listed => (facts.mem listed).2 b before
    refine ⟨⟨searching.cursor_eq, searching.distinct, searching.evolved, ?_, ?_, ?_, ?_, ?_, ?_⟩,
      ?_⟩
    · have positive := searching.positive
      have : 0 < greatestCount := by decide
      exact Nat.lt_min.mpr ⟨by omega, this⟩
    · exact fun none => nomatch before.symm.trans none
    · exact fun run member => facts.known member
    · exact searching.bound
    · intro b' before' run member
      cases before.symm.trans before'
      exact Instant.le_trans (Int.le_of_eq time) (facts.lowest isOldest member)
    · intro run known member above
      refine (facts.complete known member above).imp_right fun ⟨_, unlisted⟩ b' before' => ?_
      obtain ⟨r, listed, rfl⟩ := isOldest.mem
      exact Instant.le_trans (unlisted r listed) (repeated b' before' r listed)
    · exact fun none => nomatch before.symm.trans none
  | @moved oldest isOldest full different =>
    refine ⟨⟨searching.cursor_eq, searching.distinct, searching.evolved, ?_, ?_, ?_, ?_, ?_, ?_⟩,
      fun none => nomatch none⟩
    · exact Nat.lt_of_lt_of_le Nat.one_pos (Nat.le_max_right ..)
    · exact fun none => nomatch none
    · exact fun run member => facts.known member
    · rintro b ⟨⟩
      obtain ⟨r, listed, time⟩ := isOldest.mem
      exact ⟨r, (facts.mem listed).1, time⟩
    · rintro b ⟨⟩ run member
      exact facts.lowest isOldest member
    · intro run known member above
      refine (facts.complete known member above).imp_right fun ⟨_, unlisted⟩ => ?_
      rintro b ⟨⟩
      obtain ⟨r, listed, rfl⟩ := isOldest.mem
      exact unlisted r listed

end Page

/-! ## The search as a program -/

/-- The search as a program asks for a page and goes on from the answer. -/
theorem collect_eq_ask (pageSize : Nat) (cursor : Option Instant) (fuel : Nat) (p : Paging) :
    collect (reconciler pageSize).engine pageSize cursor (fuel + 1) p =
      .ask (.recentRuns p.limit cursor p.before)
        (Paging.resume (reconciler pageSize).engine pageSize cursor fuel p) :=
  Paging.collect_succ ..

/-- Whether a call asks for a listing. -/
def Call.lists : Call → Bool
  | .recentRuns .. => true
  | _ => false

/-- A search asks for listings and nothing else. -/
theorem lists_collect (pageSize : Nat) (cursor : Option Instant) (fuel : Nat) (p : Paging) :
    (collect (reconciler pageSize).engine pageSize cursor fuel p).Asks (·.lists = true) := by
  induction fuel generalizing p with
  | zero => trivial
  | succ fuel ih =>
    rw [collect_eq_ask]
    refine ⟨rfl, fun answer => ?_⟩
    cases answer with
    | error e => trivial
    | ok page =>
      unfold Paging.resume
      dsimp only
      split
      · trivial
      · exact ih _

/-- What every page keeps true of the runs that were found is true of the candidates. -/
theorem runs_of_collect (good : List RunSummary → Prop)
    (step : ∀ found (page : List RunSummary), good found →
      good (page.foldl (Paging.add (floorOf cursor)) found))
    (start : good p.found) {exchanges : List (Exchange Call.Answer)}
    (run : (collect (reconciler pageSize).engine pageSize cursor fuel p).Runs exchanges
      (.ok (some c))) : good c.runs := by
  induction fuel generalizing p exchanges with
  | zero => cases run
  | succ fuel ih =>
    rw [collect_eq_ask] at run
    obtain ⟨answer, rest, rfl, onwards⟩ := Program.runs_ask_iff.mp run
    cases answer with
    | error e => cases onwards
    | ok page =>
      have found := step p.found page start
      rw [← p.runs_advance pageSize (floorOf cursor) page] at found
      unfold Paging.resume at onwards
      dsimp only at onwards
      split at onwards
      · rename_i candidates ended
        rw [ended] at found
        cases onwards
        exact found
      · rename_i next more
        rw [more] at found
        exact ih found onwards

/-- If a search ends with candidates, it has collected them. -/
def Finds (cursor : Option Instant) (result : Except EngineError (Option Candidates)) (w : World) :
    Prop :=
  ∀ c, result = .ok (some c) → ∃ first, Collected cursor first c w

/-- A search goes on after the answer to a listing. -/
theorem keeps_resume
    (onwards : ∀ next now, Searching cursor first next now → next.before ≠ none →
      (collect (reconciler pageSize).engine pageSize cursor fuel next).Keeps surroundings
        (StaysSafe pageSize) (Finds cursor) now)
    (searching : Searching cursor first p now)
    (reach : ∀ run ∈ now.runs, (∀ b, p.before = some b → run.updateTime ≤ b) → run ∈ first.runs)
    {answer : Except EngineError (List RunSummary)} {after : World}
    (answered : surroundings.answers now (.recentRuns p.limit cursor p.before) answer after) :
    (Paging.resume (reconciler pageSize).engine pageSize cursor fuel p answer).Keeps surroundings
      (StaysSafe pageSize) (Finds cursor) after := by
  have step := evolves_of_answers answered rfl
  cases answer with
  | error e => exact fun c impossible => nomatch impossible
  | ok page =>
    obtain ⟨runs, _, _, listing⟩ := answered
    have facts : PageFacts cursor first p after page :=
      ⟨searching.evolves step, runs ▸ reach, runs ▸ listing⟩
    unfold Paging.resume
    dsimp only
    split
    · rename_i candidates done
      rintro c ⟨⟩
      exact ⟨first, facts.finished done⟩
    · rename_i next more
      obtain ⟨searching', bounded⟩ := facts.request more
      exact onwards next after searching' bounded

/-- The search misses nothing although runs are updated meanwhile, by induction on its requests. -/
theorem keeps_collect (fuel : Nat) (searching : Searching cursor first p w)
    (bounded : p.before ≠ none) :
    (collect (reconciler pageSize).engine pageSize cursor fuel p).Keeps surroundings
      (StaysSafe pageSize) (Finds cursor) w := by
  induction fuel generalizing p w with
  | zero => exact fun c impossible => nomatch impossible
  | succ fuel ih =>
    rw [collect_eq_ask]
    rintro now ⟨events, _, evolved⟩ answer after answered
    have searching := searching.evolves evolved
    refine ⟨fun safe => safe.evolves (evolves_of_answers answered rfl), ?_⟩
    refine keeps_resume (fun next now => ih) searching (fun run member below => ?_) answered
    obtain ⟨b, before⟩ := Option.ne_none_iff_exists'.mp bounded
    exact searching.mem_first before member (below b before)

/-- A search collects its candidates from the world of its first listing. -/
theorem keeps_collect_start (fuel : Nat) (safe : Safe pageSize w)
    (isCursor : w.store.cursor = cursor) :
    (collect (reconciler pageSize).engine pageSize cursor fuel (.start pageSize)).Keeps surroundings
      (StaysSafe pageSize) (Finds cursor) w := by
  cases fuel with
  | zero => exact fun c impossible => nomatch impossible
  | succ fuel =>
    rw [collect_eq_ask]
    rintro now ⟨events, _, evolved⟩ answer after answered
    refine ⟨fun safe => safe.evolves (evolves_of_answers answered rfl), ?_⟩
    have searching : Searching cursor now (.start pageSize) now :=
      { cursor_eq := evolved.cursor.trans isCursor
        distinct := evolved.distinct safe.distinct
        evolved := ⟨[], .refl now⟩
        positive := Nat.lt_of_lt_of_le Nat.one_pos (Nat.le_max_right ..)
        fresh := fun _ => rfl
        known := fun run member => absurd member List.not_mem_nil
        bound := fun b impossible => nomatch impossible
        lowest := fun b impossible => nomatch impossible
        complete := fun run _ _ _ => .inr fun b impossible => nomatch impossible }
    exact keeps_resume (fun next now => keeps_collect fuel) searching
      (fun run member _ => member) answered

end RunLedger.Interleaving
