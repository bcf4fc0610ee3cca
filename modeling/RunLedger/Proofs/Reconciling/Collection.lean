import RunLedger.Proofs.Reconciling.Search
import RunLedger.Proofs.Sync.Slack

/-!
# What a search collects

An engine at rest holds the same runs all the time. It lists the newest of those it is asked for,
and which runs of one time it cuts off may change from one listing to the next. A search through it
ends after a number of requests that the runs and the page size decide. It has then collected every
run after the floor once, or it was given up at a time that more runs share than the widest page
leaves room for, and has collected every run after that time once.
-/

namespace RunLedger.Interleaving

open RunLedger.Sync RunLedger.Time
open RunLedger.Rehearsal (EngineScript.within)
open Paging (widest IsOldest Advance)

/-- Whatever its state, an engine lists the newest of the runs that it is asked for. -/
def AtRest {σ : Type} (engine : Engine (StateM σ)) (runs : List RunSummary) : Prop :=
  ∀ limit lower upper s, ∃ page, (engine.recentRuns limit lower upper s).1 = .ok page ∧
    IsListing (fun run => some run.updateTime) limit
      (runs.filter fun run => EngineScript.within lower upper run.updateTime) page

/-- What a search that has ended has collected of some runs. -/
structure Exact (pageSize : Nat) (cursor : Option Instant) (runs : List RunSummary)
    (c : Candidates) : Prop where
  /-- A whole search has collected the runs after the floor. -/
  whole : c.incompleteAt = none →
    c.runs.Perm (runs.filter fun run => decide (floorOf cursor < run.updateTime))
  /-- A search that was given up at a time has collected the runs after this time and after the
  floor. -/
  newer : ∀ b, c.incompleteAt = some b →
    (c.runs.filter fun run => decide (b < run.updateTime)).Perm
      (runs.filter fun run => decide (b < run.updateTime) &&
        decide (floorOf cursor < run.updateTime))
  not_older : ∀ b, c.incompleteAt = some b → ∀ run ∈ c.runs,
    run ∈ runs ∧ floorOf cursor < run.updateTime ∧ b ≤ run.updateTime
  /-- The runs of this time fill the widest page. -/
  crowded : ∀ b, c.incompleteAt = some b →
    min (max pageSize 1 * widestPages) greatestCount ≤ runs.countP fun run => run.updateTime == b

variable {pageSize fuel : Nat} {cursor : Option Instant} {runs page : List RunSummary}
  {p next : Paging} {run : RunSummary} {c : Candidates}

/-! ## A search through runs at rest -/

/-- The world of an engine at rest. -/
def resting (cursor : Option Instant) (runs : List RunSummary) : World where
  runs := runs
  store := { cursor := cursor }
  history := []

/-- What holds of every request of a search through runs at rest. -/
structure Exploring (pageSize : Nat) (cursor : Option Instant) (runs : List RunSummary)
    (p : Paging) : Prop where
  searching : Searching cursor (resting cursor runs) p (resting cursor runs)
  width : IsWidth pageSize p.limit
  above : ∀ run ∈ p.found, floorOf cursor < run.updateTime
  distinct : (p.found.map (·.runId)).Nodup

theorem exploring_start (pageSize : Nat) (cursor : Option Instant)
    (distinct : (runs.map (·.runId)).Nodup) : Exploring pageSize cursor runs (.start pageSize) where
  searching :=
    { cursor_eq := rfl
      distinct := distinct
      evolved := ⟨[], .refl _⟩
      positive := Nat.lt_of_lt_of_le Nat.one_pos (Nat.le_max_right ..)
      fresh := fun _ => rfl
      known := fun _ member => absurd member List.not_mem_nil
      bound := nofun
      lowest := nofun
      complete := fun _ _ _ _ => .inr nofun }
  width := .start
  above _ member := absurd member List.not_mem_nil
  distinct := List.nodup_nil

/-- All that is found lies above the floor. -/
theorem Exploring.above_page (exploring : Exploring pageSize cursor runs p)
    (member : run ∈ page.foldl (Paging.add (floorOf cursor)) p.found) :
    floorOf cursor < run.updateTime := by
  rcases Paging.mem_foldl_add member with found | ⟨_, above⟩
  · exact exploring.above run found
  · exact above

section Page

variable (exploring : Exploring pageSize cursor runs p)
  (listing : IsListing (fun run => some run.updateTime) p.limit
    (runs.filter fun run => EngineScript.within cursor p.before run.updateTime) page)

include exploring listing

/-- The pages of an engine at rest satisfy what is assumed of pages. -/
theorem Exploring.pageFacts :
    PageFacts cursor (resting cursor runs) p (resting cursor runs) page where
  searching := exploring.searching
  reach _ member _ := member
  listing := listing

/-- Every request is followed by one of the same kind, and fewer may follow that. -/
theorem Exploring.advance
    (more : p.advance pageSize (floorOf cursor) page = .request next) :
    Exploring pageSize cursor runs next ∧
      remaining pageSize runs next < remaining pageSize runs p := by
  have facts := exploring.pageFacts listing
  have step := more ▸ Paging.advance_spec pageSize (floorOf cursor) p page
  have searching := (facts.request more).1
  have distinct := Paging.nodup_foldl_add (floorOf cursor) page exploring.distinct
  have above : ∀ run ∈ page.foldl (Paging.add (floorOf cursor)) p.found,
      floorOf cursor < run.updateTime := fun _ => exploring.above_page
  cases step with
  | widened isOldest full same narrow =>
    exact ⟨⟨searching, (exploring.width.double narrow).1, above, distinct⟩,
      remaining_widened_lt exploring.width narrow _⟩
  | moved isOldest full different =>
    obtain ⟨last, listed, rfl⟩ := isOldest.mem
    obtain ⟨known, bounded⟩ := facts.mem listed
    exact ⟨⟨searching, .start, above, distinct⟩,
      remaining_moved_lt known (Instant.lt_of_different different bounded) _⟩

/-- A search that ends has collected what it should. -/
theorem Exploring.finish (done : p.advance pageSize (floorOf cursor) page = .finished c) :
    Exact pageSize cursor runs c := by
  have facts := exploring.pageFacts listing
  have step := done ▸ Paging.advance_spec pageSize (floorOf cursor) p page
  have runsNodup : runs.Nodup := exploring.searching.distinct.of_map
  have foundNodup : (page.foldl (Paging.add (floorOf cursor)) p.found).Nodup :=
    (Paging.nodup_foldl_add (floorOf cursor) page exploring.distinct).of_map
  have collected := facts.finished done
  cases step with
  | ended short =>
    refine ⟨fun _ => ?_, nofun, nofun, nofun⟩
    refine (List.perm_ext_iff_of_nodup foundNodup (runsNodup.filter _)).mpr fun run => ?_
    rw [List.mem_filter, decide_eq_true_eq]
    constructor
    · exact fun found => ⟨collected.known run found, exploring.above_page found⟩
    · exact fun ⟨known, above⟩ => collected.complete rfl run known known above
  | @abandoned oldest isOldest full same wide =>
    obtain ⟨b, isBound, sameTime⟩ := Instant.beq_some_iff.mp same
    refine ⟨nofun, ?_, ?_, ?_⟩
    · rintro _ ⟨⟩
      refine (List.perm_ext_iff_of_nodup (foundNodup.filter _) (runsNodup.filter _)).mpr
        fun run => ?_
      simp only [List.mem_filter, Bool.and_eq_true, decide_eq_true_eq]
      constructor
      · exact fun ⟨found, after⟩ =>
          ⟨collected.known run found, after, exploring.above_page found⟩
      · rintro ⟨known, after, above⟩
        refine ⟨(facts.complete known known above).resolve_right fun ⟨_, older⟩ => ?_, after⟩
        obtain ⟨last, listed, rfl⟩ := isOldest.mem
        exact Instant.not_lt.mpr (older last listed) after
    · rintro _ ⟨⟩ run found
      exact ⟨collected.known run found, exploring.above_page found,
        collected.lowest _ rfl run found⟩
    · rintro _ ⟨⟩
      -- A page that repeats the bound holds runs of this time only.
      have repeated : ∀ run ∈ page, (run.updateTime == oldest) = true := by
        intro run listed
        have below := (facts.mem listed).2 b isBound
        have above := isOldest.le run listed
        rw [Instant.beq_iff]
        simp only [Instant.le_def] at below above
        omega
      calc min (max pageSize 1 * widestPages) greatestCount
          ≤ p.limit := wide
        _ ≤ page.length := full
        _ = page.countP fun run => run.updateTime == oldest :=
          (List.countP_eq_length.mpr repeated).symm
        _ ≤ runs.countP fun run => run.updateTime == oldest :=
          Nat.le_trans (listing.countP_le _) (List.Sublist.countP_le List.filter_sublist)

end Page

/-! ## The search as a loop -/

section Loop

variable {σ : Type} {engine : Engine (StateM σ)}

/-- With more requests than may be left a search always ends, and it is the same search however many
more it was allowed. -/
theorem Exploring.collect (rests : AtRest engine runs)
    (exploring : Exploring pageSize cursor runs p) (enough : remaining pageSize runs p < fuel)
    (s : σ) :
    ∃ c after, (∀ n, fuel ≤ n → collect engine pageSize cursor n p s = (.ok (some c), after)) ∧
      Exact pageSize cursor runs c := by
  induction fuel generalizing p s with
  | zero => exact absurd enough (Nat.not_lt_zero _)
  | succ fuel ih =>
    obtain ⟨page, answered, listing⟩ := rests p.limit cursor p.before s
    have asked (n : Nat) : Sync.collect engine pageSize cursor (n + 1) p s =
        Paging.resume engine pageSize cursor n p (.ok page)
          (engine.recentRuns p.limit cursor p.before s).2 := by
      rw [Paging.collect_succ, ← answered]
      rfl
    cases led : p.advance pageSize (floorOf cursor) page with
    | finished c =>
      refine ⟨c, (engine.recentRuns p.limit cursor p.before s).2, fun n bound => ?_,
        exploring.finish listing led⟩
      obtain ⟨n, rfl⟩ := Nat.exists_eq_add_of_le' (Nat.le_trans (Nat.le_add_left 1 fuel) bound)
      simp only [asked, Paging.resume, led]
      rfl
    | request next =>
      obtain ⟨exploring', fewer⟩ := exploring.advance listing led
      obtain ⟨c, after, ends, exact⟩ :=
        ih exploring' (by omega) (engine.recentRuns p.limit cursor p.before s).2
      refine ⟨c, after, fun n bound => ?_, exact⟩
      obtain ⟨n, rfl⟩ := Nat.exists_eq_add_of_le' (Nat.le_trans (Nat.le_add_left 1 fuel) bound)
      simp only [asked, Paging.resume, led]
      exact ends n (Nat.le_of_succ_le_succ bound)

end Loop

/-- A search through an engine at rest ends after a number of requests that does not depend on which
runs of one time the listings cut off, and it collects what it should. -/
theorem exact_of_atRest {σ : Type} {engine : Engine (StateM σ)} (rests : AtRest engine runs)
    (distinct : (runs.map (·.runId)).Nodup) (pageSize : Nat) (cursor : Option Instant) :
    ∃ most, ∀ s, ∃ c after,
      (∀ fuel, most ≤ fuel →
        collect engine pageSize cursor fuel (.start pageSize) s = (.ok (some c), after)) ∧
      Exact pageSize cursor runs c :=
  ⟨_, (exploring_start pageSize cursor distinct).collect rests (Nat.lt_succ_self _)⟩

/-- Three runs. The order of the two that share a time may be swapped. -/
def tiedRuns (swapped : Bool) : List RunSummary :=
  let first : RunSummary := ⟨"a", "STARTED", .utc 2, []⟩
  let second : RunSummary := ⟨"b", "STARTED", .utc 2, []⟩
  let last : RunSummary := ⟨"c", "STARTED", .utc 1, []⟩
  if swapped then [second, first, last] else [first, second, last]

/-- An engine that swaps the runs of one time after every listing. -/
def swappingEngine : Engine (StateM Bool) where
  runDetail runId := pure (.error (.runNotFound runId))
  recentRuns limit lower upper := fun swapped =>
    (.ok (((tiedRuns swapped).filter
      fun run => EngineScript.within lower upper run.updateTime).take limit), !swapped)

/-- The engine that swaps its ties is at rest all the same. -/
theorem atRest_swappingEngine : AtRest swappingEngine (tiedRuns false) := by
  intro limit lower upper swapped
  have perm : (tiedRuns swapped).Perm (tiedRuns false) := by
    cases swapped with
    | false => exact .refl _
    | true => exact .swap ..
  have sorted : (tiedRuns swapped).Pairwise (MayFollow fun run => some run.updateTime) := by
    cases swapped <;> simp [tiedRuns, MayFollow, Instant.le_def, Instant.utc]
  exact ⟨_, rfl, _, perm.filter _, sorted.filter _, rfl⟩

/-- One run at a time all three are collected, although two of them take turns in the listings. -/
theorem exact_of_atRest_swapping :
    AtRest swappingEngine (tiedRuns false) ∧ ((tiedRuns false).map (·.runId)).Nodup ∧
      ∃ most, ∀ swapped, ∃ c after, (∀ fuel, most ≤ fuel →
        collect swappingEngine 1 none fuel (.start 1) swapped = (.ok (some c), after)) ∧
        c.runs.Perm (tiedRuns false) := by
  have distinct : ((tiedRuns false).map (·.runId)).Nodup := by decide
  refine ⟨atRest_swappingEngine, distinct, ?_⟩
  obtain ⟨most, collects⟩ := exact_of_atRest atRest_swappingEngine distinct 1 none
  refine ⟨most, fun swapped => ?_⟩
  obtain ⟨c, after, ends, exact⟩ := collects swapped
  refine ⟨c, after, ends, ?_⟩
  cases left : c.incompleteAt with
  | none => exact exact.whole left
  | some b =>
    have most_three : (tiedRuns false).countP (fun run => run.updateTime == b) ≤ 3 :=
      List.countP_le_length
    exact absurd (Nat.le_trans (exact.crowded b left) most_three) (by decide)

end RunLedger.Interleaving
