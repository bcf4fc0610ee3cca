import RunLedger.Proofs.Sync.Listing
import RunLedger.Proofs.Sync.Paging

/-!
# Searches that reach past their bound

The runs of an engine at rest are searched by listings that reach up to a millisecond past the
bound. A page may then hold runs newer than the bound, and the bound may rise. `Exhaustive` is what
holds nevertheless: every run newer than the bound was found, and from no time on that the search
has gone below do the runs of a millisecond fill the widest page. `Falling` holds as long as fewer
runs than a page has room for lie in the millisecond after the bound; then the bound cannot rise,
and `Falling.remaining` counts the requests that are left.
-/

namespace RunLedger.Sync

open RunLedger.Time (Instant)
open Paging (widest IsOldest Advance)

/-- Whether a listing reaches a time, which is after the cursor and less than a millisecond after
the bound. -/
def reaches (cursor before : Option Instant) (t : Instant) : Bool :=
  cursor.all (fun c => decide (c < t)) &&
    before.all fun b => decide (t.nanos < b.nanos + Instant.millisecond)

/-- A listing of the runs that a search reaches. -/
def IsPage (runs : List RunSummary) (cursor : Option Instant) (p : Paging)
    (page : List RunSummary) : Prop :=
  IsListing (fun run => some run.updateTime) p.limit
    (runs.filter fun run => reaches cursor p.before run.updateTime) page

variable {runs page found : List RunSummary} {cursor : Option Instant} {p next : Paging}
  {run : RunSummary} {t b oldest : Instant} {pageSize : Nat}

/-- A search reaches the times after the cursor and less than a millisecond after its bound. -/
theorem reaches_iff {before : Option Instant} :
    reaches cursor before t = true ↔
      (∀ c ∈ cursor, c < t) ∧ ∀ b ∈ before, t.nanos < b.nanos + Instant.millisecond := by
  simp only [reaches, Bool.and_eq_true, Option.all_eq_true, decide_eq_true_eq, Option.mem_def]

/-- What lies above the floor lies after the cursor. -/
theorem lt_of_floorOf_lt (above : floorOf cursor < t) : ∀ c ∈ cursor, c < t := by
  rintro c ⟨⟩
  exact above

namespace IsPage

theorem mem (isPage : IsPage runs cursor p page) (listed : run ∈ page) :
    run ∈ runs ∧ reaches cursor p.before run.updateTime = true :=
  List.mem_filter.mp (IsListing.mem isPage listed)

/-- A run that is reached and not listed is not newer than the listed ones. -/
theorem le_of_not_mem (isPage : IsPage runs cursor p page) (known : run ∈ runs)
    (reached : reaches cursor p.before run.updateTime = true) (unlisted : run ∉ page)
    {listed : RunSummary} (member : listed ∈ page) : run.updateTime ≤ listed.updateTime :=
  IsListing.le_of_not_mem isPage (List.mem_filter.mpr ⟨known, reached⟩) unlisted member rfl rfl

/-- Fewer runs than the limit are reached and newer than a listed one. -/
theorem countP_lt (isPage : IsPage runs cursor p page) (listed : run ∈ page)
    {q : RunSummary → Bool} (newer : ∀ r, q r = true → run.updateTime < r.updateTime)
    (below : ∀ r, q r = true → ∀ b ∈ p.before,
      r.updateTime.nanos < b.nanos + Instant.millisecond) :
    runs.countP q < p.limit := by
  have reached : ∀ r, q r = true → reaches cursor p.before r.updateTime = true := by
    intro r holds
    refine reaches_iff.mpr ⟨fun c isCursor => ?_, below r holds⟩
    have above := (reaches_iff.mp (isPage.mem listed).2).1 c isCursor
    exact Int.lt_trans above (newer r holds)
  have few := IsListing.countP_newer_lt isPage listed rfl fun r holds => ⟨_, rfl, newer r holds⟩
  rw [List.countP_filter] at few
  have same : runs.countP (fun r => q r && reaches cursor p.before r.updateTime) =
      runs.countP q := by
    refine List.countP_congr fun r _ => ?_
    rw [Bool.and_eq_true_iff]
    exact ⟨And.left, fun holds => ⟨holds, reached r holds⟩⟩
  omega

end IsPage

/-! ## Limits -/

/-- A limit that a search may come to use: a page, widened by a factor that divides the greatest
one, or the greatest count. -/
structure IsWidth (pageSize limit : Nat) : Prop where
  factor : (∃ m, m ∣ widestPages ∧ limit = max pageSize 1 * m) ∨ greatestCount ≤ limit
  ge : max pageSize 1 ≤ limit
  le : limit ≤ max (max pageSize 1) (widest pageSize)

/-- A proper factor of the greatest one can be doubled. -/
theorem double_dvd {m : Nat} (divides : m ∣ widestPages) (proper : m < widestPages) :
    m * 2 ∣ widestPages := by
  have each : ∀ m < widestPages, m ∣ widestPages → m * 2 ∣ widestPages := by decide
  exact each m proper divides

namespace IsWidth

theorem start : IsWidth pageSize (max pageSize 1) where
  factor := .inl ⟨1, Nat.one_dvd _, (Nat.mul_one _).symm⟩
  ge := Nat.le_refl _
  le := Nat.le_max_left ..

/-- A limit below the widest one can be doubled. -/
theorem double {limit : Nat} (width : IsWidth pageSize limit) (narrow : limit < widest pageSize) :
    IsWidth pageSize (min (limit * 2) greatestCount) ∧ limit < min (limit * 2) greatestCount := by
  have size := width.ge
  unfold widest at narrow
  rcases width.factor with ⟨m, divides, rfl⟩ | great
  · have proper : m < widestPages :=
      Nat.lt_of_mul_lt_mul_left (Nat.lt_of_lt_of_le narrow (Nat.min_le_left ..))
    have doubled := double_dvd divides proper
    have next : max pageSize 1 * (m * 2) ≤ max pageSize 1 * widestPages :=
      Nat.mul_le_mul_left _ (Nat.le_of_dvd (by decide) doubled)
    rw [← Nat.mul_assoc] at next
    refine ⟨⟨?_, ?_, ?_⟩, ?_⟩
    · rcases Nat.le_total (max pageSize 1 * m * 2) greatestCount with fits | great
      · exact .inl ⟨m * 2, doubled, by rw [Nat.min_eq_left fits, Nat.mul_assoc]⟩
      · exact .inr (Nat.le_of_eq (Nat.min_eq_right great).symm)
    all_goals
      unfold widest at *
      omega
  · omega

end IsWidth

/-! ## What a search does not miss -/

/-- Whether a run was updated in the millisecond that begins at a time. -/
def near (t : Instant) (run : RunSummary) : Bool :=
  decide (t ≤ run.updateTime) && decide (run.updateTime.nanos < t.nanos + Instant.millisecond)

/-- What holds of every request of a search through runs at rest. -/
structure Exhaustive (pageSize : Nat) (runs : List RunSummary) (cursor : Option Instant)
    (p : Paging) : Prop where
  width : IsWidth pageSize p.limit
  bound_mem : ∀ b ∈ p.before, ∃ run ∈ runs, run.updateTime = b
  found_newer : ∀ b ∈ p.before, ∀ run ∈ runs, floorOf cursor < run.updateTime →
    b < run.updateTime → ∃ r ∈ p.found, r.runId = run.runId
  sparse : ∀ s t, (s ∈ p.before ∨ s ∈ p.found.map (·.updateTime)) → s < t →
    runs.countP (near t) < max (max pageSize 1) (widest pageSize)

/-- What holds of the outcome of such a search. -/
structure Exhausted (runs : List RunSummary) (cursor : Option Instant) (c : Candidates) :
    Prop where
  found : c.incompleteAt = none → ∀ run ∈ runs, floorOf cursor < run.updateTime →
    ∃ r ∈ c.runs, r.runId = run.runId
  le : ∀ oldest ∈ c.incompleteAt, ∀ r ∈ c.runs, oldest ≤ r.updateTime

namespace Exhaustive

theorem start (pageSize : Nat) (runs : List RunSummary) (cursor : Option Instant) :
    Exhaustive pageSize runs cursor (.start pageSize) where
  width := .start
  bound_mem _ isBound := nomatch isBound
  found_newer _ isBound := nomatch isBound
  sparse _ _ known _ := known.elim nofun nofun

/-- A run newer than the listed ones has been found once they are. -/
theorem found_of_newer (whole : Exhaustive pageSize runs cursor p) (known : run ∈ runs)
    (above : floorOf cursor < run.updateTime)
    (newer : run ∉ page → reaches cursor p.before run.updateTime = true → False) :
    ∃ r ∈ page.foldl (Paging.add (floorOf cursor)) p.found, r.runId = run.runId := by
  by_cases listed : run ∈ page
  · exact Paging.exists_found_of_listed listed above
  · cases before : p.before with
    | none =>
      refine (newer listed (reaches_iff.mpr ⟨lt_of_floorOf_lt above, ?_⟩)).elim
      rw [before]
      exact nofun
    | some b =>
      -- A run that the listing does not reach lies after the bound.
      have past : b < run.updateTime := by
        refine Instant.not_le.mp fun bounded => newer listed ?_
        refine reaches_iff.mpr ⟨lt_of_floorOf_lt above, fun b' same => ?_⟩
        cases before.symm.trans same
        exact Int.lt_add_of_le_of_pos bounded (by decide)
      obtain ⟨r, member, same⟩ := whole.found_newer b before run known above past
      exact ⟨r, Paging.mem_foldl_add_of_found member, same⟩

/-- The runs of a millisecond that begins after a listed run do not fill the widest page. -/
theorem sparse_of_listed (whole : Exhaustive pageSize runs cursor p)
    (isPage : IsPage runs cursor p page) (listed : run ∈ page) (later : run.updateTime < t) :
    runs.countP (near t) < max (max pageSize 1) (widest pageSize) := by
  by_cases passed : ∃ b ∈ p.before, b < t
  · obtain ⟨b, isBound, past⟩ := passed
    exact whole.sparse b t (.inl isBound) past
  · refine Nat.lt_of_lt_of_le (isPage.countP_lt listed (fun r within => ?_) ?_) whole.width.le
    · exact Instant.lt_of_lt_of_le later (of_decide_eq_true (Bool.and_eq_true_iff.mp within).1)
    · intro r within b isBound
      have bounded : t ≤ b := Instant.not_lt.mp fun past => passed ⟨b, isBound, past⟩
      have close := of_decide_eq_true (Bool.and_eq_true_iff.mp within).2
      exact Int.lt_of_lt_of_le close (Int.add_le_add_right bounded _)

/-- Times that lie between what was found are not crowded. -/
theorem sparse_found (whole : Exhaustive pageSize runs cursor p)
    (isPage : IsPage runs cursor p page) {s : Instant}
    (known : s ∈ (page.foldl (Paging.add (floorOf cursor)) p.found).map (·.updateTime))
    (later : s < t) : runs.countP (near t) < max (max pageSize 1) (widest pageSize) := by
  obtain ⟨r, member, rfl⟩ := List.mem_map.mp known
  rcases Paging.mem_foldl_add member with earlier | ⟨listed, _⟩
  · exact whole.sparse _ t (.inr (List.mem_map_of_mem earlier)) later
  · exact whole.sparse_of_listed isPage listed later

/-- Every request is followed by one of the same kind. -/
theorem advance (whole : Exhaustive pageSize runs cursor p) (isPage : IsPage runs cursor p page)
    (step : Advance pageSize (floorOf cursor) p page (.request next)) :
    Exhaustive pageSize runs cursor next := by
  cases step with
  | widened isOldest full same narrow =>
    refine ⟨(whole.width.double narrow).1, whole.bound_mem, ?_, ?_⟩
    · intro b isBound run known above past
      obtain ⟨r, member, same⟩ := whole.found_newer b isBound run known above past
      exact ⟨r, Paging.mem_foldl_add_of_found member, same⟩
    · rintro s t (isBound | found) later
      · exact whole.sparse s t (.inl isBound) later
      · exact whole.sparse_found isPage found later
  | moved isOldest full different =>
    obtain ⟨last, listed, rfl⟩ := isOldest.mem
    refine ⟨.start, ?_, ?_, ?_⟩
    · rintro _ ⟨⟩
      exact ⟨last, (isPage.mem listed).1, rfl⟩
    · rintro _ ⟨⟩ run known above past
      refine whole.found_of_newer known above fun unlisted reached => ?_
      exact Instant.not_lt.mpr (isPage.le_of_not_mem known reached unlisted listed) past
    · rintro s t (⟨⟨⟩⟩ | found) later
      · exact whole.sparse_of_listed isPage listed later
      · exact whole.sparse_found isPage found later

/-- A search that ends has found every run, or it ends at the oldest time it has found. -/
theorem finish {c : Candidates} (whole : Exhaustive pageSize runs cursor p)
    (isPage : IsPage runs cursor p page)
    (step : Advance pageSize (floorOf cursor) p page (.finished c)) :
    Exhausted runs cursor c := by
  cases step with
  | ended short =>
    have short : page.length < p.limit := by
      have size := whole.width.ge
      rcases short with short | rfl
      · exact short
      · rw [List.length_nil]
        omega
    refine ⟨fun _ run known above => ?_, nofun⟩
    refine whole.found_of_newer known above fun unlisted reached => unlisted ?_
    exact (IsListing.perm_of_short isPage short).symm.subset (List.mem_filter.mpr ⟨known, reached⟩)
  | @abandoned oldest isOldest full same wide =>
    refine ⟨nofun, ?_⟩
    rintro _ ⟨⟩ r member
    refine Instant.not_lt.mp fun older => ?_
    -- The page that repeats the bound is one of the widest and lies within a millisecond.
    obtain ⟨b, isBound, sameTime⟩ := Instant.beq_some_iff.mp same
    have within : ∀ run ∈ page, near oldest run = true := by
      intro run listed
      have reached := (isPage.mem listed).2
      have close := (reaches_iff.mp reached).2 b isBound
      refine Bool.and_eq_true_iff.mpr ⟨decide_eq_true (isOldest.le run listed), decide_eq_true ?_⟩
      exact sameTime ▸ close
    have crowded : max (max pageSize 1) (widest pageSize) ≤ runs.countP (near oldest) :=
      calc max (max pageSize 1) (widest pageSize)
          ≤ p.limit := Nat.max_le.mpr ⟨whole.width.ge, wide⟩
        _ ≤ page.length := full
        _ = page.countP (near oldest) := (List.countP_eq_length.mpr within).symm
        _ ≤ (runs.filter _).countP (near oldest) := IsListing.countP_le isPage _
        _ ≤ runs.countP (near oldest) := List.Sublist.countP_le List.filter_sublist
    have sparse := whole.sparse_found isPage (List.mem_map_of_mem member) older
    omega

end Exhaustive

/-! ## Where the bound only falls -/

/-- Whether a run was updated after a time, by less than a millisecond. -/
def soonAfter (t : Instant) (run : RunSummary) : Bool :=
  decide (t < run.updateTime) && decide (run.updateTime.nanos < t.nanos + Instant.millisecond)

/-- Fewer than `k` runs follow a run within a millisecond. -/
def Spread (k : Nat) (runs : List RunSummary) : Prop :=
  ∀ run ∈ runs, runs.countP (soonAfter run.updateTime) < k

/-- What holds of every request of a search whose bound only falls. -/
structure Falling (pageSize : Nat) (runs : List RunSummary) (p : Paging) : Prop where
  width : IsWidth pageSize p.limit
  bound_mem : ∀ b ∈ p.before, ∃ run ∈ runs, run.updateTime = b
  /-- A page has room for a run of the bound. -/
  room : ∀ b ∈ p.before, runs.countP (soonAfter b) < max pageSize 1
  /-- Pages that cannot be widened all have one size. -/
  fixed : widest pageSize ≤ max pageSize 1 → p.limit = max pageSize 1

/-- How many of some runs are older than a bound. -/
def olderThan (runs : List RunSummary) : Option Instant → Nat
  | some b => runs.countP fun run => decide (run.updateTime < b)
  | none => runs.length + 1

/-- How many requests may follow a request. -/
def remaining (pageSize : Nat) (runs : List RunSummary) (p : Paging) : Nat :=
  olderThan runs p.before * (widest pageSize + 1) + (widest pageSize - p.limit)

/-- Fewer runs are older than a run than are older than a later bound. -/
theorem olderThan_lt (known : run ∈ runs) {before : Option Instant}
    (later : ∀ b ∈ before, run.updateTime < b) :
    olderThan runs (some run.updateTime) < olderThan runs before := by
  cases before with
  | none => exact Nat.lt_succ_of_le List.countP_le_length
  | some b =>
    obtain ⟨first, last, rfl⟩ := List.append_of_mem known
    have mono (part : List RunSummary) :
        part.countP (fun r => decide (r.updateTime < run.updateTime)) ≤
          part.countP fun r => decide (r.updateTime < b) := by
      refine List.countP_mono_left fun r _ older => decide_eq_true ?_
      exact Int.lt_trans (of_decide_eq_true older) (later b rfl)
    have notSelf : decide (run.updateTime < run.updateTime) = false :=
      decide_eq_false (Int.lt_irrefl _)
    have self : decide (run.updateTime < b) = true := decide_eq_true (later b rfl)
    have first_le := mono first
    have last_le := mono last
    simp only [olderThan, List.countP_append, List.countP_cons, notSelf, self]
    simp only [Bool.false_eq_true, ↓reduceIte]
    omega

/-- Fewer requests are left when a page is asked for again with a greater limit. -/
theorem remaining_widened_lt (width : IsWidth pageSize p.limit) (narrow : p.limit < widest pageSize)
    (found : List RunSummary) :
    remaining pageSize runs ⟨min (p.limit * 2) greatestCount, p.before, found⟩ <
      remaining pageSize runs p := by
  obtain ⟨_, wider⟩ := width.double narrow
  show olderThan runs p.before * _ + (_ - min (p.limit * 2) greatestCount) < _
  unfold remaining
  omega

/-- Fewer requests are left when the bound falls to the time of a run. -/
theorem remaining_moved_lt (known : run ∈ runs) (later : ∀ b ∈ p.before, run.updateTime < b)
    (found : List RunSummary) :
    remaining pageSize runs ⟨max pageSize 1, some run.updateTime, found⟩ <
      remaining pageSize runs p := by
  have fewer := olderThan_lt known later
  calc olderThan runs (some run.updateTime) * (widest pageSize + 1) +
        (widest pageSize - max pageSize 1)
      < (olderThan runs (some run.updateTime) + 1) * (widest pageSize + 1) := by
        rw [Nat.add_mul]
        omega
    _ ≤ olderThan runs p.before * (widest pageSize + 1) := Nat.mul_le_mul_right _ fewer
    _ ≤ remaining pageSize runs p := Nat.le_add_right ..

namespace Falling

theorem start (pageSize : Nat) (runs : List RunSummary) :
    Falling pageSize runs (.start pageSize) where
  width := .start
  bound_mem _ isBound := nomatch isBound
  room _ isBound := nomatch isBound
  fixed _ := rfl

/-- The oldest time of a full page is not after the bound. -/
theorem oldest_le (falling : Falling pageSize runs p) (isPage : IsPage runs cursor p page)
    (isOldest : IsOldest page oldest) (full : p.limit ≤ page.length) :
    ∀ b ∈ p.before, oldest ≤ b := by
  intro b isBound
  refine Instant.not_lt.mp fun rises => ?_
  have after : ∀ run ∈ page, soonAfter b run = true := by
    intro run listed
    have close := (reaches_iff.mp (isPage.mem listed).2).2 b isBound
    refine Bool.and_eq_true_iff.mpr ⟨decide_eq_true ?_, decide_eq_true close⟩
    exact Instant.lt_of_lt_of_le rises (isOldest.le run listed)
  have room := falling.room b isBound
  have crowded : max pageSize 1 ≤ runs.countP (soonAfter b) :=
    calc max pageSize 1
        ≤ p.limit := falling.width.ge
      _ ≤ page.length := full
      _ = page.countP (soonAfter b) := (List.countP_eq_length.mpr after).symm
      _ ≤ (runs.filter _).countP (soonAfter b) := IsListing.countP_le isPage _
      _ ≤ runs.countP (soonAfter b) := List.Sublist.countP_le List.filter_sublist
  omega

/-- Every request is followed by one of the same kind, and fewer may follow that. -/
theorem advance (falling : Falling pageSize runs p)
    (spread : Spread (max pageSize 1) runs ∨ widest pageSize ≤ max pageSize 1)
    (isPage : p.limit ≤ page.length → IsPage runs cursor p page) {floor : Instant}
    (step : Advance pageSize floor p page (.request next)) :
    Falling pageSize runs next ∧ remaining pageSize runs next < remaining pageSize runs p := by
  have size := falling.width.ge
  cases step with
  | widened isOldest full same narrow =>
    refine ⟨⟨(falling.width.double narrow).1, falling.bound_mem, falling.room, fun stuck => ?_⟩,
      remaining_widened_lt falling.width narrow _⟩
    omega
  | moved isOldest full different =>
    have isPage := isPage full
    have bounded := falling.oldest_le isPage isOldest full
    obtain ⟨last, listed, rfl⟩ := isOldest.mem
    have known := (isPage.mem listed).1
    refine ⟨⟨.start, ?_, ?_, fun _ => rfl⟩, ?_⟩
    · rintro _ ⟨⟩
      exact ⟨last, known, rfl⟩
    · rintro _ ⟨⟩
      rcases spread with spread | stuck
      · exact spread last known
      · rw [← falling.fixed stuck]
        refine isPage.countP_lt listed (fun r after => ?_) fun r after b isBound => ?_
        · exact of_decide_eq_true (Bool.and_eq_true_iff.mp after).1
        · have close := of_decide_eq_true (Bool.and_eq_true_iff.mp after).2
          exact Int.lt_of_lt_of_le close (Int.add_le_add_right (bounded b isBound) _)
    · exact remaining_moved_lt known (Instant.lt_of_different different bounded) _

end Falling

end RunLedger.Sync
