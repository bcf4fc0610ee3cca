import Mathlib.Data.List.Nodup
import RunLedger.Proofs.Time.Order
import RunLedger.Sync.Candidates

/-!
# Steps of a search

`Paging.Advance` lists the four ways in which a page leads on: the search ends with a page that is
not full, it is given up, it asks again for more runs, or it moves on to the oldest time of the
page. What a page adds to the runs that were found does not depend on the way.
-/

namespace RunLedger.Sync.Paging

open RunLedger.Time (Instant)

variable {pageSize : Nat} {floor oldest : Instant} {p : Paging} {found page : List RunSummary}
  {run : RunSummary}

/-! ## What a page adds -/

/-- After a page, what is found was found before or is listed and above the floor. -/
theorem mem_foldl_add (member : run ∈ page.foldl (add floor) found) :
    run ∈ found ∨ run ∈ page ∧ floor < run.updateTime := by
  induction page generalizing found with
  | nil => exact .inl member
  | cons next rest ih =>
    rcases ih member with earlier | ⟨later, above⟩
    · unfold add at earlier
      split at earlier
      · rename_i new
        rcases List.mem_append.mp earlier with known | added
        · exact .inl known
        · obtain rfl := List.mem_singleton.mp added
          exact .inr ⟨List.mem_cons_self .., of_decide_eq_true (Bool.and_eq_true_iff.mp new).1⟩
      · exact .inl earlier
    · exact .inr ⟨List.mem_cons_of_mem _ later, above⟩

theorem mem_foldl_add_of_found (member : run ∈ found) : run ∈ page.foldl (add floor) found := by
  induction page generalizing found with
  | nil => exact member
  | cons next rest ih =>
    refine ih ?_
    unfold add
    split
    · exact List.mem_append_left _ member
    · exact member

/-- A run that was updated after the floor is found under its name once a page has listed it. -/
theorem exists_found_of_listed (listed : run ∈ page) (above : floor < run.updateTime) :
    ∃ r ∈ page.foldl (add floor) found, r.runId = run.runId := by
  induction page generalizing found with
  | nil => exact absurd listed List.not_mem_nil
  | cons next rest ih =>
    rw [List.foldl_cons]
    rcases List.mem_cons.mp listed with rfl | later
    · have known : ∃ r ∈ add floor found run, r.runId = run.runId := by
        unfold add
        split
        · exact ⟨run, List.mem_append_right _ (List.mem_singleton_self _), rfl⟩
        · rename_i old
          simp only [above, decide_true, Bool.true_and, Bool.not_eq_true, Bool.not_eq_false',
            List.any_eq_true] at old
          obtain ⟨r, member, same⟩ := old
          exact ⟨r, member, eq_of_beq same⟩
      obtain ⟨r, member, same⟩ := known
      exact ⟨r, mem_foldl_add_of_found member, same⟩
    · exact ih later

/-- No run is found twice. -/
theorem nodup_foldl_add (floor : Instant) (page : List RunSummary)
    (distinct : (found.map (·.runId)).Nodup) :
    ((page.foldl (add floor) found).map (·.runId)).Nodup := by
  induction page generalizing found with
  | nil => exact distinct
  | cons next rest ih =>
    refine ih ?_
    unfold add
    split
    · rename_i new
      simp only [Bool.and_eq_true, Bool.not_eq_true', List.any_eq_false, beq_iff_eq] at new
      rw [List.map_append, List.map_singleton, List.nodup_append_comm]
      refine List.nodup_cons.mpr ⟨fun taken => ?_, distinct⟩
      obtain ⟨r, known, same⟩ := List.mem_map.mp taken
      exact new.2 r known same
    · exact distinct

/-! ## The ways on -/

/-- The limit at which a search stops asking for more runs. -/
def widest (pageSize : Nat) : Nat := min (max pageSize 1 * widestPages) greatestCount

/-- `oldest` is the time of a run of the page, and none of its runs is older. -/
structure IsOldest (page : List RunSummary) (oldest : Instant) : Prop where
  mem : ∃ run ∈ page, run.updateTime = oldest
  le : ∀ run ∈ page, oldest ≤ run.updateTime

/-- The earliest time of a page is that of its oldest runs. -/
theorem isOldest_of_earliest
    (earliest : Instant.earliest? (page.map (·.updateTime)) = some oldest) :
    IsOldest page oldest where
  mem := List.mem_map.mp (Instant.earliest?_mem earliest)
  le _ member := Instant.earliest?_le earliest (List.mem_map_of_mem member)

/-- The ways in which a page leads on. -/
inductive Advance (pageSize : Nat) (floor : Instant) (p : Paging) (page : List RunSummary) :
    Next → Prop where
  /-- A page that is not full ends the search. -/
  | ended : page.length < p.limit ∨ page = [] →
      Advance pageSize floor p page (.finished ⟨page.foldl (add floor) p.found, none⟩)
  /-- A full page that repeats the bound at the greatest limit ends the search early. -/
  | abandoned {oldest : Instant} : IsOldest page oldest → p.limit ≤ page.length →
      p.before == some oldest → widest pageSize ≤ p.limit →
      Advance pageSize floor p page (.finished ⟨page.foldl (add floor) p.found, some oldest⟩)
  /-- A full page that repeats the bound is asked for again with a greater limit. -/
  | widened {oldest : Instant} : IsOldest page oldest → p.limit ≤ page.length →
      p.before == some oldest → p.limit < widest pageSize →
      Advance pageSize floor p page
        (.request ⟨min (p.limit * 2) greatestCount, p.before, page.foldl (add floor) p.found⟩)
  /-- After any other full page the search moves on to its oldest time. -/
  | moved {oldest : Instant} : IsOldest page oldest → p.limit ≤ page.length →
      (p.before == some oldest) = false →
      Advance pageSize floor p page
        (.request ⟨max pageSize 1, some oldest, page.foldl (add floor) p.found⟩)

/-- Every page leads on in one of these ways. -/
theorem advance_spec (pageSize : Nat) (floor : Instant) (p : Paging) (page : List RunSummary) :
    Advance pageSize floor p page (p.advance pageSize floor page) := by
  unfold advance
  split
  · rename_i earliest
    exact .ended (.inr (List.map_eq_nil_iff.mp (Instant.earliest?_eq_none.mp earliest)))
  · rename_i oldest earliest
    have isOldest := isOldest_of_earliest earliest
    split
    · rename_i short
      exact .ended (.inl short)
    · rename_i full
      have full := Nat.not_lt.mp full
      dsimp only
      split
      · rename_i same
        split
        · rename_i wide
          exact .abandoned isOldest full same wide
        · rename_i narrow
          exact .widened isOldest full same (Nat.not_le.mp narrow)
      · rename_i different
        exact .moved isOldest full (Bool.not_eq_true _ ▸ different)

/-- A page that is not full ends the search. -/
theorem advance_eq_finished (short : page.length < p.limit) :
    p.advance pageSize floor page = .finished ⟨page.foldl (add floor) p.found, none⟩ := by
  have step := advance_spec pageSize floor p page
  generalize p.advance pageSize floor page = next at step
  cases step with
  | ended _ => rfl
  | abandoned _ full _ _ => omega
  | widened _ full _ _ => omega
  | moved _ full _ => omega

/-- A full page with another oldest time moves the bound there. -/
theorem advance_eq_moved {t : Instant} (full : p.limit ≤ page.length) (listed : page ≠ [])
    (isT : ∀ o, IsOldest page o → o = t) (different : (p.before == some t) = false) :
    p.advance pageSize floor page =
      .request ⟨max pageSize 1, some t, page.foldl (add floor) p.found⟩ := by
  have step := advance_spec pageSize floor p page
  generalize p.advance pageSize floor page = next at step
  cases step with
  | ended short => exact (short.elim (Nat.not_lt.mpr full) listed).elim
  | abandoned isOldest _ same _ =>
    rw [isT _ isOldest, different] at same
    cases same
  | widened isOldest _ same _ =>
    rw [isT _ isOldest, different] at same
    cases same
  | moved isOldest _ _ => rw [isT _ isOldest]

/-- A full page of the bound alone asks for more runs at the same bound. -/
theorem advance_eq_widened {t : Instant} (full : p.limit ≤ page.length) (listed : page ≠ [])
    (isT : ∀ o, IsOldest page o → o = t) (same : (p.before == some t) = true)
    (narrow : p.limit < widest pageSize) :
    p.advance pageSize floor page =
      .request ⟨min (p.limit * 2) greatestCount, p.before, page.foldl (add floor) p.found⟩ := by
  have step := advance_spec pageSize floor p page
  generalize p.advance pageSize floor page = next at step
  cases step with
  | ended short => exact (short.elim (Nat.not_lt.mpr full) listed).elim
  | abandoned _ _ _ wide => omega
  | widened _ _ _ _ => rfl
  | moved isOldest _ different =>
    rw [isT _ isOldest, same] at different
    cases different

/-- The runs that are known after a page. -/
def Next.runs : Next → List RunSummary
  | .request next => next.found
  | .finished candidates => candidates.runs

/-- Whatever follows a page, the runs so far are those found before and on the page. -/
theorem runs_advance (pageSize : Nat) (floor : Instant) (p : Paging) (page : List RunSummary) :
    (p.advance pageSize floor page).runs = page.foldl (add floor) p.found := by
  have step := advance_spec pageSize floor p page
  generalize p.advance pageSize floor page = next at step
  cases step <;> rfl

/-! ## The search as a loop -/

section Loop

variable {m : Type → Type} [Monad m]

/-- What a search does with the answer to a listing. -/
def resume (engine : Engine m) (pageSize : Nat) (cursor : Option Instant) (fuel : Nat)
    (p : Paging) :
    Except EngineError (List RunSummary) → m (Except EngineError (Option Candidates))
  | .error e => pure (.error e)
  | .ok page =>
    match p.advance pageSize (floorOf cursor) page with
    | .finished candidates => pure (.ok (some candidates))
    | .request next => collect engine pageSize cursor fuel next

/-- A search asks for one page and goes on from it. -/
theorem collect_succ (engine : Engine m) (pageSize : Nat) (cursor : Option Instant) (fuel : Nat)
    (p : Paging) :
    collect engine pageSize cursor (fuel + 1) p =
      engine.recentRuns p.limit cursor p.before >>= resume engine pageSize cursor fuel p := by
  rw [collect]
  congr 1

end Loop

end RunLedger.Sync.Paging
