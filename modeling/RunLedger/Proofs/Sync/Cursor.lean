import RunLedger.Proofs.Time.Order
import RunLedger.Sync.Reconciler

/-!
# Where the cursor goes

A new cursor is the time of a run that was handled. It lies before the time of every run that
failed, and of all times of handled runs that do so it is the latest.
-/

namespace RunLedger.Sync

open RunLedger.Time (Instant)

/-- A time is before every failure if it was handled and lies before each failed one. -/
theorem mem_beforeFailures_iff {handled failed : List Instant} {t : Instant} :
    t ∈ beforeFailures handled failed ↔ t ∈ handled ∧ ∀ f ∈ failed, t < f := by
  unfold beforeFailures
  split
  · rename_i barrier earliest
    rw [List.mem_filter, decide_eq_true_eq]
    refine and_congr_right fun _ => ⟨fun before f failedAt => ?_, fun before => ?_⟩
    · exact Instant.lt_of_lt_of_le before (Instant.earliest?_le earliest failedAt)
    · exact before barrier (Instant.earliest?_mem earliest)
  · rename_i none_failed
    rw [Instant.earliest?_eq_none.mp none_failed]
    exact (and_iff_left fun f failedAt => absurd failedAt List.not_mem_nil).symm

/-- The cursor after a pass is the old one, or a handled time after it and before every failure. -/
theorem nextCursor_eq_or (current : Option Instant) (handled failed : List Instant) :
    nextCursor current handled failed = current ∨
      ∃ t ∈ handled, nextCursor current handled failed = some t ∧ (∀ f ∈ failed, t < f) ∧
        ∀ c ∈ current, c < t := by
  unfold nextCursor
  split
  · rename_i latest c found
    split
    · exact .inl rfl
    · rename_i later
      obtain ⟨known, before⟩ := mem_beforeFailures_iff.mp (Instant.latest?_mem found)
      refine .inr ⟨latest, known, rfl, before, ?_⟩
      rintro _ ⟨⟩
      exact Instant.not_le.mp later
  · rename_i latest found
    obtain ⟨known, before⟩ := mem_beforeFailures_iff.mp (Instant.latest?_mem found)
    exact .inr ⟨latest, known, rfl, before, nofun⟩
  · exact .inl rfl

/-- The cursor stays, or moves to a time that was handled before all failures. -/
theorem nextCursor_cases {current : Option Instant} {handled failed : List Instant} {t : Instant}
    (next : nextCursor current handled failed = some t) :
    current = some t ∨ t ∈ handled ∧ ∀ f ∈ failed, t < f := by
  rcases nextCursor_eq_or current handled failed with same | ⟨u, known, isNext, before, _⟩
  · exact .inl (same.symm.trans next)
  · cases isNext.symm.trans next
    exact .inr ⟨known, before⟩

/-- A cursor that is no other point in time is the old one. -/
theorem nextCursor_eq_of_beq {current : Option Instant} {handled failed : List Instant}
    (same : (nextCursor current handled failed == current) = true) :
    nextCursor current handled failed = current := by
  rcases nextCursor_eq_or current handled failed with unchanged | ⟨t, _, isNext, _, later⟩
  · exact unchanged
  · rw [isNext] at same
    cases current with
    | none => cases same
    | some c =>
      have equal : t.nanos = c.nanos := Instant.beq_iff.mp same
      exact absurd (later c rfl) (Int.not_lt.mpr (Int.le_of_eq equal))

/-- No handled time before every failure is later than the cursor after a pass. -/
theorem le_nextCursor {current : Option Instant} {handled failed : List Instant} {t : Instant}
    (known : t ∈ handled) (before : ∀ f ∈ failed, t < f) :
    ∃ n, nextCursor current handled failed = some n ∧ t ≤ n := by
  have member := mem_beforeFailures_iff.mpr ⟨known, before⟩
  obtain ⟨latest, found⟩ :
      ∃ latest, Instant.latest? (beforeFailures handled failed) = some latest :=
    Option.ne_none_iff_exists'.mp fun none =>
      absurd (Instant.latest?_eq_none.mp none ▸ member) List.not_mem_nil
  have bound := Instant.le_latest? found member
  unfold nextCursor
  rw [found]
  cases current with
  | none => exact ⟨latest, rfl, bound⟩
  | some c =>
    dsimp only
    split
    · rename_i below
      exact ⟨c, rfl, Instant.le_trans bound below⟩
    · exact ⟨latest, rfl, bound⟩

/-- If nothing was handled, the cursor stays. -/
theorem nextCursor_nil (current : Option Instant) (failed : List Instant) :
    nextCursor current [] failed = current := by
  rcases nextCursor_eq_or current [] failed with same | ⟨t, impossible, _⟩
  · exact same
  · exact absurd impossible List.not_mem_nil

/-- A first cursor is the time that every handled run shares, if none failed. -/
theorem nextCursor_none_of_forall_eq {handled : List Instant} {t : Instant}
    (some_handled : handled ≠ []) (same : ∀ u ∈ handled, u = t) :
    nextCursor none handled [] = some t := by
  obtain ⟨u, latest⟩ : ∃ u, Instant.latest? handled = some u := by
    cases handled with
    | nil => exact absurd rfl some_handled
    | cons first rest => exact ⟨_, rfl⟩
  have all : Instant.latest? (beforeFailures handled []) = some u := latest
  unfold nextCursor
  rw [all, same u (Instant.latest?_mem latest)]

/-! ## Times that a pass counts -/

/-- An outcome counts as handled its own time at most. -/
theorem mem_handledAt_add {tally : Tally} {updateTime t : Instant}
    {outcome : Except SyncError RunOutcome}
    (handled : t ∈ (tally.add updateTime outcome).handledAt) :
    t ∈ tally.handledAt ∨ t = updateTime := by
  match outcome with
  | .error e => exact .inl handled
  | .ok (.synced _) => simpa [Tally.add] using handled
  | .ok .engineRunMissing => simpa [Tally.add] using handled
  | .ok .localRunMissing => simpa [Tally.add] using handled

theorem mem_failedAt_add {tally : Tally} {t : Instant} (updateTime : Instant)
    (outcome : Except SyncError RunOutcome) (failed : t ∈ tally.failedAt) :
    t ∈ (tally.add updateTime outcome).failedAt := by
  match outcome with
  | .error e => exact List.mem_append_left _ failed
  | .ok (.synced _) => exact failed
  | .ok .engineRunMissing => exact failed
  | .ok .localRunMissing => exact failed

end RunLedger.Sync
