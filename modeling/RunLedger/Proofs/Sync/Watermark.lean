import RunLedger.Proofs.Sync.Cursor

/-!
# The best safe watermark

A pass may move the cursor to any handled time that is not before the old cursor and lies before
every failure. `IsWatermark` says that a cursor is the latest of these. Watermarks of more handled
times are later and those of more failures are earlier, so there is only one watermark, whatever the
order and the repetitions of the times; `nextCursor` gives it. Times are compared as points in time,
whatever their clocks.
-/

namespace RunLedger.Sync

open RunLedger.Time (Instant)

variable {current current' next next' : Option Instant}
  {handled handled' failed failed' : List Instant}

/-- A cursor is not later than another one; to have none is earliest. -/
def NotLater (a b : Option Instant) : Prop := ∀ t ∈ a, ∃ u ∈ b, t ≤ u

theorem NotLater.refl (a : Option Instant) : NotLater a a :=
  fun t isTime => ⟨t, isTime, Int.le_refl _⟩

theorem NotLater.trans {a b c : Option Instant} (first : NotLater a b) (second : NotLater b c) :
    NotLater a c := by
  intro t isTime
  obtain ⟨u, isNext, le⟩ := first t isTime
  obtain ⟨v, isLast, le'⟩ := second u isNext
  exact ⟨v, isLast, Instant.le_trans le le'⟩

/-- The same point in time is not later. -/
theorem NotLater.of_beq {a b : Option Instant} (same : (a == b) = true) : NotLater a b := by
  rintro t ⟨⟩
  cases b with
  | none => cases same
  | some u => exact ⟨u, rfl, Int.le_of_eq (Instant.beq_iff.mp same)⟩

/-- Of two cursors that are not later than each other, both are absent or the same point in time. -/
theorem NotLater.antisymm {a b : Option Instant} (first : NotLater a b) (second : NotLater b a) :
    (a == b) = true := by
  cases b with
  | none =>
    cases a with
    | none => rfl
    | some t =>
      obtain ⟨u, impossible, _⟩ := first t rfl
      cases impossible
  | some u =>
    obtain ⟨t, isTime, le⟩ := second u rfl
    obtain ⟨_, ⟨⟩, le'⟩ := first t isTime
    exact Instant.beq_some_iff.mpr ⟨t, isTime, Int.le_antisymm le' le⟩

/-- Every point in time of a list occurs in another list. -/
def Includes (more times : List Instant) : Prop := ∀ t ∈ times, ∃ u ∈ more, u.nanos = t.nanos

instance (more times : List Instant) : Decidable (Includes more times) := List.decidableBAll _ times

/-- Two lists have the same points in time, in any order and any number. -/
def SameTimes (times times' : List Instant) : Prop :=
  Includes times times' ∧ Includes times' times

instance (times times' : List Instant) : Decidable (SameTimes times times') :=
  inferInstanceAs (Decidable (_ ∧ _))

/-- `next` is the latest cursor that a pass may leave. -/
structure IsWatermark (current : Option Instant) (handled failed : List Instant)
    (next : Option Instant) : Prop where
  /-- It is the old cursor or a handled time. -/
  known : next = current ∨ ∃ t ∈ handled, next = some t
  forward : NotLater current next
  /-- Unless it is the time of the old cursor, it lies before every failure. -/
  safe : (next == current) = false → ∀ t ∈ next, ∀ f ∈ failed, t < f
  /-- No later handled time lies before every failure. -/
  best : ∀ t ∈ handled, (∀ n ∈ next, n < t) → ¬ ∀ f ∈ failed, t < f

/-- A watermark is not earlier if more was handled and less failed. -/
theorem IsWatermark.mono (first : IsWatermark current handled failed next)
    (second : IsWatermark current' handled' failed' next') (later : NotLater current current')
    (more : Includes handled' handled) (fewer : Includes failed failed') : NotLater next next' := by
  have old := later.trans second.forward
  cases same : next == current with
  | true => exact (NotLater.of_beq same).trans old
  | false =>
    rcases first.known with rfl | ⟨t, isHandled, rfl⟩
    · exact old
    · rintro _ ⟨⟩
      obtain ⟨u, isHandled', sameTime⟩ := more t isHandled
      have safe' : ∀ f ∈ failed', u < f := by
        intro f' isFailed'
        obtain ⟨f, isFailed, sameFailure⟩ := fewer f' isFailed'
        have before := first.safe same t rfl f isFailed
        rw [Instant.lt_def] at before ⊢
        omega
      -- The second pass may stop at this time too, so its watermark is not earlier.
      refine Classical.byContradiction fun earlier => second.best u isHandled' ?_ safe'
      intro n isNext
      refine Instant.not_le.mp fun le => earlier ⟨n, isNext, ?_⟩
      rw [Instant.le_def] at le ⊢
      omega

/-- All watermarks of the same times are the same point in time. -/
theorem IsWatermark.unique (first : IsWatermark current handled failed next)
    (second : IsWatermark current handled' failed' next') (sameHandled : SameTimes handled handled')
    (sameFailed : SameTimes failed failed') : (next == next') = true :=
  NotLater.antisymm (first.mono second (.refl _) sameHandled.2 sameFailed.1)
    (second.mono first (.refl _) sameHandled.1 sameFailed.2)

/-- The cursor after a pass is the watermark of what was handled and what failed. -/
theorem nextCursor_isWatermark (current : Option Instant) (handled failed : List Instant) :
    IsWatermark current handled failed (nextCursor current handled failed) := by
  have best : ∀ t ∈ handled, (∀ n ∈ nextCursor current handled failed, n < t) →
      ¬ ∀ f ∈ failed, t < f := by
    intro t isHandled later before
    obtain ⟨n, isNext, le⟩ := le_nextCursor isHandled before
    exact Instant.not_lt.mpr le (later n isNext)
  rcases nextCursor_eq_or current handled failed with same | ⟨t, isHandled, isNext, before, later⟩
  · have still : (nextCursor current handled failed == current) = true := by
      rw [same]
      exact (NotLater.refl current).antisymm (.refl current)
    refine ⟨.inl same, ?_, fun different => ?_, best⟩
    · rw [same]
      exact .refl _
    · exact Bool.noConfusion (different.symm.trans still)
  · refine ⟨.inr ⟨t, isHandled, isNext⟩, ?_, fun _ => ?_, best⟩
    · rw [isNext]
      exact fun c isCurrent => ⟨t, rfl, Instant.le_of_lt (later c isCurrent)⟩
    · rw [isNext]
      rintro _ ⟨⟩
      exact before

/-- The cursor after a pass is the best safe watermark. Neither the order nor the repetition of
times matters to it; it is not earlier when more was handled, and not later when more failed. -/
theorem nextCursor_best (current : Option Instant) (handled failed : List Instant) :
    IsWatermark current handled failed (nextCursor current handled failed) ∧
      (∀ handled' failed', SameTimes handled handled' → SameTimes failed failed' →
        (nextCursor current handled failed == nextCursor current handled' failed') = true) ∧
      (∀ handled', Includes handled' handled →
        NotLater (nextCursor current handled failed) (nextCursor current handled' failed)) ∧
      ∀ failed', Includes failed' failed →
        NotLater (nextCursor current handled failed') (nextCursor current handled failed) := by
  have watermark := nextCursor_isWatermark current
  refine ⟨watermark handled failed, fun handled' failed' sameHandled sameFailed => ?_,
    fun handled' more => ?_, fun failed' more => ?_⟩
  · exact (watermark ..).unique (watermark ..) sameHandled sameFailed
  · exact (watermark ..).mono (watermark ..) (.refl _) more fun f isFailed => ⟨f, isFailed, rfl⟩
  · exact (watermark ..).mono (watermark ..) (.refl _) (fun t isHandled => ⟨t, isHandled, rfl⟩) more

/-- The same times on several clocks, one of them twice, leave the cursor at the same time: at 7,
which is handled and lies before the failure at 8. -/
theorem nextCursor_best_severalClocks :
    SameTimes [⟨7, 0⟩, ⟨9, 0⟩] [⟨9, 3600⟩, ⟨7, 60⟩, ⟨7, 0⟩] ∧
      SameTimes [⟨8, 0⟩] [⟨8, -60⟩, ⟨8, 0⟩] ∧
      nextCursor (some ⟨5, 0⟩) [⟨7, 0⟩, ⟨9, 0⟩] [⟨8, 0⟩] = some ⟨7, 0⟩ ∧
      (nextCursor (some ⟨5, 0⟩) [⟨7, 0⟩, ⟨9, 0⟩] [⟨8, 0⟩] ==
        nextCursor (some ⟨5, 0⟩) [⟨9, 3600⟩, ⟨7, 60⟩, ⟨7, 0⟩] [⟨8, -60⟩, ⟨8, 0⟩]) = true := by
  have sameHandled : SameTimes [⟨7, 0⟩, ⟨9, 0⟩] [⟨9, 3600⟩, ⟨7, 60⟩, ⟨7, 0⟩] := by decide
  have sameFailed : SameTimes [⟨8, 0⟩] [⟨8, -60⟩, ⟨8, 0⟩] := by decide
  refine ⟨sameHandled, sameFailed, by decide, ?_⟩
  exact (nextCursor_best (some ⟨5, 0⟩) _ _).2.1 _ _ sameHandled sameFailed

end RunLedger.Sync
