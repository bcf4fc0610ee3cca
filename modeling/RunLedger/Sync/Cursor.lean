import RunLedger.Time.Instant

/-!
# The cursor

The cursor is the update time up to which the runs of the engine have been handled. A pass moves it
forward to the latest time it handled, but stays below the earliest time it failed at, so that a run
that failed is seen again.
-/

namespace RunLedger.Sync

open RunLedger.Time (Instant)

/-- The handled times that lie before every failed one. -/
def beforeFailures (handled failed : List Instant) : List Instant :=
  match Instant.earliest? failed with
  | some barrier => handled.filter fun t => t < barrier
  | none => handled

/-- The cursor after a pass. -/
def nextCursor (current : Option Instant) (handled failed : List Instant) : Option Instant :=
  match Instant.latest? (beforeFailures handled failed), current with
  | some t, some c => if t ≤ c then some c else some t
  | some t, none => some t
  | none, current => current

end RunLedger.Sync
