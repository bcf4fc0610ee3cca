import RunLedger.Time.Calendar

/-!
# Instants

An instant is a number of nanoseconds since 1970-01-01 00:00:00 UTC. It also keeps the offset of the
clock it was read from, which matters when it is written and not when it is compared. The years of
the clock run from -9999 to 9999.
-/

namespace RunLedger.Time

/-- A point in time, with the offset of a local clock. -/
structure Instant where
  /-- Nanoseconds since 1970-01-01 00:00:00 UTC. -/
  nanos : Int
  /-- Seconds by which the local clock is ahead of UTC. -/
  offset : Int
deriving DecidableEq, Repr, Inhabited

namespace Instant

/-- Nanoseconds in a second. -/
def second : Int := 1000000000

/-- Nanoseconds in a millisecond. -/
def millisecond : Int := 1000000

/-- Instants are ordered by the point in time alone. -/
instance : LE Instant := ⟨fun a b => a.nanos ≤ b.nanos⟩

instance : LT Instant := ⟨fun a b => a.nanos < b.nanos⟩

instance (a b : Instant) : Decidable (a ≤ b) := inferInstanceAs (Decidable (a.nanos ≤ b.nanos))

instance (a b : Instant) : Decidable (a < b) := inferInstanceAs (Decidable (a.nanos < b.nanos))

/-- The same point in time, whatever the clocks. -/
instance : BEq Instant := ⟨fun a b => a.nanos == b.nanos⟩

/-- The first second of the year -9999 and the last of the year 9999, from 1970. -/
def firstSecond : Int := -377705116800

def lastSecond : Int := 253402300799

/-- Seconds since 1970 shown by the local clock. -/
def localSeconds (t : Instant) : Int :=
  t.nanos / second + t.offset

/-- The nanoseconds past the last whole second. -/
def subsecond (t : Instant) : Nat :=
  (t.nanos % second).toNat

/-- Whether the local clock shows a year that exists. -/
def inRange (t : Instant) : Bool :=
  firstSecond ≤ t.localSeconds && t.localSeconds ≤ lastSecond

/-- An instant on the clock of UTC. -/
def utc (nanos : Int) : Instant := ⟨nanos, 0⟩

/-- 1970-01-01 00:00:00 UTC. -/
def epoch : Instant := utc 0

/-- An instant given in nanoseconds, unless its year does not exist. -/
def ofNanos? (nanos : Int) : Option Instant :=
  let t := utc nanos
  if t.inRange then some t else none

/-- An instant given in seconds, unless its year does not exist. -/
def ofSeconds? (seconds : Int) : Option Instant :=
  ofNanos? (seconds * second)

/-- A later instant on the same clock, unless that clock runs out of years. -/
def add? (t : Instant) (nanos : Int) : Option Instant :=
  let later : Instant := ⟨t.nanos + nanos, t.offset⟩
  if later.inRange then some later else none

/-- The local date. -/
def date (t : Instant) : Date :=
  Date.ofDays (t.localSeconds / 86400)

/-- Seconds since local midnight. -/
def secondOfDay (t : Instant) : Nat :=
  (t.localSeconds % 86400).toNat

def hour (t : Instant) : Nat := t.secondOfDay / 3600

def minute (t : Instant) : Nat := t.secondOfDay / 60 % 60

def secondOfMinute (t : Instant) : Nat := t.secondOfDay % 60

/-- Of two instants the later; of the same point in time the second. -/
def max (a b : Instant) : Instant := if b < a then a else b

/-- The latest of some instants; of those at the same point in time the last. -/
def latest? : List Instant → Option Instant
  | [] => none
  | t :: ts => some (ts.foldl max t)

/-- The earliest of some instants; of those at the same point in time the first. -/
def earliest? : List Instant → Option Instant
  | [] => none
  | t :: ts => some (ts.foldl (fun a b => if b < a then b else a) t)

/-- Seconds since 1970 in floating point. -/
def floatSeconds (t : Instant) : Float :=
  Float.ofInt t.nanos / 1000000000.0

/-- Seconds from one instant to another in floating point: the whole seconds and the rest are
converted apart, each with the sign of the difference. -/
def secondsUntil (start finish : Instant) : Float :=
  let difference := finish.nanos - start.nanos
  Float.ofInt (difference.tdiv second) + Float.ofInt (difference.tmod second) / 1000000000.0

end Instant

end RunLedger.Time
