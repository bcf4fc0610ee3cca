import RunLedger.Decimal.Nearest
import RunLedger.Json.Basic
import RunLedger.Text.Blank
import RunLedger.Text.Digits
import RunLedger.Time.Instant

/-!
# Times in seconds

An engine writes a time as seconds since 1970, as a number or as a numeric text with blanks around
it. The seconds are a double; their product with a billion, rounded in floating point with halves
away from zero, counts the nanoseconds.
-/

namespace RunLedger.Time

/-- The integer nearest to a finite double; halves are rounded away from zero. -/
def nearestInteger (x : Float) : Int :=
  let d := Decimal.Dyadic.ofBits (x.toBits.toNat % wordCount 63)
  let unit := Nat.pow 2 (-d.exponent).toNat
  let size := (2 * d.significand * Nat.pow 2 d.exponent.toNat + unit) / (2 * unit)
  if Decimal.isNegative x then -(size : Int) else size

/-- The seconds that a document writes, if it is a number or a numeric text. -/
def secondsOf? : Json → Option Float
  | .num (.int n) => some (Float.ofInt n)
  | .num (.float x) => some x
  | .str s => Decimal.read? (Text.trim s.toList)
  | _ => none

/-- The instant that lies some seconds after 1970, unless the seconds are not finite or its year
does not exist. -/
def ofFloatSeconds? (seconds : Float) : Option Instant :=
  if seconds.isFinite then
    let nanos := seconds * 1000000000.0
    if nanos.isFinite then Instant.ofNanos? (nearestInteger nanos) else none
  else none

/-- The instant that a document writes in seconds. -/
def epochSeconds? (j : Json) : Option Instant :=
  (secondsOf? j).bind ofFloatSeconds?

end RunLedger.Time
