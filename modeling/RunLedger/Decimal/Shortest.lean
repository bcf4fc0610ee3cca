import RunLedger.Text.Digits

/-!
# The fewest digits that read back

A finite double is a dyadic rational, and the reals that round to it form an interval around it.
The shortest decimal of a double is the decimal with the fewest digits in that interval, and of the
decimals with that many digits the one nearest to the double. All arithmetic is exact, on `Nat`.
-/

namespace RunLedger.Decimal

/-- A nonnegative decimal number: `digits * 10 ^ exponent`. -/
structure Scaled where
  digits : Nat
  exponent : Int
deriving DecidableEq, Repr

/-- A positive finite double: `significand * 2 ^ exponent`. -/
structure Dyadic where
  significand : Nat
  exponent : Int
  /-- The double below is only half as far away as the double above. -/
  nearBelow : Bool
deriving DecidableEq, Repr

/-- Decodes the magnitude of a finite double from its bits. -/
def Dyadic.ofBits (bits : Nat) : Dyadic :=
  let fraction : Nat := bits % Nat.pow 2 52
  let field : Nat := bits / Nat.pow 2 52 % Nat.pow 2 11
  if field = 0 then ⟨fraction, -1074, false⟩
  else ⟨Nat.pow 2 52 + fraction, (field : Int) - 1075, fraction == 0 && field > 1⟩

/-- The number of decimal digits of a natural number; zero has one. -/
def digitCount (n : Nat) : Nat :=
  (Nat.toDigits 10 n).length

/-- The position of the leading decimal digit of `num / den`: the `e` with
`10 ^ e ≤ num / den < 10 ^ (e + 1)`, for positive arguments. -/
def leadingPosition (num den : Nat) : Int :=
  if den ≤ num then (digitCount (num / den) : Int) - 1
  else
    let places := digitCount (den / num)
    if den ≤ num * Nat.pow 10 (places - 1) then 1 - (places : Int) else -(places : Int)

/-- The interval of reals that round to a double, over a common denominator. -/
structure Interval where
  low : Nat
  value : Nat
  high : Nat
  den : Nat
  /-- Both ends round to the double too. -/
  closed : Bool

/-- The ends lie halfway to the neighbouring doubles, and belong to the interval of a double with
an even significand. -/
def Dyadic.interval (x : Dyadic) : Interval :=
  let shift := x.exponent - 2
  let scale := Nat.pow 2 shift.toNat
  { low := (4 * x.significand - if x.nearBelow then 1 else 2) * scale
    value := 4 * x.significand * scale
    high := (4 * x.significand + 2) * scale
    den := Nat.pow 2 (-shift).toNat
    closed := x.significand % 2 = 0 }

/-- Whether `num / den` times the interval's denominator lies in the interval widened by
`factor`. -/
def Interval.holds (i : Interval) (factor point : Nat) : Bool :=
  if i.closed then i.low * factor ≤ point && point ≤ i.high * factor
  else i.low * factor < point && point < i.high * factor

/-- The decimal on the grid of multiples of `10 ^ position` that lies in the interval and is nearest
to its value; of two equally near decimals the one with even digits. -/
def Interval.onGrid? (i : Interval) (position : Int) : Option Scaled :=
  let unit := Nat.pow 10 position.toNat * i.den
  let factor := Nat.pow 10 (-position).toNat
  let target := i.value * factor
  let below := target / unit
  let above := below + 1
  match i.holds factor (below * unit), i.holds factor (above * unit) with
  | false, false => none
  | true, false => some ⟨below, position⟩
  | false, true => some ⟨above, position⟩
  | true, true =>
    let down := target - below * unit
    let up := above * unit - target
    if down < up || (down == up && below % 2 == 0) then some ⟨below, position⟩
    else some ⟨above, position⟩

/-- Moves trailing zeros of the digits into the exponent; at most `fuel` of them. -/
def Scaled.trim : Nat → Scaled → Scaled
  | 0, d => d
  | fuel + 1, d =>
    if d.digits % 10 = 0 && d.digits != 0 then trim fuel ⟨d.digits / 10, d.exponent + 1⟩ else d

/-- Seventeen digits always suffice, so the last grid tried has a decimal for every double. -/
def Dyadic.shortest (x : Dyadic) : Scaled :=
  let i := x.interval
  let lead := leadingPosition i.value i.den
  let grids := (List.range 17).map fun (n : Nat) => lead - (n : Int)
  ((grids.findSome? i.onGrid?).getD ⟨x.significand, x.exponent⟩).trim 20

/-- The shortest decimal of the magnitude of a finite double. -/
def shortest (x : Float) : Scaled :=
  let magnitude := x.toBits.toNat % wordCount 63
  if magnitude = 0 then ⟨0, 0⟩ else (Dyadic.ofBits magnitude).shortest

/-- Whether a double carries a minus sign, zero included. -/
def isNegative (x : Float) : Bool :=
  wordCount 63 ≤ x.toBits.toNat

/-- How a format writes doubles. -/
structure Style where
  /-- The positions of the leading digit from which and up to which the notation is positional. -/
  plainFrom : Int
  plainTo : Int
  /-- What stands before a nonnegative exponent. -/
  exponentPlus : String

/-- The decimal digits of a natural number, as text. -/
def digitText (n : Nat) : String :=
  String.ofList (Nat.toDigits 10 n)

/-- Positional notation, always with a fractional part. -/
def Scaled.plain (d : Scaled) : String :=
  let ds := Nat.toDigits 10 d.digits
  if 0 ≤ d.exponent then
    String.ofList (ds ++ List.replicate d.exponent.toNat '0') ++ ".0"
  else
    let places := (-d.exponent).toNat
    if places < ds.length then
      String.ofList (ds.take (ds.length - places)) ++ "." ++
        String.ofList (ds.drop (ds.length - places))
    else "0." ++ String.ofList (List.replicate (places - ds.length) '0' ++ ds)

/-- One digit before the point, the rest after it, and the exponent. -/
def Scaled.scientific (style : Style) (d : Scaled) : String :=
  let ds := Nat.toDigits 10 d.digits
  let exponent := d.exponent + (ds.length : Int) - 1
  let mantissa := match ds with
    | first :: [] => String.ofList [first]
    | first :: rest => String.ofList (first :: '.' :: rest)
    | [] => ""
  let sign := if exponent < 0 then "-" else style.exponentPlus
  mantissa ++ "e" ++ sign ++ digitText exponent.natAbs

/-- The text of a finite double in a style. -/
def Style.write (style : Style) (x : Float) : String :=
  let d := shortest x
  let lead := d.exponent + (digitCount d.digits : Int) - 1
  let body :=
    if d.digits = 0 then "0.0"
    else if style.plainFrom ≤ lead && lead ≤ style.plainTo then d.plain
    else d.scientific style
  if isNegative x then "-" ++ body else body

end RunLedger.Decimal
