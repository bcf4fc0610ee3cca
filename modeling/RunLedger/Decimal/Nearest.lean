import RunLedger.Decimal.Shortest
import RunLedger.Text.Digits

/-!
# Reading decimals as doubles

Two readings. `nearest` rounds a decimal once, to the nearest double. `scale` reads as JSON numbers
are read here: the digits are gathered in a 64-bit significand and then scaled in floating point by
powers of ten, so that a long decimal may land next to its nearest double.
-/

namespace RunLedger.Decimal

/-- The value above every finite double. -/
def infinity : Float := 1.0 / 0.0

/-- The double nearest to `digits * 10 ^ exponent`; far outside the range of doubles the answer is
settled without computing the power. -/
def nearest (d : Scaled) : Float :=
  let size := d.exponent + (digitCount d.digits : Int)
  if d.digits = 0 then 0.0
  else if size > 310 then infinity
  else if size < -330 then 0.0
  else Float.ofScientific d.digits (d.exponent < 0) d.exponent.natAbs

/-- A decimal exponent: the letter e in either case, an optional sign, at least one digit. -/
def readExponent? (cs : List Char) : Option Int :=
  match cs with
  | c :: rest =>
    if c = 'e' || c = 'E' then
      let (negative, ds) := match rest with
        | '-' :: ds => (true, ds)
        | '+' :: ds => (false, ds)
        | ds => (false, ds)
      if ds.isEmpty || !ds.all Char.isDigit then none
      else
        -- Beyond five significant digits the size of an exponent no longer matters.
        let significant := ds.dropWhile (· = '0')
        let size : Nat := if significant.length > 5 then 100000 else Text.decimalValue significant
        some (if negative then -(size : Int) else size)
    else none
  | [] => some 0

/-- An unsigned decimal: digits with an optional point, at least one digit, an optional exponent. -/
def readMagnitude? (cs : List Char) : Option Float :=
  let (whole, rest) := Text.spanDigits cs
  let (fraction, rest) := match rest with
    | '.' :: rest => Text.spanDigits rest
    | _ => ([], rest)
  if whole.isEmpty && fraction.isEmpty then none
  else (readExponent? rest).map fun e =>
    nearest ⟨Text.decimalValue (whole ++ fraction), e - (fraction.length : Int)⟩

/-- Reads a whole text as a double: an optional sign before a decimal, or before one of the words
for infinity and not-a-number in any case. -/
def read? (text : List Char) : Option Float :=
  let (negative, body) := match text with
    | '-' :: body => (true, body)
    | '+' :: body => (false, body)
    | body => (false, body)
  let word := String.ofList (body.map Char.toLower)
  let magnitude :=
    if word = "inf" || word = "infinity" then some infinity
    else if word = "nan" then some (0.0 / 0.0)
    else readMagnitude? body
  magnitude.map fun x => if negative then -x else x

/-- The greatest value of a 64-bit significand. -/
def significandMax : Nat := wordCount 64 - 1

/-- `10 ^ n` as a double, for `n` up to 308. -/
def powerOfTen (n : Nat) : Float :=
  Float.ofScientific 1 false n

/-- Scales a significand by a power of ten in floating point: one multiplication or division where
the power is a double, else by way of `10 ^ 308`. `none` when the value is too large. Each round
past the first consumes 308 of a negative exponent; a value that is already zero ends it early. -/
def scaleBy : Nat → Float → Int → Option Float
  | 0, x, _ => some x
  | fuel + 1, x, exponent =>
    if exponent.natAbs ≤ 308 then
      if 0 ≤ exponent then
        let y := x * powerOfTen exponent.natAbs
        if y.isInf then none else some y
      else some (x / powerOfTen exponent.natAbs)
    else if x == 0.0 then some x
    else if 0 ≤ exponent then none
    else scaleBy fuel (x / powerOfTen 308) (exponent + 308)

/-- The scaled reading of a significand in a word. Four rounds bring every such value to zero. -/
def scale (d : Scaled) : Option Float :=
  scaleBy 8 (UInt64.ofNat d.digits).toFloat d.exponent

end RunLedger.Decimal
