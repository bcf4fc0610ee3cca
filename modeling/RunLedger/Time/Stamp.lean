import RunLedger.Json.Record
import RunLedger.Text.Digits
import RunLedger.Time.Instant

/-!
# Written times

`Instant.stamp?` writes an instant as an RFC 3339 date and time on its own clock, and
`Instant.read?` reads one. A stamp has a four-digit year, so an instant of another year has none.
The fraction of a second is written without trailing zeros; of a longer fraction the first nine
digits are read. A second numbered 60 is read as the last nanosecond before the end of a month, the
only place where leap seconds are inserted.
-/

namespace RunLedger.Time

/-- A natural number padded with zeros to a width. -/
def padded (width n : Nat) : List Char :=
  let ds := Nat.toDigits 10 n
  List.replicate (width - ds.length) '0' ++ ds

/-- The digits of a fraction of nine places without its trailing zeros. -/
def fractionDigits (nanos : Nat) : List Char :=
  ((padded 9 nanos).reverse.dropWhile (· = '0')).reverse

namespace Instant

/-- The offset of the clock: `Z`, or a sign with hours and minutes. -/
def offsetStamp (t : Instant) : List Char :=
  if t.offset = 0 then ['Z']
  else
    let minutes := t.offset.natAbs / 60
    (if t.offset < 0 then '-' else '+') :: padded 2 (minutes / 60) ++ ':' :: padded 2 (minutes % 60)

/-- The fraction of a second with its point; nothing when it is zero. -/
def fractionStamp (t : Instant) : List Char :=
  if t.subsecond = 0 then [] else '.' :: fractionDigits t.subsecond

/-- The RFC 3339 text of an instant, unless its year has not four digits. -/
def stamp? (t : Instant) : Option String :=
  let d := t.date
  if 0 ≤ d.year && d.year ≤ 9999 then
    some (String.ofList
      (padded 4 d.year.toNat ++ '-' :: padded 2 d.month ++ '-' :: padded 2 d.day ++
        'T' :: padded 2 t.hour ++ ':' :: padded 2 t.minute ++ ':' :: padded 2 t.secondOfMinute ++
        t.fractionStamp ++ t.offsetStamp))
  else none

end Instant

/-- The digits of a number of exactly `width` digits, and what follows them. -/
def takeNumber? (width : Nat) (cs : List Char) : Option (Nat × List Char) :=
  let ds := cs.take width
  if ds.length = width && ds.all Char.isDigit then
    some (Text.decimalValue ds, cs.drop width)
  else none

/-- Skips one character that passes a test. -/
def takeChar? (test : Char → Bool) : List Char → Option (List Char)
  | c :: rest => if test c then some rest else none
  | [] => none

/-- The nanoseconds of an optional fraction, and what follows it. -/
def takeFraction? (cs : List Char) : Option (Nat × List Char) :=
  match cs with
  | '.' :: rest =>
    let ds := rest.takeWhile Char.isDigit
    if ds.isEmpty then none
    else
      let nine := ds.take 9
      some (Text.decimalValue nine * Nat.pow 10 (9 - nine.length), rest.dropWhile Char.isDigit)
  | _ => some (0, cs)

/-- The seconds of an offset, which ends the text. -/
def takeOffset? (cs : List Char) : Option Int :=
  match cs with
  | ['Z'] => some 0
  | ['z'] => some 0
  | sign :: rest => do
    let (hours, rest) ← takeNumber? 2 rest
    let rest ← takeChar? (· = ':') rest
    let (minutes, rest) ← takeNumber? 2 rest
    if !rest.isEmpty || hours > 23 || minutes > 59 then failure
    let size : Int := 60 * (60 * hours + minutes)
    if sign = '+' then pure size
    else if sign = '-' then pure (-size)
    else failure
  | [] => none

/-- The fields of a date and time as they are written. -/
structure Written where
  date : Date
  hour : Nat
  minute : Nat
  second : Nat
  subsecond : Nat
  offset : Int

/-- The instant that written fields denote. -/
def Written.toInstant (w : Written) : Instant :=
  let seconds := 86400 * w.date.toDays + (3600 * w.hour + 60 * w.minute + w.second : Nat) - w.offset
  ⟨seconds * Instant.second + w.subsecond, w.offset⟩

/-- The instant that written fields denote, if they are in range. -/
def Written.toInstant? (w : Written) : Option Instant :=
  if !w.date.isValid || w.hour > 23 || w.minute > 59 || w.second > 60 then none
  else if w.second < 60 then some w.toInstant
  else
    let last := { w with second := 59, subsecond := 999999999 }.toInstant
    let day : Instant := .utc last.nanos
    if day.secondOfDay = 86399 && day.date.isMonthEnd then some last else none

/-- Reads an RFC 3339 date and time; any ASCII character may stand between the two. -/
def Instant.read? (text : String) : Option Instant := do
  let (year, cs) ← takeNumber? 4 text.toList
  let cs ← takeChar? (· = '-') cs
  let (month, cs) ← takeNumber? 2 cs
  let cs ← takeChar? (· = '-') cs
  let (day, cs) ← takeNumber? 2 cs
  let cs ← takeChar? (fun c => c.toNat < 128) cs
  let (hour, cs) ← takeNumber? 2 cs
  let cs ← takeChar? (· = ':') cs
  let (minute, cs) ← takeNumber? 2 cs
  let cs ← takeChar? (· = ':') cs
  let (second, cs) ← takeNumber? 2 cs
  let (subsecond, cs) ← takeFraction? cs
  let offset ← takeOffset? cs
  Written.toInstant? ⟨⟨year, month, day⟩, hour, minute, second, subsecond, offset⟩

namespace Instant

/-- The instant in a record. -/
def toJson? (t : Instant) : Option Json :=
  t.stamp?.map .str

/-- The instant in a record, or null. -/
def optionToJson? : Option Instant → Option Json
  | some t => t.toJson?
  | none => some .null

/-- Reads an instant in a record. -/
def ofJson? (j : Json) : Option Instant :=
  j.asString?.bind read?

/-- The year of a date, at least four digits wide, with a minus sign before the year 0. -/
def yearText (year : Int) : List Char :=
  (if year < 0 then ['-'] else []) ++ padded 4 year.natAbs

/-- The instant inside a sentence: date, time with at least one place, and offset with seconds. -/
def sentence (t : Instant) : String :=
  let d := t.date
  let fraction := if t.subsecond = 0 then ['0'] else fractionDigits t.subsecond
  let size := t.offset.natAbs
  String.ofList
    (yearText d.year ++ '-' :: padded 2 d.month ++ '-' :: padded 2 d.day ++
      ' ' :: padded 1 t.hour ++ ':' :: padded 2 t.minute ++ ':' :: padded 2 t.secondOfMinute ++
      '.' :: fraction ++
      ' ' :: (if t.offset < 0 then '-' else '+') :: padded 2 (size / 3600) ++
      ':' :: padded 2 (size / 60 % 60) ++ ':' :: padded 2 (size % 60))

/-- Date and time in digits, as in the name of a file. -/
def compactStamp (t : Instant) : String :=
  let d := t.date
  String.ofList
    (yearText d.year ++ padded 2 d.month ++ padded 2 d.day ++
      '_' :: padded 2 t.hour ++ padded 2 t.minute ++ padded 2 t.secondOfMinute)

end Instant

end RunLedger.Time
