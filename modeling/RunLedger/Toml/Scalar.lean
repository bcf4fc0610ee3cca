import RunLedger.Decimal.Nearest
import RunLedger.Time.Stamp
import RunLedger.Toml.Lexeme

/-!
# Scalars

Numbers, truth values and times. A scalar is a run of letters, digits and a few signs; a time may
follow its date after a blank.
-/

namespace RunLedger.Toml

/-- The digits of a number in which single underscores stand between digits. -/
def plainDigits? (isDigit : Char → Bool) : List Char → Option (List Char)
  | [] => none
  | [c] => if isDigit c then some [c] else none
  | c :: '_' :: rest =>
    if isDigit c then (plainDigits? isDigit rest).map (c :: ·) else none
  | c :: rest => if isDigit c then (plainDigits? isDigit rest).map (c :: ·) else none

/-- A sign and what follows it. -/
def splitSign : List Char → Bool × List Char
  | '-' :: rest => (true, rest)
  | '+' :: rest => (false, rest)
  | cs => (false, cs)

/-- The digits of a decimal integer; a zero stands alone at the front. -/
def wholeDigits? (cs : List Char) : Option (List Char) := do
  let digits ← plainDigits? Char.isDigit cs
  match digits with
  | '0' :: _ :: _ => none
  | _ => some digits

/-- A signed 64-bit integer. -/
def inRange? (n : Int) : Option Toml :=
  if -(wordCount 63 : Int) ≤ n && n < wordCount 63 then some (.int n) else none

/-- An integer to a base that is written with a letter. -/
def basedInteger? (base : Nat) (isDigit : Char → Bool) (cs : List Char) : Option Toml := do
  let n ← Text.valueInBase? base (← plainDigits? isDigit cs)
  inRange? n

/-- An integer. -/
def integer? (cs : List Char) : Option Toml :=
  match cs with
  | '0' :: 'x' :: rest => basedInteger? 16 (fun c => (Text.hexValue? c).isSome) rest
  | '0' :: 'o' :: rest => basedInteger? 8 (fun c => '0' ≤ c && c ≤ '7') rest
  | '0' :: 'b' :: rest => basedInteger? 2 (fun c => c = '0' || c = '1') rest
  | _ => do
    let (negative, digits) := splitSign cs
    let n := Text.decimalValue (← wholeDigits? digits)
    inRange? (if negative then -(n : Int) else n)

/-- The digits of a fraction with its point, if there is one. -/
def fraction? (cs : List Char) : Option (List Char) :=
  match cs with
  | [] => some []
  | '.' :: rest => (plainDigits? Char.isDigit rest).map ('.' :: ·)
  | _ => none

/-- An exponent, if there is one. -/
def exponent? (cs : List Char) : Option (List Char) :=
  match cs with
  | [] => some []
  | _ :: rest =>
    let (negative, digits) := splitSign rest
    (plainDigits? Char.isDigit digits).map fun ds => 'e' :: (if negative then '-' :: ds else ds)

/-- A floating-point number: whole digits with a fraction, an exponent or both, or a word for
infinity or not-a-number. Digits that are too great for a double are refused, unless they are
negative. -/
def float? (cs : List Char) : Option Toml :=
  let (negative, body) := splitSign cs
  if body = "inf".toList || body = "nan".toList then some .float
  else do
    let (mantissa, power) := body.span fun c => c ≠ 'e' && c ≠ 'E'
    let (whole, rest) := mantissa.span (· ≠ '.')
    let fraction ← fraction? rest
    let exponent ← exponent? power
    if fraction.isEmpty && exponent.isEmpty then none
    let value ← Decimal.read? ((← wholeDigits? whole) ++ fraction ++ exponent)
    if value.isFinite || negative then some .float else none

/-- A time of day at the front of a text, and what follows it. -/
def takeClock? (cs : List Char) : Option (List Char) := do
  let (hour, cs) ← Time.takeNumber? 2 cs
  let cs ← Time.takeChar? (· = ':') cs
  let (minute, cs) ← Time.takeNumber? 2 cs
  let cs ← Time.takeChar? (· = ':') cs
  let (second, cs) ← Time.takeNumber? 2 cs
  let (_, cs) ← Time.takeFraction? cs
  if hour > 23 || minute > 59 || second > 60 then none else some cs

/-- A date at the front of a text, and what follows it. -/
def takeDate? (cs : List Char) : Option (List Char) := do
  let (year, cs) ← Time.takeNumber? 4 cs
  let cs ← Time.takeChar? (· = '-') cs
  let (month, cs) ← Time.takeNumber? 2 cs
  let cs ← Time.takeChar? (· = '-') cs
  let (day, cs) ← Time.takeNumber? 2 cs
  let date : Time.Date := ⟨year, month, day⟩
  if date.isValid then some cs else none

/-- A date, a time of day, or both with or without an offset. -/
def time? (cs : List Char) : Option Toml :=
  match takeDate? cs with
  | some [] => some .time
  | some (c :: rest) => do
    if c ≠ 'T' && c ≠ 't' && c ≠ ' ' then none
    match ← takeClock? rest with
    | [] => some .time
    | offset => (Time.takeOffset? offset).map fun _ => .time
  | none =>
    match takeClock? cs with
    | some [] => some .time
    | _ => none

/-- The scalar that a run of characters writes. -/
def scalar? (cs : List Char) : Option Toml :=
  if cs = "true".toList then some (.bool true)
  else if cs = "false".toList then some (.bool false)
  else ((integer? cs).orElse fun _ => float? cs).orElse fun _ => time? cs

/-- Whether a character may stand in a scalar. -/
def isScalarChar (c : Char) : Bool :=
  c.isAlphanum || c = '+' || c = '-' || c = '_' || c = '.' || c = ':'

/-- Reads a scalar. -/
def readScalar : Reader Toml := fun cs =>
  let (run, rest) := cs.span isScalarChar
  match rest with
  | ' ' :: digit :: _ =>
    if digit.isDigit && (takeDate? run).isSome then
      let (clock, rest) := (rest.drop 1).span isScalarChar
      (time? (run ++ ' ' :: clock)).map (·, rest)
    else (scalar? run).map (·, rest)
  | _ => (scalar? run).map (·, rest)

end RunLedger.Toml
