import RunLedger.Decimal.Nearest
import RunLedger.Json.Basic
import RunLedger.Text.Digits

/-!
# Reading JSON

`Json.read?` accepts exactly one document, with JSON blanks around it, and refuses documents nested
more than `maxDepth` deep, numbers too large for a double and escapes that name half of a surrogate
pair. A number without point and exponent is an integer while it fits 64 bits, unsigned or, with a
minus sign, signed; minus zero and all other numbers are read in floating point.
-/

namespace RunLedger.Json

/-- How deep arrays and objects may be nested. -/
def maxDepth : Nat := 127

/-- Skips the four JSON blanks. -/
def skipBlank (cs : List Char) : List Char :=
  cs.dropWhile fun c => c = ' ' || c = '\n' || c = '\t' || c = '\r'

/-- The character that a one-letter escape stands for. -/
def escaped? : Char → Option Char
  | '"' => some '"'
  | '\\' => some '\\'
  | '/' => some '/'
  | 'b' => some '\x08'
  | 'f' => some '\x0c'
  | 'n' => some '\n'
  | 'r' => some '\r'
  | 't' => some '\t'
  | _ => none

/-- The character of a surrogate pair. -/
def pairChar (high low : Nat) : Char :=
  Char.ofNat (0x10000 + (high - 0xD800) * 0x400 + (low - 0xDC00))

/-- The characters of a string up to its closing quote, and what follows the quote. -/
def stringBody : List Char → Option (List Char × List Char)
  | [] => none
  | '"' :: rest => some ([], rest)
  | '\\' :: 'u' :: a :: b :: c :: d :: rest =>
    match Text.valueInBase? 16 [a, b, c, d] with
    | none => none
    | some unit =>
      if unit < 0xD800 || 0xE000 ≤ unit then
        (stringBody rest).map fun (cs, rest) => (Char.ofNat unit :: cs, rest)
      else if 0xDC00 ≤ unit then none
      else
        match rest with
        | '\\' :: 'u' :: e :: f :: g :: h :: rest =>
          match Text.valueInBase? 16 [e, f, g, h] with
          | none => none
          | some low =>
            if 0xDC00 ≤ low && low < 0xE000 then
              (stringBody rest).map fun (cs, rest) => (pairChar unit low :: cs, rest)
            else none
        | _ => none
  | '\\' :: e :: rest =>
    match escaped? e with
    | none => none
    | some c => (stringBody rest).map fun (cs, rest) => (c :: cs, rest)
  | c :: rest =>
    if c = '\\' || c.toNat < 0x20 then none
    else (stringBody rest).map fun (cs, rest) => (c :: cs, rest)

/-- Gathers integer digits in a 64-bit significand: its value, and how many digits no longer fit. -/
def gatherWhole (significand : Nat) : List Char → Nat × Nat
  | [] => (significand, 0)
  | d :: ds =>
    let next := 10 * significand + Text.digitValue d
    if next > Decimal.significandMax then (significand, (d :: ds).length)
    else gatherWhole next ds

/-- Gathers fraction digits while they fit: the significand, and how many digits it took. -/
def gatherFraction (significand : Nat) : List Char → Nat × Nat
  | [] => (significand, 0)
  | d :: ds =>
    let next := 10 * significand + Text.digitValue d
    if next > Decimal.significandMax then (significand, 0)
    else
      let (n, taken) := gatherFraction next ds
      (n, taken + 1)

/-- A number in floating point from its integer digits, fraction digits and exponent. -/
def floatNumber? (negative : Bool) (whole fraction : List Char) (exponent : Int) : Option Number :=
  let (n, dropped) := gatherWhole 0 whole
  let (n, taken) := gatherFraction n fraction
  (Decimal.scale ⟨n, exponent + dropped - taken⟩).map fun x => .float (if negative then -x else x)

/-- A number without point and exponent. -/
def integerNumber? (negative : Bool) (whole : List Char) : Option Number :=
  let n := Text.decimalValue whole
  if !negative && n < wordCount 64 then some (.int n)
  else if negative && 0 < n && n ≤ wordCount 63 then some (.int (-n))
  else floatNumber? negative whole [] 0

/-- The digits of an exponent and what follows them, if the text starts with one. -/
def spanExponent (cs : List Char) : Option (List Char × List Char) :=
  match cs with
  | e :: rest =>
    if e = 'e' || e = 'E' then
      let (sign, rest) := match rest with
        | '+' :: rest => (['+'], rest)
        | '-' :: rest => (['-'], rest)
        | _ => ([], rest)
      let (ds, rest) := Text.spanDigits rest
      some (e :: sign ++ ds, rest)
    else none
  | [] => none

/-- A number after its sign, and what follows it. -/
def unsignedNumber (negative : Bool) (cs : List Char) : Option (Number × List Char) := do
  let (whole, rest) := Text.spanDigits cs
  if whole.isEmpty || (whole.length > 1 && whole.head? = some '0') then failure
  let (fraction, rest) ← match rest with
    | '.' :: rest =>
      let (fraction, rest) := Text.spanDigits rest
      if fraction.isEmpty then failure else pure (some fraction, rest)
    | _ => pure (none, rest)
  match spanExponent rest with
  | some (exponentText, rest) =>
    let exponent ← Decimal.readExponent? exponentText
    let n ← floatNumber? negative whole (fraction.getD []) exponent
    pure (n, rest)
  | none =>
    let n ← match fraction with
      | some fraction => floatNumber? negative whole fraction 0
      | none => integerNumber? negative whole
    pure (n, rest)

/-- A number and what follows it. -/
def number (cs : List Char) : Option (Number × List Char) :=
  match cs with
  | '-' :: rest => unsignedNumber true rest
  | _ => unsignedNumber false cs

/-- The items of an array after its opening bracket, which is not at once closed. The fuel bounds
the number of items. -/
def items (item : List Char → Option (Json × List Char)) :
    Nat → List Char → Option (List Json × List Char)
  | 0, _ => none
  | fuel + 1, cs => do
    let (j, rest) ← item cs
    match skipBlank rest with
    | ']' :: rest => some ([j], rest)
    | ',' :: rest => (items item fuel rest).map fun (js, rest) => (j :: js, rest)
    | _ => none

/-- The members of an object after its opening brace, which is not at once closed. The fuel bounds
the number of members. -/
def members (item : List Char → Option (Json × List Char)) :
    Nat → List Char → Option (List (String × Json) × List Char)
  | 0, _ => none
  | fuel + 1, cs =>
    match skipBlank cs with
    | '"' :: rest => do
      let (key, rest) ← stringBody rest
      match skipBlank rest with
      | ':' :: rest =>
        let (j, rest) ← item rest
        match skipBlank rest with
        | '}' :: rest => some ([(String.ofList key, j)], rest)
        | ',' :: rest =>
          (members item fuel rest).map fun (ms, rest) => ((String.ofList key, j) :: ms, rest)
        | _ => none
      | _ => none
    | _ => none

/-- A document nested at most `depth` deep, after blanks, and what follows it. -/
def document (fuel : Nat) : (depth : Nat) → List Char → Option (Json × List Char)
  | depth, cs =>
    match skipBlank cs with
    | 'n' :: 'u' :: 'l' :: 'l' :: rest => some (.null, rest)
    | 't' :: 'r' :: 'u' :: 'e' :: rest => some (.bool true, rest)
    | 'f' :: 'a' :: 'l' :: 's' :: 'e' :: rest => some (.bool false, rest)
    | '"' :: rest => (stringBody rest).map fun (s, rest) => (.str (String.ofList s), rest)
    | '[' :: rest =>
      match depth with
      | 0 => none
      | depth + 1 =>
        match skipBlank rest with
        | ']' :: rest => some (.arr [], rest)
        | rest => (items (document fuel depth) fuel rest).map fun (js, rest) => (.arr js, rest)
    | '{' :: rest =>
      match depth with
      | 0 => none
      | depth + 1 =>
        match skipBlank rest with
        | '}' :: rest => some (.obj [], rest)
        | rest =>
          (members (document fuel depth) fuel rest).map fun (ms, rest) => (ofMembers ms, rest)
    | cs => (number cs).map fun (n, rest) => (.num n, rest)

/-- Reads a text that holds exactly one document. -/
def read? (text : String) : Option Json :=
  let cs := text.toList
  match document cs.length maxDepth cs with
  | some (j, rest) => if (skipBlank rest).isEmpty then some j else none
  | none => none

end RunLedger.Json
