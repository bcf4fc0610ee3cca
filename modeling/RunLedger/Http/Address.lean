import RunLedger.Text.Digits
import RunLedger.Text.Split

/-!
# Addresses

The path of an address, its segments, and the text behind percent escapes. An escape that is not a
percent sign with two hexadecimal digits stands for itself.
-/

namespace RunLedger.Http

/-- The part of an address before the query and the fragment. -/
def withoutQuery (address : List Char) : List Char :=
  address.takeWhile fun c => c ≠ '?' && c ≠ '#'

/-- What follows the scheme of an address and the slashes behind it. -/
def afterScheme? : List Char → Option (List Char)
  | ':' :: '/' :: '/' :: rest => some rest
  | '/' :: _ => none
  | _ :: rest => afterScheme? rest
  | [] => none

/-- The path of an address. One that begins with a scheme and a host has the path `/` if it names
none. -/
def pathOf (address : String) : List Char :=
  let target := withoutQuery address.toList
  match afterScheme? target with
  | none => target
  | some rest =>
    match rest.dropWhile (· ≠ '/') with
    | [] => ['/']
    | path => path

/-- The segments of a path, if it begins with a slash. -/
def segments? : List Char → Option (List (List Char))
  | '/' :: rest => some (Text.fields '/' rest)
  | _ => none

/-- The byte that two hexadecimal digits write. -/
def escapedByte? (high low : UInt8) : Option UInt8 :=
  (Text.valueInBase? 16 [Char.ofNat high.toNat, Char.ofNat low.toNat]).map UInt8.ofNat

/-- The bytes that a text with percent escapes stands for. -/
def unescape : List UInt8 → List UInt8
  | 37 :: high :: low :: rest =>
    match escapedByte? high low with
    | some b => b :: unescape rest
    | none => 37 :: unescape (high :: low :: rest)
  | b :: rest => b :: unescape rest
  | [] => []

/-- The text that a segment stands for, if its bytes are a text. -/
def segmentText? (segment : List Char) : Option String :=
  String.fromUTF8? ⟨(unescape (String.ofList segment).toUTF8.toList).toArray⟩

end RunLedger.Http
