import RunLedger.Json.Basic
import RunLedger.Text.Digits

/-!
# Records in JSON

A record may be given as an object, with members of other names ignored, or as an array of its
fields in their declared order. A field is required, optional (an object may leave it out) or
defaulted (an array may leave it out too). A document that is a choice between records carries a
tag: the member of an object under the tag's key, or the first item of an array.
-/

namespace RunLedger.Json

/-- The fields of a record as they were given. -/
structure Record where
  members : Members
  /-- The fields were given by position. -/
  positional : Bool
deriving Repr

/-- Reads a document as a record with fields of these names in this order. -/
def asRecord? (names : List String) : Json → Option Record
  | .obj members => some ⟨members, false⟩
  | .arr items => if items.length ≤ names.length then some ⟨names.zip items, true⟩ else none
  | _ => none

/-- A field that must be present. -/
def Record.required {α : Type} (r : Record) (name : String) (read : Json → Option α) : Option α :=
  (r.members.get? name).bind read

/-- A value that may be null. -/
def nullable {α : Type} (read : Json → Option α) : Json → Option (Option α)
  | .null => some none
  | j => (read j).map some

/-- A nullable field that an object may leave out. -/
def Record.optional {α : Type} (r : Record) (name : String) (read : Json → Option α) :
    Option (Option α) :=
  match r.members.get? name with
  | some j => nullable read j
  | none => if r.positional then none else some none

/-- A field that has a value of its own when it is left out. -/
def Record.defaulted {α : Type} (r : Record) (name : String) (absent : α)
    (read : Json → Option α) : Option α :=
  match r.members.get? name with
  | some j => read j
  | none => some absent

/-- Splits a tagged document into its tag and its fields. -/
def asTagged? (key : String) : Json → Option (String × Json)
  | .obj members =>
    match Members.get? members key with
    | some (.str tag) => some (tag, .obj (members.filter (·.1 != key)))
    | _ => none
  | .arr (.str tag :: items) => some (tag, .arr items)
  | _ => none

/-- The fields of a choice that has none: any object, or nothing by position. -/
def asNoFields? : Json → Option Unit
  | .obj _ => some ()
  | .arr [] => some ()
  | _ => none

/-- A word from a fixed vocabulary: a string, or an object whose only member has the word as its key
and null as its value. -/
def asWord? {α : Type} (parse : String → Option α) : Json → Option α
  | .str s => parse s
  | .obj [(key, .null)] => parse key
  | _ => none

/-- A document as it is. -/
def asDocument? (j : Json) : Option Json := some j

/-- A list, each item read by `read`. -/
def asList? {α : Type} (read : Json → Option α) (j : Json) : Option (List α) :=
  j.asArray?.bind fun items => items.mapM read

/-- An integer between two bounds, written without point and exponent. -/
def asIntIn? (low high : Int) : Json → Option Int
  | .num (.int n) => if low ≤ n && n ≤ high then some n else none
  | _ => none

/-- A signed 64-bit integer. -/
def asInt64? : Json → Option Int :=
  asIntIn? (-(wordCount 63 : Int)) (wordCount 63 - 1)

/-- A natural number in a word. -/
def asNat? (bits : Nat) (j : Json) : Option Nat :=
  (asIntIn? 0 (wordCount bits - 1) j).map Int.toNat

/-- A number as a double; integers are rounded. -/
def asFloat? : Json → Option Float
  | .num (.int n) => some (Float.ofInt n)
  | .num (.float x) => some x
  | _ => none

/-- An object whose values are strings. -/
def asStringMap? (j : Json) : Option (List (String × String)) :=
  j.asObject?.bind fun members => members.mapM fun (key, value) => value.asString?.map (key, ·)

end RunLedger.Json
