/-!
# JSON documents

The documents that an engine sends and that the ledger keeps. An object is a list of members; the
documents built here (`Json.ofMembers`, the reader) list them in increasing order of their keys,
each key once, so that equal documents are equal values.
-/

namespace RunLedger

/-- A JSON number keeps whether it was written as an integer: `1` and `1.0` are different
numbers. -/
inductive Json.Number where
  | int (value : Int)
  | float (value : Float)
deriving DecidableEq, Repr, Inhabited

/-- A JSON document. -/
inductive Json where
  | null
  | bool (value : Bool)
  | num (value : Json.Number)
  | str (value : String)
  | arr (items : List Json)
  | obj (members : List (String × Json))
deriving BEq, Repr, Inhabited

namespace Json

/-- The members of an object. -/
abbrev Members := List (String × Json)

/-- The value of the first member with a key. -/
def Members.get? (members : Members) (key : String) : Option Json :=
  members.lookup key

/-- Adds a member in key order, in place of the member with its key if there is one. -/
def Members.insert (key : String) (value : Json) : Members → Members
  | [] => [(key, value)]
  | (k, v) :: rest =>
    if key < k then (key, value) :: (k, v) :: rest
    else if key = k then (key, value) :: rest
    else (k, v) :: Members.insert key value rest

/-- The members in key order; of members with one key the last counts. -/
def Members.ofList (members : List (String × Json)) : Members :=
  members.foldl (fun acc m => Members.insert m.1 m.2 acc) []

/-- An object from its members in any order. -/
def ofMembers (members : List (String × Json)) : Json :=
  .obj (Members.ofList members)

/-- An integer. -/
def ofInt (value : Int) : Json := .num (.int value)

/-- A natural number. -/
def ofNat (value : Nat) : Json := .num (.int value)

/-- A number written in floating point; infinities and not-a-number have no number text and become
null. -/
def ofFloat (value : Float) : Json :=
  if value.isFinite then .num (.float value) else .null

/-- A present value by `f`, an absent one as null. -/
def ofOption {α : Type} (f : α → Json) : Option α → Json
  | some a => f a
  | none => .null

def isNull : Json → Bool
  | .null => true
  | _ => false

def asString? : Json → Option String
  | .str s => some s
  | _ => none

def asBool? : Json → Option Bool
  | .bool b => some b
  | _ => none

def asArray? : Json → Option (List Json)
  | .arr items => some items
  | _ => none

def asObject? : Json → Option Members
  | .obj members => some members
  | _ => none

/-- The member of an object with a key; a document of another kind has no members. -/
def get? (j : Json) (key : String) : Option Json :=
  j.asObject?.bind (·.get? key)

end Json

end RunLedger
