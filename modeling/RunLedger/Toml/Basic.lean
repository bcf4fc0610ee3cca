import RunLedger.Text.Digits

/-!
# TOML documents

A TOML document is a sequence of statements: headers that open tables, and assignments of values to
dotted keys in the table that was opened last. `Toml.ofStatements?` builds the table that they
describe, and refuses statements that define something twice or extend what is already closed.
-/

namespace RunLedger

/-- How a table came about, which decides what may still be added to it. -/
inductive Toml.Origin where
  /-- On the way to a table that a header opens. A header of its own may still open it. -/
  | implied
  /-- By a header. -/
  | opened
  /-- On the way to the value of a dotted key. Other dotted keys may add to it. -/
  | dotted
  /-- As a value in braces, which is closed. -/
  | closed
deriving DecidableEq, Repr, Inhabited

/-- A value. Floating-point numbers and times are told apart and their values forgotten. -/
inductive Toml where
  | str (value : String)
  | int (value : Int)
  | float
  | bool (value : Bool)
  | time
  | arr (items : List Toml)
  | table (origin : Toml.Origin) (entries : List (String × Toml))
  /-- The tables that headers in double brackets open one after the other. -/
  | tables (items : List (List (String × Toml)))
deriving Repr, Inhabited

namespace Toml

/-- The entries of a table. -/
abbrev Entries := List (String × Toml)

def asString? : Toml → Option String
  | .str s => some s
  | _ => none

/-- An integer that is a natural number in a word. -/
def asNat? (bits : Nat) : Toml → Option Nat
  | .int n => if 0 ≤ n && n < wordCount bits then some n.toNat else none
  | _ => none

/-- Puts an entry in place of the one with its key, or adds it. -/
def put (key : String) (value : Toml) : Entries → Entries
  | [] => [(key, value)]
  | (k, v) :: rest => if k = key then (key, value) :: rest else (k, v) :: put key value rest

/-- Whether a dotted key may lead through a table. -/
def Origin.leadsOn : Origin → Bool
  | implied => true
  | dotted => true
  | _ => false

/-- Changes the entries of the table that a path leads to, creating the tables that are missing on
the way. The path is that of a header or, with `dotted`, that of a dotted key. -/
def changeAt (dotted : Bool) (change : Origin → Entries → Option Entries) :
    List String → Origin → Entries → Option Entries
  | [], origin, entries => change origin entries
  | key :: path, _, entries =>
    match entries.lookup key with
    | none =>
      let origin := if dotted then Origin.dotted else .implied
      (changeAt dotted change path origin []).map fun inside =>
        put key (.table origin inside) entries
    | some (.table .closed _) => none
    | some (.table origin inside) =>
      if dotted && !origin.leadsOn then none
      else (changeAt dotted change path origin inside).map fun inside =>
        put key (.table origin inside) entries
    | some (.tables items) =>
      match items.getLast? with
      | none => none
      | some inside => (changeAt dotted change path .opened inside).map fun inside =>
        put key (.tables (items.dropLast ++ [inside])) entries
    | some _ => none

/-- Adds an entry that a dotted key assigns. A key without dots adds to the table at hand, a dotted
key only to tables that dotted keys made. -/
def assignEntry (dotted : Bool) (key : String) (value : Toml) (origin : Origin)
    (entries : Entries) : Option Entries :=
  if dotted && origin != .dotted then none
  else if (entries.lookup key).isSome then none
  else some (entries ++ [(key, value)])

/-- Splits a path with at least one key into the way and the last key. -/
def splitPath? (path : List String) : Option (List String × String) :=
  path.getLast?.map (path.dropLast, ·)

/-- Adds the value of a dotted key to a table. -/
def assign (path : List String) (value : Toml) (origin : Origin) (entries : Entries) :
    Option Entries := do
  let (way, key) ← splitPath? path
  changeAt true (assignEntry (!way.isEmpty) key value) way origin entries

/-- Opens the table under a key, which may so far only have been implied. -/
def openTable (key : String) (_ : Origin) (entries : Entries) : Option Entries :=
  match entries.lookup key with
  | none => some (put key (.table .opened []) entries)
  | some (.table .implied inside) => some (put key (.table .opened inside) entries)
  | some _ => none

/-- Opens another of the tables under a key. -/
def openNext (key : String) (_ : Origin) (entries : Entries) : Option Entries :=
  match entries.lookup key with
  | none => some (put key (.tables [[]]) entries)
  | some (.tables items) => some (put key (.tables (items ++ [[]])) entries)
  | some _ => none

/-- A statement of a document. -/
inductive Statement where
  /-- A header in brackets. -/
  | header (path : List String)
  /-- A header in double brackets. -/
  | nextHeader (path : List String)
  | assignment (path : List String) (value : Toml)
deriving Repr, Inhabited

/-- A document under construction: its entries, and the path of the table that was opened last. -/
structure Draft where
  entries : Entries := []
  current : List String := []
deriving Repr, Inhabited

/-- Opens a table by a header. -/
def Draft.opening (d : Draft) (path : List String)
    (opener : String → Origin → Entries → Option Entries) : Option Draft := do
  let (way, key) ← splitPath? path
  let entries ← changeAt false (opener key) way .opened d.entries
  pure { entries := entries, current := path }

/-- Adds a statement. -/
def Draft.add (d : Draft) : Statement → Option Draft
  | .header path => d.opening path openTable
  | .nextHeader path => d.opening path openNext
  | .assignment path value => do
    let entries ← changeAt false (assign path value) d.current .opened d.entries
    pure { d with entries := entries }

/-- The table that statements describe. -/
def ofStatements? (statements : List Statement) : Option Entries :=
  (statements.foldlM Draft.add {}).map (·.entries)

/-- The table that the assignments in braces describe. -/
def ofPairs? (pairs : List (List String × Toml)) : Option Entries :=
  pairs.foldlM (fun entries (path, value) => assign path value .opened entries) []

/-- The table that a table in braces describes, closed with the tables that its dotted keys made. -/
def closedTable (entries : Entries) : Toml :=
  .table .closed entries

end Toml

end RunLedger
