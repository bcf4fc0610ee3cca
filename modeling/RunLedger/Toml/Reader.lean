import RunLedger.Toml.Scalar

/-!
# Reading TOML

`Toml.read?` reads a document of TOML 1.0. A byte order mark at its beginning is skipped. Arrays and
tables in braces may be nested to a fixed depth.
-/

namespace RunLedger.Toml

/-- How deep arrays and tables in braces may be nested. -/
def maxDepth : Nat := 79

/-- Reads the items of an array, after the opening bracket. -/
def readItems (readItem : Reader Toml) : (fuel : Nat) → Reader (List Toml)
  | 0 => fail
  | fuel + 1 => do
    skipSpace
    if ← accept [']'] then pure []
    else
      let item ← readItem
      skipSpace
      if ← accept [','] then
        let rest ← readItems readItem fuel
        pure (item :: rest)
      else
        expect [']']
        pure [item]

/-- Reads an assignment up to its value. -/
def readPair (readItem : Reader Toml) : Reader (List String × Toml) := do
  let key ← readKey
  expect ['=']
  skipBlanks
  let value ← readItem
  pure (key, value)

/-- Reads the assignments of a table in braces, of which there is at least one. -/
def readPairs (readItem : Reader Toml) : (fuel : Nat) → Reader (List (List String × Toml))
  | 0 => fail
  | fuel + 1 => do
    let pair ← readPair readItem
    skipBlanks
    if ← accept [','] then
      let rest ← readPairs readItem fuel
      pure (pair :: rest)
    else
      expect ['\x7d']
      pure [pair]

/-- Reads a table in braces, after the opening brace. -/
def readBraces (readItem : Reader Toml) : Reader Toml := do
  skipBlanks
  if ← accept ['\x7d'] then pure (.table .closed [])
  else
    let pairs ← readPairs readItem ((← ahead).length + 1)
    match ofPairs? pairs with
    | some entries => pure (closedTable entries)
    | none => fail

/-- Reads a string, if a quote lies ahead. -/
def readString? : Reader (Option String) := do
  if ← accept ['"', '"', '"'] then some <$> readLongString '"' true
  else if ← accept ['\'', '\'', '\''] then some <$> readLongString '\'' false
  else if ← accept ['"'] then some <$> readBasic ((← ahead).length + 1) []
  else if ← accept ['\''] then some <$> readLiteral
  else pure none

/-- Reads a value in which arrays and tables are nested at most so deep. -/
def readValue : (depth : Nat) → Reader Toml
  | 0 => do
    match ← readString? with
    | some s => pure (.str s)
    | none => readScalar
  | depth + 1 => do
    match ← readString? with
    | some s => pure (.str s)
    | none =>
      if ← accept ['['] then .arr <$> readItems (readValue depth) ((← ahead).length + 1)
      else if ← accept ['\x7b'] then readBraces (readValue depth)
      else readScalar

/-- Reads a statement to the end of its line. -/
def readStatement : Reader Statement := do
  if ← accept ['[', '['] then
    let path ← readKey
    expect [']', ']']
    endLine
    pure (.nextHeader path)
  else if ← accept ['['] then
    let path ← readKey
    expect [']']
    endLine
    pure (.header path)
  else
    let (path, value) ← readPair (readValue maxDepth)
    endLine
    pure (.assignment path value)

/-- Reads all statements. -/
def readStatements : (fuel : Nat) → Reader (List Statement)
  | 0 => fail
  | fuel + 1 => do
    skipSpace
    if ← atEnd then pure []
    else
      let statement ← readStatement
      let rest ← readStatements fuel
      pure (statement :: rest)

/-- A text without the byte order mark at its beginning. -/
def withoutMark : List Char → List Char
  | '\ufeff' :: cs => cs
  | cs => cs

/-- Reads a document. -/
def read? (text : String) : Option Entries := do
  let cs := withoutMark text.toList
  let (statements, _) ← (readStatements (cs.length + 1)).run cs
  ofStatements? statements

end RunLedger.Toml
