import RunLedger.Text.Digits
import RunLedger.Toml.Basic

/-!
# Lexemes

Blanks, comments, line breaks, keys and strings of TOML. Each reader takes characters from the front
of the text and fails where they are not what it reads.
-/

namespace RunLedger.Toml

/-- Reads something from the front of a text. -/
abbrev Reader := StateT (List Char) Option

/-- Fails. -/
def fail {α : Type} : Reader α := fun _ => none

/-- What lies ahead. -/
def ahead : Reader (List Char) := get

/-- Whether nothing lies ahead. -/
def atEnd : Reader Bool := fun cs => some (cs.isEmpty, cs)

/-- Takes the longest run of characters that pass a test. -/
def takeRun (test : Char → Bool) : Reader (List Char) := fun cs => some (cs.span test)

/-- Takes a text that lies ahead. -/
def expect (text : List Char) : Reader Unit := fun cs =>
  if text.isPrefixOf cs then some ((), cs.drop text.length) else none

/-- Takes a text if it lies ahead, and says whether it did. -/
def accept (text : List Char) : Reader Bool := fun cs =>
  if text.isPrefixOf cs then some (true, cs.drop text.length) else some (false, cs)

def isBlankChar (c : Char) : Bool :=
  c = ' ' || c = '\t'

/-- Skips blanks within a line. -/
def skipBlanks : Reader Unit := do
  let _ ← takeRun isBlankChar

/-- Whether a character may stand in a comment: no control character but the tab. -/
def isCommentChar (c : Char) : Bool :=
  c = '\t' || (0x20 ≤ c.toNat && c.toNat ≠ 0x7F)

/-- Takes a line break, if one lies ahead. -/
def acceptBreak : Reader Bool := do
  if ← accept ['\n'] then pure true else accept ['\r', '\n']

/-- Skips a comment, if one lies ahead. -/
def skipComment : Reader Unit := do
  if ← accept ['#'] then
    let _ ← takeRun isCommentChar

/-- Reads the end of a line: blanks, a comment, and a line break or the end of the text. -/
def endLine : Reader Unit := do
  skipBlanks
  skipComment
  unless ← acceptBreak do
    unless ← atEnd do fail

/-- Skips blanks, comments and line breaks; `fuel` bounds the number of lines. -/
def skipLines : Nat → Reader Unit
  | 0 => pure ()
  | fuel + 1 => do
    skipBlanks
    skipComment
    if ← acceptBreak then skipLines fuel

/-- Skips blanks, comments and line breaks. -/
def skipSpace : Reader Unit := do
  skipLines ((← ahead).length + 1)

/-- The character with a code point, if there is one. -/
def charOf? (n : Nat) : Option Char :=
  if n.isValidChar then some (Char.ofNat n) else none

/-- Reads a character written by a number of hexadecimal digits. -/
def readCode (width : Nat) : Reader Char := fun cs =>
  let digits := cs.take width
  if digits.length = width then do
    let c ← charOf? (← Text.valueInBase? 16 digits)
    pure (c, cs.drop width)
  else none

/-- Reads the rest of an escape, after the backslash. -/
def readEscape : Reader Char := do
  match ← ahead with
  | [] => fail
  | c :: rest =>
    set rest
    match c with
    | 'b' => pure '\x08'
    | 't' => pure '\t'
    | 'n' => pure '\n'
    | 'f' => pure '\x0c'
    | 'r' => pure '\r'
    | '"' => pure '"'
    | '\\' => pure '\\'
    | 'u' => readCode 4
    | 'U' => readCode 8
    | _ => fail

/-- Reads a string in double quotes, after the opening quote. -/
def readBasic : (fuel : Nat) → List Char → Reader String
  | 0, _ => fail
  | fuel + 1, acc => do
    match ← ahead with
    | '"' :: rest => do
      set rest
      pure (String.ofList acc.reverse)
    | '\\' :: rest => do
      set rest
      let c ← readEscape
      readBasic fuel (c :: acc)
    | c :: rest =>
      if isCommentChar c then do
        set rest
        readBasic fuel (c :: acc)
      else fail
    | [] => fail

/-- Reads a string in single quotes, after the opening quote. -/
def readLiteral : Reader String := do
  let cs ← takeRun fun c => isCommentChar c && c ≠ '\''
  expect ['\'']
  pure (String.ofList cs)

/-- Reads a run of quotes in a string of several lines: three end the string, and up to two before
them belong to it. The answer is the quotes that belong to the string, and whether it ends. -/
def readQuotes (quote : Char) : Reader (List Char × Bool) := fun cs =>
  let run := (cs.takeWhile (· = quote)).length
  if run < 3 then some ((List.replicate run quote, false), cs.drop run)
  else
    let inside := min (run - 3) 2
    some ((List.replicate inside quote, true), cs.drop (inside + 3))

/-- Skips the blanks and line breaks that a backslash at the end of a line covers; fails if the line
goes on. -/
def skipFold : Reader Unit := do
  skipBlanks
  if ← acceptBreak then
    let _ ← takeFold ((← ahead).length + 1)
  else fail
where
  /-- Skips blanks and line breaks. -/
  takeFold : Nat → Reader Unit
    | 0 => pure ()
    | fuel + 1 => do
      skipBlanks
      if ← acceptBreak then takeFold fuel

/-- Whether a backslash lies before the end of a line. -/
def foldsLine (cs : List Char) : Bool :=
  match cs.dropWhile isBlankChar with
  | '\n' :: _ => true
  | '\r' :: '\n' :: _ => true
  | _ => false

/-- Reads a string of several lines, after the opening quotes and a line break that follows them. A
line break counts as one character however it is written; `escapes` says whether a backslash means
anything. -/
def readLong (quote : Char) (escapes : Bool) : (fuel : Nat) → List Char → Reader String
  | 0, _ => fail
  | fuel + 1, acc => do
    match ← ahead with
    | [] => fail
    | c :: rest =>
      if c = quote then do
        let (inside, ended) ← readQuotes quote
        let acc := inside ++ acc
        if ended then pure (String.ofList acc.reverse) else readLong quote escapes fuel acc
      else if escapes && c = '\\' then do
        set rest
        if foldsLine rest then do
          skipFold
          readLong quote escapes fuel acc
        else do
          let c ← readEscape
          readLong quote escapes fuel (c :: acc)
      else if ← acceptBreak then readLong quote escapes fuel ('\n' :: acc)
      else if isCommentChar c then do
        set rest
        readLong quote escapes fuel (c :: acc)
      else fail

/-- Reads a string of several lines, after the opening quotes. -/
def readLongString (quote : Char) (escapes : Bool) : Reader String := do
  let _ ← acceptBreak
  readLong quote escapes ((← ahead).length + 1) []

/-- Whether a character may stand in a key without quotes. -/
def isKeyChar (c : Char) : Bool :=
  c.isAlphanum || c = '-' || c = '_'

/-- Reads a key without dots. -/
def readSimpleKey : Reader String := do
  if ← accept ['"'] then readBasic ((← ahead).length + 1) []
  else if ← accept ['\''] then readLiteral
  else do
    let cs ← takeRun isKeyChar
    if cs.isEmpty then fail else pure (String.ofList cs)

/-- Of how many parts a key may consist. -/
def maxKeyParts : Nat := 79

/-- Reads a key of at most so many parts, with blanks around it and around its dots. -/
def readParts : (most : Nat) → Reader (List String)
  | 0 => fail
  | most + 1 => do
    skipBlanks
    let key ← readSimpleKey
    skipBlanks
    if ← accept ['.'] then
      let rest ← readParts most
      pure (key :: rest)
    else pure [key]

/-- Reads a key. -/
def readKey : Reader (List String) := readParts maxKeyParts

end RunLedger.Toml
