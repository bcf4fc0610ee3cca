/-!
# Splitting a text

A text is split once, at the first or at the last place where a mark lies, or it is cut into fields
at every separator. The marks belong to no part, and there is one field more than there are
separators.
-/

namespace RunLedger.Text

/-- What lies before the first place of a mark and what follows the mark there. -/
def splitFirst? (mark : List Char) : List Char → Option (List Char × List Char)
  | [] => if mark.isEmpty then some ([], []) else none
  | c :: cs =>
    if mark.isPrefixOf (c :: cs) then some ([], (c :: cs).drop mark.length)
    else (splitFirst? mark cs).map fun (before, after) => (c :: before, after)

/-- What lies before the last place of a character and what follows it there. -/
def splitLast? (mark : Char) : List Char → Option (List Char × List Char)
  | [] => none
  | c :: cs =>
    match splitLast? mark cs with
    | some (before, after) => some (c :: before, after)
    | none => if c = mark then some ([], cs) else none

/-- The fields of a text between the separators. -/
def fields (separator : Char) : List Char → List (List Char)
  | [] => [[]]
  | c :: cs =>
    if c = separator then [] :: fields separator cs
    else
      match fields separator cs with
      | first :: rest => (c :: first) :: rest
      | [] => [[c]]

end RunLedger.Text
