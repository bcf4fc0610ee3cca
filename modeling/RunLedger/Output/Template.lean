import RunLedger.Json.Printer

/-!
# Templates

A template is a document whose texts may hold placeholders: a name of ASCII letters, digits and
underscores in braces. Filling a template replaces the placeholders with known names; all others,
and braces that belong to no placeholder, stay as they are. A text that is one placeholder becomes
the value itself, of whatever kind; within a longer text a value is written out.
-/

namespace RunLedger.Output

open RunLedger (Json)

/-- The values of placeholders. -/
abbrev Vars := Json.Members

/-- Whether a character may stand in the name of a placeholder. -/
def isNameChar (c : Char) : Bool :=
  c.isAlphanum || c = '_'

/-- Splits a text that goes on after an opening brace into the name of a placeholder and what
follows its closing brace. -/
def splitName? (cs : List Char) : Option (String × List Char) :=
  match cs.takeWhile isNameChar, cs.dropWhile isNameChar with
  | c :: name, '}' :: rest => some (String.ofList (c :: name), rest)
  | _, _ => none

/-- A name in braces takes something off a text. -/
theorem length_of_splitName? {cs rest : List Char} {name : String}
    (split : splitName? cs = some (name, rest)) : rest.length < cs.length := by
  unfold splitName? at split
  split at split
  · rename_i dropped
    have shorter : (cs.dropWhile isNameChar).length ≤ cs.length :=
      (List.dropWhile_sublist isNameChar).length_le
    simp only [Option.some.injEq, Prod.mk.injEq] at split
    rw [dropped, split.2] at shorter
    exact Nat.lt_of_lt_of_le (Nat.lt_succ_self _) shorter
  · cases split

/-- Splits off a placeholder with a known name: its value and what follows. -/
def splitKnown? (vars : Vars) (cs : List Char) : Option (Json × List Char) :=
  match splitName? cs with
  | some (name, rest) => (vars.get? name).map (·, rest)
  | none => none

/-- A known placeholder takes something off a text. -/
theorem length_of_splitKnown? {vars : Vars} {cs rest : List Char} {value : Json}
    (split : splitKnown? vars cs = some (value, rest)) : rest.length < cs.length := by
  unfold splitKnown? at split
  split at split
  · rename_i named
    obtain ⟨_, _, same⟩ := Option.map_eq_some_iff.mp split
    cases same
    exact length_of_splitName? named
  · cases split

/-- The text of a value: a string as it is, any other document as compact JSON. -/
def display : Json → String
  | .str s => s
  | j => j.compact

@[simp] theorem display_str (s : String) : display (.str s) = s := rfl

/-- Documents that are no texts are shown as compact JSON. -/
theorem display_eq_compact {j : Json} (noText : j.asString? = none) : display j = j.compact := by
  cases j <;> first | rfl | cases noText

/-- Writes out the known placeholders of a text. -/
def fillText (vars : Vars) : List Char → List Char
  | [] => []
  | c :: cs =>
    if c = '{' then
      match _known : splitKnown? vars cs with
      | some (value, rest) => (display value).toList ++ fillText vars rest
      | none => c :: fillText vars cs
    else c :: fillText vars cs
termination_by cs => cs.length
decreasing_by
  · exact Nat.lt_succ_of_lt (length_of_splitKnown? _known)
  · exact Nat.lt_succ_self _
  · exact Nat.lt_succ_self _

/-- The value of a text that is one known placeholder. -/
def soleValue? (vars : Vars) (cs : List Char) : Option Json :=
  match cs with
  | '{' :: rest =>
    match splitKnown? vars rest with
    | some (value, []) => some value
    | _ => none
  | _ => none

/-- Fills a text. -/
def fillString (vars : Vars) (s : String) : Json :=
  (soleValue? vars s.toList).getD (.str (String.ofList (fillText vars s.toList)))

mutual

/-- Fills the texts of a document; keys and other values stay. -/
def fill (vars : Vars) : Json → Json
  | .str s => fillString vars s
  | .arr items => .arr (fillItems vars items)
  | .obj members => .obj (fillMembers vars members)
  | .null => .null
  | .bool b => .bool b
  | .num n => .num n

def fillItems (vars : Vars) : List Json → List Json
  | [] => []
  | j :: rest => fill vars j :: fillItems vars rest

def fillMembers (vars : Vars) : List (String × Json) → List (String × Json)
  | [] => []
  | (key, j) :: rest => (key, fill vars j) :: fillMembers vars rest

end

end RunLedger.Output
