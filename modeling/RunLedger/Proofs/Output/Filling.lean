import Mathlib.Data.List.Forall2
import Mathlib.Data.List.TakeWhile
import RunLedger.Output.Template

/-!
# Filling is replacing all at once

What filling a text means without saying how it is done: the text is cut into pieces, each a
character that stays or a placeholder with a known name, so that every placeholder with a known name
that occurs anywhere in the text is a piece (`Cuts`). There is exactly one such cut, since two
placeholders never overlap, and the filled text is the pieces with each placeholder written out
(`eq_fillText_iff`). Nothing is left out by the order in which the scanner looks at braces, and
nothing that a value brings in is looked at again.

A document is filled where it is: `Filled` relates it to one of the same shape.
-/

namespace RunLedger.Output

open RunLedger (Json)

variable {vars : Vars} {text rest before after cs : List Char} {name : String} {value : Json}

/-! ## Placeholders -/

/-- Whether a text may be the name of a placeholder. -/
def IsName (name : String) : Prop :=
  name.toList ≠ [] ∧ ∀ c ∈ name.toList, isNameChar c = true

/-- A name in braces. -/
def placeholder (name : String) : List Char :=
  '{' :: (name.toList ++ ['}'])

/-- Whether a name is that of a placeholder with a value. -/
def Known (vars : Vars) (name : String) (value : Json) : Prop :=
  IsName name ∧ vars.get? name = some value

/-- Whether a placeholder with a known name occurs in a text. -/
def Mentions (vars : Vars) (text : List Char) : Prop :=
  ∃ name value, Known vars name value ∧ placeholder name <:+: text

/-- The scanner splits off the name up to the closing brace. -/
theorem splitName?_eq_some_iff :
    splitName? cs = some (name, rest) ↔ IsName name ∧ cs = name.toList ++ '}' :: rest := by
  constructor
  · intro split
    unfold splitName? at split
    split at split
    · rename_i c chars remaining taken dropped
      simp only [Option.some.injEq, Prod.mk.injEq] at split
      obtain ⟨rfl, rfl⟩ := split
      refine ⟨⟨?_, ?_⟩, ?_⟩
      · rw [String.toList_ofList]
        exact List.cons_ne_nil c chars
      · rw [String.toList_ofList, ← taken]
        intro d member
        exact List.mem_takeWhile_imp member
      · rw [String.toList_ofList, ← taken, ← dropped, List.takeWhile_append_dropWhile]
    · cases split
  · rintro ⟨⟨nonempty, inName⟩, rfl⟩
    have brace : isNameChar '}' = false := by decide
    have taken : (name.toList ++ '}' :: rest).takeWhile isNameChar = name.toList := by
      rw [List.takeWhile_append_of_pos inName, List.takeWhile_cons_of_neg (by simp [brace]),
        List.append_nil]
    have dropped : (name.toList ++ '}' :: rest).dropWhile isNameChar = '}' :: rest := by
      rw [List.dropWhile_append_of_pos inName, List.dropWhile_cons_of_neg (by simp [brace])]
    unfold splitName?
    rw [taken, dropped]
    cases chars : name.toList with
    | nil => exact absurd chars nonempty
    | cons c remaining =>
        have same : String.ofList (c :: remaining) = name := by rw [← chars, String.ofList_toList]
        simp only [same]

/-- The scanner splits off exactly the placeholders with known names. -/
theorem splitKnown?_eq_some_iff :
    splitKnown? vars cs = some (value, rest) ↔
      ∃ name, Known vars name value ∧ cs = name.toList ++ '}' :: rest := by
  unfold splitKnown?
  constructor
  · intro split
    split at split
    · rename_i name remaining named
      obtain ⟨found, get, same⟩ := Option.map_eq_some_iff.mp split
      cases same
      obtain ⟨isName, rfl⟩ := splitName?_eq_some_iff.mp named
      exact ⟨name, ⟨isName, get⟩, rfl⟩
    · cases split
  · rintro ⟨name, ⟨isName, get⟩, rfl⟩
    rw [splitName?_eq_some_iff.mpr ⟨isName, rfl⟩]
    simp only [get, Option.map_some]

/-- A text has a value of its own exactly if it is one known placeholder. -/
theorem soleValue?_eq_some_iff :
    soleValue? vars text = some value ↔
      ∃ name, Known vars name value ∧ text = placeholder name := by
  constructor
  · intro sole
    unfold soleValue? at sole
    split at sole
    · split at sole
      · rename_i remaining found split
        cases sole
        obtain ⟨name, known, rfl⟩ := splitKnown?_eq_some_iff.mp split
        exact ⟨name, known, rfl⟩
      · cases sole
    · cases sole
  · rintro ⟨name, known, rfl⟩
    have split : splitKnown? vars (name.toList ++ ['}']) = some (value, []) :=
      splitKnown?_eq_some_iff.mpr ⟨name, known, rfl⟩
    simp only [soleValue?, placeholder, split]

/-- A placeholder goes on up to its closing brace, so what a text starts with has one name. -/
theorem placeholder_append_inj {name' : String} {rest' : List Char} (isName : IsName name)
    (isName' : IsName name')
    (same : placeholder name ++ rest = placeholder name' ++ rest') :
    name = name' ∧ rest = rest' := by
  simp only [placeholder, List.cons_append, List.append_assoc, List.nil_append, List.cons.injEq,
    true_and] at same
  have split : splitName? (name.toList ++ '}' :: rest) = some (name, rest) :=
    splitName?_eq_some_iff.mpr ⟨isName, rfl⟩
  rw [same, splitName?_eq_some_iff.mpr ⟨isName', rfl⟩] at split
  cases split
  exact ⟨rfl, rfl⟩

/-- Placeholders do not overlap: after one has begun, the next begins when it is over. -/
theorem next_placeholder {name' : String} {c : Char} (isName : IsName name)
    (occurs : placeholder name ++ rest = c :: before ++ placeholder name' ++ after) :
    ∃ gap, c :: before = placeholder name ++ gap ∧ rest = gap ++ placeholder name' ++ after := by
  rw [List.append_assoc] at occurs
  rcases List.append_eq_append_iff.mp occurs with ⟨gap, first, later⟩ | ⟨overlap, first, later⟩
  · exact ⟨gap, first, later.trans (List.append_assoc ..).symm⟩
  · cases overlap with
    | nil => exact ⟨[], by rw [first, List.append_nil, List.append_nil], later.symm⟩
    | cons opening overlap =>
        simp only [placeholder, List.cons_append, List.cons.injEq] at first later
        have inside : '{' ∈ name.toList ++ ['}'] := by
          rw [first.2, later.1]
          exact List.mem_append_right before (List.mem_cons_self ..)
        rcases List.mem_append.mp inside with inName | closing
        · exact absurd (isName.2 '{' inName) (by decide)
        · exact absurd closing (by decide)

/-! ## Pieces -/

/-- A piece of a text: a character that stays, or a placeholder together with its value. -/
inductive Piece where
  | kept (c : Char)
  | known (name : String) (value : Json)

namespace Piece

/-- What a piece is in the text. -/
def source : Piece → List Char
  | kept c => [c]
  | known name _ => placeholder name

/-- What stands for a piece in the filled text. -/
def image : Piece → List Char
  | kept c => [c]
  | known _ value => (display value).toList

theorem source_ne_nil (piece : Piece) : piece.source ≠ [] := by
  cases piece with
  | kept c => exact List.cons_ne_nil c []
  | known name value => exact List.cons_ne_nil '{' _

end Piece

open Piece

/-- Only no pieces make up the empty text. -/
theorem pieces_eq_nil {pieces : List Piece} (empty : pieces.flatMap source = []) : pieces = [] := by
  cases pieces with
  | nil => rfl
  | cons piece pieces =>
      rw [List.flatMap_cons, List.append_eq_nil_iff] at empty
      exact absurd empty.1 piece.source_ne_nil

/-- A text in pieces: every occurrence of a placeholder with a known name is a piece, in its place,
and there are no other placeholders among the pieces. -/
structure Cuts (vars : Vars) (text : List Char) (pieces : List Piece) : Prop where
  source : pieces.flatMap source = text
  sound : ∀ name value, known name value ∈ pieces → Known vars name value
  complete : ∀ before name value after, Known vars name value →
    text = before ++ placeholder name ++ after →
      ∃ first later, pieces = first ++ known name value :: later ∧
        first.flatMap Piece.source = before

namespace Cuts

variable {pieces : List Piece} {piece : Piece} {c : Char}

theorem nil : Cuts vars [] [] where
  source := rfl
  sound := by
    intro name value member
    cases member
  complete := by
    intro before name value after _ at_
    simp [placeholder] at at_

/-- A character stays if no placeholder with a known name begins with it. -/
theorem keep (cuts : Cuts vars cs pieces)
    (free : ∀ name value after, Known vars name value → c :: cs ≠ placeholder name ++ after) :
    Cuts vars (c :: cs) (kept c :: pieces) where
  source := by rw [List.flatMap_cons, cuts.source]; rfl
  sound := by
    intro name value member
    cases member with
    | tail _ member => exact cuts.sound name value member
  complete := by
    intro before name value after known occurs
    cases before with
    | nil => exact absurd occurs (free name value after known)
    | cons d before =>
        simp only [List.cons_append, List.cons.injEq] at occurs
        obtain ⟨rfl, occurs⟩ := occurs
        obtain ⟨first, later, rfl, rfl⟩ := cuts.complete before name value after known occurs
        exact ⟨kept c :: first, later, rfl, rfl⟩

/-- Where a placeholder with a known name begins, it is a piece. -/
theorem replace (known : Known vars name value) (cuts : Cuts vars rest pieces) :
    Cuts vars (placeholder name ++ rest) (.known name value :: pieces) where
  source := by rw [List.flatMap_cons, cuts.source]; rfl
  sound := by
    intro name' value' member
    cases member with
    | head => exact known
    | tail _ member => exact cuts.sound name' value' member
  complete := by
    intro before name' value' after known' occurs
    cases before with
    | nil =>
        obtain ⟨rfl, rfl⟩ := placeholder_append_inj known.1 known'.1 occurs
        have same : some value = some value' := known.2.symm.trans known'.2
        cases same
        exact ⟨[], pieces, rfl, rfl⟩
    | cons d before =>
        obtain ⟨gap, first, later⟩ := next_placeholder known.1 occurs
        obtain ⟨pieces', remaining, rfl, rfl⟩ := cuts.complete gap name' value' after known' later
        exact ⟨.known name value :: pieces', remaining, rfl, first.symm⟩

/-- What follows the first piece is cut by the other pieces. -/
theorem tail (cuts : Cuts vars text (piece :: pieces)) :
    Cuts vars (pieces.flatMap Piece.source) pieces where
  source := rfl
  sound := fun name value member => cuts.sound name value (List.mem_cons_of_mem piece member)
  complete := by
    intro before name value after known occurs
    have later : text = piece.source ++ before ++ placeholder name ++ after := by
      rw [← cuts.source, List.flatMap_cons, occurs]
      simp only [List.append_assoc]
    obtain ⟨first, remaining, split, source⟩ :=
      cuts.complete (piece.source ++ before) name value after known later
    cases first with
    | nil => exact absurd (List.append_eq_nil_iff.mp source.symm).1 piece.source_ne_nil
    | cons piece' first =>
        obtain ⟨rfl, split'⟩ := List.cons.inj split
        exact ⟨first, remaining, split', List.append_cancel_left source⟩

/-- A cut that begins with a placeholder is the only one to begin there. -/
theorem head_known (cuts : Cuts vars text pieces) (known : Known vars name value)
    (begins : text = placeholder name ++ rest) :
    ∃ later, pieces = .known name value :: later := by
  obtain ⟨first, later, split, source⟩ := cuts.complete [] name value rest known begins
  rw [pieces_eq_nil source] at split
  exact ⟨later, split⟩

/-- A text is cut in one way only. -/
theorem unique {others : List Piece} (cuts : Cuts vars text pieces)
    (cuts' : Cuts vars text others) : pieces = others := by
  induction pieces generalizing text others with
  | nil => exact (pieces_eq_nil (cuts'.source.trans cuts.source.symm)).symm
  | cons piece pieces ih =>
      cases others with
      | nil => exact pieces_eq_nil (cuts.source.trans cuts'.source.symm)
      | cons other others =>
          have same : piece = other := by
            cases piece with
            | known name value =>
                have known := cuts.sound name value (List.mem_cons_self ..)
                obtain ⟨later, split⟩ := cuts'.head_known known cuts.source.symm
                exact (List.cons.inj split).1.symm
            | kept c =>
                cases other with
                | known name value =>
                    have known := cuts'.sound name value (List.mem_cons_self ..)
                    obtain ⟨later, split⟩ := cuts.head_known known cuts'.source.symm
                    exact (List.cons.inj split).1
                | kept d =>
                    have first := cuts.source.trans cuts'.source.symm
                    rw [(List.cons.inj first).1]
          subst same
          have rest : pieces.flatMap Piece.source = others.flatMap Piece.source :=
            List.append_cancel_left (cuts.source.trans cuts'.source.symm)
          rw [ih cuts.tail (rest ▸ cuts'.tail)]

/-- Where no placeholder with a known name occurs, every character stays. -/
theorem image_eq (cuts : Cuts vars text pieces) (free : ¬ Mentions vars text) :
    pieces.flatMap image = text := by
  have same : ∀ piece ∈ pieces, piece.image = piece.source := by
    intro piece member
    cases piece with
    | kept c => rfl
    | known name value =>
        obtain ⟨first, later, rfl⟩ := List.append_of_mem member
        refine absurd ⟨name, value, cuts.sound name value member, ?_⟩ free
        refine ⟨first.flatMap Piece.source, later.flatMap Piece.source, ?_⟩
        rw [← cuts.source, List.flatMap_append, List.flatMap_cons, List.append_assoc]
        rfl
  rw [← cuts.source, List.flatMap_def, List.flatMap_def, List.map_congr_left same]

end Cuts

/-- The scanner makes the cut. -/
theorem exists_cuts (vars : Vars) (text : List Char) :
    ∃ pieces, Cuts vars text pieces ∧ fillText vars text = pieces.flatMap image := by
  induction text using fillText.induct vars with
  | case1 => exact ⟨[], .nil, by rw [fillText]; rfl⟩
  | case2 cs value rest split ih =>
      obtain ⟨name, known, rfl⟩ := splitKnown?_eq_some_iff.mp split
      obtain ⟨pieces, cuts, filled⟩ := ih
      refine ⟨.known name value :: pieces, ?_, ?_⟩
      · have replaced := cuts.replace known
        rwa [placeholder, List.cons_append, List.append_assoc] at replaced
      · rw [fillText, if_pos rfl, split, List.flatMap_cons, ← filled]
        rfl
  | case3 cs split ih =>
      obtain ⟨pieces, cuts, filled⟩ := ih
      refine ⟨.kept '{' :: pieces, cuts.keep ?_, ?_⟩
      · intro name value after known begins
        simp only [placeholder, List.cons_append, List.append_assoc, List.nil_append,
          List.cons.injEq, true_and] at begins
        have found := splitKnown?_eq_some_iff.mpr ⟨name, known, begins⟩
        rw [split] at found
        cases found
      · rw [fillText, if_pos rfl, split, List.flatMap_cons, ← filled]
        rfl
  | case4 c cs other ih =>
      obtain ⟨pieces, cuts, filled⟩ := ih
      refine ⟨.kept c :: pieces, cuts.keep ?_, ?_⟩
      · intro name value after known begins
        exact other (List.cons.inj begins).1
      · rw [fillText, if_neg other, List.flatMap_cons, ← filled]
        rfl

/-- The filled text is the text with all placeholders that have a known name written out at
once. -/
theorem eq_fillText_iff {filled : List Char} :
    filled = fillText vars text ↔
      ∃ pieces, Cuts vars text pieces ∧ filled = pieces.flatMap image := by
  obtain ⟨pieces, cuts, scanned⟩ := exists_cuts vars text
  rw [scanned]
  constructor
  · intro same
    exact ⟨pieces, cuts, same⟩
  · rintro ⟨others, cuts', rfl⟩
    rw [cuts.unique cuts']

/-! ## Documents -/

/-- A document and what becomes of it: the shape, the keys and all values other than texts are the
same. A text that is one placeholder with a known name has become the value itself, any other text
is written out. -/
inductive Filled (vars : Vars) : Json → Json → Prop
  | null : Filled vars .null .null
  | bool (b : Bool) : Filled vars (.bool b) (.bool b)
  | num (n : Json.Number) : Filled vars (.num n) (.num n)
  | sole {s : String} {name : String} {value : Json} (known : Known vars name value)
      (whole : s.toList = placeholder name) : Filled vars (.str s) value
  | text {s : String} {pieces : List Piece}
      (mixed : ∀ name value, Known vars name value → s.toList ≠ placeholder name)
      (cuts : Cuts vars s.toList pieces) :
      Filled vars (.str s) (.str (String.ofList (pieces.flatMap image)))
  | arr {items items' : List Json} (each : List.Forall₂ (Filled vars) items items') :
      Filled vars (.arr items) (.arr items')
  | obj {members members' : Json.Members} (keys : members'.map Prod.fst = members.map Prod.fst)
      (each : List.Forall₂ (Filled vars) (members.map Prod.snd) (members'.map Prod.snd)) :
      Filled vars (.obj members) (.obj members')

/-- A text of a document. -/
inductive TextIn (s : String) : Json → Prop
  | here : TextIn s (.str s)
  | item {j : Json} {items : List Json} (mem : j ∈ items) (inside : TextIn s j) :
      TextIn s (.arr items)
  | member {key : String} {j : Json} {members : Json.Members} (mem : (key, j) ∈ members)
      (inside : TextIn s j) : TextIn s (.obj members)

/-- A text is filled with the value of its placeholder, if it is one, and otherwise written out. -/
theorem filled_str_iff {s : String} {out : Json} :
    Filled vars (.str s) out ↔ out = fillString vars s := by
  unfold fillString
  cases sole : soleValue? vars s.toList with
  | some value =>
      obtain ⟨name, known, whole⟩ := soleValue?_eq_some_iff.mp sole
      rw [Option.getD_some]
      constructor
      · intro filled
        cases filled with
        | sole known' whole' =>
            have again := soleValue?_eq_some_iff.mpr ⟨_, known', whole'⟩
            rw [sole] at again
            exact (Option.some.inj again).symm
        | text mixed _ => exact absurd whole (mixed name value known)
      · rintro rfl
        exact .sole known whole
  | none =>
      have mixed (name : String) (value : Json) (known : Known vars name value) :
          s.toList ≠ placeholder name := by
        intro whole
        rw [soleValue?_eq_some_iff.mpr ⟨name, known, whole⟩] at sole
        cases sole
      obtain ⟨pieces, cuts, scanned⟩ := exists_cuts vars s.toList
      rw [Option.getD_none, scanned]
      constructor
      · intro filled
        cases filled with
        | sole known whole => exact absurd whole (mixed _ _ known)
        | text _ cuts' => rw [cuts.unique cuts']
      · rintro rfl
        exact .text mixed cuts

mutual

/-- A document has one filling, by induction on the document. -/
theorem filled_iff (template out : Json) : Filled vars template out ↔ out = fill vars template := by
  cases template with
  | str s => rw [fill, filled_str_iff]
  | arr items =>
      rw [fill]
      constructor
      · rintro ⟨⟩
        rename_i items' each
        rw [(filledItems_iff items items').mp each]
      · rintro rfl
        exact .arr ((filledItems_iff items _).mpr rfl)
  | obj members =>
      rw [fill]
      constructor
      · rintro ⟨⟩
        rename_i members' keys each
        rw [(filledMembers_iff members members').mp ⟨keys, each⟩]
      · rintro rfl
        obtain ⟨keys, each⟩ := (filledMembers_iff members _).mpr rfl
        exact .obj keys each
  | null | bool b | num n =>
      rw [fill]
      constructor
      · rintro ⟨⟩
        rfl
      · rintro rfl
        constructor

theorem filledItems_iff (items items' : List Json) :
    List.Forall₂ (Filled vars) items items' ↔ items' = fillItems vars items := by
  cases items with
  | nil => rw [fillItems, List.forall₂_nil_left_iff]
  | cons j items =>
      rw [fillItems, List.forall₂_cons_left_iff]
      constructor
      · rintro ⟨out, outs, filled, each, rfl⟩
        rw [(filled_iff j out).mp filled, (filledItems_iff items outs).mp each]
      · rintro rfl
        exact ⟨_, _, (filled_iff j _).mpr rfl, (filledItems_iff items _).mpr rfl, rfl⟩

theorem filledMembers_iff (members members' : List (String × Json)) :
    (members'.map Prod.fst = members.map Prod.fst ∧
      List.Forall₂ (Filled vars) (members.map Prod.snd) (members'.map Prod.snd)) ↔
        members' = fillMembers vars members := by
  cases members with
  | nil =>
      rw [fillMembers, List.map_nil, List.map_eq_nil_iff]
      refine and_iff_left_of_imp ?_
      rintro rfl
      exact List.Forall₂.nil
  | cons m members =>
      obtain ⟨key, j⟩ := m
      rw [fillMembers]
      cases members' with
      | nil => simp
      | cons m' members' =>
          obtain ⟨key', out⟩ := m'
          simp only [List.map_cons, List.cons.injEq, List.forall₂_cons, Prod.mk.injEq,
            ← filledMembers_iff members members', ← filled_iff j out]
          exact and_and_and_comm

end

mutual

/-- A document without known placeholders is what becomes of it. -/
theorem filled_self (template : Json)
    (free : ∀ s, TextIn s template → ¬ Mentions vars s.toList) : Filled vars template template := by
  cases template with
  | str s =>
      have free := free s .here
      obtain ⟨pieces, cuts, -⟩ := exists_cuts vars s.toList
      have filled := Filled.text (s := s) ?_ cuts
      · rwa [cuts.image_eq free, String.ofList_toList] at filled
      · intro name value known whole
        exact free ⟨name, value, known, whole ▸ List.infix_rfl⟩
  | arr items =>
      exact .arr (filledItems_self items fun j mem s inside => free s (.item mem inside))
  | obj members =>
      refine .obj rfl (filledMembers_self members ?_)
      exact fun key j mem s inside => free s (.member mem inside)
  | null | bool b | num n => constructor

theorem filledItems_self (items : List Json)
    (free : ∀ j ∈ items, ∀ s, TextIn s j → ¬ Mentions vars s.toList) :
    List.Forall₂ (Filled vars) items items := by
  cases items with
  | nil => exact .nil
  | cons j items =>
      refine .cons (filled_self j (free j (List.mem_cons_self ..))) (filledItems_self items ?_)
      intro j' mem
      exact free j' (List.mem_cons_of_mem j mem)

theorem filledMembers_self (members : List (String × Json))
    (free : ∀ key j, (key, j) ∈ members → ∀ s, TextIn s j → ¬ Mentions vars s.toList) :
    List.Forall₂ (Filled vars) (members.map Prod.snd) (members.map Prod.snd) := by
  cases members with
  | nil => exact .nil
  | cons m members =>
      obtain ⟨key, j⟩ := m
      have first := filled_self j (free key j (List.mem_cons_self ..))
      refine .cons first (filledMembers_self members ?_)
      intro key' j' mem
      exact free key' j' (List.mem_cons_of_mem _ mem)

end

/-- Filling a template is the one way to keep its shape and replace all placeholders that have a
known name at once; a template without such a placeholder stays as it is. -/
theorem fill_exact (vars : Vars) (template : Json) :
    (∀ out, out = fill vars template ↔ Filled vars template out) ∧
      ((∀ s, TextIn s template → ¬ Mentions vars s.toList) → fill vars template = template) := by
  constructor
  · intro out
    exact (filled_iff template out).symm
  · intro free
    exact ((filled_iff template template).mp (filled_self template free)).symm

end RunLedger.Output
