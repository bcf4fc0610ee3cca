import RunLedger.Json.Printer
import RunLedger.Json.Reader

/-!
# Reading what was written

A document without numbers, whose texts need no escapes and whose objects are sorted by key, is read
back from its compact text. The reader stops where the document ends, so that the text of an item
may be followed by the next one (`Reads`).
-/

namespace RunLedger.Json

variable {fuel depth n : Nat} {cs rest : List Char} {ch : Char} {j : Json}

/-! ## Texts without escapes -/

/-- Every character stands for itself between quotes. -/
def Unescaped (cs : List Char) : Prop :=
  ∀ ch ∈ cs, ch ≠ '"' ∧ ch ≠ '\\' ∧ 0x20 ≤ ch.toNat

instance (cs : List Char) : Decidable (Unescaped cs) := List.decidableBAll _ cs

/-- A character that needs no escape is written as it is. -/
theorem escapeChar_eq (quote : ch ≠ '"') (escape : ch ≠ '\\') (printed : 0x20 ≤ ch.toNat) :
    escapeChar ch = [ch] := by
  have visible {c : Char} (control : c.toNat < 0x20) : ch ≠ c := by
    rintro rfl
    omega
  simp only [escapeChar, quote, escape, visible (show '\x08'.toNat < 0x20 by decide),
    visible (show '\t'.toNat < 0x20 by decide), visible (show '\n'.toNat < 0x20 by decide),
    visible (show '\x0c'.toNat < 0x20 by decide), visible (show '\r'.toNat < 0x20 by decide),
    Nat.not_lt.mpr printed, ↓reduceIte]

/-- A text without escapes is written as it is. -/
theorem flatMap_escapeChar (unescaped : Unescaped cs) : cs.flatMap escapeChar = cs := by
  induction cs with
  | nil => rfl
  | cons ch cs ih =>
    obtain ⟨quote, escape, printed⟩ := unescaped ch (List.mem_cons_self ..)
    rw [List.flatMap_cons, escapeChar_eq quote escape printed,
      ih fun d member => unescaped d (List.mem_cons_of_mem _ member), List.singleton_append]

/-- A text without escapes is written between quotes. -/
theorem quote_toList {s : String} (unescaped : Unescaped s.toList) :
    (quote s).toList = '"' :: (s.toList ++ ['"']) := by
  rw [quote, flatMap_escapeChar unescaped, String.ofList_toList]
  simp

/-- A text without escapes is read up to its closing quote. -/
theorem stringBody_unescaped (unescaped : Unescaped cs) :
    stringBody (cs ++ '"' :: rest) = some (cs, rest) := by
  induction cs with
  | nil => simp [stringBody]
  | cons ch cs ih =>
    obtain ⟨quote, escape, printed⟩ := unescaped ch (List.mem_cons_self ..)
    rw [List.cons_append, stringBody,
      ih fun d member => unescaped d (List.mem_cons_of_mem _ member)]
    · simp [escape, Nat.not_lt.mpr printed]
    all_goals simp [quote, escape]

/-! ## Equations of the reader -/

/-- A document that begins with a quote is a text. -/
theorem document_quote : document fuel depth ('"' :: cs) =
    (stringBody cs).map fun (s, rest) => (.str (String.ofList s), rest) := by
  rw [document]
  rfl

/-- The first characters of documents other than numbers. -/
def openings : List Char := ['n', 't', 'f', '"', '[', '{']

/-- An array that is not closed at once holds items. -/
theorem document_bracket (opens : ch ∈ openings) :
    document fuel (depth + 1) ('[' :: ch :: cs) =
      (items (document fuel depth) fuel (ch :: cs)).map fun (js, rest) => (.arr js, rest) := by
  rw [document]
  simp only [openings, List.mem_cons, List.not_mem_nil, or_false] at opens
  rcases opens with rfl | rfl | rfl | rfl | rfl | rfl <;> rfl

/-- A document that begins with a brace and a quote is an object with members. -/
theorem document_brace : document fuel (depth + 1) ('{' :: '"' :: cs) =
    (members (document fuel depth) fuel ('"' :: cs)).map fun (ms, rest) =>
      (ofMembers ms, rest) := by
  rw [document]
  rfl

section Sequences

variable {item : List Char → Option (Json × List Char)}

theorem items_comma (read : item cs = some (j, ',' :: rest)) :
    items item (n + 1) cs = (items item n rest).map fun (js, rest) => (j :: js, rest) := by
  rw [items, read]
  rfl

theorem items_bracket (read : item cs = some (j, ']' :: rest)) :
    items item (n + 1) cs = some ([j], rest) := by
  rw [items, read]
  rfl

theorem members_comma {key : String} (unescaped : Unescaped key.toList)
    (read : item cs = some (j, ',' :: rest)) :
    members item (n + 1) ('"' :: (key.toList ++ '"' :: ':' :: cs)) =
      (members item n rest).map fun (ms, rest) => ((key, j) :: ms, rest) := by
  rw [members]
  show ((stringBody (key.toList ++ '"' :: ':' :: cs)).bind fun _ => _) = _
  rw [stringBody_unescaped unescaped]
  show ((item cs).bind fun _ => _) = _
  rw [read]
  show ((members item n rest).map fun (ms, rest) => ((String.ofList key.toList, j) :: ms, rest)) = _
  rw [String.ofList_toList]

theorem members_brace {key : String} (unescaped : Unescaped key.toList)
    (read : item cs = some (j, '}' :: rest)) :
    members item (n + 1) ('"' :: (key.toList ++ '"' :: ':' :: cs)) = some ([(key, j)], rest) := by
  rw [members]
  show ((stringBody (key.toList ++ '"' :: ':' :: cs)).bind fun _ => _) = _
  rw [stringBody_unescaped unescaped]
  show ((item cs).bind fun _ => _) = _
  rw [read]
  show some ([(String.ofList key.toList, j)], rest) = _
  rw [String.ofList_toList]

end Sequences

/-! ## Objects in order -/

/-- A key after all others goes to the end. -/
theorem insert_of_lt {key : String} {members : Members} (last : ∀ m ∈ members, m.1 < key) :
    Members.insert key j members = members ++ [(key, j)] := by
  induction members with
  | nil => rfl
  | cons first others ih =>
    have before := last first (List.mem_cons_self ..)
    have different : key ≠ first.1 := fun same => String.lt_irrefl _ (same ▸ before)
    rw [Members.insert, if_neg (String.lt_asymm before), if_neg different,
      ih fun m member => last m (List.mem_cons_of_mem _ member), List.cons_append]

/-- Members in order are put into an object as they are. -/
theorem ofList_of_sorted {members : Members} (sorted : members.Pairwise (·.1 < ·.1)) :
    Members.ofList members = members := by
  have fold (acc : Members) (whole : (acc ++ members).Pairwise (·.1 < ·.1)) :
      members.foldl (fun acc m => Members.insert m.1 m.2 acc) acc = acc ++ members := by
    induction members generalizing acc with
    | nil => exact (List.append_nil acc).symm
    | cons first others ih =>
      have last : ∀ m ∈ acc, m.1 < first.1 := fun m member =>
        (List.pairwise_append.mp whole).2.2 m member first (List.mem_cons_self ..)
      have kept := ih (List.pairwise_cons.mp sorted).2 (acc ++ [first])
      rw [List.append_assoc, List.singleton_append] at kept
      rw [List.foldl_cons, insert_of_lt last]
      exact kept whole
  exact fold [] sorted

/-! ## The round trip -/

/-- A document without numbers and escapes, sorted by key and nested at most `depth` deep. -/
inductive Plain : Nat → Json → Prop where
  | null {depth : Nat} : Plain depth .null
  | bool {depth : Nat} (b : Bool) : Plain depth (.bool b)
  | str {depth : Nat} {s : String} : Unescaped s.toList → Plain depth (.str s)
  | arr {depth : Nat} {items : List Json} : (∀ item ∈ items, Plain depth item) →
      Plain (depth + 1) (.arr items)
  | obj {depth : Nat} {members : Members} : members.Pairwise (·.1 < ·.1) →
      (∀ m ∈ members, Unescaped m.1.toList) → (∀ m ∈ members, Plain depth m.2) →
      Plain (depth + 1) (.obj members)

/-- Keys in order, none of which needs escapes. -/
def PlainKeys (keys : List String) : Prop :=
  keys.Pairwise (· < ·) ∧ ∀ key ∈ keys, Unescaped key.toList

instance (keys : List String) : Decidable (PlainKeys keys) := inferInstanceAs (Decidable (_ ∧ _))

/-- An object is plain if its keys and its values are. -/
theorem Plain.ofMembers {members : Members} (keys : PlainKeys (members.map (·.1)))
    (each : ∀ m ∈ members, Plain depth m.2) : Plain (depth + 1) (.obj members) :=
  .obj (List.pairwise_map.mp keys.1) (fun m member => keys.2 m.1 (List.mem_map_of_mem member)) each

theorem Plain.one {key : String} (unescaped : Unescaped key.toList) (plain : Plain depth j) :
    Plain (depth + 1) (.obj [(key, j)]) :=
  .ofMembers ⟨List.pairwise_singleton _ _, List.forall_mem_singleton.mpr unescaped⟩
    (List.forall_mem_singleton.mpr plain)

/-- The compact text of a document is read as the document, whatever follows. -/
structure Reads (depth : Nat) (j : Json) : Prop where
  opens : ∃ ch cs, (compact j).toList = ch :: cs ∧ ch ∈ openings
  reads : ∀ fuel rest, (compact j).toList.length ≤ fuel →
    document fuel depth ((compact j).toList ++ rest) = some (j, rest)

/-- Items are read one by one up to the bracket, by induction on the list. -/
theorem reads_items {list : List Json} (each : ∀ item ∈ list, Reads depth item)
    (nonempty : list ≠ []) (enough : (compactItems list).toList.length ≤ fuel)
    (count : (compactItems list).toList.length < n) :
    items (document fuel depth) n ((compactItems list).toList ++ ']' :: rest) =
      some (list, rest) := by
  induction list generalizing n with
  | nil => exact absurd rfl nonempty
  | cons first others ih =>
    obtain ⟨n, rfl⟩ := Nat.exists_eq_add_one_of_ne_zero (Nat.ne_zero_of_lt count)
    have read := (each first (List.mem_cons_self ..)).reads fuel
    cases others with
    | nil => exact items_bracket (read _ enough)
    | cons second others =>
      have text : (compactItems (first :: second :: others)).toList =
          (compact first).toList ++ ',' :: (compactItems (second :: others)).toList := by
        simp [compactItems]
      rw [text, List.length_append, List.length_cons] at enough count
      rw [text, List.append_assoc, List.cons_append, items_comma (read _ (by omega)),
        ih (fun item member => each item (List.mem_cons_of_mem _ member)) nofun (by omega)
          (by omega)]
      rfl

/-- Members are read one by one up to the brace, by induction on the list. -/
theorem reads_members {list : Members} (unescaped : ∀ m ∈ list, Unescaped m.1.toList)
    (each : ∀ m ∈ list, Reads depth m.2) (nonempty : list ≠ [])
    (enough : (compactMembers list).toList.length ≤ fuel)
    (count : (compactMembers list).toList.length < n) :
    members (document fuel depth) n ((compactMembers list).toList ++ '}' :: rest) =
      some (list, rest) := by
  induction list generalizing n with
  | nil => exact absurd rfl nonempty
  | cons first others ih =>
    obtain ⟨n, rfl⟩ := Nat.exists_eq_add_one_of_ne_zero (Nat.ne_zero_of_lt count)
    obtain ⟨key, value⟩ := first
    have key_unescaped := unescaped _ (List.mem_cons_self ..)
    have read := (each _ (List.mem_cons_self ..)).reads fuel
    dsimp only at key_unescaped read
    cases others with
    | nil =>
      have text : (compactMembers [(key, value)]).toList =
          '"' :: (key.toList ++ '"' :: ':' :: (compact value).toList) := by
        simp [compactMembers, quote_toList key_unescaped]
      rw [text, List.length_cons, List.length_append, List.length_cons, List.length_cons] at enough
      rw [text, List.cons_append, List.append_assoc, List.cons_append, List.cons_append]
      exact members_brace key_unescaped (read _ (by omega))
    | cons second others =>
      have text : (compactMembers ((key, value) :: second :: others)).toList =
          '"' :: (key.toList ++ '"' :: ':' :: ((compact value).toList ++
            ',' :: (compactMembers (second :: others)).toList)) := by
        simp [compactMembers, quote_toList key_unescaped]
      simp only [text, List.length_cons, List.length_append] at enough count
      rw [text, List.cons_append, List.append_assoc, List.cons_append, List.cons_append,
        List.append_assoc, List.cons_append, members_comma key_unescaped (read _ (by omega)),
        ih (fun m member => unescaped m (List.mem_cons_of_mem _ member))
          (fun m member => each m (List.mem_cons_of_mem _ member)) nofun (by omega) (by omega)]
      rfl

/-- The text of items begins with the first of them. -/
theorem compactItems_begin (first : Json) (others : List Json) :
    ∃ tail, (compactItems (first :: others)).toList = (compact first).toList ++ tail := by
  cases others with
  | nil => exact ⟨[], (List.append_nil _).symm⟩
  | cons second others =>
    exact ⟨',' :: (compactItems (second :: others)).toList, by simp [compactItems]⟩

/-- The text of members begins with the quote of a key. -/
theorem compactMembers_begin (first : String × Json) (others : Members) :
    ∃ tail, (compactMembers (first :: others)).toList = '"' :: tail := by
  cases others <;> simp [compactMembers, quote]

/-- A plain document is read from its text. -/
theorem reads_of_plain (plain : Plain depth j) : Reads depth j := by
  induction plain with
  | null => exact ⟨⟨'n', ['u', 'l', 'l'], rfl, by decide⟩, fun fuel rest _ => by rw [document]; rfl⟩
  | bool b =>
    cases b with
    | true =>
      exact ⟨⟨'t', ['r', 'u', 'e'], rfl, by decide⟩, fun fuel rest _ => by rw [document]; rfl⟩
    | false =>
      exact ⟨⟨'f', ['a', 'l', 's', 'e'], rfl, by decide⟩, fun fuel rest _ => by rw [document]; rfl⟩
  | @str depth s unescaped =>
    have text : (compact (.str s)).toList = '"' :: (s.toList ++ ['"']) := by
      rw [compact, quote_toList unescaped]
    refine ⟨⟨'"', _, text, by decide⟩, fun fuel rest _ => ?_⟩
    rw [text, List.cons_append, List.append_assoc, List.singleton_append, document_quote,
      stringBody_unescaped unescaped]
    show some (Json.str (String.ofList s.toList), rest) = _
    rw [String.ofList_toList]
  | @arr depth list _ each =>
    have text : (compact (.arr list)).toList = '[' :: ((compactItems list).toList ++ [']']) := by
      simp [compact]
    refine ⟨⟨'[', _, text, by decide⟩, fun fuel rest enough => ?_⟩
    rw [text, List.length_cons, List.length_append] at enough
    rw [text, List.cons_append, List.append_assoc, List.singleton_append]
    cases list with
    | nil =>
      rw [document]
      rfl
    | cons first others =>
      obtain ⟨ch, cs, begins, opens⟩ := (each first (List.mem_cons_self ..)).opens
      obtain ⟨tail, items_begin⟩ := compactItems_begin first others
      have read : items (document fuel depth) fuel
          ((compactItems (first :: others)).toList ++ ']' :: rest) = some (first :: others, rest) :=
        reads_items each nofun (by omega) (by omega)
      rw [items_begin, begins] at read ⊢
      rw [List.cons_append, List.cons_append, document_bracket opens]
      exact congrArg _ read
  | @obj depth list sorted unescaped _ each =>
    have text : (compact (.obj list)).toList = '{' :: ((compactMembers list).toList ++ ['}']) := by
      simp [compact]
    refine ⟨⟨'{', _, text, by decide⟩, fun fuel rest enough => ?_⟩
    rw [text, List.length_cons, List.length_append] at enough
    rw [text, List.cons_append, List.append_assoc, List.singleton_append]
    cases list with
    | nil =>
      rw [document]
      rfl
    | cons first others =>
      obtain ⟨tail, members_begin⟩ := compactMembers_begin first others
      have read : members (document fuel depth) fuel
          ((compactMembers (first :: others)).toList ++ '}' :: rest) =
            some (first :: others, rest) :=
        reads_members unescaped each nofun (by omega) (by omega)
      rw [members_begin] at read ⊢
      rw [List.cons_append, document_brace]
      refine (congrArg _ read).trans ?_
      show some (ofMembers (first :: others), rest) = _
      rw [ofMembers, ofList_of_sorted sorted]

/-- Reading the compact text of a plain document gives the document back. -/
theorem read?_compact (plain : Plain maxDepth j) : read? (compact j) = some j := by
  have read := (reads_of_plain plain).reads (compact j).toList.length [] (Nat.le_refl _)
  rw [List.append_nil] at read
  unfold read?
  dsimp only
  rw [read]
  rfl

end RunLedger.Json
