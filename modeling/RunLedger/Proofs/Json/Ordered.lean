import RunLedger.Json.Reader

/-!
# Ordered documents

In a document that is read or built from members, each object lists its members in increasing order
of their keys, each key once. So a look-up finds every member, and to add members is to change what
is found under their keys.
-/

namespace RunLedger.Json

variable {key name : String} {value j : Json} {members : Members} {cs rest : List Char}
  {fuel depth n : Nat}

/-! ## Members in order -/

/-- The keys of members increase. -/
def Members.Sorted (members : Members) : Prop := members.Pairwise (·.1 < ·.1)

namespace Members

/-- The first member of a name is the one that is found. -/
theorem get?_cons (m : String × Json) (members : Members) (name : String) :
    get? (m :: members) name = if name = m.1 then some m.2 else members.get? name := by
  unfold get?
  rw [List.lookup_cons]
  by_cases same : name = m.1
  · rw [if_pos same, beq_iff_eq.mpr same]
  · rw [if_neg same, beq_eq_false_iff_ne.mpr same]

theorem mem_of_get? (found : members.get? name = some value) : (name, value) ∈ members := by
  induction members with
  | nil => cases found
  | cons m members ih =>
    rw [get?_cons] at found
    split at found
    · rename_i same
      cases found
      exact same ▸ List.mem_cons_self ..
    · exact List.mem_cons_of_mem _ (ih found)

/-- A look-up finds the first member with a key. -/
theorem get?_eq_some_iff : members.get? name = some value ↔
    ∃ before after, members = before ++ (name, value) :: after ∧ name ∉ before.map Prod.fst := by
  have absent (before : Members) : (∀ m ∈ before, name != m.1) ↔ name ∉ before.map Prod.fst := by
    simp only [bne_iff_ne, List.mem_map, not_exists, not_and]
    exact forall₂_congr fun m _ => ne_comm
  simp only [get?, List.lookup_eq_some_iff, absent]

/-- A value is found exactly for the names of the members. -/
theorem isSome_get?_iff : (members.get? name).isSome ↔ name ∈ members.map Prod.fst := by
  simp only [get?, List.lookup_isSome_iff, List.mem_map, beq_iff_eq]
  exact exists_congr fun m => and_congr_right fun _ => eq_comm

/-- A look-up finds every member of a sorted list. -/
theorem Sorted.get?_eq_some_iff (sorted : members.Sorted) :
    members.get? name = some value ↔ (name, value) ∈ members := by
  refine ⟨mem_of_get?, fun member => ?_⟩
  induction members with
  | nil => cases member
  | cons m members ih =>
    obtain ⟨first, sorted⟩ := List.pairwise_cons.mp sorted
    rw [get?_cons]
    rcases List.mem_cons.mp member with rfl | member
    · exact if_pos rfl
    · have later : m.1 < name := first _ member
      rw [if_neg fun same => String.lt_irrefl _ (same ▸ later)]
      exact ih sorted member

/-- A member that is added is found, and the others are found as before. -/
theorem get?_insert (key : String) (value : Json) (members : Members) (name : String) :
    (members.insert key value).get? name = if name = key then some value else members.get? name := by
  induction members with
  | nil => rw [insert, get?_cons]
  | cons m members ih =>
    unfold insert
    split
    · rw [get?_cons]
    · split
      · rename_i same
        rw [get?_cons, get?_cons, same]
        split <;> rfl
      · rename_i different
        rw [get?_cons, get?_cons, ih]
        by_cases named : name = key
        · rw [if_pos named, if_pos named, if_neg (named ▸ different)]
        · rw [if_neg named, if_neg named]

/-- A member after an insertion is the new one or was there before. -/
theorem mem_insert {m : String × Json} (member : m ∈ members.insert key value) :
    m = (key, value) ∨ m ∈ members := by
  induction members with
  | nil => exact .inl (List.mem_singleton.mp member)
  | cons first members ih =>
    unfold insert at member
    split at member
    · exact List.mem_cons.mp member
    · split at member
      · exact (List.mem_cons.mp member).imp_right (List.mem_cons_of_mem _)
      · rcases List.mem_cons.mp member with rfl | member
        · exact .inr (List.mem_cons_self ..)
        · exact (ih member).imp_right (List.mem_cons_of_mem _)

/-- An insertion keeps members sorted and names distinct. -/
theorem Sorted.insert (sorted : members.Sorted) (key : String) (value : Json) :
    (members.insert key value).Sorted := by
  induction members with
  | nil => exact List.pairwise_singleton ..
  | cons m members ih =>
    obtain ⟨first, rest⟩ := List.pairwise_cons.mp sorted
    unfold Members.insert
    split
    · rename_i smaller
      refine List.pairwise_cons.mpr ⟨fun other member => ?_, sorted⟩
      rcases List.mem_cons.mp member with rfl | member
      · exact smaller
      · exact String.lt_trans smaller (first other member)
    · split
      · rename_i same
        exact List.pairwise_cons.mpr ⟨same ▸ first, rest⟩
      · rename_i notSmaller different
        refine List.pairwise_cons.mpr ⟨fun other member => ?_, ih rest⟩
        rcases mem_insert member with rfl | member
        · refine String.not_le.mp fun notGreater => different ?_
          exact String.le_antisymm notGreater (String.not_lt.mp notSmaller)
        · exact first other member

theorem Sorted.foldl_insert (sorted : members.Sorted) (added : List (String × Json)) :
    (added.foldl (fun acc m => Members.insert m.1 m.2 acc) members).Sorted := by
  induction added generalizing members with
  | nil => exact sorted
  | cons m added ih => exact ih (sorted.insert m.1 m.2)

/-- An object that was made from a list is sorted, whatever the order of the list. -/
theorem sorted_ofList (members : List (String × Json)) : (ofList members).Sorted :=
  Sorted.foldl_insert .nil members

/-- After insertions every member was there before or was inserted. -/
theorem mem_foldl_insert {m : String × Json} {added : List (String × Json)}
    (member : m ∈ added.foldl (fun acc m => insert m.1 m.2 acc) members) :
    m ∈ members ∨ m ∈ added := by
  induction added generalizing members with
  | nil => exact .inl member
  | cons first added ih =>
    rcases ih member with before | later
    · rcases mem_insert before with rfl | before
      · exact .inr (List.mem_cons_self ..)
      · exact .inl before
    · exact .inr (List.mem_cons_of_mem _ later)

theorem mem_ofList {m : String × Json} {members : List (String × Json)}
    (member : m ∈ ofList members) : m ∈ members :=
  (mem_foldl_insert member).resolve_left List.not_mem_nil

end Members

/-! ## Documents in order -/

/-- Every object in a document lists its members in order. -/
inductive Ordered : Json → Prop where
  | null : Ordered .null
  | bool (b : Bool) : Ordered (.bool b)
  | num (n : Number) : Ordered (.num n)
  | str (s : String) : Ordered (.str s)
  | arr {items : List Json} : (∀ j ∈ items, Ordered j) → Ordered (.arr items)
  | obj {members : Members} : members.Sorted → (∀ m ∈ members, Ordered m.2) →
      Ordered (.obj members)

@[simp] theorem ordered_null : Ordered .null := .null

@[simp] theorem ordered_num (n : Number) : Ordered (.num n) := .num n

@[simp] theorem ordered_str (s : String) : Ordered (.str s) := .str s

/-- An object is in order exactly if its members are sorted and their values are in order. -/
@[simp] theorem ordered_obj_iff :
    Ordered (.obj members) ↔ members.Sorted ∧ ∀ m ∈ members, Ordered m.2 := by
  constructor
  · rintro (_ | _ | _ | _ | _ | ⟨sorted, each⟩)
    exact ⟨sorted, each⟩
  · exact fun ⟨sorted, each⟩ => .obj sorted each

/-- An object that was made from documents in order is in order. -/
theorem ordered_ofMembers {members : List (String × Json)} (each : ∀ m ∈ members, Ordered m.2) :
    Ordered (ofMembers members) :=
  .obj (Members.sorted_ofList members) fun m member => each m (Members.mem_ofList member)

/-- A value in an ordered object is ordered. -/
theorem Ordered.get? (ordered : Ordered j) (found : j.get? name = some value) : Ordered value := by
  cases ordered with
  | obj _ each => exact each _ (Members.mem_of_get? found)
  | _ => cases found

/-! ## The reader -/

/-- What holds of every document that an item reader reads, holds of all items of an array. -/
theorem forall_items {item : List Char → Option (Json × List Char)} {p : Json → Prop}
    (each : ∀ cs j rest, item cs = some (j, rest) → p j) {js : List Json}
    (read : items item n cs = some (js, rest)) : ∀ j ∈ js, p j := by
  induction n generalizing cs js with
  | zero => cases read
  | succ n ih =>
    rw [items] at read
    obtain ⟨⟨first, others⟩, readFirst, read⟩ := Option.bind_eq_some_iff.mp read
    have head := each _ _ _ readFirst
    dsimp only at read
    split at read
    · cases read
      exact List.forall_mem_singleton.mpr head
    · obtain ⟨⟨later, _⟩, readLater, same⟩ := Option.map_eq_some_iff.mp read
      cases same
      exact List.forall_mem_cons.mpr ⟨head, ih readLater⟩
    · cases read

/-- What holds of every document that a value reader reads, holds of all members of an object. -/
theorem forall_members {item : List Char → Option (Json × List Char)} {p : Json → Prop}
    (each : ∀ cs j rest, item cs = some (j, rest) → p j) {ms : List (String × Json)}
    (read : Json.members item n cs = some (ms, rest)) : ∀ m ∈ ms, p m.2 := by
  induction n generalizing cs ms with
  | zero => cases read
  | succ n ih =>
    rw [Json.members] at read
    split at read
    · obtain ⟨⟨key, others⟩, -, read⟩ := Option.bind_eq_some_iff.mp read
      dsimp only at read
      split at read
      · obtain ⟨⟨first, others⟩, readFirst, read⟩ := Option.bind_eq_some_iff.mp read
        have head := each _ _ _ readFirst
        dsimp only at read
        split at read
        · cases read
          exact List.forall_mem_singleton.mpr head
        · obtain ⟨⟨later, _⟩, readLater, same⟩ := Option.map_eq_some_iff.mp read
          cases same
          exact List.forall_mem_cons.mpr ⟨head, ih readLater⟩
        · cases read
      · cases read
    · cases read

/-- Whatever the reader reads is in order. -/
theorem ordered_of_document (read : document fuel depth cs = some (j, rest)) : Ordered j := by
  induction depth generalizing cs j rest with
  | zero =>
    rw [document] at read
    split at read
    case h_5 | h_6 => cases read
    case h_4 | h_7 =>
      obtain ⟨_, _, same⟩ := Option.map_eq_some_iff.mp read
      cases same
      constructor
    all_goals
      cases read
      constructor
  | succ depth ih =>
    rw [document] at read
    split at read
    case h_5 =>
      dsimp only at read
      split at read
      · cases read
        exact .arr nofun
      · obtain ⟨⟨js, _⟩, readItems, same⟩ := Option.map_eq_some_iff.mp read
        cases same
        exact .arr (forall_items (fun _ _ _ => ih) readItems)
    case h_6 =>
      dsimp only at read
      split at read
      · cases read
        exact .obj .nil nofun
      · obtain ⟨⟨ms, _⟩, readMembers, same⟩ := Option.map_eq_some_iff.mp read
        cases same
        exact ordered_ofMembers (forall_members (fun _ _ _ => ih) readMembers)
    case h_4 | h_7 =>
      obtain ⟨_, _, same⟩ := Option.map_eq_some_iff.mp read
      cases same
      constructor
    all_goals
      cases read
      constructor

/-- Every document that is read is ordered. -/
theorem ordered_of_read? {text : String} (read : read? text = some j) : Ordered j := by
  unfold read? at read
  dsimp only at read
  split at read
  · rename_i found
    split at read
    · cases read
      exact ordered_of_document found
    · cases read
  · cases read

end RunLedger.Json
