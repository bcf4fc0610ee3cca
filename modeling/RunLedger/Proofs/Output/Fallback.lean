import Mathlib.Data.List.Induction
import RunLedger.Output.Resolve
import RunLedger.Proofs.Output.Precedence
import RunLedger.Text.Split

/-!
# Paths that are found in the steps

A workflow that declares no output has its steps searched for paths. What is found is a sequence:
the steps in their order, in each step the keys in theirs, each with the path that its value
resolves to (`foundIn`). Of the places with one path the first is kept, and what is kept stays in
the order of the sequence (`Firsts`).
-/

namespace RunLedger.Output

open RunLedger (Json)
open RunLedger.Json (Members)
open RunLedger.Time (Instant)

variable {vars : Vars} {l x : OutputLocation} {ls : List OutputLocation} {path : String}

/-! ## The sequence -/

/-- A path and the place where it was found. -/
structure Found where
  step : String
  key : String
  path : String

/-- The keys that are looked for in a step, in this order. -/
def fallbackKeys : List String :=
  ["output_path", "aggregated_output_path", "detailed_output_path", "receipt_path",
    "transformed_file_path"]

/-- What a step holds under a key: nothing if the value is missing, null or a blank text, else the
path to which the value resolves. -/
def foundUnder (vars : Vars) (s : StepConfig) (key : String) : List Found :=
  match s.config.get? key with
  | none => []
  | some .null => []
  | some (.str text) =>
    if Text.allBlank text then [] else [⟨s.step, key, display (fill vars (.str text))⟩]
  | some raw => [⟨s.step, key, display (fill vars raw)⟩]

/-- What the steps hold. -/
def foundIn (vars : Vars) (steps : List StepConfig) : List Found :=
  steps.flatMap fun s => fallbackKeys.flatMap (foundUnder vars s)

/-- The words of a key but for the last one, which says that it is a path. -/
def words (key : String) : List (List Char) := (Text.fields '_' key.toList).dropLast

def capitalized : List Char → List Char
  | [] => []
  | c :: cs => c.toUpper :: cs

/-- The words of a key, each with a capital letter. -/
def titleOf (key : String) : String :=
  String.ofList (List.intercalate [' '] ((words key).map capitalized))

/-- The words of a key at the beginning of a sentence. -/
def openingOf (key : String) : String :=
  String.ofList (capitalized (List.intercalate [' '] (words key)))

/-- The location that a place tells of. -/
def Found.location (f : Found) : OutputLocation where
  path := f.path
  name := some (titleOf f.key)
  description := some (openingOf f.key ++ " written by step '" ++ f.step ++ "'")

/-- The keys with titles are the keys that are looked for, in their order. -/
theorem map_key_pathKeys : pathKeys.map (·.key) = fallbackKeys := rfl

/-- The titles are derived from the keys. -/
theorem names_of_mem_pathKeys {key : PathKey} (member : key ∈ pathKeys) :
    key.title = titleOf key.key ∧ key.opening = openingOf key.key := by
  revert key
  decide

/-- The location of a key in a step is that of what is found there. -/
theorem stepLocation?_toList (vars : Vars) (s : StepConfig) {key : PathKey}
    (member : key ∈ pathKeys) :
    (stepLocation? vars s key).toList = (foundUnder vars s key.key).map Found.location := by
  obtain ⟨title, opening⟩ := names_of_mem_pathKeys member
  unfold stepLocation? rawPath? foundUnder
  cases s.config.get? key.key with
  | none => rfl
  | some raw =>
    cases raw with
    | null => rfl
    | str text =>
      cases blank : Text.allBlank text with
      | true => simp [blank]
      | false => simp [blank, Found.location, title, opening]
    | bool | num | arr | obj => simp [Found.location, title, opening]

/-- What is found is what the search looks at. -/
theorem flatMap_stepLocation? (vars : Vars) (steps : List StepConfig) :
    (steps.flatMap fun s => pathKeys.filterMap (stepLocation? vars s)) =
      (foundIn vars steps).map Found.location := by
  unfold foundIn
  rw [List.map_flatMap]
  refine List.flatMap_congr fun s _ => ?_
  rw [List.filterMap_eq_flatMap_toList, List.map_flatMap, ← map_key_pathKeys, List.flatMap_map]
  exact List.flatMap_congr fun key member => stepLocation?_toList vars s member

/-! ## First occurrences -/

/-- A location is left out if its path occurred before. -/
theorem distinctPaths_append (ls : List OutputLocation) (x : OutputLocation) :
    distinctPaths (ls ++ [x]) =
      if x.path ∈ (distinctPaths ls).map (·.path) then distinctPaths ls
      else distinctPaths ls ++ [x] := by
  unfold distinctPaths
  rw [List.foldl_append, List.foldl_cons, List.foldl_nil]
  simp only [List.any_eq_true, beq_iff_eq, List.mem_map]

/-- No path is lost. -/
theorem mem_map_path_distinctPaths :
    path ∈ (distinctPaths ls).map (·.path) ↔ path ∈ ls.map (·.path) := by
  induction ls using List.reverseRecOn with
  | nil => exact Iff.rfl
  | append_singleton ls x ih =>
    rw [distinctPaths_append, List.map_append, List.mem_append, ← ih]
    split
    · rename_i known
      refine (or_iff_left_of_imp fun last => ?_).symm
      rw [List.map_singleton, List.mem_singleton] at last
      exact last ▸ known
    · rw [List.map_append, List.mem_append]

/-- What is kept is what is the first to have its path. -/
theorem mem_distinctPaths_iff : l ∈ distinctPaths ls ↔
    ∃ before after, ls = before ++ l :: after ∧ l.path ∉ before.map (·.path) := by
  induction ls using List.reverseRecOn with
  | nil =>
    refine iff_of_false List.not_mem_nil ?_
    rintro ⟨before, after, split, _⟩
    exact List.append_ne_nil_of_right_ne_nil before (List.cons_ne_nil l after) split.symm
  | append_singleton ls x ih =>
    have earlier : l ∈ distinctPaths ls → ∃ before after,
        ls ++ [x] = before ++ l :: after ∧ l.path ∉ before.map (·.path) := by
      intro kept
      obtain ⟨before, after, rfl, first⟩ := ih.mp kept
      exact ⟨before, after ++ [x], List.append_assoc .., first⟩
    rw [distinctPaths_append]
    constructor
    · intro kept
      split at kept
      · exact earlier kept
      · rename_i new
        rcases List.mem_append.mp kept with kept | last
        · exact earlier kept
        · obtain rfl := List.mem_singleton.mp last
          exact ⟨ls, [], rfl, fun known => new (mem_map_path_distinctPaths.mpr known)⟩
    · rintro ⟨before, after, split, first⟩
      rcases List.eq_nil_or_concat after with rfl | ⟨after, last, rfl⟩
      · obtain ⟨rfl, same⟩ := List.append_inj' split rfl
        obtain rfl := (List.cons.inj same).1
        rw [if_neg fun known => first (mem_map_path_distinctPaths.mp known)]
        exact List.mem_append_right _ (List.mem_singleton.mpr rfl)
      · have parts : ls ++ [x] = (before ++ l :: after) ++ [last] := by
          rw [split, List.concat_eq_append, List.append_assoc, List.cons_append]
        have kept := ih.mpr ⟨before, after, (List.append_inj' parts rfl).1, first⟩
        split
        · exact kept
        · exact List.mem_append_left _ kept

/-- What is kept stays in order. -/
theorem pairwise_distinctPaths (ls : List OutputLocation) : (distinctPaths ls).Pairwise fun a b =>
    (ls.map (·.path)).idxOf a.path < (ls.map (·.path)).idxOf b.path := by
  induction ls using List.reverseRecOn with
  | nil => exact .nil
  | append_singleton ls x ih =>
    have place {a : OutputLocation} (kept : a ∈ distinctPaths ls) :
        ((ls ++ [x]).map (·.path)).idxOf a.path = (ls.map (·.path)).idxOf a.path := by
      have known := mem_map_path_distinctPaths.mp (List.mem_map_of_mem kept)
      rw [List.map_append, List.idxOf_append, if_pos known]
    have earlier : (distinctPaths ls).Pairwise fun a b =>
        ((ls ++ [x]).map (·.path)).idxOf a.path < ((ls ++ [x]).map (·.path)).idxOf b.path := by
      refine ih.imp_of_mem fun first second less => ?_
      rwa [place first, place second]
    rw [distinctPaths_append]
    split
    · exact earlier
    · rename_i new
      refine List.pairwise_append.mpr ⟨earlier, List.pairwise_singleton .., fun a kept b last => ?_⟩
      obtain rfl := List.mem_singleton.mp last
      have known := mem_map_path_distinctPaths.mp (List.mem_map_of_mem kept)
      rw [place kept, List.map_append, List.idxOf_append,
        if_neg fun known => new (mem_map_path_distinctPaths.mpr known)]
      exact Nat.lt_of_lt_of_le (List.idxOf_lt_length_of_mem known) (Nat.le_add_left _ _)

/-- Locations that keep of each path that was found the first place, in the order of the places. -/
structure Firsts (found : List Found) (locations : List OutputLocation) : Prop where
  /-- Each location tells of the first place with its path. -/
  mem_iff : ∀ l, l ∈ locations ↔ ∃ before f after,
    found = before ++ f :: after ∧ f.path ∉ before.map (·.path) ∧ l = f.location
  ordered : locations.Pairwise fun a b =>
    (found.map (·.path)).idxOf a.path < (found.map (·.path)).idxOf b.path
  distinct : (locations.map (·.path)).Nodup
  complete : ∀ path, path ∈ locations.map (·.path) ↔ path ∈ found.map (·.path)

/-- Of what is found, the first with each path is kept, by induction from the end. -/
theorem firsts_distinctPaths (found : List Found) :
    Firsts found (distinctPaths (found.map Found.location)) := by
  have paths (found : List Found) :
      (found.map Found.location).map (·.path) = found.map (·.path) := by
    rw [List.map_map]
    rfl
  have ordered := pairwise_distinctPaths (found.map Found.location)
  rw [paths] at ordered
  refine ⟨fun l => ?_, ordered, ?_, fun path => ?_⟩
  · rw [mem_distinctPaths_iff]
    constructor
    · rintro ⟨before, after, split, first⟩
      obtain ⟨before, rest, rfl, rfl, tail⟩ := List.map_eq_append_iff.mp split
      obtain ⟨f, after, rfl, rfl, rfl⟩ := List.map_eq_cons_iff.mp tail
      exact ⟨before, f, after, rfl, paths before ▸ first, rfl⟩
    · rintro ⟨before, f, after, rfl, first, rfl⟩
      refine ⟨before.map Found.location, after.map Found.location, ?_, ?_⟩
      · rw [List.map_append, List.map_cons]
      · exact (paths before).symm ▸ first
  · refine List.pairwise_map.mpr (ordered.imp fun less same => ?_)
    exact Nat.lt_irrefl _ (same ▸ less)
  · rw [mem_map_path_distinctPaths, paths]

/-- Two steps whose receipts are written differently and resolve to one path. -/
def sharedReceipt : Json :=
  .obj [("ops", .obj [
    ("save", .obj [("config", .obj [("batch_name", .str "b1"),
      ("receipt_path", .str "r/{batch_name}.txt")])]),
    ("send", .obj [("config", .obj [("receipt_path", .str "r/b1.txt")])])])]

theorem ordered_sharedReceipt : sharedReceipt.Ordered := by
  simp +decide [sharedReceipt, Json.Members.Sorted]

theorem not_refused_sharedReceipt (e : ResolveError) : ¬ Refused sharedReceipt e := by
  rw [← stepConfigs_eq_error_iff]
  exact nofun

example : resolve sharedReceipt .absent .epoch =
    .ok [⟨"r/b1.txt", some "Receipt", some "Receipt written by step 'save'"⟩] := by
  have read : stepConfigs sharedReceipt =
      .ok [⟨"save", [("batch_name", .str "b1"), ("receipt_path", .str "r/{batch_name}.txt")]⟩,
        ⟨"send", [("receipt_path", .str "r/b1.txt")]⟩] := by
    cbv
  rw [resolve, read]
  decide +kernel

end RunLedger.Output
