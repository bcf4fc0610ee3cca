import Mathlib.Data.List.Basic
import RunLedger.Proofs.Output.Steps

/-!
# The first value of a name counts

The variables of a run are collected step by step, and a value never takes the place of another. So
they can be read off a list of pairs: what the steps provide, one step after the other, then what
the configuration provides at its root, then the time. Of the pairs with one name the first decides
(`FirstWins`).
-/

namespace RunLedger.Output

open RunLedger (Json)
open RunLedger.Json (Members)
open RunLedger.Time (Instant)

variable {vars : Vars} {offered : List (String × Json)} {name : String} {value : Json}

/-! ## Pairs -/

/-- A key of a configuration with its value, if that is there and not null. -/
def given (config : Members) (key : String) : List (String × Json) :=
  match config.get? key with
  | none => []
  | some .null => []
  | some value => [(key, value)]

/-- The entries of an object under `template_vars`. -/
def declared (members : Members) : List (String × Json) :=
  match members.get? "template_vars" with
  | some (.obj entries) => entries
  | _ => []

/-- The pairs of a step: the keys that name the run, then the declared entries. -/
def pairsOfStep (config : Members) : List (String × Json) :=
  given config "workflow_id" ++ given config "run_uuid" ++ given config "batch_name" ++
    given config "created_at" ++ declared config

/-- The pairs of a configuration with these steps, in the order in which they count. -/
def provided (root : Members) (steps : List StepConfig) : List (String × Json) :=
  steps.flatMap (fun s => pairsOfStep s.config) ++ declared root

/-- The pairs of a configuration, and at the end the time. -/
def pairsOf (root : Members) (steps : List StepConfig) (now : Instant) : List (String × Json) :=
  provided root steps ++ [("created_at", .str now.compactStamp)]

/-! ## Collecting step by step -/

/-- The variables that hold of each name of a list of pairs the first value. -/
def firstVars (offered : List (String × Json)) : Vars := mergeMissing [] offered

theorem mergeMissing_append (vars : Vars) (first second : List (String × Json)) :
    mergeMissing vars (first ++ second) = mergeMissing (mergeMissing vars first) second :=
  List.foldl_append

/-- To add a key is to add its pair, if it has one. -/
theorem addIdentifier_eq (config : Members) (vars : Vars) (key : String) :
    addIdentifier config vars key = mergeMissing vars (given config key) := by
  unfold addIdentifier given
  cases config.get? key with
  | none => rfl
  | some value => cases value <;> rfl

/-- The entries under template_vars are merged as pairs, and anything else there is passed over. -/
theorem mergeDeclared_eq (vars : Vars) (members : Members) :
    mergeDeclared vars (members.get? "template_vars") = mergeMissing vars (declared members) := by
  unfold declared
  cases members.get? "template_vars" with
  | none => rfl
  | some value => cases value <;> rfl

/-- A step adds its pairs. -/
theorem addStep_eq (vars : Vars) (s : StepConfig) :
    addStep vars s = mergeMissing vars (pairsOfStep s.config) := by
  unfold addStep pairsOfStep identifierKeys
  simp only [mergeDeclared_eq, List.foldl_cons, List.foldl_nil, addIdentifier_eq,
    mergeMissing_append]

theorem foldl_addStep_eq (vars : Vars) (steps : List StepConfig) :
    steps.foldl addStep vars = mergeMissing vars (steps.flatMap fun s => pairsOfStep s.config) := by
  rw [mergeMissing, List.foldl_flatMap]
  exact congrArg (steps.foldl · vars) (funext fun vars => funext fun s => addStep_eq vars s)

/-- What is collected step by step holds of each name the value of its first pair. -/
theorem collectVars_eq (root : Members) (steps : List StepConfig) (now : Instant) :
    collectVars (.obj root) steps now = firstVars (pairsOf root steps now) := by
  have declaredAtRoot (vars : Vars) : mergeDeclared vars ((Json.obj root).get? "template_vars") =
      mergeMissing vars (declared root) := mergeDeclared_eq vars root
  simp only [collectVars, firstVars, pairsOf, provided, declaredAtRoot, foldl_addStep_eq,
    mergeMissing_append]
  rfl

/-! ## The first pair -/

/-- Variables that hold each name of a list of pairs with the value of its first pair. -/
structure FirstWins (offered : List (String × Json)) (vars : Vars) : Prop where
  /-- Each name is there once. -/
  sorted : Members.Sorted vars
  names : ∀ name, name ∈ vars.map Prod.fst ↔ name ∈ offered.map Prod.fst
  values : ∀ name value, (name, value) ∈ vars ↔ ∃ before after,
    offered = before ++ (name, value) :: after ∧ name ∉ before.map Prod.fst

/-- Pairs that are added keep variables sorted. -/
theorem sorted_foldl_addMissing (sorted : Members.Sorted vars) (offered : List (String × Json)) :
    Members.Sorted (offered.foldl addMissing vars) := by
  induction offered generalizing vars with
  | nil => exact sorted
  | cons pair offered ih =>
    refine ih ?_
    unfold addMissing
    split
    · exact sorted
    · exact sorted.insert pair.1 pair.2

/-- A pair that is added gives its value only to a name that has none. -/
theorem get?_addMissing (vars : Vars) (pair : String × Json) (name : String) :
    (addMissing vars pair).get? name =
      (vars.get? name).or (if name = pair.1 then some pair.2 else none) := by
  unfold addMissing
  split
  · rename_i known
    by_cases same : name = pair.1
    · subst same
      obtain ⟨value, found⟩ := Option.isSome_iff_exists.mp known
      rw [found, Option.some_or]
    · rw [if_neg same, Option.or_none]
  · rename_i missing
    rw [Members.get?_insert]
    by_cases same : name = pair.1
    · subst same
      rw [Option.not_isSome_iff_eq_none.mp missing, if_pos rfl, Option.none_or]
    · rw [if_neg same, if_neg same, Option.or_none]

/-- Names that are there keep their values; the others get those of their first pairs. -/
theorem get?_foldl_addMissing (offered : List (String × Json)) (vars : Vars) (name : String) :
    Members.get? (offered.foldl addMissing vars) name =
      (vars.get? name).or (Members.get? offered name) := by
  induction offered generalizing vars with
  | nil => exact (Option.or_none).symm
  | cons pair offered ih =>
    rw [List.foldl_cons, ih, get?_addMissing, Option.or_assoc, Members.get?_cons]
    split
    · rw [Option.some_or]
    · rw [Option.none_or]

/-- The variable of a name has the first value that was offered for it. -/
theorem get?_firstVars (offered : List (String × Json)) (name : String) :
    (firstVars offered).get? name = Members.get? offered name := by
  rw [firstVars, mergeMissing, get?_foldl_addMissing]
  exact Option.none_or

/-- What the pairs come to satisfies the rule of the first value. -/
theorem firstWins_firstVars (offered : List (String × Json)) :
    FirstWins offered (firstVars offered) := by
  have sorted : Members.Sorted (firstVars offered) := sorted_foldl_addMissing .nil offered
  refine ⟨sorted, fun name => ?_, fun name value => ?_⟩
  · rw [← Members.isSome_get?_iff, ← Members.isSome_get?_iff, get?_firstVars]
  · rw [← sorted.get?_eq_some_iff, get?_firstVars, Members.get?_eq_some_iff]

/-- Two steps that name different batches and declare different regions, a step of the older section,
and values declared at the root; a workflow that is null is left to the next step. -/
def twoBatches : Json :=
  let step (config : Members) : Json := .obj [("config", .obj config)]
  .obj [
    ("ops", .obj [
      ("load", step [("batch_name", .str "first"),
        ("template_vars", .obj [("batch_name", .str "shadowed"), ("region", .str "eu")]),
        ("workflow_id", .null)]),
      ("save", step [("batch_name", .str "second"),
        ("template_vars", .obj [("region", .str "us"), ("tier", .null)]),
        ("workflow_id", .ofInt 7)])]),
    ("solids", .obj [("extract", step [("run_uuid", .str "r-1"), ("workflow_id", .ofInt 8)])]),
    ("template_vars", .obj [("tier", .str "gold"), ("zone", .str "z")])]

theorem ordered_twoBatches : twoBatches.Ordered := by
  simp +decide [twoBatches, Members.Sorted, Json.ofInt]

theorem not_refused_twoBatches (e : ResolveError) : ¬ Refused twoBatches e := by
  rw [← stepConfigs_eq_error_iff]
  exact nofun

example : templateVars twoBatches .epoch = .ok
    [("batch_name", .str "first"), ("created_at", .str "19700101_000000"), ("region", .str "eu"),
      ("run_uuid", .str "r-1"), ("tier", .null), ("workflow_id", .ofInt 7), ("zone", .str "z")] := by
  cbv

end RunLedger.Output
