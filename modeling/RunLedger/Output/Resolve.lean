import RunLedger.Output.Variables
import RunLedger.Run.Record

/-!
# Locations of a run's output

A workflow declares named templates, one pattern, or nothing. In the last case the step
configurations are searched for keys that are known to hold paths, and each path is kept once, under
the first key that gave it.
-/

namespace RunLedger.Output

open RunLedger (Json)
open RunLedger.Time (Instant)

/-- A key of a step configuration that holds a path, with the name of what is written there. -/
structure PathKey where
  key : String
  title : String
  /-- The name as it begins a sentence. -/
  opening : String
deriving Repr, Inhabited

/-- The keys that hold paths, in the order in which a step is searched. -/
def pathKeys : List PathKey :=
  [⟨"output_path", "Output", "Output"⟩,
   ⟨"aggregated_output_path", "Aggregated Output", "Aggregated output"⟩,
   ⟨"detailed_output_path", "Detailed Output", "Detailed output"⟩,
   ⟨"receipt_path", "Receipt", "Receipt"⟩,
   ⟨"transformed_file_path", "Transformed File", "Transformed file"⟩]

/-- A path that a step configuration may give: neither null nor blank. -/
def rawPath? (s : StepConfig) (key : PathKey) : Option Json :=
  match s.config.get? key.key with
  | some .null => none
  | some (.str text) => if Text.allBlank text then none else some (.str text)
  | j => j

/-- The location that a step writes under a key. -/
def stepLocation? (vars : Vars) (s : StepConfig) (key : PathKey) : Option OutputLocation :=
  (rawPath? s key).map fun raw =>
    { path := display (fill vars raw)
      name := some key.title
      description := some (key.opening ++ " written by step '" ++ s.step ++ "'") }

/-- The locations whose paths have not occurred before. -/
def distinctPaths (locations : List OutputLocation) : List OutputLocation :=
  locations.foldl (fun kept l => if kept.any (·.path == l.path) then kept else kept ++ [l]) []

/-- The locations that step configurations give. -/
def stepLocations (vars : Vars) (steps : List StepConfig) : List OutputLocation :=
  distinctPaths (steps.flatMap fun s => pathKeys.filterMap (stepLocation? vars s))

/-- The locations that a declaration gives. -/
def declaredLocations (vars : Vars) (steps : List StepConfig) : OutputSpec → List OutputLocation
  | .templates templates => templates.map fun t =>
      { path := display (fill vars t.pathTemplate), name := some t.name,
        description := t.description }
  | .pattern pattern => [{ path := display (fill vars (.str pattern)) }]
  | .absent => stepLocations vars steps

/-- The output locations of a run. -/
def resolve (runConfig : Json) (spec : OutputSpec) (now : Instant) :
    Except ResolveError (List OutputLocation) := do
  let steps ← stepConfigs runConfig
  pure (declaredLocations (collectVars runConfig steps now) steps spec)

/-- The output locations of a run; a configuration that cannot be read gives none. -/
def resolveOrNone (runConfig : Json) (spec : OutputSpec) (now : Instant) : List OutputLocation :=
  match resolve runConfig spec now with
  | .ok locations => locations
  | .error _ => []

end RunLedger.Output
