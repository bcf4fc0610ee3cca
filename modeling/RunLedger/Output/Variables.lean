import RunLedger.Output.Template
import RunLedger.Time.Stamp

/-!
# Variables of a run configuration

A run configuration holds the configurations of its steps in two sections. Both sections are read,
each in the order of the step names. The values for templates are collected from the steps and then
from the root of the configuration, and the first value of a name counts; the time of resolution
stands in for a creation time that is nowhere given.
-/

namespace RunLedger.Output

open RunLedger (Json)
open RunLedger.Time (Instant)

/-- Why a run configuration cannot be read. -/
inductive ResolveError where
  | configNotObject
  | malformedSection (name : String)
deriving DecidableEq, Repr, Inhabited

def ResolveError.message : ResolveError → String
  | configNotObject => "run config is not a JSON object"
  | malformedSection name => "run config section '" ++ name ++ "' is not an object"

/-- The configuration of a step. -/
structure StepConfig where
  step : String
  config : Json.Members
deriving Repr, Inhabited

/-- The sections that hold the configurations of steps. -/
def stepSections : List String := ["ops", "solids"]

/-- The configuration that the step with a name has, if it is an object. -/
def StepConfig.of? (entries : Json.Members) (step : String) : Option StepConfig :=
  ((entries.get? step).bind (·.get? "config")).bind fun config => config.asObject?.map (⟨step, ·⟩)

/-- The step configurations of a section, in the order of the step names; a missing section and null
hold none. -/
def sectionSteps (root : Json.Members) (name : String) : Except ResolveError (List StepConfig) :=
  match root.get? name with
  | none => .ok []
  | some .null => .ok []
  | some (.obj entries) =>
    let names := (entries.map (·.1)).mergeSort fun a b => decide (a ≤ b)
    .ok (names.filterMap (StepConfig.of? entries))
  | some _ => .error (.malformedSection name)

/-- The step configurations of a run configuration. -/
def stepConfigs (runConfig : Json) : Except ResolveError (List StepConfig) :=
  match runConfig with
  | .obj root => do
    let steps ← stepSections.mapM (sectionSteps root)
    pure steps.flatten
  | _ => .error .configNotObject

/-- The keys of a step configuration that name the run. -/
def identifierKeys : List String := ["workflow_id", "run_uuid", "batch_name", "created_at"]

/-- Adds the value of a key if it is there, not null, and the key has no value yet. -/
def addIdentifier (config : Json.Members) (vars : Vars) (key : String) : Vars :=
  match config.get? key with
  | none => vars
  | some value =>
    if value.isNull || (vars.get? key).isSome then vars else Json.Members.insert key value vars

/-- Adds a member whose name has no value yet. -/
def addMissing (vars : Vars) (m : String × Json) : Vars :=
  if (vars.get? m.1).isSome then vars else Json.Members.insert m.1 m.2 vars

/-- Adds the members whose names have no value yet. -/
def mergeMissing (vars : Vars) (extra : List (String × Json)) : Vars :=
  extra.foldl addMissing vars

/-- Adds what is declared for templates, if it is an object. -/
def mergeDeclared (vars : Vars) : Option Json → Vars
  | some (.obj extra) => mergeMissing vars extra
  | _ => vars

/-- Adds the values that a step provides: the keys that name the run, then what it declares. -/
def addStep (vars : Vars) (s : StepConfig) : Vars :=
  mergeDeclared (identifierKeys.foldl (addIdentifier s.config) vars) (s.config.get? "template_vars")

/-- Adds the time as the creation time, if there is none. -/
def addCreationTime (now : Instant) (vars : Vars) : Vars :=
  if (vars.get? "created_at").isSome then vars
  else Json.Members.insert "created_at" (.str now.compactStamp) vars

/-- The values that steps, configuration and clock provide. -/
def collectVars (runConfig : Json) (steps : List StepConfig) (now : Instant) : Vars :=
  let ofSteps := steps.foldl addStep []
  addCreationTime now (mergeDeclared ofSteps (runConfig.get? "template_vars"))

/-- The values for the templates of a run. -/
def templateVars (runConfig : Json) (now : Instant) : Except ResolveError Vars := do
  let steps ← stepConfigs runConfig
  pure (collectVars runConfig steps now)

end RunLedger.Output
