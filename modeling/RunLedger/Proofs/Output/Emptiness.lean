import RunLedger.Output.Resolve

/-!
# Whether a run has output locations

The clock may change what a path looks like but not whether there is one: a configuration and a
declaration give locations at every time or at none.
-/

namespace RunLedger.Output

open RunLedger (Json)
open RunLedger.Time (Instant)

variable {vars vars' : Vars} {steps : List StepConfig}

/-- Adds a location whose path has not occurred before. -/
private def keep (kept : List OutputLocation) (l : OutputLocation) : List OutputLocation :=
  if kept.any (·.path == l.path) then kept else kept ++ [l]

/-- Whatever is kept once is kept for good. -/
private theorem foldl_keep_ne_nil {kept : List OutputLocation} (nonempty : kept ≠ [])
    (locations : List OutputLocation) : locations.foldl keep kept ≠ [] := by
  induction locations generalizing kept with
  | nil => exact nonempty
  | cons next rest ih =>
    refine ih ?_
    unfold keep
    split
    · exact nonempty
    · exact List.append_ne_nil_of_left_ne_nil nonempty _

/-- Leaving out repeated paths leaves something of something. -/
theorem distinctPaths_eq_nil_iff {locations : List OutputLocation} :
    distinctPaths locations = [] ↔ locations = [] := by
  cases locations with
  | nil => exact Iff.rfl
  | cons first rest =>
    have kept : distinctPaths (first :: rest) ≠ [] :=
      foldl_keep_ne_nil (List.cons_ne_nil first []) rest
    exact iff_of_false kept (List.cons_ne_nil _ _)

/-- Whether a step gives a location under a key does not depend on the variables. -/
theorem stepLocation?_eq_none_iff {s : StepConfig} {key : PathKey} :
    stepLocation? vars s key = none ↔ stepLocation? vars' s key = none := by
  unfold stepLocation?
  rw [Option.map_eq_none_iff, Option.map_eq_none_iff]

/-- The variables have no influence on whether steps hold locations. -/
theorem stepLocations_eq_nil_iff :
    stepLocations vars steps = [] ↔ stepLocations vars' steps = [] := by
  unfold stepLocations
  rw [distinctPaths_eq_nil_iff, distinctPaths_eq_nil_iff]
  have locations (s : StepConfig) (key : PathKey) :
      stepLocation? vars s key = none ↔ stepLocation? vars' s key = none :=
    stepLocation?_eq_none_iff
  simp only [List.flatMap_eq_nil_iff, List.filterMap_eq_nil_iff, locations]

/-- Whether a declaration gives locations does not depend on the variables. -/
theorem declaredLocations_eq_nil_iff {spec : OutputSpec} :
    declaredLocations vars steps spec = [] ↔ declaredLocations vars' steps spec = [] := by
  cases spec with
  | templates templates =>
    simp only [declaredLocations, List.map_eq_nil_iff]
  | pattern p => simp only [declaredLocations, List.cons_ne_nil]
  | absent => exact stepLocations_eq_nil_iff

/-- Whether there are output locations does not depend on the time. -/
theorem resolveOrNone_eq_nil_iff {runConfig : Json} {spec : OutputSpec} {now now' : Instant} :
    resolveOrNone runConfig spec now = [] ↔ resolveOrNone runConfig spec now' = [] := by
  unfold resolveOrNone resolve
  cases stepConfigs runConfig with
  | error e => exact Iff.rfl
  | ok steps => exact declaredLocations_eq_nil_iff

end RunLedger.Output
