import RunLedger.Output.Variables
import RunLedger.Proofs.Json.Ordered
import RunLedger.Proofs.Text.ByteOrder

/-!
# The steps of a configuration

What is read of a run configuration, without saying how: which configurations are refused and why
(`Refused`), and which steps the others have, in which order (`StepsOf`). A section lists its steps
by name, where names are compared by their bytes; the names are there once, so there is one such
list.
-/

namespace RunLedger.Output

open RunLedger (Json)
open RunLedger.Json (Members)

variable {runConfig : Json} {root : Members} {name step : String} {config : Members}
  {steps : List StepConfig} {e : ResolveError}

/-! ## Configurations that are refused -/

/-- A section that is there, and neither null nor an object. -/
def Malformed (root : Members) (name : String) : Prop :=
  ∃ value, root.get? name = some value ∧ value ≠ .null ∧ ∀ entries, value ≠ .obj entries

/-- A configuration has to be an object whose sections are objects; of two malformed sections the
one that is read first is reported. -/
inductive Refused : Json → ResolveError → Prop where
  | notObject {runConfig : Json} (other : ∀ root, runConfig ≠ .obj root) :
      Refused runConfig .configNotObject
  | ops {root : Members} (malformed : Malformed root "ops") :
      Refused (.obj root) (.malformedSection "ops")
  | solids {root : Members} (ops : ¬ Malformed root "ops") (malformed : Malformed root "solids") :
      Refused (.obj root) (.malformedSection "solids")

/-- A malformed section is refused, by its name. -/
theorem sectionSteps_of_malformed (malformed : Malformed root name) :
    sectionSteps root name = .error (.malformedSection name) := by
  obtain ⟨value, found, notNull, notObject⟩ := malformed
  unfold sectionSteps
  rw [found]
  cases value with
  | null => exact absurd rfl notNull
  | obj entries => exact absurd rfl (notObject entries)
  | bool | num | str | arr => rfl

/-- Any other section is read. -/
theorem sectionSteps_of_not_malformed (wellFormed : ¬ Malformed root name) :
    ∃ steps, sectionSteps root name = .ok steps := by
  cases read : sectionSteps root name with
  | ok steps => exact ⟨steps, rfl⟩
  | error e =>
    refine absurd ?_ wellFormed
    unfold sectionSteps at read
    split at read
    · cases read
    · cases read
    · cases read
    · rename_i value notNull notObject found
      exact ⟨value, found, notNull, notObject⟩

/-- The sections are read in turn. -/
theorem stepConfigs_obj (root : Members) :
    stepConfigs (.obj root) = (sectionSteps root "ops").bind fun ops =>
      (sectionSteps root "solids").map fun solids => ops ++ solids := by
  unfold stepConfigs stepSections
  simp only [List.mapM_cons, List.mapM_nil]
  cases sectionSteps root "ops" with
  | error e => rfl
  | ok ops =>
    cases sectionSteps root "solids" with
    | error e => rfl
    | ok solids => exact congrArg (fun later => Except.ok (ops ++ later)) (List.append_nil solids)

/-- The steps are those of the one section and then those of the other. -/
theorem sections_of_stepConfigs (read : stepConfigs (.obj root) = .ok steps) :
    ∃ ops solids, sectionSteps root "ops" = .ok ops ∧ sectionSteps root "solids" = .ok solids ∧
      steps = ops ++ solids := by
  rw [stepConfigs_obj] at read
  cases first : sectionSteps root "ops" with
  | error e =>
    rw [first] at read
    cases read
  | ok ops =>
    cases second : sectionSteps root "solids" with
    | error e =>
      rw [first, second] at read
      cases read
    | ok solids =>
      rw [first, second] at read
      cases read
      exact ⟨ops, solids, rfl, rfl, rfl⟩

/-- The steps cannot be read exactly for the reasons for which a configuration is refused. -/
theorem stepConfigs_eq_error_iff : stepConfigs runConfig = .error e ↔ Refused runConfig e := by
  cases runConfig with
  | obj root =>
    rw [stepConfigs_obj]
    by_cases ops : Malformed root "ops"
    · rw [sectionSteps_of_malformed ops]
      constructor
      · rintro ⟨⟩
        exact .ops ops
      · rintro (other | _ | ⟨wellFormed, _⟩)
        · exact absurd rfl (other root)
        · rfl
        · exact absurd ops wellFormed
    · obtain ⟨first, read⟩ := sectionSteps_of_not_malformed ops
      rw [read]
      by_cases solids : Malformed root "solids"
      · rw [sectionSteps_of_malformed solids]
        constructor
        · rintro ⟨⟩
          exact .solids ops solids
        · rintro (other | malformed | _)
          · exact absurd rfl (other root)
          · exact absurd malformed ops
          · rfl
      · obtain ⟨second, read⟩ := sectionSteps_of_not_malformed solids
        rw [read]
        constructor
        · rintro ⟨⟩
        · rintro (other | malformed | ⟨_, malformed⟩)
          · exact absurd rfl (other root)
          · exact absurd malformed ops
          · exact absurd malformed solids
  | null | bool | num | str | arr =>
    constructor
    · rintro ⟨⟩
      exact .notObject nofun
    · rintro ⟨⟩
      rfl

/-! ## The steps of the others -/

/-- A section holds an object as the configuration of a step. -/
def Configures (root : Members) (name step : String) (config : Members) : Prop :=
  ∃ (entries : Members) (entry : Json), root.get? name = some (.obj entries) ∧
    entries.get? step = some entry ∧ entry.get? "config" = some (.obj config)

/-- The steps that a section configures, in the byte order of their names. -/
structure ListsSteps (root : Members) (name : String) (steps : List StepConfig) : Prop where
  sorted : steps.Pairwise fun a b => Text.bytes a.step < Text.bytes b.step
  mem_iff : ∀ s, s ∈ steps ↔ Configures root name s.step s.config

/-- The steps of a configuration: those of its operations, then those of its solids. -/
def StepsOf (root : Members) (steps : List StepConfig) : Prop :=
  ∃ ops solids, ListsSteps root "ops" ops ∧ ListsSteps root "solids" solids ∧ steps = ops ++ solids

/-- A step is read if and only if its entry holds an object as its configuration. -/
theorem of?_eq_some_iff {entries : Members} {s : StepConfig} :
    StepConfig.of? entries step = some s ↔ step = s.step ∧
      ∃ entry, entries.get? s.step = some entry ∧ entry.get? "config" = some (.obj s.config) := by
  obtain ⟨step', config⟩ := s
  have isObject (j : Json) : j.asObject?.map (StepConfig.mk step) = some ⟨step', config⟩ ↔
      step = step' ∧ j = .obj config := by
    cases j <;> simp [Json.asObject?]
  unfold StepConfig.of?
  simp only [Option.bind_eq_some_iff, isObject]
  constructor
  · rintro ⟨_, ⟨entry, found, member⟩, rfl, rfl⟩
    exact ⟨rfl, entry, found, member⟩
  · rintro ⟨rfl, entry, found, member⟩
    exact ⟨_, ⟨entry, found, member⟩, rfl, rfl⟩

/-- What a section configures is read, whatever the order of its entries. -/
theorem mem_sectionSteps (configures : Configures root name step config)
    (read : sectionSteps root name = .ok steps) : ⟨step, config⟩ ∈ steps := by
  obtain ⟨entries, entry, found, member, object⟩ := configures
  unfold sectionSteps at read
  rw [found] at read
  cases read
  have listed : step ∈ (entries.map (·.1)).mergeSort fun a b => decide (a ≤ b) := by
    rw [(List.mergeSort_perm _ _).mem_iff]
    exact List.mem_map_of_mem (Members.mem_of_get? member)
  exact List.mem_filterMap.mpr ⟨step, listed, of?_eq_some_iff.mpr ⟨rfl, entry, member, object⟩⟩

/-- Every step that a section configures is among the steps. -/
theorem mem_stepConfigs (isSection : name ∈ stepSections)
    (configures : Configures root name step config)
    (read : stepConfigs (.obj root) = .ok steps) : ⟨step, config⟩ ∈ steps := by
  obtain ⟨ops, solids, first, second, rfl⟩ := sections_of_stepConfigs read
  rcases List.mem_cons.mp isSection with rfl | later
  · exact List.mem_append_left _ (mem_sectionSteps configures first)
  · obtain rfl := List.mem_singleton.mp later
    exact List.mem_append_right _ (mem_sectionSteps configures second)

/-- The names of a section that is in order are listed as they stand. -/
theorem mergeSort_names {entries : Members} (sorted : entries.Sorted) :
    ((entries.map (·.1)).mergeSort fun a b => decide (a ≤ b)) = entries.map (·.1) := by
  refine List.mergeSort_of_pairwise (List.pairwise_map.mpr (sorted.imp fun less => ?_))
  exact decide_eq_true (String.not_lt.mp (String.lt_asymm less))

/-- The steps that are read by their names are in the byte order of the names. -/
theorem pairwise_steps_of_sorted {entries : Members} (sorted : entries.Sorted) :
    ((entries.map (·.1)).filterMap (StepConfig.of? entries)).Pairwise fun a b =>
      Text.bytes a.step < Text.bytes b.step := by
  refine List.pairwise_filterMap.mpr ((List.pairwise_map.mpr sorted).imp ?_)
  intro name name' less a first b second
  obtain ⟨rfl, _⟩ := of?_eq_some_iff.mp first
  obtain ⟨rfl, _⟩ := of?_eq_some_iff.mp second
  exact Text.lt_iff_bytes_lt.mp less

/-- A section that is no object configures no step. -/
theorem listsSteps_nil (noObject : ∀ entries, root.get? name ≠ some (.obj entries)) :
    ListsSteps root name [] where
  sorted := .nil
  mem_iff _ := iff_of_false List.not_mem_nil fun ⟨entries, _, found, _⟩ => noObject entries found

/-- A section that is an object with its members in order lists its steps in their order. -/
theorem listsSteps_entries {entries : Members} (found : root.get? name = some (.obj entries))
    (sorted : entries.Sorted) :
    ListsSteps root name ((entries.map (·.1)).filterMap (StepConfig.of? entries)) where
  sorted := pairwise_steps_of_sorted sorted
  mem_iff s := by
    rw [List.mem_filterMap]
    constructor
    · rintro ⟨step, _, read⟩
      obtain ⟨rfl, entry, member, object⟩ := of?_eq_some_iff.mp read
      exact ⟨entries, entry, found, member, object⟩
    · rintro ⟨_, entry, found', member, object⟩
      cases found.symm.trans found'
      exact ⟨s.step, List.mem_map_of_mem (Members.mem_of_get? member),
        of?_eq_some_iff.mpr ⟨rfl, entry, member, object⟩⟩

/-- A section that is read lists its steps by name. -/
theorem listsSteps_of_sectionSteps (ordered : (Json.obj root).Ordered)
    (read : sectionSteps root name = .ok steps) : ListsSteps root name steps := by
  unfold sectionSteps at read
  split at read
  · rename_i absent
    cases read
    exact listsSteps_nil fun entries found => nomatch absent.symm.trans found
  · rename_i null
    cases read
    exact listsSteps_nil fun entries found => nomatch null.symm.trans found
  · rename_i entries found
    cases read
    cases ordered.get? found with
    | obj sorted _ =>
      rw [mergeSort_names sorted]
      exact listsSteps_entries found sorted
  · cases read

/-- The steps that are read are those of the configuration, each section in its order. -/
theorem stepsOf_of_stepConfigs (ordered : runConfig.Ordered)
    (read : stepConfigs runConfig = .ok steps) :
    ∃ root, runConfig = .obj root ∧ StepsOf root steps := by
  cases runConfig with
  | obj root =>
    obtain ⟨ops, solids, first, second, rfl⟩ := sections_of_stepConfigs read
    exact ⟨root, rfl, ops, solids, listsSteps_of_sectionSteps ordered first,
      listsSteps_of_sectionSteps ordered second, rfl⟩
  | null | bool | num | str | arr => cases read

/-- A configuration that is not refused is read. -/
theorem exists_stepConfigs (accepted : ∀ e, ¬ Refused runConfig e) :
    ∃ steps, stepConfigs runConfig = .ok steps := by
  cases read : stepConfigs runConfig with
  | ok steps => exact ⟨steps, rfl⟩
  | error e => exact absurd (stepConfigs_eq_error_iff.mp read) (accepted e)

end RunLedger.Output
