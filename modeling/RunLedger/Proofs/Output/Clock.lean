import RunLedger.Proofs.Output.Emptiness
import RunLedger.Proofs.Output.Precedence

/-!
# What the clock may change

The time of resolution stands in for a creation time and for nothing else. It has no say in whether
a configuration is refused, in the values of other names, and in whether there are locations; and if
the configuration gives a creation time, it has no say at all.
-/

namespace RunLedger.Output

open RunLedger (Json)
open RunLedger.Json (Members)
open RunLedger.Time (Instant)

variable {runConfig : Json} {root config : Members} {steps : List StepConfig} {spec : OutputSpec}
  {key : String} {value : Json} {now now' : Instant} {e : ResolveError}

/-- A configuration gives a creation time: a step has it under its own key, where null does not
count, or among its declared values, or it is declared at the root. -/
inductive GivesCreationTime : Json → Prop where
  | key {root : Members} {name step : String} {config : Members} {value : Json}
      (isSection : name ∈ stepSections) (configures : Configures root name step config)
      (found : config.get? "created_at" = some value) (notNull : value ≠ .null) :
      GivesCreationTime (.obj root)
  | step {root : Members} {name step : String} {config entries : Members} {value : Json}
      (isSection : name ∈ stepSections) (configures : Configures root name step config)
      (object : config.get? "template_vars" = some (.obj entries))
      (found : entries.get? "created_at" = some value) : GivesCreationTime (.obj root)
  | root {root entries : Members} {value : Json}
      (object : root.get? "template_vars" = some (.obj entries))
      (found : entries.get? "created_at" = some value) : GivesCreationTime (.obj root)

/-! ## Variables -/

theorem mem_given (found : config.get? key = some value) (notNull : value ≠ .null) :
    (key, value) ∈ given config key := by
  unfold given
  rw [found]
  cases value with
  | null => exact absurd rfl notNull
  | bool | num | str | arr | obj => exact List.mem_singleton.mpr rfl

theorem mem_declared {entries : Members} (object : config.get? "template_vars" = some (.obj entries))
    (found : entries.get? key = some value) : (key, value) ∈ declared config := by
  unfold declared
  rw [object]
  exact Members.mem_of_get? found

/-- A creation time that a configuration gives is among the pairs that come before the time. -/
theorem mem_provided (gives : GivesCreationTime (.obj root))
    (read : stepConfigs (.obj root) = .ok steps) :
    "created_at" ∈ (provided root steps).map Prod.fst := by
  have ofStep {name step : String} {config : Members} {value : Json}
      (isSection : name ∈ stepSections) (configures : Configures root name step config)
      (pair : ("created_at", value) ∈ pairsOfStep config) :
      ("created_at", value) ∈ provided root steps :=
    List.mem_append_left _
      (List.mem_flatMap.mpr ⟨_, mem_stepConfigs isSection configures read, pair⟩)
  have isPair : ∃ value, ("created_at", value) ∈ provided root steps := by
    cases gives with
    | key isSection configures found notNull =>
      have pair := mem_given found notNull
      exact ⟨_, ofStep isSection configures
        (List.mem_append_left _ (List.mem_append_right _ pair))⟩
    | step isSection configures object found =>
      have pair := mem_declared object found
      exact ⟨_, ofStep isSection configures (List.mem_append_right _ pair)⟩
    | root object found => exact ⟨_, List.mem_append_right _ (mem_declared object found)⟩
  obtain ⟨value, member⟩ := isPair
  exact List.mem_map_of_mem member

/-- The last pair has no say if its name is there before. -/
theorem firstVars_append {offered : List (String × Json)} {pair : String × Json}
    (known : pair.1 ∈ offered.map Prod.fst) : firstVars (offered ++ [pair]) = firstVars offered := by
  have found : ((firstVars offered).get? pair.1).isSome := by
    rw [get?_firstVars]
    exact Members.isSome_get?_iff.mpr known
  rw [firstVars, mergeMissing_append]
  exact if_pos found

/-- The time decides the value of no other name. -/
theorem get?_firstVars_pairsOf {name : String} (other : name ≠ "created_at") :
    (firstVars (pairsOf root steps now)).get? name =
      Members.get? (provided root steps) name := by
  have last : Members.get? [("created_at", .str now.compactStamp)] name = none := by
    rw [Members.get?_cons, if_neg other]
    rfl
  rw [get?_firstVars, pairsOf, Members.get?, List.lookup_append]
  exact (congrArg _ last).trans Option.or_none

/-- The variables of an object whose steps can be read are the first values of its pairs. -/
theorem templateVars_obj (read : stepConfigs (.obj root) = .ok steps) (now : Instant) :
    templateVars (.obj root) now = .ok (firstVars (pairsOf root steps now)) := by
  rw [templateVars, read, ← collectVars_eq]
  rfl

/-- Only objects have steps that can be read. -/
theorem exists_obj (read : stepConfigs runConfig = .ok steps) : ∃ root, runConfig = .obj root := by
  cases runConfig with
  | obj root => exact ⟨root, rfl⟩
  | null | bool | num | str | arr => cases read

/-- The clock has no influence on variables other than the time of creation. -/
theorem get?_templateVars_of_ne {vars vars' : Vars} (found : templateVars runConfig now = .ok vars)
    (found' : templateVars runConfig now' = .ok vars') {name : String}
    (other : name ≠ "created_at") : vars.get? name = vars'.get? name := by
  cases read : stepConfigs runConfig with
  | error e =>
    rw [templateVars, read] at found
    cases found
  | ok steps =>
    obtain ⟨root, rfl⟩ := exists_obj read
    cases (templateVars_obj read now).symm.trans found
    cases (templateVars_obj read now').symm.trans found'
    rw [get?_firstVars_pairsOf other, get?_firstVars_pairsOf other]

/-! ## Locations -/

/-- A configuration whose steps cannot be read is refused at any time. -/
theorem resolve_of_refused (read : stepConfigs runConfig = .error e) (spec : OutputSpec)
    (now : Instant) : resolve runConfig spec now = .error e := by
  rw [resolve, read]
  rfl

/-- Locations are resolved from the variables, once the steps can be read. -/
theorem resolve_obj (read : stepConfigs (.obj root) = .ok steps) (spec : OutputSpec)
    (now : Instant) : resolve (.obj root) spec now =
      .ok (declaredLocations (firstVars (pairsOf root steps now)) steps spec) := by
  rw [resolve, read, ← collectVars_eq]
  rfl

/-- A configuration is refused for the same reason, whatever is declared and whatever the time. -/
theorem resolve_eq_error_iff : resolve runConfig spec now = .error e ↔ Refused runConfig e := by
  rw [← stepConfigs_eq_error_iff]
  cases read : stepConfigs runConfig with
  | error e' => rw [resolve_of_refused read, Except.error.injEq, Except.error.injEq]
  | ok steps =>
    obtain ⟨root, rfl⟩ := exists_obj read
    rw [resolve_obj read]
    exact iff_of_false nofun nofun

/-- Where the configuration gives the time of creation the clock does not matter. -/
theorem resolve_eq_of_givesCreationTime (gives : GivesCreationTime runConfig) :
    resolve runConfig spec now = resolve runConfig spec now' := by
  cases read : stepConfigs runConfig with
  | error e => rw [resolve_of_refused read, resolve_of_refused read]
  | ok steps =>
    obtain ⟨root, rfl⟩ := exists_obj read
    have known := mem_provided gives read
    rw [resolve_obj read, resolve_obj read, pairsOf, pairsOf, firstVars_append known,
      firstVars_append known]

/-- The clock has no influence on whether there are locations. -/
theorem resolve_eq_ok_nil_iff :
    resolve runConfig spec now = .ok [] ↔ resolve runConfig spec now' = .ok [] := by
  cases read : stepConfigs runConfig with
  | error e => rw [resolve_of_refused read, resolve_of_refused read]
  | ok steps =>
    obtain ⟨root, rfl⟩ := exists_obj read
    rw [resolve_obj read, resolve_obj read, Except.ok.injEq, Except.ok.injEq]
    exact declaredLocations_eq_nil_iff

/-- What is resolved from a configuration at two times differs in the creation time alone. -/
structure SameButTime (runConfig : Json) (now now' : Instant) : Prop where
  /-- The configuration is refused for the same reason or not at all, whatever is declared. -/
  refused_iff : ∀ e spec spec', resolve runConfig spec now = .error e ↔
    resolve runConfig spec' now' = .error e
  vars_eq : ∀ vars vars', templateVars runConfig now = .ok vars →
    templateVars runConfig now' = .ok vars' →
      ∀ name, name ≠ "created_at" → vars.get? name = vars'.get? name
  locations_eq : GivesCreationTime runConfig →
    ∀ spec, resolve runConfig spec now = resolve runConfig spec now'
  /-- There are locations at both times or at none. -/
  nil_iff : ∀ spec, resolve runConfig spec now = .ok [] ↔ resolve runConfig spec now' = .ok []

/-- The time of resolution matters to the creation time alone, and not at all if a configuration
gives one. -/
theorem resolve_clock (runConfig : Json) (now now' : Instant) : SameButTime runConfig now now' where
  refused_iff e spec spec' := by rw [resolve_eq_error_iff, resolve_eq_error_iff]
  vars_eq _ _ found found' _ other := get?_templateVars_of_ne found found' other
  locations_eq gives _ := resolve_eq_of_givesCreationTime gives
  nil_iff _ := resolve_eq_ok_nil_iff

/-- A declared creation time counts also if it is null. -/
def datedConfig : Json := .obj [("template_vars", .obj [("created_at", .null)])]

/-- A configuration with a batch of a given date resolves alike at all times. -/
theorem resolve_clock_datedConfig : GivesCreationTime datedConfig ∧
    ∀ spec now now', resolve datedConfig spec now = resolve datedConfig spec now' := by
  have gives : GivesCreationTime datedConfig := .root rfl rfl
  exact ⟨gives, fun spec now now' => (resolve_clock datedConfig now now').locations_eq gives spec⟩

end RunLedger.Output
