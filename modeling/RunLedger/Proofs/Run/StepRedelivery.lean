import RunLedger.Proofs.Event.Transition
import RunLedger.Proofs.Run.StepReplay

/-!
# Merging an older history again

Two syncs of a run may overlap, and the one that asked first, for a shorter history, may be the last
to commit. The state of a step stands that, but its times and its error do not: an event that brings
the step to the state in which it is writes them again, and an older event may tell something else.
`StepRecord.redelivered_iff` says which histories are safe.
-/

namespace RunLedger

/-- Every prefix of a list leaves a value alone exactly if every item does. -/
theorem forall_prefix_foldl_eq_self_iff {α β : Type} {f : β → α → β} {b : β} {l : List α} :
    (∀ p, p <+: l → p.foldl f b = b) ↔ ∀ a ∈ l, f b a = b := by
  constructor
  · intro stable a member
    obtain ⟨before, after, rfl⟩ := List.append_of_mem member
    have last := stable (before ++ [a]) ⟨after, by simp⟩
    rwa [List.foldl_append, stable before (List.prefix_append _ _)] at last
  · intro still p older
    exact foldl_eq_self fun a member => still a (older.subset member)

/-! ## What the events of a step tell -/

namespace EngineEvent

variable {stepCode : String} {events : List EngineEvent} {state : StepState}

/-- If the transitions of a state show in a field what the events tell, they agree on the field
exactly if the events do. -/
theorem agrees_stepHistory_iff {β : Type} (φ : Field β) (shows : StepState → Bool)
    (tells : EngineEvent → Option β)
    (read : ∀ e t, e.transition = some t → φ.read t = if shows t.status then tells e else none) :
    φ.Agrees (stepHistory stepCode events) state ↔
      (shows state = true → ∀ e ∈ events, ∀ e' ∈ events, e.Brings stepCode state →
        e'.Brings stepCode state → ∀ x y, tells e = some x → tells e' = some y → x = y) := by
  constructor
  · intro agrees shown e found e' found' brings brings' x y told told'
    obtain ⟨t, leaves, code, level⟩ := brings_iff.mp brings
    obtain ⟨t', leaves', code', level'⟩ := brings_iff.mp brings'
    apply agrees t (mem_stepHistory.mpr ⟨⟨e, found, leaves⟩, code⟩)
      t' (mem_stepHistory.mpr ⟨⟨e', found', leaves'⟩, code'⟩) level level'
    · rw [read e t leaves, level, if_pos shown, told]
    · rw [read e' t' leaves', level', if_pos shown, told']
  · intro same t member t' member' level level' x y told told'
    obtain ⟨⟨e, found, leaves⟩, code⟩ := mem_stepHistory.mp member
    obtain ⟨⟨e', found', leaves'⟩, code'⟩ := mem_stepHistory.mp member'
    rw [read e t leaves, level, Option.ite_none_right_eq_some] at told
    rw [read e' t' leaves', level', Option.ite_none_right_eq_some] at told'
    exact same told.1 e found e' found' (brings_iff.mpr ⟨t, leaves, code, level⟩)
      (brings_iff.mpr ⟨t', leaves', code', level'⟩) x y told.2 told'.2

/-- Two events tell the same time, if both tell one, and the same error, if they report a failure. -/
def TellsSame (state : StepState) (e e' : EngineEvent) : Prop :=
  (∀ x y, e.timestamp = some x → e'.timestamp = some y → x = y) ∧
    (state = .failure → e.logMessage = e'.logMessage)

/-- The fields of a state agree throughout a history exactly if the events that bring the state tell
the same. -/
theorem agrees_iff_tellsSame :
    ((startField.sets state = true → startField.Agrees (stepHistory stepCode events) state) ∧
      (endField.sets state = true → endField.Agrees (stepHistory stepCode events) state) ∧
      (errorField.sets state = true → errorField.Agrees (stepHistory stepCode events) state)) ↔
      ∀ e ∈ events, ∀ e' ∈ events, e.Brings stepCode state → e'.Brings stepCode state →
        TellsSame state e e' := by
  rw [agrees_stepHistory_iff startField (fun s => s = .started) (·.timestamp)
      (fun e t told => by simpa [startField] using (fields_of_transition told).1),
    agrees_stepHistory_iff endField (·.isTerminal) (·.timestamp)
      (fun e t told => (fields_of_transition told).2.1),
    agrees_stepHistory_iff errorField (fun s => s = .failure) (fun e => some e.logMessage)
      (fun e t told => by simpa [errorField] using (fields_of_transition told).2.2)]
  cases state <;>
    simp [startField, endField, errorField, StepState.isTerminal, TellsSame, forall_and]

end EngineEvent

/-! ## Histories that may come again -/

namespace StepRecord

open EngineEvent

variable {row : StepRecord} {runId : RunId} {externalRunId : String}

/-- Transitions that were merged leave a row alone exactly if those with its state do not contradict
one another. -/
theorem next_foldl_next_eq_self_iff (founded : ¬ row.Unfounded) (l : List StepTransition) :
    (∀ t ∈ l, (l.foldl next row).next t = l.foldl next row) ↔
      ((startField.sets (l.foldl next row).status = true →
          startField.Agrees l (l.foldl next row).status) ∧
        (endField.sets (l.foldl next row).status = true →
          endField.Agrees l (l.foldl next row).status) ∧
        (errorField.sets (l.foldl next row).status = true →
          errorField.Agrees l (l.foldl next row).status)) := by
  obtain ⟨-, -, start, finish, error⟩ := foldl_next row l
  have starts := startField.step_foldl_eq_self_iff row.startCell l
  have ends := endField.step_foldl_eq_self_iff row.endCell l
  have errors := errorField.step_foldl_eq_self_iff row.errorCell l
  rw [← start] at starts
  rw [← finish] at ends
  rw [← error] at errors
  refine Iff.trans ?_ (and_congr starts (and_congr ends errors))
  constructor
  · intro still
    refine ⟨fun t member => ?_, fun t member => ?_, fun t member => ?_⟩
    · rw [← startCell_next, still t member]
    · rw [← endCell_next, still t member]
    · rw [← errorCell_next, still t member]
  · rintro ⟨start, finish, error⟩ t member
    have alone : ∀ u ∈ [t], u ∈ l := by simpa using member
    exact foldl_next_eq_self founded alone (start t member) (finish t member) (error t member)

/-- Transitions that were merged before do not move the state. -/
theorem status_foldl_next_foldl_next {l replayed : List StepTransition}
    (again : ∀ t ∈ replayed, t ∈ l) :
    (replayed.foldl next (l.foldl next row)).status = (l.foldl next row).status := by
  rw [status_foldl_next (l.foldl next row)]
  apply foldl_eq_self
  intro state member
  obtain ⟨t, redelivered, rfl⟩ := List.mem_map.mp member
  exact max_eq_left (le_status_foldl_next (again t redelivered))

/-- An older history that is merged once more never moves the state of a step. It changes nothing,
however old it is, exactly if the events that bring the step to its state tell the same. -/
theorem redelivered_iff (runId : RunId) (externalRunId stepCode : String)
    (events : List EngineEvent) {row : Option StepRecord}
    (founded : ∀ r, row = some r → ¬ r.Unfounded) :
    ((∀ older, older <+: stepHistory stepCode events →
        mergeAll runId externalRunId
            (mergeAll runId externalRunId row (stepHistory stepCode events)) older =
          mergeAll runId externalRunId row (stepHistory stepCode events)) ↔
      ∀ state, (mergeAll runId externalRunId row (stepHistory stepCode events)).map (·.status) =
          some state →
        ∀ e ∈ events, ∀ e' ∈ events, e.Brings stepCode state → e'.Brings stepCode state →
          TellsSame state e e') ∧
      ∀ older, older <+: stepHistory stepCode events →
        (mergeAll runId externalRunId
            (mergeAll runId externalRunId row (stepHistory stepCode events)) older).map (·.status) =
          (mergeAll runId externalRunId row (stepHistory stepCode events)).map (·.status) := by
  generalize isHistory : stepHistory stepCode events = history
  rw [mergeAll_eq_map row history]
  cases before : beforeBatch runId externalRunId row history with
  | none =>
    have empty : history = [] := by
      cases history with
      | nil => rfl
      | cons t rest => cases row <;> cases before
    subst empty
    simp [mergeAll]
  | some first =>
    simp only [Option.map_some, mergeAll_some, Option.some.injEq, forall_eq']
    constructor
    · rw [forall_prefix_foldl_eq_self_iff, next_foldl_next_eq_self_iff
        (founded_beforeBatch founded before), ← isHistory, agrees_iff_tellsSame]
    · intro p older
      exact status_foldl_next_foldl_next fun t member => older.subset member

/-- A step yields its output after five seconds and succeeds after six. -/
def outputThenSuccess : List EngineEvent :=
  [{ happening := .stepOutput none none, stepKey := some "load",
     timestamp := some (.utc 5000000000), message := none, level := none, raw := .null },
   { happening := .stepSuccess, stepKey := some "load",
     timestamp := some (.utc 6000000000), message := none, level := none, raw := .null }]

/-- Both events bring the step to success, so a history that ends with the output takes the end of
the step back. -/
theorem redelivered_iff_outputThenSuccess :
    (∀ r, (none : Option StepRecord) = some r → ¬ r.Unfounded) ∧
      ¬ ∀ older, older <+: stepHistory "load" outputThenSuccess →
        mergeAll 1 "r1" (mergeAll 1 "r1" none (stepHistory "load" outputThenSuccess)) older =
          mergeAll 1 "r1" none (stepHistory "load" outputThenSuccess) := by
  have founded : ∀ r, (none : Option StepRecord) = some r → ¬ r.Unfounded := by simp
  refine ⟨founded, ?_⟩
  intro stable
  have final : (mergeAll 1 "r1" none (stepHistory "load" outputThenSuccess)).map (·.status) =
      some .success := by
    rw [status_mergeAll]
    rfl
  have same := (redelivered_iff 1 "r1" "load" outputThenSuccess founded).1.mp stable .success final
    _ (List.mem_cons_self ..) _ (List.mem_cons_of_mem _ (List.mem_cons_self ..))
    ⟨rfl, rfl⟩ ⟨rfl, rfl⟩
  exact absurd (same.1 _ _ rfl rfl) (by decide)

end StepRecord

end RunLedger
