import RunLedger.Proofs.Run.StepMerge

/-!
# Where the value of a field comes from

After a list of transitions a field of a step holds what it held before or what one of them told.
If a transition with the final state of the step told a value, then the value is that of such a
transition, so all of them leave it alone exactly if they do not contradict one another
(`Field.step_foldl_eq_self_iff`).
-/

namespace RunLedger

namespace Field

variable {β : Type} (φ : Field β) {c : Cell β} {t : StepTransition} {l : List StepTransition}

/-- After a transition a field has its old value or that of the transition. -/
theorem value_step_cases (c : Cell β) (t : StepTransition) :
    (φ.step c t).value = c.value ∨
      (φ.sets t.status = true ∧ φ.read t = (φ.step c t).value) := by
  cases order : c.state.mayBecome t.status with
  | true =>
    rw [step_of_allowed φ order]
    by_cases sets : φ.sets t.status = true
    · cases told : φ.read t <;> simp [sets]
    · simp [sets]
  | false =>
    rw [step_of_refused φ order]
    by_cases fills : φ.fills t.status = true
    · cases known : c.value <;> simp [fills, φ.sets_of_fills fills]
    · simp [fills]

/-- A field that is known stays known. -/
theorem value_step_ne_none (known : c.value ≠ none) (t : StepTransition) :
    (φ.step c t).value ≠ none :=
  fun missing => known (step_value_eq_none φ missing).1

/-- After transitions a field has its old value or that of one of the transitions. -/
theorem value_foldl_cases (c : Cell β) (l : List StepTransition) :
    (l.foldl φ.step c).value = c.value ∨
      ∃ t ∈ l, φ.sets t.status = true ∧ φ.read t = (l.foldl φ.step c).value := by
  induction l generalizing c with
  | nil => exact .inl rfl
  | cons t rest ih =>
    rw [List.foldl_cons]
    rcases ih (φ.step c t) with kept | ⟨u, member, told⟩
    · rw [kept]
      apply (φ.value_step_cases c t).imp_right
      exact fun told => ⟨t, List.mem_cons_self .., told⟩
    · exact .inr ⟨u, List.mem_cons_of_mem _ member, told⟩

/-- If a transition with the final state told a value, then the final value was told by one with the
final state. -/
theorem exists_told (member : t ∈ l) (final : t.status = (l.foldl φ.step c).state)
    (sets : φ.sets t.status = true) (told : φ.read t ≠ none) :
    (l.foldl φ.step c).value ≠ none ∧
      ∃ u ∈ l, u.status = (l.foldl φ.step c).state ∧ φ.read u = (l.foldl φ.step c).value := by
  induction l using List.reverseRecOn with
  | nil => exact absurd member List.not_mem_nil
  | append_singleton rest u ih =>
    have bound := (φ.mayBecome_foldl c rest).2
    simp only [List.foldl_append, List.foldl_cons, List.foldl_nil] at final ⊢
    generalize rest.foldl φ.step c = d at final ih bound ⊢
    have earlier : t ∈ rest ∨ t = u := by simpa using member
    cases order : d.state.mayBecome u.status with
    | true =>
      rw [step_of_allowed φ order] at final ⊢
      dsimp only at final ⊢
      have same : φ.sets u.status = true := final ▸ sets
      cases last : φ.read u with
      | some x => exact ⟨by simp [same], u, by simp, rfl, by simp [same, last]⟩
      | none =>
        have before : t ∈ rest := earlier.resolve_right fun eq => told (eq ▸ last)
        -- The step was in its final state before, since no transition is above that.
        have level : t.status = d.state :=
          StepState.mayBecome_antisymm (bound t before) (final ▸ order)
        obtain ⟨known, w, found, state, read⟩ := ih before level
        refine ⟨by simpa [same] using known, w, List.mem_append_left _ found, ?_, ?_⟩
        · exact state.trans (level.symm.trans final)
        · simpa [same] using read
    | false =>
      rw [step_of_refused φ order] at final ⊢
      dsimp only at final ⊢
      have before : t ∈ rest := by
        apply earlier.resolve_right
        rintro rfl
        rw [← final, StepState.mayBecome_self] at order
        cases order
      obtain ⟨known, w, found, state, read⟩ := ih before final
      have kept : (if φ.fills u.status then d.value.or (φ.read u) else d.value) = d.value := by
        rw [Option.or_of_isSome (Option.isSome_iff_ne_none.mpr known), ite_self]
      rw [kept]
      exact ⟨known, w, List.mem_append_left _ found, state, read⟩

/-- If what transitions tell depends on their state alone, then the final value is what those with the
final state tell. -/
theorem value_eq_of_reads {shown : StepState → Option β}
    (reads : ∀ t ∈ l, φ.read t = shown t.status) (member : t ∈ l)
    (final : t.status = (l.foldl φ.step c).state) (sets : φ.sets t.status = true)
    (told : shown t.status ≠ none) : (l.foldl φ.step c).value = shown t.status := by
  obtain ⟨-, u, found, level, read⟩ :=
    φ.exists_told member final sets (by rwa [reads t member])
  rw [← read, reads u found, level, final]

/-! ## Transitions that leave a field alone -/

/-- A transition that has the state of a cell and leaves the cell alone tells nothing but its value. -/
theorem value_of_step_eq_self {x : β} (still : φ.step c t = c) (level : t.status = c.state)
    (sets : φ.sets c.state = true) (told : φ.read t = some x) : c.value = some x := by
  have value := congrArg Cell.value still
  rw [step_of_allowed φ (by rw [level, StepState.mayBecome_self]), level, if_pos sets, told] at value
  exact value.symm

/-- A transition leaves a cell alone if it is not above it, has nothing new to tell at its state and
no gap to fill. -/
theorem step_eq_self (bound : t.status.mayBecome c.state = true)
    (known : t.status = c.state → φ.sets c.state = true → (φ.read t).or c.value = c.value)
    (gap : c.value = none → φ.fills t.status = true → φ.read t = none) : φ.step c t = c := by
  cases order : c.state.mayBecome t.status with
  | true =>
    have level := StepState.mayBecome_antisymm bound order
    rw [step_of_allowed φ order, level]
    by_cases sets : φ.sets c.state = true
    · rw [if_pos sets, known level sets]
    · rw [if_neg sets]
  | false =>
    rw [step_of_refused φ order]
    by_cases fills : φ.fills t.status = true
    · rw [if_pos fills]
      cases missing : c.value with
      | none => rw [gap missing fills, Option.or_none, ← missing]
      | some x => rw [Option.some_or, ← missing]
    · rw [if_neg fills]

/-- The transitions of a list that have a state do not contradict one another. -/
def Agrees (l : List StepTransition) (state : StepState) : Prop :=
  ∀ t ∈ l, ∀ u ∈ l, t.status = state → u.status = state →
    ∀ x y, φ.read t = some x → φ.read u = some y → x = y

/-- Transitions that were merged leave the field alone exactly if those with the final state do not
contradict one another. -/
theorem step_foldl_eq_self_iff (c : Cell β) (l : List StepTransition) :
    (∀ t ∈ l, φ.step (l.foldl φ.step c) t = l.foldl φ.step c) ↔
      (φ.sets (l.foldl φ.step c).state = true → φ.Agrees l (l.foldl φ.step c).state) := by
  constructor
  · intro still sets t member u member' level level' x y told told'
    have first := φ.value_of_step_eq_self (still t member) level sets told
    have second := φ.value_of_step_eq_self (still u member') level' sets told'
    exact Option.some.inj (first.symm.trans second)
  · intro agrees t member
    apply φ.step_eq_self ((φ.mayBecome_foldl c l).2 t member)
    · intro level sets
      cases told : φ.read t with
      | none => rfl
      | some x =>
        obtain ⟨known, u, found, state, read⟩ :=
          φ.exists_told member level (level ▸ sets) (by simp [told])
        obtain ⟨y, value⟩ := Option.ne_none_iff_exists'.mp known
        rw [value, Option.some_or, agrees sets t member u found level state x y told
          (read.trans value)]
    · exact fun missing => (φ.foldl_value_eq_none missing).2.1 t member

end Field

/-! ## The fields of a row -/

namespace StepRecord

variable (row : StepRecord) (l : List StepTransition)

/-- The start of a row is its first field, merged by itself. -/
theorem startedAt_foldl_next :
    (l.foldl next row).startedAt = (l.foldl startField.step row.startCell).value :=
  congrArg Cell.value (foldl_next row l).2.2.1

theorem finishedAt_foldl_next :
    (l.foldl next row).finishedAt = (l.foldl endField.step row.endCell).value :=
  congrArg Cell.value (foldl_next row l).2.2.2.1

theorem errorMessage_foldl_next :
    (l.foldl next row).errorMessage = (l.foldl errorField.step row.errorCell).value :=
  congrArg Cell.value (foldl_next row l).2.2.2.2

theorem state_endField :
    (l.foldl endField.step row.endCell).state = (l.foldl next row).status :=
  (congrArg Cell.state (foldl_next row l).2.2.2.1).symm

theorem state_errorField :
    (l.foldl errorField.step row.errorCell).state = (l.foldl next row).status :=
  (congrArg Cell.state (foldl_next row l).2.2.2.2).symm

end StepRecord

end RunLedger
