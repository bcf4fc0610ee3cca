import Mathlib.Data.List.Induction
import RunLedger.Run.Merge

/-!
# Replaying the transitions of a step

The start, the end and the error of a step are merged in the same way: a transition that the state
of the row allows sets the field, if its state may set it, and a late one at most fills a gap. So
each of them is a `Cell`, a state with a value, and one theorem about cells, `Field.foldl_foldl`,
says that replaying a list of transitions changes nothing. The duration follows from the start and
the end in every row that was made by transitions.
-/

namespace RunLedger

open Time (Instant)

namespace StepState

variable {a b c : StepState}

/-- A step may be told its own state again. -/
theorem mayBecome_self (a : StepState) : a.mayBecome a = true := by cases a <;> rfl

/-- A step may go in one go where it may go in two. -/
theorem mayBecome_trans (first : a.mayBecome b = true) (second : b.mayBecome c = true) :
    a.mayBecome c = true := by
  cases a <;> cases b <;> cases c <;> first | rfl | contradiction

/-- Of two states at least one may follow the other. -/
theorem mayBecome_total (refused : a.mayBecome b = false) : b.mayBecome a = true := by
  cases a <;> cases b <;> first | rfl | contradiction

/-- Different states do not follow each other in both directions. -/
theorem mayBecome_antisymm (first : a.mayBecome b = true) (second : b.mayBecome a = true) :
    a = b := by
  cases a <;> cases b <;> first | rfl | contradiction

end StepState

/-- A field of a step next to the state of the step. -/
structure Cell (β : Type) where
  state : StepState
  value : Option β

/-- How a field is merged: which transitions that are allowed set it, and which late ones fill it. -/
structure Field (β : Type) where
  read : StepTransition → Option β
  sets : StepState → Bool
  fills : StepState → Bool
  sets_of_fills : ∀ {state : StepState}, fills state = true → sets state = true

namespace Field

variable {β : Type} (φ : Field β) {c : Cell β} {t : StepTransition} {l : List StepTransition}

/-- A cell after a transition. -/
def step (c : Cell β) (t : StepTransition) : Cell β :=
  if c.state.mayBecome t.status then
    ⟨t.status, if φ.sets t.status then (φ.read t).or c.value else c.value⟩
  else ⟨c.state, if φ.fills t.status then c.value.or (φ.read t) else c.value⟩

/-- An allowed transition changes the state, and sets the field if its state may. -/
theorem step_of_allowed (allowed : c.state.mayBecome t.status = true) :
    φ.step c t = ⟨t.status, if φ.sets t.status then (φ.read t).or c.value else c.value⟩ :=
  if_pos allowed

/-- A late transition leaves the state and at most fills a gap. -/
theorem step_of_refused (refused : c.state.mayBecome t.status = false) :
    φ.step c t = ⟨c.state, if φ.fills t.status then c.value.or (φ.read t) else c.value⟩ :=
  if_neg (Bool.eq_false_iff.mp refused)

/-- The state of a step does not depend on the value of its field. -/
theorem state_step (c : Cell β) (value : Option β) (t : StepTransition) :
    (φ.step ⟨c.state, value⟩ t).state = (φ.step c t).state := by
  unfold step
  dsimp only
  split <;> rfl

/-- The state of a cell does not depend on its value. -/
theorem state_foldl (c : Cell β) (value : Option β) (l : List StepTransition) :
    (l.foldl φ.step ⟨c.state, value⟩).state = (l.foldl φ.step c).state := by
  induction l generalizing c value with
  | nil => rfl
  | cons t rest ih =>
    have same := ih (φ.step c t) (φ.step ⟨c.state, value⟩ t).value
    rwa [← state_step φ c value t] at same

/-- The state of a step never moves down. -/
theorem mayBecome_step (c : Cell β) (t : StepTransition) :
    c.state.mayBecome (φ.step c t).state = true ∧ t.status.mayBecome (φ.step c t).state = true := by
  cases order : c.state.mayBecome t.status with
  | true =>
    rw [step_of_allowed φ order]
    exact ⟨order, t.status.mayBecome_self⟩
  | false =>
    rw [step_of_refused φ order]
    exact ⟨c.state.mayBecome_self, StepState.mayBecome_total order⟩

/-- A step ends at or above its state and the states of all transitions. -/
theorem mayBecome_foldl (c : Cell β) (l : List StepTransition) :
    c.state.mayBecome (l.foldl φ.step c).state = true ∧
      ∀ t ∈ l, t.status.mayBecome (l.foldl φ.step c).state = true := by
  induction l generalizing c with
  | nil => exact ⟨c.state.mayBecome_self, fun t member => absurd member List.not_mem_nil⟩
  | cons t rest ih =>
    obtain ⟨above, others⟩ := ih (φ.step c t)
    obtain ⟨fromCell, fromTransition⟩ := mayBecome_step φ c t
    refine ⟨StepState.mayBecome_trans fromCell above, fun u member => ?_⟩
    rcases List.mem_cons.mp member with rfl | member
    · exact StepState.mayBecome_trans fromTransition above
    · exact others u member

/-! ## A field that stays empty -/

/-- A field that is empty after a transition was empty before, and the transition had nothing to
set or to fill in. -/
theorem step_value_eq_none (empty : (φ.step c t).value = none) :
    c.value = none ∧ (φ.fills t.status = true → φ.read t = none) ∧
      ∀ value, φ.step ⟨c.state, value⟩ t = ⟨(φ.step c t).state, value⟩ := by
  obtain ⟨state, x⟩ := c
  cases order : state.mayBecome t.status with
  | true =>
    rw [step_of_allowed φ order] at empty ⊢
    cases sets : φ.sets t.status with
    | true =>
      simp only [sets, if_true, Option.or_eq_none_iff] at empty
      refine ⟨empty.2, fun _ => empty.1, fun value => ?_⟩
      rw [step_of_allowed φ order, sets, if_pos rfl, empty.1, Option.none_or]
    | false =>
      simp only [sets, Bool.false_eq_true, if_false] at empty
      refine ⟨empty, fun fills => ?_, fun value => ?_⟩
      · exact absurd (φ.sets_of_fills fills) (Bool.eq_false_iff.mp sets)
      · rw [step_of_allowed φ order, sets, if_neg Bool.false_ne_true]
  | false =>
    rw [step_of_refused φ order] at empty ⊢
    cases fills : φ.fills t.status with
    | true =>
      simp only [fills, if_true, Option.or_eq_none_iff] at empty
      refine ⟨empty.1, fun _ => empty.2, fun value => ?_⟩
      rw [step_of_refused φ order, fills, if_pos rfl, empty.2, Option.or_none]
    | false =>
      simp only [fills, Bool.false_eq_true, if_false] at empty
      refine ⟨empty, fun impossible => absurd impossible Bool.false_ne_true, fun value => ?_⟩
      rw [step_of_refused φ order, fills, if_neg Bool.false_ne_true]

/-- A field that is empty after a list of transitions was empty before, no transition had anything
to fill in, and the list leaves any other value as it is. -/
theorem foldl_value_eq_none (empty : (l.foldl φ.step c).value = none) :
    c.value = none ∧ (∀ t ∈ l, φ.fills t.status = true → φ.read t = none) ∧
      ∀ value, l.foldl φ.step ⟨c.state, value⟩ = ⟨(l.foldl φ.step c).state, value⟩ := by
  induction l generalizing c with
  | nil => exact ⟨empty, fun t member => absurd member List.not_mem_nil, fun _ => rfl⟩
  | cons t rest ih =>
    obtain ⟨before, later, kept⟩ := ih empty
    obtain ⟨first, nothing, keeps⟩ := step_value_eq_none φ before
    refine ⟨first, fun u member => ?_, fun value => ?_⟩
    · rcases List.mem_cons.mp member with rfl | member
      · exact nothing
      · exact later u member
    · rw [List.foldl_cons, keeps value, kept value, List.foldl_cons]

/-! ## Replaying -/

/-- Transitions that all come too late change nothing, if none of them fills the field. -/
theorem foldl_of_refused (refused : ∀ t ∈ l, c.state.mayBecome t.status = false)
    (nothing : c.value = none → ∀ t ∈ l, φ.fills t.status = true → φ.read t = none) :
    l.foldl φ.step c = c := by
  induction l with
  | nil => rfl
  | cons t rest ih =>
    have same : φ.step c t = c := by
      rw [step_of_refused φ (refused t (List.mem_cons_self ..))]
      obtain ⟨state, value⟩ := c
      split
      · rename_i fills
        cases value with
        | none => rw [nothing rfl t (List.mem_cons_self ..) fills, Option.none_or]
        | some x => rfl
      · rfl
    rw [List.foldl_cons, same]
    exact ih (fun u member => refused u (List.mem_cons_of_mem _ member))
      fun empty u member => nothing empty u (List.mem_cons_of_mem _ member)

/-- One more transition after a list that changes nothing when it is replayed. -/
theorem replay_step (stable : l.foldl φ.step (l.foldl φ.step c) = l.foldl φ.step c)
    (t : StepTransition) :
    φ.step (l.foldl φ.step (φ.step (l.foldl φ.step c) t)) t = φ.step (l.foldl φ.step c) t := by
  obtain ⟨_, lower⟩ := mayBecome_foldl φ c l
  generalize l.foldl φ.step c = d at stable lower
  have quiet := foldl_value_eq_none φ (c := d) (l := l)
  rw [stable] at quiet
  cases order : d.state.mayBecome t.status with
  | true =>
    rw [step_of_allowed φ order]
    by_cases level : t.status.mayBecome d.state = true
    · -- The transition has the state of the row: it sets the field again, or leaves it alone.
      have same := StepState.mayBecome_antisymm order level
      by_cases setting : φ.sets t.status = true ∧ φ.read t ≠ none
      · obtain ⟨x, read⟩ := Option.ne_none_iff_exists'.mp setting.2
        have again : (l.foldl φ.step ⟨d.state, some x⟩).state = d.state :=
          (state_foldl φ d (some x) l).trans (congrArg Cell.state stable)
        rw [setting.1, if_pos rfl, read, Option.some_or, ← same,
          step_of_allowed φ (by rw [again]; exact order), setting.1, if_pos rfl, read,
          Option.some_or, ← same]
      · have unset : (if φ.sets t.status then (φ.read t).or d.value else d.value) = d.value := by
          split
          · rename_i sets
            rw [not_not.mp fun read => setting ⟨sets, read⟩, Option.none_or]
          · rfl
        rw [unset, ← same, show (⟨d.state, d.value⟩ : Cell β) = d from rfl, stable,
          step_of_allowed φ order, unset, ← same]
    · -- The transition moves the row above all others, which now come too late.
      have above : ∀ u ∈ l, StepState.mayBecome t.status u.status = false := fun u member =>
        Bool.eq_false_iff.mpr fun up => level (StepState.mayBecome_trans up (lower u member))
      rw [foldl_of_refused φ above, step_of_allowed φ t.status.mayBecome_self]
      · dsimp only
        split
        · rw [← Option.or_assoc, Option.or_self]
        · rfl
      · intro empty
        dsimp only at empty
        split at empty
        · exact (quiet (Option.or_eq_none_iff.mp empty).2).2.1
        · exact (quiet empty).2.1
  | false =>
    rw [step_of_refused φ order]
    by_cases filling : φ.fills t.status = true ∧ d.value = none
    · -- The transition fills the field, which the others leave alone.
      rw [if_pos filling.1, filling.2, Option.none_or, (quiet filling.2).2.2]
      have late : φ.step ⟨d.state, φ.read t⟩ t = _ := step_of_refused φ order
      rw [late, if_pos filling.1]
      exact congrArg (Cell.mk d.state) Option.or_self
    · have unfilled : (if φ.fills t.status then d.value.or (φ.read t) else d.value) = d.value := by
        split
        · rename_i fills
          obtain ⟨x, value⟩ := Option.ne_none_iff_exists'.mp fun empty => filling ⟨fills, empty⟩
          rw [value, Option.some_or]
        · rfl
      rw [unfilled, show (⟨d.state, d.value⟩ : Cell β) = d from rfl, stable,
        step_of_refused φ order, unfilled]

/-- Replaying a list of transitions changes nothing. -/
theorem foldl_foldl (c : Cell β) (l : List StepTransition) :
    l.foldl φ.step (l.foldl φ.step c) = l.foldl φ.step c := by
  induction l using List.reverseRecOn with
  | nil => rfl
  | append_singleton rest t ih =>
    simp only [List.foldl_append, List.foldl_cons, List.foldl_nil]
    exact replay_step φ ih t

end Field

/-! ## Rows -/

/-- Any transition tells when a step started, and a late start still does. -/
def startField : Field Instant where
  read := (·.startedAt)
  sets _ := true
  fills state := state = .started
  sets_of_fills _ := rfl

/-- The end of a step belongs to the states in which it has ended. -/
def endField : Field Instant where
  read := (·.finishedAt)
  sets := (·.isTerminal)
  fills _ := false
  sets_of_fills fills := absurd fills Bool.false_ne_true

/-- The error of a step belongs to its failure. -/
def errorField : Field String where
  read := (·.errorMessage)
  sets state := state = .failure
  fills _ := false
  sets_of_fills fills := absurd fills Bool.false_ne_true

namespace StepRecord

variable {row : StepRecord} {t : StepTransition} {runId : RunId} {externalRunId : String}

def startCell (row : StepRecord) : Cell Instant := ⟨row.status, row.startedAt⟩

def endCell (row : StepRecord) : Cell Instant := ⟨row.status, row.finishedAt⟩

def errorCell (row : StepRecord) : Cell String := ⟨row.status, row.errorMessage⟩

/-- The duration of a row is the time between its start and its end. -/
def Timed (row : StepRecord) : Prop :=
  row.durationSeconds = durationBetween row.startedAt row.finishedAt

/-- The row after one more transition. -/
def next (row : StepRecord) (t : StepTransition) : StepRecord :=
  merge (some row) row.runId row.externalRunId t

theorem next_of_allowed (allowed : row.status.mayBecome t.status = true) :
    row.next t = row.accept t := if_pos allowed

theorem next_of_refused (refused : row.status.mayBecome t.status = false) :
    row.next t = row.refuse t := if_neg (Bool.eq_false_iff.mp refused)

/-- The first transition of a step acts like a second one on a row that knows its state only. -/
theorem merge_none (runId : RunId) (externalRunId : String) (t : StepTransition) :
    merge none runId externalRunId t = (blank runId externalRunId t).next t := by
  rw [next_of_allowed t.status.mayBecome_self]
  rfl

/-- A transition leaves the row with its run and its step. -/
theorem next_names (row : StepRecord) (t : StepTransition) :
    (row.next t).runId = row.runId ∧ (row.next t).externalRunId = row.externalRunId ∧
      (row.next t).stepCode = row.stepCode := by
  cases order : row.status.mayBecome t.status with
  | true =>
    rw [next_of_allowed order]
    exact ⟨rfl, rfl, rfl⟩
  | false =>
    rw [next_of_refused order, refuse]
    split <;> exact ⟨rfl, rfl, rfl⟩

/-- The start of a row is merged as a cell of its own. -/
theorem startCell_next (row : StepRecord) (t : StepTransition) :
    (row.next t).startCell = startField.step row.startCell t := by
  cases order : row.status.mayBecome t.status with
  | true =>
    rw [next_of_allowed order, Field.step_of_allowed _ order]
    rfl
  | false =>
    rw [next_of_refused order, Field.step_of_refused _ order, refuse]
    cases late : t.status <;> cases known : row.startedAt <;>
      simp [startCell, startField, known]

theorem endCell_next (row : StepRecord) (t : StepTransition) :
    (row.next t).endCell = endField.step row.endCell t := by
  cases order : row.status.mayBecome t.status with
  | true =>
    rw [next_of_allowed order, Field.step_of_allowed _ order]
    rfl
  | false =>
    rw [next_of_refused order, Field.step_of_refused _ order, refuse]
    split <;> rfl

theorem errorCell_next (row : StepRecord) (t : StepTransition) :
    (row.next t).errorCell = errorField.step row.errorCell t := by
  cases order : row.status.mayBecome t.status with
  | true =>
    rw [next_of_allowed order, Field.step_of_allowed _ order]
    simp [errorCell, accept, errorField]
  | false =>
    rw [next_of_refused order, Field.step_of_refused _ order, refuse]
    split <;> rfl

theorem timed_blank (runId : RunId) (externalRunId : String) (t : StepTransition) :
    (blank runId externalRunId t).Timed := rfl

/-- A time that was known once is known for good, so an older duration is never missed. -/
theorem durationBetween_or {start start' finish finish' : Option Instant}
    (starts : start = none → start' = none) (finishes : finish = none → finish' = none) :
    (durationBetween start finish).or (durationBetween start' finish') =
      durationBetween start finish := by
  cases start with
  | none => rw [starts rfl]; rfl
  | some s =>
    cases finish with
    | none =>
      rw [finishes rfl]
      cases start' <;> rfl
    | some f => rfl

/-- A transition keeps the duration in step with the start and the end. -/
theorem Timed.next (timed : row.Timed) (t : StepTransition) : (row.next t).Timed := by
  cases order : row.status.mayBecome t.status with
  | true =>
    rw [next_of_allowed order]
    show (durationBetween _ _).or row.durationSeconds = _
    rw [show row.durationSeconds = _ from timed]
    refine durationBetween_or (fun missing => (Option.or_eq_none_iff.mp missing).2) fun missing => ?_
    split at missing
    · exact (Option.or_eq_none_iff.mp missing).2
    · exact missing
  | false =>
    rw [next_of_refused order, refuse]
    split
    · rfl
    · exact timed

/-- A row is known by its names, its cells and its duration. -/
theorem eq_of_cells {row' : StepRecord} (names : row.runId = row'.runId ∧
      row.externalRunId = row'.externalRunId ∧ row.stepCode = row'.stepCode)
    (start : row.startCell = row'.startCell) (finish : row.endCell = row'.endCell)
    (error : row.errorCell = row'.errorCell)
    (durations : row.durationSeconds = row'.durationSeconds) : row = row' := by
  obtain ⟨runId, externalRunId, stepCode, status, startedAt, finishedAt, duration, message⟩ := row
  obtain ⟨runId', externalRunId', stepCode', status', startedAt', finishedAt', duration', message'⟩ :=
    row'
  obtain ⟨rfl, rfl, rfl⟩ := names
  cases start
  cases finish
  cases error
  obtain rfl : duration = duration' := durations
  rfl

/-- A timed row is known by its names and its cells. -/
theorem ext_of_cells {row' : StepRecord} (timed : row.Timed) (timed' : row'.Timed)
    (names : row.runId = row'.runId ∧ row.externalRunId = row'.externalRunId ∧
      row.stepCode = row'.stepCode)
    (start : row.startCell = row'.startCell) (finish : row.endCell = row'.endCell)
    (error : row.errorCell = row'.errorCell) : row = row' := by
  refine eq_of_cells names start finish error ?_
  calc row.durationSeconds = durationBetween row.startedAt row.finishedAt := timed
    _ = durationBetween row'.startedAt row'.finishedAt :=
      congrArg₂ durationBetween (congrArg Cell.value start) (congrArg Cell.value finish)
    _ = row'.durationSeconds := Eq.symm timed'

/-- After transitions the duration is still in step, the names are the same, and start, end and
error are as their cells. -/
theorem foldl_next (row : StepRecord) (l : List StepTransition) :
    (row.Timed → (l.foldl next row).Timed) ∧
      ((l.foldl next row).runId = row.runId ∧ (l.foldl next row).externalRunId = row.externalRunId ∧
        (l.foldl next row).stepCode = row.stepCode) ∧
      (l.foldl next row).startCell = l.foldl startField.step row.startCell ∧
      (l.foldl next row).endCell = l.foldl endField.step row.endCell ∧
      (l.foldl next row).errorCell = l.foldl errorField.step row.errorCell := by
  induction l generalizing row with
  | nil => exact ⟨id, ⟨rfl, rfl, rfl⟩, rfl, rfl, rfl⟩
  | cons t rest ih =>
    obtain ⟨timed, ⟨runId, externalRunId, stepCode⟩, start, finish, error⟩ := ih (row.next t)
    obtain ⟨runId', externalRunId', stepCode'⟩ := row.next_names t
    refine ⟨fun before => timed (before.next t), ⟨runId.trans runId',
      externalRunId.trans externalRunId', stepCode.trans stepCode'⟩, ?_, ?_, ?_⟩
    · rw [List.foldl_cons, start, startCell_next, List.foldl_cons]
    · rw [List.foldl_cons, finish, endCell_next, List.foldl_cons]
    · rw [List.foldl_cons, error, errorCell_next, List.foldl_cons]

end StepRecord

end RunLedger
