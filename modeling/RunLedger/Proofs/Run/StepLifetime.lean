import Mathlib.Data.List.Chain
import Mathlib.Order.MinMax
import RunLedger.Proofs.Run.StepField

/-!
# The life of a step

A step is merged again and again, with transitions that may contradict one another and come in any
order. Whatever they say, every row it ever has obeys the same laws (`StepRecord.Lawful`), and each
row keeps what the one before it knew (`StepRecord.Precedes`). Both are shown for one merge and then
for the rows of a whole sequence of deliveries (`StepRecord.rowsOf`).
-/

namespace RunLedger

open Time (Instant)

namespace StepState

/-- A started step is below a successful one, and that is below a failed one. -/
def rank : StepState → Nat
  | started => 0
  | success => 1
  | failure => 2

theorem rank_injective : Function.Injective rank := by
  intro a b same
  cases a <;> cases b <;> simp_all [rank]

instance : LinearOrder StepState := LinearOrder.lift' rank rank_injective

instance : Std.LawfulOrderMax StepState where
  max_le_iff _ _ _ := max_le_iff
  max_eq_or := max_choice

/-- A step may go up in the order of states or stay where it is. -/
theorem mayBecome_iff_le {a b : StepState} : a.mayBecome b = true ↔ a ≤ b := by
  cases a <;> cases b <;> decide

/-- A transition is refused exactly if it leads down in the order of states. -/
theorem mayBecome_eq_false_iff {a b : StepState} : a.mayBecome b = false ↔ b < a := by
  rw [← not_le, ← mayBecome_iff_le, Bool.not_eq_true]

/-- Nothing is below a started step. -/
theorem eq_started_of_le {a : StepState} (le : a ≤ .started) : a = .started := by
  cases a with
  | started => rfl
  | success => exact absurd le (by decide)
  | failure => exact absurd le (by decide)

/-- Nothing is above a failed step. -/
theorem eq_failure_of_ge {a : StepState} (ge : .failure ≤ a) : a = .failure := by
  cases a with
  | started => exact absurd ge (by decide)
  | success => exact absurd ge (by decide)
  | failure => rfl

end StepState

namespace StepRecord

variable {row row' row'' : StepRecord} {t : StepTransition}

@[simp] theorem accept_status (row : StepRecord) (t : StepTransition) :
    (row.accept t).status = t.status := rfl

@[simp] theorem refuse_status (row : StepRecord) (t : StepTransition) :
    (row.refuse t).status = row.status := by
  unfold refuse
  split <;> rfl

@[simp] theorem refuse_finishedAt (row : StepRecord) (t : StepTransition) :
    (row.refuse t).finishedAt = row.finishedAt := by
  unfold refuse
  split <;> rfl

@[simp] theorem refuse_errorMessage (row : StepRecord) (t : StepTransition) :
    (row.refuse t).errorMessage = row.errorMessage := by
  unfold refuse
  split <;> rfl

/-! ## What a row keeps of the one before -/

/-- The state has not moved down, what was known is still known and the names are the same. -/
structure Precedes (row row' : StepRecord) : Prop where
  status : row.status ≤ row'.status
  startedAt : row.startedAt ≠ none → row'.startedAt ≠ none
  finishedAt : row.finishedAt ≠ none → row'.finishedAt ≠ none
  errorMessage : row.errorMessage ≠ none → row'.errorMessage ≠ none
  runId : row'.runId = row.runId
  externalRunId : row'.externalRunId = row.externalRunId
  stepCode : row'.stepCode = row.stepCode

theorem Precedes.refl (row : StepRecord) : row.Precedes row :=
  ⟨le_refl _, id, id, id, rfl, rfl, rfl⟩

theorem Precedes.trans (first : row.Precedes row') (second : row'.Precedes row'') :
    row.Precedes row'' where
  status := first.status.trans second.status
  startedAt known := second.startedAt (first.startedAt known)
  finishedAt known := second.finishedAt (first.finishedAt known)
  errorMessage known := second.errorMessage (first.errorMessage known)
  runId := second.runId.trans first.runId
  externalRunId := second.externalRunId.trans first.externalRunId
  stepCode := second.stepCode.trans first.stepCode

/-- A transition takes nothing back, whether it is allowed or late. -/
theorem precedes_next (row : StepRecord) (t : StepTransition) : row.Precedes (row.next t) := by
  obtain ⟨runId, externalRunId, stepCode⟩ := row.next_names t
  refine ⟨?_, ?_, ?_, ?_, runId, externalRunId, stepCode⟩
  · have up := (startField.mayBecome_step row.startCell t).1
    rw [← startCell_next] at up
    exact StepState.mayBecome_iff_le.mp up
  · intro known
    have kept := startField.value_step_ne_none (c := row.startCell) known t
    rwa [← startCell_next] at kept
  · intro known
    have kept := endField.value_step_ne_none (c := row.endCell) known t
    rwa [← endCell_next] at kept
  · intro known
    have kept := errorField.value_step_ne_none (c := row.errorCell) known t
    rwa [← errorCell_next] at kept

/-- No sequence of transitions takes anything back. -/
theorem precedes_foldl_next (row : StepRecord) (l : List StepTransition) :
    row.Precedes (l.foldl next row) := by
  induction l generalizing row with
  | nil => exact .refl row
  | cons t rest ih => exact (row.precedes_next t).trans (ih (row.next t))

/-! ## The laws of a row -/

/-- The duration is the time between start and end, a running step has neither an end nor an error,
and only a failed step has an error. -/
structure Lawful (row : StepRecord) : Prop where
  timed : row.Timed
  running : row.status = .started → row.finishedAt = none ∧ row.errorMessage = none
  failed : row.errorMessage ≠ none → row.status = .failure

/-- Where the duration is in step, there is one exactly if start and end are known. -/
theorem Timed.isSome_iff (timed : row.Timed) :
    row.durationSeconds.isSome = true ↔
      row.startedAt.isSome = true ∧ row.finishedAt.isSome = true := by
  rw [show row.durationSeconds = _ from timed]
  simp only [Option.isSome_iff_ne_none, ne_eq, durationBetween_eq_none_iff, not_or]

/-- A row of which only the state is known breaks no law. -/
theorem lawful_blank (runId : RunId) (externalRunId : String) (t : StepTransition) :
    (blank runId externalRunId t).Lawful :=
  ⟨timed_blank runId externalRunId t, fun _ => ⟨rfl, rfl⟩, fun known => absurd rfl known⟩

/-- A transition keeps a row lawful. -/
theorem Lawful.next (lawful : row.Lawful) (t : StepTransition) : (row.next t).Lawful := by
  refine ⟨lawful.timed.next t, ?_, ?_⟩
  · intro started
    have below : row.status ≤ .started := started ▸ (row.precedes_next t).status
    have running := lawful.running (StepState.eq_started_of_le below)
    cases order : row.status.mayBecome t.status with
    | true =>
      rw [next_of_allowed order] at started ⊢
      rw [accept_status] at started
      simpa [accept, started, StepState.isTerminal] using running
    | false =>
      rw [next_of_refused order]
      simpa using running
  · intro known
    by_cases before : row.errorMessage = none
    · -- The error is new, and only a failure brings one.
      by_contra other
      apply known
      cases order : row.status.mayBecome t.status with
      | true =>
        rw [next_of_allowed order, accept_status] at other
        simp [next_of_allowed order, accept, other, before]
      | false => simpa [next_of_refused order] using before
    · have up := (row.precedes_next t).status
      rw [lawful.failed before] at up
      exact StepState.eq_failure_of_ge up

/-! ## The rows of a sequence of deliveries -/

/-- A transition that is merged into the row of a step, with the names for a row that is new. -/
structure Delivery where
  runId : RunId
  externalRunId : String
  transition : StepTransition

/-- The rows that deliveries make of a step, one after each of them. -/
def rowsOf : Option StepRecord → List Delivery → List StepRecord
  | _, [] => []
  | row, d :: rest =>
    let row' := merge row d.runId d.externalRunId d.transition
    row' :: rowsOf (some row') rest

/-- Of a step that has a row every delivery makes the next row. -/
theorem rowsOf_some_cons (row : StepRecord) (d : Delivery) (rest : List Delivery) :
    rowsOf (some row) (d :: rest) =
      row.next d.transition :: rowsOf (some (row.next d.transition)) rest := rfl

theorem length_rowsOf (row : Option StepRecord) (l : List Delivery) :
    (rowsOf row l).length = l.length := by
  induction l generalizing row with
  | nil => rfl
  | cons d rest ih => simp [rowsOf, ih]

/-- The first delivery makes its row out of a blank one. -/
theorem rowsOf_none_cons (d : Delivery) (rest : List Delivery) :
    rowsOf none (d :: rest) =
      rowsOf (some (blank d.runId d.externalRunId d.transition)) (d :: rest) := by
  rw [rowsOf_some_cons, ← merge_none]
  rfl

/-- From a lawful row on, all rows are lawful and each takes nothing back from the one before. -/
theorem Lawful.rowsOf (lawful : row.Lawful) (l : List Delivery) :
    (∀ r ∈ rowsOf (some row) l, r.Lawful) ∧ (row :: rowsOf (some row) l).IsChain Precedes := by
  induction l generalizing row with
  | nil =>
    refine ⟨?_, .singleton row⟩
    intro r member
    simp [StepRecord.rowsOf] at member
  | cons d rest ih =>
    obtain ⟨lawfulRest, chain⟩ := ih (lawful.next d.transition)
    rw [rowsOf_some_cons]
    refine ⟨?_, List.isChain_cons_cons.mpr ⟨row.precedes_next d.transition, chain⟩⟩
    intro r member
    rcases List.mem_cons.mp member with rfl | member
    · exact lawful.next d.transition
    · exact lawfulRest r member

/-- Every row that deliveries make of a new step obeys the laws of rows, and each keeps what the one
before it knew. -/
theorem lawful_rowsOf_none (l : List Delivery) :
    (rowsOf none l).length = l.length ∧
      (∀ row ∈ rowsOf none l, row.Lawful ∧ (row.durationSeconds.isSome = true ↔
        row.startedAt.isSome = true ∧ row.finishedAt.isSome = true)) ∧
      (rowsOf none l).IsChain Precedes := by
  refine ⟨length_rowsOf none l, ?_⟩
  cases l with
  | nil => exact ⟨fun row member => absurd member List.not_mem_nil, .nil⟩
  | cons d rest =>
    obtain ⟨lawful, chain⟩ :=
      (lawful_blank d.runId d.externalRunId d.transition).rowsOf (d :: rest)
    rw [rowsOf_none_cons]
    exact ⟨fun row member => ⟨lawful row member, (lawful row member).timed.isSome_iff⟩, chain.tail⟩

end StepRecord

end RunLedger
