import RunLedger.Sync.Plan

/-!
# The transitions of events

An event that names a step and brings it to a state leaves one transition, and its fields are
determined by that state. An event with a time therefore leaves one of three transitions: a start
with that time, a success that ended then, or a failure that ended then with an error
(`EngineEvent.transition_of_timestamp`).
-/

namespace RunLedger

open Time (Instant)

namespace StepTransition

/-- The step started. -/
def start (stepCode : String) (time : Instant) : StepTransition :=
  ⟨stepCode, .started, some time, none, none⟩

/-- The step succeeded. -/
def success (stepCode : String) (time : Instant) : StepTransition :=
  ⟨stepCode, .success, none, some time, none⟩

/-- The step failed, for a reason that may be known. -/
def failure (stepCode : String) (time : Instant) (reason : Option String) : StepTransition :=
  ⟨stepCode, .failure, none, some time, reason⟩

end StepTransition

namespace EngineEvent

variable {e : EngineEvent} {t : StepTransition} {stepCode : String} {events : List EngineEvent}
  {state : StepState}

/-- The event brings a step to a state. -/
def Brings (e : EngineEvent) (stepCode : String) (state : StepState) : Prop :=
  e.stepKey = some stepCode ∧ e.stepState = some state

/-- An event brings a step to a state exactly if it is reduced to such a transition. -/
theorem brings_iff :
    e.Brings stepCode state ↔
      ∃ t, e.transition = some t ∧ t.stepCode = stepCode ∧ t.status = state := by
  unfold Brings transition
  cases e.stepState <;> cases e.stepKey <;> simp [and_comm]

/-- The state of a transition decides which of its fields are filled, with the time and the message
of the event. -/
theorem fields_of_transition (told : e.transition = some t) :
    t.startedAt = (if t.status = .started then e.timestamp else none) ∧
      t.finishedAt = (if t.status.isTerminal then e.timestamp else none) ∧
      t.errorMessage = if t.status = .failure then some e.logMessage else none := by
  unfold transition at told
  cases bringsTo : e.stepState <;> cases key : e.stepKey <;> simp only [bringsTo, key] at told
  all_goals cases told
  exact ⟨rfl, rfl, rfl⟩

/-- The transitions of one step in the order of the events. -/
def stepHistory (stepCode : String) (events : List EngineEvent) : List StepTransition :=
  (Sync.transitionsOf events).filter (·.stepCode = stepCode)

/-- The history of a step is made of the transitions of the events that are about it. -/
theorem mem_stepHistory :
    t ∈ stepHistory stepCode events ↔
      (∃ e ∈ events, e.transition = some t) ∧ t.stepCode = stepCode := by
  simp [stepHistory, Sync.transitionsOf, reduce]

/-- An event that tells its time is reduced to the whole transition. -/
theorem transition_of_timestamp {time : Instant} (brings : e.Brings stepCode state)
    (timed : e.timestamp = some time) :
    e.transition = some (match state with
      | .started => .start stepCode time
      | .success => .success stepCode time
      | .failure => .failure stepCode time (some e.logMessage)) := by
  unfold transition
  rw [brings.1, brings.2, timed]
  cases state <;> rfl

end EngineEvent

end RunLedger
