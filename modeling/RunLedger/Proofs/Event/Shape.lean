import RunLedger.Proofs.Event.Transition
import RunLedger.Proofs.Sync.Noise

/-!
# The shape of effects

What an event leaves can be told from its document: whether it changes a step or leaves a log entry
depends on its type, the step that it names and its time (`Effect.Shaped`). The rows of steps are
merged on the strength of this shape: a start has no end and no error, an end has no start, and a
failure always has an error that says something.
-/

namespace RunLedger

open Time (Instant)

/-! ## Texts -/

/-- A text is not blank if one of its characters is not. -/
theorem Text.allBlank_eq_false_iff {s : String} :
    Text.allBlank s = false ↔ ∃ c ∈ s.toList, Text.isBlank c = false := by
  simp [Text.allBlank]

/-- A text is present if it is there and not blank. -/
theorem presentText?_eq_some_iff {j : Option Json} {s : String} :
    presentText? j = some s ↔ j = some (.str s) ∧ Text.allBlank s = false := by
  have text : j.bind Json.asString? = some s ↔ j = some (.str s) := by
    constructor
    · intro told
      obtain ⟨value, present, isText⟩ := Option.bind_eq_some_iff.mp told
      cases value <;> cases isText
      exact present
    · rintro rfl
      rfl
  rw [presentText?, Option.filter_eq_some_iff, text, Bool.not_eq_true']

/-! ## Documents of events -/

/-- The types of events that change a step, each with the state that it brings the step to. -/
def EngineEvent.stepTypes : List (String × StepState) :=
  [("ExecutionStepStartEvent", .started), ("ExecutionStepSuccessEvent", .success),
    ("ExecutionStepOutputEvent", .success), ("ExecutionStepFailureEvent", .failure)]

/-- A document names a step: the step key is a text with a character that is no blank. -/
def NamesStep (raw : Json) (stepCode : String) : Prop :=
  raw.get? "stepKey" = some (.str stepCode) ∧ ∃ c ∈ stepCode.toList, Text.isBlank c = false

/-- A document tells a time that can be read. -/
def TellsTime (raw : Json) (time : Instant) : Prop :=
  ∃ value, raw.get? "timestamp" = some value ∧ Time.epochSeconds? value = some time

/-- The shape of what an event leaves, given its document and its type. -/
structure Effect.Shaped (raw : Json) (typename : String) (effect : Effect) : Prop where
  transition_iff : effect.transition.isSome = true ↔
    typename ∈ EngineEvent.stepTypes.map Prod.fst ∧ ∃ stepCode, NamesStep raw stepCode
  log_iff : effect.log.isSome = true ↔
    typename ∈ EngineEvent.knownTypes ∧ ∃ time, TellsTime raw time
  transition : ∀ t, effect.transition = some t →
    (typename, t.status) ∈ EngineEvent.stepTypes ∧ NamesStep raw t.stepCode
  started : ∀ t, effect.transition = some t → t.status = .started →
    t.finishedAt = none ∧ t.errorMessage = none
  ended : ∀ t, effect.transition = some t → t.status ≠ .started → t.startedAt = none
  /-- Every failure has an error, and nothing else has one. -/
  error_iff : ∀ t, effect.transition = some t →
    (t.errorMessage.isSome = true ↔ t.status = .failure)
  error : ∀ t message, effect.transition = some t → t.errorMessage = some message →
    Text.allBlank message = false
  /-- The two tell the same time, the same step and the same error. -/
  agree : ∀ t entry, effect.transition = some t → effect.log = some entry →
    (if t.status = .started then t.startedAt else t.finishedAt) = some entry.timestamp ∧
      entry.stepCode = some t.stepCode ∧
      (t.status = .failure → t.errorMessage = some entry.message ∧ entry.level = .error)
  payload : ∀ entry, effect.log = some entry → entry.payload = raw

namespace EngineEvent

variable {raw : Json} {e : EngineEvent} {typename : String} {state : StepState} {time : Instant}
  {stepCode : String}

/-- An event as it is read from a document that has a type name. -/
structure ReadFrom (raw : Json) (typename : String) (e : EngineEvent) : Prop where
  happening : e.happening = happeningOf typename raw
  stepKey : ∀ stepCode, e.stepKey = some stepCode ↔ NamesStep raw stepCode
  timestamp : ∀ time, e.timestamp = some time ↔ TellsTime raw time
  message : ∀ s, e.message = some s → Text.allBlank s = false
  raw : e.raw = raw

/-- An event that is accepted has the type and the fields of its document. -/
theorem readFrom_of_parse (parsed : parse raw = .ok e) :
    ∃ typename, raw.get? "__typename" = some (.str typename) ∧ ReadFrom raw typename e := by
  cases raw with
  | obj members =>
    unfold parse at parsed
    dsimp only at parsed
    split at parsed
    · rename_i typename named
      obtain ⟨value, member, text⟩ := Option.bind_eq_some_iff.mp named
      cases value <;> cases text
      cases parsed
      refine ⟨typename, member, rfl, fun stepCode => ?_, fun time => ?_, fun s told => ?_, rfl⟩
      · rw [presentText?_eq_some_iff, Text.allBlank_eq_false_iff]
        rfl
      · exact Option.bind_eq_some_iff
      · exact (presentText?_eq_some_iff.mp told).2
    · cases parsed
  | _ => cases parsed

/-! ## Types -/

theorem mem_knownTypes_of_mem_stepTypes (changes : (typename, state) ∈ stepTypes) :
    typename ∈ knownTypes := by
  have kinds : ∀ kind ∈ stepTypes, kind.1 ∈ knownTypes := by decide
  exact kinds _ changes

/-- The type of an event decides the state that it brings a step to. -/
theorem ReadFrom.stepState_eq_some_iff (read : ReadFrom raw typename e) :
    e.stepState = some state ↔ (typename, state) ∈ stepTypes := by
  unfold stepState
  rw [read.happening]
  by_cases known : typename ∈ knownTypes
  · simp only [knownTypes, List.mem_cons, List.not_mem_nil, or_false] at known
    rcases known with rfl | rfl | rfl | rfl | rfl | rfl | rfl <;>
      simp [happeningOf, stepTypes, eq_comm]
  · rw [happeningOf_of_not_mem known]
    exact iff_of_false (Option.some_ne_none state).symm fun changes =>
      known (mem_knownTypes_of_mem_stepTypes changes)

/-- Exactly the events of known types are logged. -/
theorem ReadFrom.isSome_logKind_iff (read : ReadFrom raw typename e) :
    e.logKind.isSome = true ↔ typename ∈ knownTypes := by
  unfold logKind
  rw [read.happening]
  by_cases known : typename ∈ knownTypes
  · refine iff_of_true ?_ known
    simp only [knownTypes, List.mem_cons, List.not_mem_nil, or_false] at known
    rcases known with rfl | rfl | rfl | rfl | rfl | rfl | rfl <;> simp [happeningOf]
  · rw [happeningOf_of_not_mem known]
    exact iff_of_false Bool.false_ne_true known

/-! ## Failures -/

/-- The reason of a failure is the message of the error in the document, if that is present. -/
theorem ReadFrom.happening_of_failure (read : ReadFrom raw typename e)
    (failed : e.stepState = some .failure) :
    e.happening = .stepFailure (presentText? ((raw.get? "error").bind (·.get? "message"))) := by
  have isFailure : typename = "ExecutionStepFailureEvent" := by
    simpa [stepTypes] using read.stepState_eq_some_iff.mp failed
  rw [read.happening, isFailure]
  rfl

/-- The failure of a step is logged as an error. -/
theorem logLevel_of_failure {error : Option String} (failed : e.happening = .stepFailure error) :
    e.logLevel = .error := by
  unfold logLevel
  rw [failed]

/-- The log entry of a failure says something, whatever the event tells of the failure. -/
theorem allBlank_logMessage {error : Option String} (failed : e.happening = .stepFailure error)
    (told : ∀ s, error = some s → Text.allBlank s = false)
    (described : ∀ s, e.message = some s → Text.allBlank s = false) :
    Text.allBlank e.logMessage = false := by
  unfold logMessage
  rw [failed]
  dsimp only
  cases reason : error.or e.message with
  | some s =>
    rcases Option.or_eq_some_iff.mp reason with isError | ⟨_, isMessage⟩
    · exact told s isError
    · exact described s isMessage
  | none =>
    -- The sentence about a step starts with a letter, however the step is named.
    rw [Text.allBlank_eq_false_iff]
    exact ⟨'S', by simp, by decide⟩

/-! ## Effects -/

/-- There is a transition exactly if the event changes a step and names it. -/
theorem isSome_transition_iff :
    e.transition.isSome = true ↔
      (∃ state, e.stepState = some state) ∧ ∃ stepCode, e.stepKey = some stepCode := by
  unfold transition
  cases e.stepState <;> cases e.stepKey <;> simp

/-- There is an entry exactly if the event is logged and tells its time. -/
theorem isSome_logDraft_iff :
    e.logDraft.isSome = true ↔ e.logKind.isSome = true ∧ ∃ time, e.timestamp = some time := by
  unfold logDraft
  cases e.logKind <;> cases e.timestamp <;> simp

theorem fields_of_logDraft {entry : LogDraft} (left : e.logDraft = some entry) :
    entry.stepCode = e.stepKey ∧ entry.message = e.logMessage ∧ entry.level = e.logLevel ∧
      e.timestamp = some entry.timestamp ∧ entry.payload = e.raw := by
  unfold logDraft at left
  cases kind : e.logKind <;> cases timed : e.timestamp <;> simp only [kind, timed] at left
  all_goals cases left
  exact ⟨rfl, rfl, rfl, rfl, rfl⟩

/-- What an event comes to has the shape that its document calls for. -/
theorem ReadFrom.shaped (read : ReadFrom raw typename e) : e.reduce.Shaped raw typename where
  transition_iff := by
    change e.transition.isSome = true ↔ _
    simp [isSome_transition_iff, read.stepState_eq_some_iff, read.stepKey]
  log_iff := by
    change e.logDraft.isSome = true ↔ _
    simp only [isSome_logDraft_iff, read.isSome_logKind_iff, read.timestamp]
  transition t left := by
    obtain ⟨key, state⟩ := brings_iff.mpr ⟨t, left, rfl, rfl⟩
    exact ⟨read.stepState_eq_some_iff.mp state, (read.stepKey _).mp key⟩
  started t left started := by
    obtain ⟨_, finishedAt, error⟩ := fields_of_transition left
    rw [finishedAt, error, started]
    exact ⟨rfl, rfl⟩
  ended t left ended := by
    rw [(fields_of_transition left).1, if_neg ended]
  error_iff t left := by
    rw [(fields_of_transition left).2.2]
    split <;> simp_all
  error t message left told := by
    obtain ⟨_, state⟩ := brings_iff.mpr ⟨t, left, rfl, rfl⟩
    rw [(fields_of_transition left).2.2] at told
    split at told
    · rename_i failed
      obtain rfl := Option.some.inj told
      refine allBlank_logMessage (read.happening_of_failure (failed ▸ state)) (fun s said => ?_)
        read.message
      exact (presentText?_eq_some_iff.mp said).2
    · cases told
  agree t entry left logged := by
    obtain ⟨key, state⟩ := brings_iff.mpr ⟨t, left, rfl, rfl⟩
    obtain ⟨startedAt, finishedAt, error⟩ := fields_of_transition left
    obtain ⟨stepCode, message, level, timestamp, _⟩ := fields_of_logDraft logged
    refine ⟨?_, stepCode.trans key, fun failed => ⟨?_, ?_⟩⟩
    · rw [startedAt, finishedAt, ← timestamp]
      cases t.status <;> rfl
    · rw [error, if_pos failed, message]
    · rw [level, logLevel_of_failure (read.happening_of_failure (failed ▸ state))]
  payload entry logged := (fields_of_logDraft logged).2.2.2.2.trans read.raw

/-- What an event leaves has the shape that its document demands. -/
theorem shaped_of_parse (parsed : parse raw = .ok e) :
    ∃ typename, raw.get? "__typename" = some (.str typename) ∧ e.reduce.Shaped raw typename := by
  obtain ⟨typename, named, read⟩ := readFrom_of_parse parsed
  exact ⟨typename, named, read.shaped⟩

/-- A step failed, and what the engine says of it is blank. -/
def blankFailure : Json :=
  .obj [("__typename", .str "ExecutionStepFailureEvent"),
    ("error", .obj [("message", .str " ")]), ("message", .str "\n"), ("stepKey", .str "load"),
    ("timestamp", .str "20.5")]

/-- A failure whose message is blank is told of in words of its own. -/
theorem shaped_of_parse_blankFailure : ∃ e typename, parse blankFailure = .ok e ∧
    blankFailure.get? "__typename" = some (.str typename) ∧ e.reduce.Shaped blankFailure typename ∧
    e.reduce.transition.map (·.errorMessage) = some (some "Step 'load' failed") := by
  have parsed : ∃ e, parse blankFailure = .ok e := ⟨_, rfl⟩
  obtain ⟨e, parsed⟩ := parsed
  obtain ⟨typename, named, shaped⟩ := shaped_of_parse parsed
  refine ⟨e, typename, parsed, named, shaped, ?_⟩
  cases parsed
  rfl

end EngineEvent

end RunLedger
