import RunLedger.Proofs.Json.Ordered
import RunLedger.Proofs.Run.StatusText
import RunLedger.Proofs.Time.Stamp

/-!
# Rows read back

Every row is read back from its written form as it was: whatever its texts and documents, which of
its optional fields are absent, and how long its lists are. What a written form cannot tell is said
of the fields alone: times without a stamp, floating-point numbers that are not finite, and statuses
that carry a word of the ledger as a foreign one.
-/

namespace RunLedger

open Time (Instant)

namespace Json

variable {α : Type} {read : Json → Option α} {write : α → Json} {j : Json}

/-! ## Fields -/

section Record

variable (names : List String) (m : String × Json) (members : Members) (positional : Bool)
  (name : String) (read : Json → Option α)

@[simp] theorem asRecord?_obj : asRecord? names (.obj members) = some ⟨members, false⟩ := rfl

/-- A required field is read from the first member of its name. -/
@[simp] theorem Record.required_cons : (Record.mk (m :: members) positional).required name read =
    if name = m.1 then read m.2 else (Record.mk members positional).required name read := by
  by_cases same : name = m.1 <;> simp [Record.required, Members.get?_cons, same]

@[simp] theorem Record.optional_cons : (Record.mk (m :: members) positional).optional name read =
    if name = m.1 then nullable read m.2
    else (Record.mk members positional).optional name read := by
  by_cases same : name = m.1 <;> simp [Record.optional, Members.get?_cons, same]

@[simp] theorem Record.defaulted_cons (absent : α) :
    (Record.mk (m :: members) positional).defaulted name absent read =
      if name = m.1 then read m.2
      else (Record.mk members positional).defaulted name absent read := by
  by_cases same : name = m.1 <;> simp [Record.defaulted, Members.get?_cons, same]

@[simp] theorem asString?_str (s : String) : asString? (.str s) = some s := rfl

@[simp] theorem asDocument?_eq (j : Json) : asDocument? j = some j := rfl

end Record

/-- Integers of 64 bits with a sign. -/
def IsInt64 (n : Int) : Prop :=
  -(wordCount 63 : Int) ≤ n ∧ n < wordCount 63

instance (n : Int) : Decidable (IsInt64 n) :=
  inferInstanceAs (Decidable (-(wordCount 63 : Int) ≤ n ∧ n < wordCount 63))

/-- Numbers that fit into 64 bits are read back. -/
theorem asInt64?_ofInt {n : Int} (fits : IsInt64 n) : asInt64? (ofInt n) = some n := by
  have most : n ≤ (wordCount 63 : Int) - 1 := Int.le_sub_one_of_lt fits.2
  simp only [asInt64?, asIntIn?, ofInt, fits.1, most, decide_true, Bool.and_self, ↓reduceIte]

theorem nullable_of_ne_null (present : j ≠ .null) : nullable read j = (read j).map some := by
  cases j with
  | null => exact absurd rfl present
  | bool _ | num _ | str _ | arr _ | obj _ => rfl

/-- An optional value is read back if its written form is not null. -/
theorem nullable_ofOption {o : Option α}
    (each : ∀ a ∈ o, write a ≠ .null ∧ read (write a) = some a) :
    nullable read (ofOption write o) = some o := by
  cases o with
  | none => rfl
  | some a =>
    obtain ⟨present, same⟩ := each a rfl
    rw [ofOption, nullable_of_ne_null present, same, Option.map_some]

/-- A list is read back if each of its items is. -/
theorem asList?_map {list : List α} (each : ∀ a ∈ list, read (write a) = some a) :
    asList? read (.arr (list.map write)) = some list := by
  show (list.map write).mapM read = some list
  induction list with
  | nil => rfl
  | cons a list ih =>
    rw [List.map_cons, List.mapM_cons, each a (List.mem_cons_self ..),
      ih fun b member => each b (List.mem_cons_of_mem _ member)]
    rfl

end Json

/-- A text that may be missing is read back, also from null. -/
@[simp] theorem nullable_textOrNull (s : Option String) :
    Json.nullable Json.asString? (textOrNull s) = some s :=
  Json.nullable_ofOption fun _ _ => ⟨Json.noConfusion, rfl⟩

/-- A duration that may be missing is read back if it is finite; infinite seconds have no
document. -/
theorem nullable_secondsOrNull {x : Option Float} (finite : ∀ seconds ∈ x, seconds.isFinite) :
    Json.nullable Json.asFloat? (secondsOrNull x) = some x := by
  refine Json.nullable_ofOption fun seconds member => ?_
  rw [Json.ofFloat, if_pos (finite seconds member)]
  exact ⟨Json.noConfusion, rfl⟩

/-- A time is written as a text that is read back as the time. -/
theorem exists_toJson? {t : Instant} (writable : t.Writable) :
    ∃ s, t.toJson? = some (.str s) ∧ Instant.ofJson? (.str s) = some t := by
  obtain ⟨text, stamped, readBack⟩ := Option.bind_eq_some_iff.mp writable.bind_stamp?
  refine ⟨text, ?_, ?_⟩
  · rw [Instant.toJson?, stamped, Option.map_some]
  · rw [Instant.ofJson?, Json.asString?, Option.bind_some, readBack]

/-- A time that may be missing is written and read back, also as null. -/
theorem exists_optionToJson? {o : Option Instant} (writable : ∀ t ∈ o, t.Writable) :
    ∃ j, Instant.optionToJson? o = some j ∧ nullableInstant? j = some o := by
  cases o with
  | none => exact ⟨.null, rfl, rfl⟩
  | some t =>
    obtain ⟨s, written, same⟩ := exists_toJson? (writable t rfl)
    refine ⟨.str s, written, ?_⟩
    rw [nullableInstant?, Json.nullable_of_ne_null Json.noConfusion, same, Option.map_some]

namespace RunStatus

/-- Statuses that do not carry a word of the ledger as a foreign one. -/
def Writable (s : RunStatus) : Prop :=
  ∀ word ∈ words, s ≠ .other word

instance (s : RunStatus) : Decidable s.Writable :=
  inferInstanceAs (Decidable (∀ word ∈ words, s ≠ .other word))

/-- A status is read back unless it is another word that reads like a status of its own. -/
theorem ofJson?_toJson {s : RunStatus} (writable : s.Writable) : ofJson? s.toJson = some s :=
  (ofJson?_toJson_iff s).mpr ((parse_text_iff s).mpr writable)

end RunStatus

/-- The state of a step is read back. -/
@[simp] theorem StepState.ofJson?_toJson (s : StepState) : ofJson? s.toJson = some s := by
  cases s <;> rfl

@[simp] theorem EventKind.ofJson?_toJson (k : EventKind) : ofJson? k.toJson = some k := by
  cases k <;> rfl

@[simp] theorem LogLevel.ofJson?_toJson (l : LogLevel) : ofJson? l.toJson = some l := by
  cases l <;> rfl

namespace OutputLocation

/-- An output location is read back. -/
theorem ofJson?_toJson (l : OutputLocation) : ofJson? l.toJson = some l := by
  obtain ⟨path, name, description⟩ := l
  cases name <;> cases description <;> rfl

@[simp] theorem asList?_toJson (list : List OutputLocation) :
    Json.asList? ofJson? (.arr (list.map (·.toJson))) = some list :=
  Json.asList?_map fun l _ => l.ofJson?_toJson

end OutputLocation

namespace OutputTemplate

/-- A template of a path is read back. -/
theorem ofJson?_toJson (t : OutputTemplate) : ofJson? t.toJson = some t := by
  simp [ofJson?, toJson]

@[simp] theorem asList?_toJson (list : List OutputTemplate) :
    Json.asList? ofJson? (.arr (list.map (·.toJson))) = some list :=
  Json.asList?_map fun t _ => t.ofJson?_toJson

end OutputTemplate

namespace OutputSpec

/-- A declaration is read back, with its kind and its templates. -/
theorem ofJson?_toJson (spec : OutputSpec) : ofJson? spec.toJson = some spec := by
  cases spec with
  | templates ts => simp [ofJson?, toJson, Json.asTagged?, Json.Members.get?]
  | pattern p => rfl
  | absent => rfl

end OutputSpec

/-! ## Rows -/

namespace RunRecord

/-- Rows of runs that a written form can tell. -/
structure Writable (r : RunRecord) : Prop where
  id : Json.IsInt64 r.id
  workflowId : Json.IsInt64 r.workflowId
  status : r.status.Writable
  startedAt : ∀ t ∈ r.startedAt, t.Writable
  finishedAt : ∀ t ∈ r.finishedAt, t.Writable
  durationSeconds : ∀ seconds ∈ r.durationSeconds, seconds.isFinite

/-- A run is read back from its row. -/
theorem bind_toJson? {r : RunRecord} (writable : r.Writable) : r.toJson?.bind ofJson? = some r := by
  obtain ⟨started, startedAt, startedBack⟩ := exists_optionToJson? writable.startedAt
  obtain ⟨finished, finishedAt, finishedBack⟩ := exists_optionToJson? writable.finishedAt
  simp [toJson?, startedAt, finishedAt, ofJson?, Json.asInt64?_ofInt writable.id,
    Json.asInt64?_ofInt writable.workflowId, RunStatus.ofJson?_toJson writable.status, startedBack,
    finishedBack, nullable_secondsOrNull writable.durationSeconds]

end RunRecord

namespace NewRun

/-- Launched runs that a written form can tell. -/
structure Writable (r : NewRun) : Prop where
  workflowId : Json.IsInt64 r.workflowId
  status : r.status.Writable
  startedAt : ∀ t ∈ r.startedAt, t.Writable

/-- A launch is read back from its row. -/
theorem bind_toJson? {r : NewRun} (writable : r.Writable) : r.toJson?.bind ofJson? = some r := by
  obtain ⟨started, startedAt, startedBack⟩ := exists_optionToJson? writable.startedAt
  simp [toJson?, startedAt, ofJson?, Json.asInt64?_ofInt writable.workflowId,
    RunStatus.ofJson?_toJson writable.status, startedBack]

end NewRun

namespace StepTransition

/-- Changes of steps that a written form can tell. -/
structure Writable (t : StepTransition) : Prop where
  startedAt : ∀ start ∈ t.startedAt, start.Writable
  finishedAt : ∀ finish ∈ t.finishedAt, finish.Writable

/-- A transition of a step is read back from its row. -/
theorem bind_toJson? {t : StepTransition} (writable : t.Writable) :
    t.toJson?.bind ofJson? = some t := by
  obtain ⟨started, startedAt, startedBack⟩ := exists_optionToJson? writable.startedAt
  obtain ⟨finished, finishedAt, finishedBack⟩ := exists_optionToJson? writable.finishedAt
  simp [toJson?, startedAt, finishedAt, ofJson?, startedBack, finishedBack]

end StepTransition

namespace StepRecord

/-- Rows of steps that a written form can tell. -/
structure Writable (s : StepRecord) : Prop where
  runId : Json.IsInt64 s.runId
  startedAt : ∀ t ∈ s.startedAt, t.Writable
  finishedAt : ∀ t ∈ s.finishedAt, t.Writable
  durationSeconds : ∀ seconds ∈ s.durationSeconds, seconds.isFinite

/-- A step is read back from its row. -/
theorem bind_toJson? {s : StepRecord} (writable : s.Writable) :
    s.toJson?.bind ofJson? = some s := by
  obtain ⟨started, startedAt, startedBack⟩ := exists_optionToJson? writable.startedAt
  obtain ⟨finished, finishedAt, finishedBack⟩ := exists_optionToJson? writable.finishedAt
  simp [toJson?, startedAt, finishedAt, ofJson?, Json.asInt64?_ofInt writable.runId, startedBack,
    finishedBack, nullable_secondsOrNull writable.durationSeconds]

end StepRecord

namespace LogEntry

/-- Log entries that a written form can tell. -/
structure Writable (e : LogEntry) : Prop where
  runId : Json.IsInt64 e.runId
  timestamp : e.timestamp.Writable

/-- An entry is read back from its row. -/
theorem bind_toJson? {e : LogEntry} (writable : e.Writable) : e.toJson?.bind ofJson? = some e := by
  obtain ⟨stamp, timestamp, timestampBack⟩ := exists_toJson? writable.timestamp
  simp [toJson?, timestamp, ofJson?, Json.asInt64?_ofInt writable.runId, timestampBack]

end LogEntry

/-- Every row that its written form can tell is read back as it was, and every declaration of
outputs is. -/
theorem rows_read_back :
    (∀ r : RunRecord, r.Writable → r.toJson?.bind RunRecord.ofJson? = some r) ∧
      (∀ r : NewRun, r.Writable → r.toJson?.bind NewRun.ofJson? = some r) ∧
      (∀ t : StepTransition, t.Writable → t.toJson?.bind StepTransition.ofJson? = some t) ∧
      (∀ s : StepRecord, s.Writable → s.toJson?.bind StepRecord.ofJson? = some s) ∧
      (∀ e : LogEntry, e.Writable → e.toJson?.bind LogEntry.ofJson? = some e) ∧
      ∀ spec : OutputSpec, OutputSpec.ofJson? spec.toJson = some spec :=
  ⟨fun _ => RunRecord.bind_toJson?, fun _ => NewRun.bind_toJson?,
    fun _ => StepTransition.bind_toJson?, fun _ => StepRecord.bind_toJson?,
    fun _ => LogEntry.bind_toJson?, OutputSpec.ofJson?_toJson⟩

section Edges

/-- 0000-01-01T00:00:00.12-00:05. -/
def firstYear : Instant := ⟨-62167218899880000000, -300⟩

/-- 9999-12-31T23:59:59.999999999-23:59. -/
def lastYear : Instant := ⟨253402387139999999999, -86340⟩

theorem writable_firstYear : firstYear.Writable := ⟨by decide, by decide, by decide, by decide⟩

theorem writable_lastYear : lastYear.Writable := ⟨by decide, by decide, by decide, by decide⟩

def edgeRun : RunRecord where
  id := -wordCount 63
  externalRunId := ""
  workflowId := wordCount 63 - 1
  status := .other "paused"
  startedAt := some firstYear
  finishedAt := none
  durationSeconds := some 1.5
  errorMessage := none
  outputLocations := [⟨"a", none, some ""⟩, ⟨"", some "b", none⟩]
  runConfig := .null

def edgeLaunch : NewRun where
  externalRunId := "run"
  workflowId := 0
  status := .cancelling
  startedAt := some lastYear
  runConfig := .arr [.num (.float 0.5), .null]

def edgeTransition : StepTransition where
  stepCode := "step"
  status := .failure
  startedAt := none
  finishedAt := some lastYear
  errorMessage := some ""

def edgeStep : StepRecord where
  runId := 7
  externalRunId := "run"
  stepCode := "step"
  status := .success
  startedAt := some firstYear
  finishedAt := some lastYear
  durationSeconds := none
  errorMessage := some "error"

def edgeEntry : LogEntry where
  runId := 7
  externalRunId := "run"
  stepCode := none
  kind := .message
  message := ""
  level := .critical
  timestamp := firstYear
  payload := .null

def edgeOutputs : OutputSpec :=
  .templates [⟨"a", .null, none⟩, ⟨"", .obj [("kind", .str "pattern")], some "b"⟩]

/-- Rows at the edges: the first and the last year, the greatest numbers, texts that are empty or
need escapes, and fields that are missing. -/
theorem rows_read_back_edges :
    (edgeRun.Writable ∧ edgeRun.toJson?.bind RunRecord.ofJson? = some edgeRun) ∧
      (edgeLaunch.Writable ∧ edgeLaunch.toJson?.bind NewRun.ofJson? = some edgeLaunch) ∧
      (edgeTransition.Writable ∧
        edgeTransition.toJson?.bind StepTransition.ofJson? = some edgeTransition) ∧
      (edgeStep.Writable ∧ edgeStep.toJson?.bind StepRecord.ofJson? = some edgeStep) ∧
      (edgeEntry.Writable ∧ edgeEntry.toJson?.bind LogEntry.ofJson? = some edgeEntry) ∧
      OutputSpec.ofJson? edgeOutputs.toJson = some edgeOutputs := by
  obtain ⟨runs, launches, transitions, steps, entries, outputs⟩ := rows_read_back
  have run : edgeRun.Writable :=
    { id := by decide
      workflowId := by decide
      status := by decide
      startedAt := by rintro _ ⟨⟩; exact writable_firstYear
      finishedAt := by rintro _ ⟨⟩
      durationSeconds := by rintro _ ⟨⟩; decide }
  have launch : edgeLaunch.Writable :=
    { workflowId := by decide
      status := by decide
      startedAt := by rintro _ ⟨⟩; exact writable_lastYear }
  have transition : edgeTransition.Writable :=
    { startedAt := by rintro _ ⟨⟩
      finishedAt := by rintro _ ⟨⟩; exact writable_lastYear }
  have step : edgeStep.Writable :=
    { runId := by decide
      startedAt := by rintro _ ⟨⟩; exact writable_firstYear
      finishedAt := by rintro _ ⟨⟩; exact writable_lastYear
      durationSeconds := by rintro _ ⟨⟩ }
  have entry : edgeEntry.Writable := ⟨by decide, writable_firstYear⟩
  exact ⟨⟨run, runs _ run⟩, ⟨launch, launches _ launch⟩, ⟨transition, transitions _ transition⟩,
    ⟨step, steps _ step⟩, ⟨entry, entries _ entry⟩, outputs edgeOutputs⟩

end Edges

end RunLedger
