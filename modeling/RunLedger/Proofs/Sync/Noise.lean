import RunLedger.Proofs.Sync.Resync

/-!
# Noise in a history

An engine may tell documents that are no events, and events of types that the ledger does not know.
Wherever they stand in a history, the former are counted and nothing else. The latter change no step
and leave no log entry; what they tell is a time, and it matters only to when a run ended.
-/

namespace RunLedger

open Time (Instant)

namespace EngineEvent

variable {j : Json} {e : EngineEvent} {typename : String}

/-- The types of events that the ledger knows. -/
def knownTypes : List String :=
  ["ExecutionStepStartEvent", "ExecutionStepSuccessEvent", "ExecutionStepFailureEvent",
    "ExecutionStepInputEvent", "ExecutionStepOutputEvent", "LogMessageEvent", "MessageEvent"]

/-- A document that is no object, or an object whose type name is missing or no text. -/
def Malformed (j : Json) : Prop :=
  ∀ typename, j.get? "__typename" ≠ some (.str typename)

/-- An event of a type that the ledger does not know. -/
def Foreign (j : Json) : Prop :=
  ∃ typename, j.get? "__typename" = some (.str typename) ∧ typename ∉ knownTypes

/-- A malformed event cannot be read. -/
theorem parse_of_malformed (malformed : Malformed j) : (parse j).toOption = none := by
  cases j with
  | obj members =>
    unfold parse
    dsimp only
    cases named : (Json.Members.get? members "__typename").bind Json.asString? with
    | none => rfl
    | some typename =>
      obtain ⟨value, member, text⟩ := Option.bind_eq_some_iff.mp named
      cases value <;> cases text
      exact absurd member (malformed typename)
  | _ => rfl

/-- An event with a type can be read, and its type decides what happened. -/
theorem parse_of_typename (named : j.get? "__typename" = some (.str typename)) :
    ∃ e, parse j = .ok e ∧ e.happening = happeningOf typename j := by
  cases j with
  | obj members =>
    have named : Json.Members.get? members "__typename" = some (.str typename) := named
    have text : (Json.Members.get? members "__typename").bind Json.asString? = some typename := by
      rw [named]
      rfl
    unfold parse
    dsimp only
    rw [text]
    exact ⟨_, rfl, rfl⟩
  | _ => cases named

/-- A type that is not known is carried along. -/
theorem happeningOf_of_not_mem (foreign : typename ∉ knownTypes) (raw : Json) :
    happeningOf typename raw = .unknown typename := by
  simp only [knownTypes, List.mem_cons, List.not_mem_nil, or_false, not_or] at foreign
  simp [happeningOf, foreign]

/-- An event of an unknown type comes to nothing. -/
theorem reduce_of_unknown (unknown : e.happening = .unknown typename) :
    e.reduce = ⟨none, none⟩ := by
  simp [reduce, transition, stepState, logDraft, logKind, unknown]

/-- An event of an unknown type can be read and has no effect. -/
theorem parse_of_foreign (foreign : Foreign j) :
    ∃ e, parse j = .ok e ∧ e.reduce = ⟨none, none⟩ := by
  obtain ⟨typename, named, unknown⟩ := foreign
  obtain ⟨e, read, tells⟩ := parse_of_typename named
  exact ⟨e, read, reduce_of_unknown (tells.trans (happeningOf_of_not_mem unknown j))⟩

end EngineEvent

namespace Sync

open EngineEvent (Malformed Foreign)

/-- A history, the history with noise inserted at any places, and how many documents were
inserted. -/
inductive Inserted (noise : Json → Prop) : List Json → List Json → Nat → Prop where
  | nil : Inserted noise [] [] 0
  | keep {events events' : List Json} {n : Nat} (event : Json)
      (rest : Inserted noise events events' n) :
      Inserted noise (event :: events) (event :: events') n
  | insert {events events' : List Json} {n : Nat} {event : Json} (noisy : noise event)
      (rest : Inserted noise events events' n) : Inserted noise events (event :: events') (n + 1)

variable {noise : Json → Prop} {events events' : List Json} {n : Nat} {detail : RunDetail}
  {externalRunId : String} {run : RunRecord} {locations : Option (List OutputLocation)}
  {now : Instant}

namespace Inserted

/-- Noise that gives nothing does not change what events give. -/
theorem filterMap_eq {β : Type} {f : Json → Option β} (silent : ∀ j, noise j → f j = none)
    (inserted : Inserted noise events events' n) :
    events'.filterMap f = events.filterMap f := by
  induction inserted with
  | nil => rfl
  | keep event _ ih => rw [List.filterMap_cons, List.filterMap_cons, ih]
  | insert noisy _ ih => rw [List.filterMap_cons_none (silent _ noisy), ih]

/-- Noise that is counted is counted in full. -/
theorem countP_eq_add {p : Json → Bool} (counted : ∀ j, noise j → p j = true)
    (inserted : Inserted noise events events' n) :
    events'.countP p = events.countP p + n := by
  induction inserted with
  | nil => rfl
  | keep event _ ih => rw [List.countP_cons, List.countP_cons, ih, Nat.add_right_comm]
  | insert noisy _ ih => rw [List.countP_cons_of_pos (counted _ noisy), ih, Nat.add_assoc]

theorem countP_eq {p : Json → Bool} (passed : ∀ j, noise j → p j = false)
    (inserted : Inserted noise events events' n) :
    events'.countP p = events.countP p := by
  induction inserted with
  | nil => rfl
  | keep event _ ih => rw [List.countP_cons, List.countP_cons, ih]
  | insert noisy _ ih => rw [List.countP_cons_of_neg (by simp [passed _ noisy]), ih]

end Inserted

/-! ## Malformed events -/

/-- Malformed events do not change what can be read. -/
theorem readable_of_malformed (inserted : Inserted Malformed events events' n) :
    readable events' = readable events :=
  inserted.filterMap_eq fun _ malformed => EngineEvent.parse_of_malformed malformed

/-- Malformed events are counted, each of them. -/
theorem unreadableCount_of_malformed (inserted : Inserted Malformed events events' n) :
    unreadableCount events' = unreadableCount events + n := by
  refine inserted.countP_eq_add fun j malformed => ?_
  rw [EngineEvent.parse_of_malformed malformed]
  rfl

/-- Malformed events do not change what is stored. -/
theorem planOf_of_malformed (inserted : Inserted Malformed detail.events events' n) :
    planOf externalRunId run { detail with events := events' } locations now =
      planOf externalRunId run detail locations now := by
  unfold planOf updateOf finishTime
  dsimp only
  rw [readable_of_malformed inserted]

/-- Malformed events change the summary in their count alone. -/
theorem summaryOf_of_malformed (inserted : Inserted Malformed detail.events events' n) :
    summaryOf externalRunId run { detail with events := events' } locations =
      { summaryOf externalRunId run detail locations with
        droppedEvents := (summaryOf externalRunId run detail locations).droppedEvents + n } := by
  unfold summaryOf
  dsimp only
  rw [readable_of_malformed inserted, unreadableCount_of_malformed inserted]

/-! ## Events of unknown types -/

/-- What is told by events that have an effect stays as it is. -/
theorem filterMap_readable_of_foreign {β : Type} {f : EngineEvent → Option β}
    (silent : ∀ e, e.reduce = ⟨none, none⟩ → f e = none)
    (inserted : Inserted Foreign events events' n) :
    (readable events').filterMap f = (readable events).filterMap f := by
  unfold readable
  rw [List.filterMap_filterMap, List.filterMap_filterMap]
  refine inserted.filterMap_eq fun j foreign => ?_
  obtain ⟨e, read, noEffect⟩ := EngineEvent.parse_of_foreign foreign
  rw [read]
  exact silent e noEffect

/-- Events of unknown types change no step. -/
theorem transitionsOf_of_foreign (inserted : Inserted Foreign events events' n) :
    transitionsOf (readable events') = transitionsOf (readable events) :=
  filterMap_readable_of_foreign (fun _ noEffect => congrArg Effect.transition noEffect) inserted

/-- Events of unknown types leave no entries. -/
theorem logsOf_of_foreign (inserted : Inserted Foreign events events' n) (runId : RunId) :
    logsOf runId externalRunId (readable events') =
      logsOf runId externalRunId (readable events) := by
  refine filterMap_readable_of_foreign (fun e noEffect => ?_) inserted
  rw [noEffect]
  rfl

theorem unreadableCount_of_foreign (inserted : Inserted Foreign events events' n) :
    unreadableCount events' = unreadableCount events := by
  refine inserted.countP_eq fun j foreign => ?_
  obtain ⟨e, read, _⟩ := EngineEvent.parse_of_foreign foreign
  rw [read]
  rfl

/-- Events of unknown types do not change the summary. -/
theorem summaryOf_of_foreign (inserted : Inserted Foreign detail.events events' n) :
    summaryOf externalRunId run { detail with events := events' } locations =
      summaryOf externalRunId run detail locations := by
  unfold summaryOf
  dsimp only
  rw [transitionsOf_of_foreign inserted, logsOf_of_foreign inserted,
    unreadableCount_of_foreign inserted]

/-- An update with another end. -/
theorem updateOf_of_foreign (inserted : Inserted Foreign detail.events events' n) :
    updateOf { detail with events := events' } locations now =
      { updateOf detail locations now with
        finishedAt := (updateOf { detail with events := events' } locations now).finishedAt } := by
  unfold updateOf
  dsimp only
  rw [transitionsOf_of_foreign inserted]

/-- Where the engine tells the end, events of unknown types do not change the update. -/
theorem updateOf_of_endTime (inserted : Inserted Foreign detail.events events' n)
    {finish : Instant} (told : detail.endTime = some finish) :
    updateOf { detail with events := events' } locations now = updateOf detail locations now := by
  unfold updateOf finishTime
  dsimp only
  rw [transitionsOf_of_foreign inserted, told, Option.some_or, Option.some_or]

/-- A plan with another update. -/
theorem planOf_of_foreign (inserted : Inserted Foreign detail.events events' n) :
    planOf externalRunId run { detail with events := events' } locations now =
      { planOf externalRunId run detail locations now with
        update := updateOf { detail with events := events' } locations now } := by
  unfold planOf
  dsimp only
  rw [transitionsOf_of_foreign inserted, logsOf_of_foreign inserted]

end Sync

/-! ## Rows that differ in their ends -/

namespace RunRecord

variable {run : RunRecord} {u : RunUpdate} {status : RunStatus}

/-- The row of a run but for when it ended and how long it took. -/
def withoutEnd (run : RunRecord) : RunRecord :=
  { run with finishedAt := none, durationSeconds := none }

/-- A run that goes on, as one update ends it and as another one does that differs in the end. -/
structure EndedApart (run left right : RunRecord) : Prop where
  running : run.status.isTerminal = false
  ended : left.status.isTerminal = true
  same : right.withoutEnd = left.withoutEnd

/-- The end that an update tells matters only if the update ends the run. -/
theorem merge_of_finishedAt {u' : RunUpdate} (hasStatus : u.status = some status)
    (differs : u' = { u with finishedAt := u'.finishedAt }) :
    run.merge u' = run.merge u ∨ EndedApart run (run.merge u) (run.merge u') := by
  have hasStatus' : u'.status = some status := by rw [differs, ← hasStatus]
  cases ended : run.status.isTerminal with
  | true =>
    left
    rw [merge_of_ended ended, merge_of_ended ended, differs]
  | false =>
    cases final : status.isTerminal with
    | true =>
      right
      refine ⟨ended, isTerminal_merge hasStatus (.inr final), ?_⟩
      rw [merge_of_ending ended hasStatus' final, merge_of_ending ended hasStatus final, differs]
      rfl
    | false =>
      left
      rw [merge_of_running ended hasStatus' final, merge_of_running ended hasStatus final, differs]

end RunRecord

end RunLedger
