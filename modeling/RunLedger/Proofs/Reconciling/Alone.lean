import RunLedger.Proofs.Reconciling.Replay
import RunLedger.Proofs.Store.Frame

/-!
# A sync alone and among failures

An engine always gives the same answers, and a clock stands still. A sync that nothing disturbs is
known in full: it carries out the plan of the run if the engine and the store know it, and leaves
the store as it is if not. While others make commits fail, a sync does what it does alone, or it
ends with an error and changes nothing.
-/

namespace RunLedger.Interleaving

open RunLedger.Sync RunLedger.Time
open Program (question)

variable {engine : Engine Id} {clock : Instant} {s : Store} {x : String} {row : RunRecord}
  {detail : RunDetail}

/-! ## Alone -/

/-- The reconciler of an engine that always gives the same answers, a clock that stands still, and
a store that nobody else uses. -/
def alone (engine : Engine Id) (clock : Instant) : Reconciler (StateM Store) Snapshot where
  engine :=
    { runDetail := fun runId => pure (engine.runDetail runId)
      recentRuns := fun limit after before => pure (engine.recentRuns limit after before) }
  store := Backend.plain
  clock := pure clock
  pageSize := 1

/-- Resolving locations reads the declaration of the workflow and changes nothing. -/
theorem locations_alone (s : Store) (row : RunRecord) (detail : RunDetail) (now : Instant) :
    (alone engine clock).locations row detail now s =
      (.ok (locationsFor (s.outputSpec row.workflowId) detail row now), s) := by
  unfold Reconciler.locations locationsFor
  split <;> rfl

/-- The plan of a sync belongs to the run, also if its row has changed since the sync read it. -/
theorem owns_planFor_of_id {stale : RunRecord} (found : s.findRun x = some row)
    (sameId : stale.id = row.id) (spec : OutputSpec) (detail : RunDetail) (now : Instant) :
    s.Owns (planFor x spec detail stale now) row where
  found := found
  runId := sameId
  logs := by
    intro entry member
    obtain ⟨e, _, logged⟩ := List.mem_filterMap.mp member
    obtain ⟨log, _, rfl⟩ := Option.map_eq_some_iff.mp logged
    exact ⟨sameId, rfl⟩

/-- A plan for a row that was found is for that row. -/
theorem owns_planFor (found : s.findRun x = some row) (spec : OutputSpec) (detail : RunDetail)
    (now : Instant) : s.Owns (planFor x spec detail row now) row :=
  owns_planFor_of_id found rfl spec detail now

/-- A sync ends as the commit of its plan does, if the engine and the store know the run. -/
theorem syncRun_of_commit (answered : engine.runDetail x = .ok detail)
    (found : s.findRun x = some row) {answer : Except StoreError Unit} {after : Store}
    (committed : s.commit ⟨(planFor x (s.outputSpec row.workflowId) detail row clock).writes⟩ =
      (answer, after)) :
    (alone engine clock).syncRun x s =
      ((answer.map fun _ => .synced (summaryOf x row detail
        (locationsFor (s.outputSpec row.workflowId) detail row clock))).mapError .store,
        after) := by
  have asked : (alone engine clock).engine.runDetail x s = (.ok detail, s) :=
    congrArg (·, s) answered
  have read : (alone engine clock).store.findRun x s = (.ok (some row), s) :=
    congrArg (fun found => (Except.ok found, s)) found
  have owns := owns_planFor found (s.outputSpec row.workflowId) detail clock
  have persisted := persist_of_knows owns.knows committed
  have clocked : (alone engine clock).clock s = (clock, s) := rfl
  rw [Reconciler.syncRun, bind_of_eq asked]
  dsimp only
  rw [bind_of_eq read]
  dsimp only
  rw [Reconciler.storeDetail, bind_of_eq clocked, bind_of_eq (locations_alone s row detail clock)]
  dsimp only
  rw [show (alone engine clock).store = Backend.plain from rfl]
  cases answer with
  | error e => exact bind_of_eq persisted
  | ok _ => exact bind_of_eq persisted

/-- A sync carries out the plan of the run, if the engine and the store know the run and no commit
is made to fail. -/
theorem syncRun_of_found (clock : Instant) (calm : s.failingCommits = 0)
    (answered : engine.runDetail x = .ok detail)
    (found : s.findRun x = some row) :
    (alone engine clock).syncRun x s =
      (.ok (.synced (summaryOf x row detail
        (locationsFor (s.outputSpec row.workflowId) detail row clock))),
        s.carryOut (planFor x (s.outputSpec row.workflowId) detail row clock).writes) :=
  syncRun_of_commit answered found
    (Store.commit_of_knows _ calm (owns_planFor found _ detail clock).knows)

/-- A sync of a run that the store does not know leaves the store as it is. -/
theorem syncRun_of_unrecorded (clock : Instant) (answered : engine.runDetail x = .ok detail)
    (unrecorded : s.findRun x = none) :
    (alone engine clock).syncRun x s = (.ok .localRunMissing, s) := by
  have asked : (alone engine clock).engine.runDetail x s = (.ok detail, s) :=
    congrArg (·, s) answered
  have read : (alone engine clock).store.findRun x s = (.ok none, s) :=
    congrArg (fun found => (Except.ok found, s)) unrecorded
  rw [Reconciler.syncRun, bind_of_eq asked]
  dsimp only
  rw [bind_of_eq read]
  rfl

/-- A sync that does not know the run leaves the store as it is. -/
theorem syncRun_cases (engine : Engine Id) (clock : Instant) (s : Store) (x : String) :
    (∃ detail row, engine.runDetail x = .ok detail ∧ s.findRun x = some row) ∨
    ∃ outcome, (alone engine clock).syncRun x s = (outcome, s) ∧
      ∀ summary, outcome ≠ .ok (.synced summary) := by
  cases answered : engine.runDetail x with
  | error e =>
    right
    have asked : (alone engine clock).engine.runDetail x s = (.error e, s) :=
      congrArg (·, s) answered
    rw [Reconciler.syncRun, bind_of_eq asked]
    cases e <;> exact ⟨_, rfl, nofun⟩
  | ok detail =>
    cases found : s.findRun x with
    | some row => exact .inl ⟨detail, row, rfl, rfl⟩
    | none => exact .inr ⟨_, syncRun_of_unrecorded clock answered found, nofun⟩

/-! ## Among failures -/

/-- How a call is answered by an engine that always gives the same answers, by a clock that stands
still and by a store, and the store that is left. -/
def AnswersSteadily (engine : Engine Id) (clock : Instant) (s : Store) :
    (call : Call) → call.Answer → Store → Prop
  | .runDetail runId, answer, after => answer = engine.runDetail runId ∧ after = s
  | .recentRuns limit lower upper, answer, after =>
    answer = engine.recentRuns limit lower upper ∧ after = s
  | .now, answer, after => answer = clock ∧ after = s
  | .store call, answer, after => call.perform s = (answer, after)

/-- The surroundings in which others do nothing but make the next commits fail. -/
def steady (engine : Engine Id) (clock : Instant) : Program.Surroundings Call.Answer Store where
  others s s' := ∃ count, s' = { s with failingCommits := count }
  answers := AnswersSteadily engine clock

theorem runsIn_steady {α : Type} {call : Call} {next : call.Answer → Program Call.Answer α}
    {answer : call.Answer} {mid after : Store} {exchanges : List (Exchange Call.Answer)}
    {result : α} (answered : AnswersSteadily engine clock s call answer mid)
    (run : (next answer).RunsIn (steady engine clock) mid exchanges result after) :
    (Program.ask call next).RunsIn (steady engine clock) s (⟨call, answer⟩ :: exchanges) result
      after :=
  .ask ⟨s.failingCommits, rfl⟩ answered run

/-- A program ends as an action does, and the store stays as it is. -/
def Reads (engine : Engine Id) (clock : Instant) {α : Type} (p : Program Call.Answer α)
    (act : StateM Store α) : Prop :=
  ∀ s exchanges result after, p.RunsIn (steady engine clock) s exchanges result after →
    act s.calm = (result, s.calm) ∧ after.calm = s.calm

def IsError {ε α : Type} (result : Except ε α) : Prop := ∃ e, result = .error e

/-- A program ends as an action does and makes the same store, or it fails and the store stays as it
is. -/
def Mirrors (engine : Engine Id) (clock : Instant) {α : Type} (fails : α → Prop)
    (p : Program Call.Answer α) (act : StateM Store α) : Prop :=
  ∀ s exchanges result after, p.RunsIn (steady engine clock) s exchanges result after →
    act s.calm = (result, after.calm) ∨ fails result ∧ after.calm = s.calm

section Mirrors

variable {α β : Type} {p : Program Call.Answer α} {act : StateM Store α}
  {k : α → Program Call.Answer β} {onwards : α → StateM Store β} {fails : α → Prop}
  {fails' : β → Prop} {pageSize : Nat}

theorem Reads.done (a : α) : Reads engine clock (.done a) (pure a) := by
  intro s exchanges result after run
  cases run
  exact ⟨rfl, rfl⟩

theorem Reads.bind (first : Reads engine clock p act)
    (second : ∀ a, Reads engine clock (k a) (onwards a)) :
    Reads engine clock (p >>= k) (act >>= onwards) := by
  intro s exchanges result after run
  obtain ⟨a, mid, _, _, _, run, run'⟩ := Program.runsIn_bind_iff.mp run
  obtain ⟨ended, still⟩ := first _ _ _ _ run
  obtain ⟨ended', still'⟩ := second a _ _ _ _ run'
  rw [bind_of_eq ended, ← still]
  exact ⟨ended', still'⟩

/-- A program that only reads behaves among failures as it does alone. -/
theorem Reads.mirrors (reads : Reads engine clock p act) : Mirrors engine clock fails p act := by
  intro s exchanges result after run
  obtain ⟨ended, still⟩ := reads _ _ _ _ run
  left
  rw [ended, still]

/-- A part that only reads may go before one that mirrors. -/
theorem Reads.bind_mirrors (first : Reads engine clock p act)
    (second : ∀ a, Mirrors engine clock fails' (k a) (onwards a)) :
    Mirrors engine clock fails' (p >>= k) (act >>= onwards) := by
  intro s exchanges result after run
  obtain ⟨a, mid, _, _, _, run, run'⟩ := Program.runsIn_bind_iff.mp run
  obtain ⟨ended, still⟩ := first _ _ _ _ run
  rw [bind_of_eq ended, ← still]
  exact second a _ _ _ _ run'

/-- A part that only reads may follow one that mirrors, if it passes on a failure. -/
theorem Mirrors.bind_reads (first : Mirrors engine clock fails p act)
    (second : ∀ a, Reads engine clock (k a) (onwards a))
    (failing : ∀ a, fails a → ∃ b, k a = .done b ∧ fails' b) :
    Mirrors engine clock fails' (p >>= k) (act >>= onwards) := by
  intro s exchanges result after run
  obtain ⟨a, mid, _, _, _, run, run'⟩ := Program.runsIn_bind_iff.mp run
  rcases first _ _ _ _ run with ended | ⟨failed, still⟩
  · obtain ⟨ended', still'⟩ := second a _ _ _ _ run'
    left
    rw [bind_of_eq ended, ended', still']
  · obtain ⟨b, done, failed'⟩ := failing a failed
    rw [done] at run'
    cases run'
    exact .inr ⟨failed', still⟩

/-- A question whose answer does not depend on the failures that are to come. -/
theorem reads_question {call : Call} {act : StateM Store call.Answer}
    (looks : ∀ s answer after, AnswersSteadily engine clock s call answer after →
      act s.calm = (answer, s.calm) ∧ after = s) :
    Reads engine clock (question call) act := by
  intro s exchanges result after run
  obtain ⟨now, answer, mid, rest, _, ⟨count, rfl⟩, answered, run⟩ := Program.runsIn_ask_iff.mp run
  cases run
  obtain ⟨ended, rfl⟩ := looks _ _ _ answered
  exact ⟨ended, rfl⟩

/-- A call whose answer does not depend on failures only reads. -/
theorem reads_store (call : StoreCall) (blind : ∀ s : Store, call.perform s.calm =
      ((call.perform s).1, s.calm) ∧ (call.perform s).2 = s) :
    Reads engine clock (question (Call.store call)) call.perform := by
  refine reads_question fun s answer after answered => ?_
  obtain ⟨same, still⟩ := blind s
  rw [show call.perform s = (answer, after) from answered] at same still
  exact ⟨same, still⟩

/-- A commit succeeds as it does alone, or it fails and changes nothing. -/
theorem mirrors_commit (snap : Snapshot) : Mirrors engine clock IsError
    (question (Call.store (.commit snap))) (StoreCall.commit snap).perform := by
  intro s exchanges result after run
  obtain ⟨now, answer, mid, rest, _, ⟨count, rfl⟩, answered, run⟩ := Program.runsIn_ask_iff.mp run
  cases run
  -- What others did shows in the failures that are to come alone.
  generalize same : { s with failingCommits := count } = now at answered
  have calm : now.calm = s.calm := same ▸ rfl
  have answered : now.commit snap = (result, after) := answered
  rcases now.commit_cases snap with ⟨_, failed⟩ | ⟨_, _, e, refused⟩ | ⟨_, known, done⟩
  · cases failed.symm.trans answered
    exact .inr ⟨⟨_, rfl⟩, calm⟩
  · cases refused.symm.trans answered
    exact .inr ⟨⟨e, rfl⟩, calm⟩
  · cases done.symm.trans answered
    left
    rw [Store.calm_carryOut, ← calm]
    have allowed : now.calm.failingCommits = 0 := rfl
    exact Store.commit_of_knows snap allowed known

/-! ## A sync among failures -/

/-- Staging does not depend on failures. -/
theorem reads_stageAll (writes : List Write) (snap : Snapshot) :
    Reads engine clock (stageAll (reconciler pageSize).store snap writes)
      (stageAll Backend.plain snap writes) := by
  induction writes generalizing snap with
  | nil => exact .done _
  | cons w rest ih =>
    unfold stageAll
    refine (reads_store (.stage snap w) fun _ => ⟨rfl, rfl⟩).bind fun staged => ?_
    cases staged with
    | error e => exact .done _
    | ok next => exact ih next

/-- Storing a plan does among failures what it does alone, or fails. -/
theorem mirrors_persist (plan : Plan) : Mirrors engine clock IsError
    (persist (reconciler pageSize).store plan) (persist Backend.plain plan) := by
  unfold persist
  refine (reads_store .beginSnapshot fun _ => ⟨rfl, rfl⟩).bind_mirrors fun opened => ?_
  cases opened with
  | error e => exact (Reads.done _).mirrors
  | ok snap =>
    refine (reads_stageAll plan.writes snap).bind_mirrors fun staged => ?_
    cases staged with
    | error refused =>
      exact ((reads_store (.abort _) fun _ => ⟨rfl, rfl⟩).bind fun _ => .done _).mirrors
    | ok snap =>
      refine (mirrors_commit snap).bind_reads (fun committed => ?_) ?_
      · cases committed <;> exact .done _
      · rintro _ ⟨e, rfl⟩
        exact ⟨_, rfl, e, rfl⟩

/-- Resolving locations does not depend on failures. -/
theorem reads_locations (row : RunRecord) (detail : RunDetail) (now : Instant) :
    Reads engine clock ((reconciler pageSize).locations row detail now)
      ((alone engine clock).locations row detail now) := by
  unfold Reconciler.locations
  split
  · refine (reads_store (.outputSpec _) fun _ => ⟨rfl, rfl⟩).bind fun declared => ?_
    cases declared <;> exact .done _
  · exact .done _

/-- Storing a detail does among failures what it does alone, or fails. -/
theorem mirrors_storeDetail (x : String) (row : RunRecord) (detail : RunDetail) :
    Mirrors engine clock IsError ((reconciler pageSize).storeDetail x row detail)
      ((alone engine clock).storeDetail x row detail) := by
  have clocked : Reads engine clock (question Call.now) (alone engine clock).clock :=
    reads_question fun s answer after ⟨said, still⟩ => ⟨congrArg (·, s.calm) said.symm, still⟩
  unfold Reconciler.storeDetail
  refine clocked.bind_mirrors fun now => ?_
  refine (reads_locations row detail now).bind_mirrors fun found => ?_
  cases found with
  | error e => exact (Reads.done _).mirrors
  | ok locations =>
    refine (mirrors_persist _).bind_reads (fun persisted => ?_) ?_
    · cases persisted <;> exact .done _
    · rintro _ ⟨e, rfl⟩
      exact ⟨_, rfl, _, rfl⟩

/-- A sync does what it does alone, or it ends with an error and changes nothing. -/
theorem mirrors_syncRun (x : String) : Mirrors engine clock IsError
    ((reconciler pageSize).syncRun x) ((alone engine clock).syncRun x) := by
  have asked : Reads engine clock (question (Call.runDetail x))
      ((alone engine clock).engine.runDetail x) :=
    reads_question fun s answer after ⟨said, still⟩ => ⟨congrArg (·, s.calm) said.symm, still⟩
  unfold Reconciler.syncRun
  refine asked.bind_mirrors fun answer => ?_
  cases answer with
  | error e => cases e <;> exact (Reads.done _).mirrors
  | ok detail =>
    refine (reads_store (.findRun x) fun _ => ⟨rfl, rfl⟩).bind_mirrors fun found => ?_
    match found with
    | .error e => exact (Reads.done _).mirrors
    | .ok none => exact (Reads.done _).mirrors
    | .ok (some row) => exact mirrors_storeDetail x row detail

end Mirrors

end RunLedger.Interleaving
