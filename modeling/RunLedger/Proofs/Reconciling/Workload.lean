import Mathlib.Logic.Relation
import RunLedger.Proofs.Reconciling.Chronicle

/-!
# Syncs at work

A workload is a chronicle with the syncs that are under way. Any number of syncs may begin at any
time, and they take turns in any order. What the chronicle says of a run stays true through all
steps, so the row of a run has the form that its news give it. And whatever a sync may be told, it
can be carried through when the others pause, so every history of news is one that may come about.
-/

namespace RunLedger.Interleaving

open RunLedger.Sync RunLedger.Time

/-- A sync that is under way, and what is left of it. -/
structure Task where
  errand : Errand
  rest : Program Call.Answer (Except SyncError RunOutcome)

structure Workload where
  chronicle : Chronicle := {}
  tasks : List Task := []

namespace Workload

inductive Step : Workload → Workload → Prop where
  | other {w : Workload} {c : Chronicle} (step : w.chronicle.Step c) :
      Step w { w with chronicle := c }
  | begin {w : Workload} (e : Errand) :
      Step w { w with tasks := w.tasks ++ [⟨e, (reconciler 1).syncRun e.externalRunId⟩] }
  /-- A call of one of the syncs is answered. -/
  | turn {w : Workload} {before after : List Task} {e : Errand} {call : Call}
      {next : call.Answer → Program Call.Answer (Except SyncError RunOutcome)}
      {answer : call.Answer} {c : Chronicle}
      (turn : w.tasks = before ++ ⟨e, .ask call next⟩ :: after)
      (answered : e.Answers w.chronicle call answer c) :
      Step w ⟨c, before ++ ⟨e, next answer⟩ :: after⟩

variable {w w' : Workload} {run : NewRun}

/-- A workload that can come of an empty store. -/
def Reached (w : Workload) : Prop := Relation.ReflTransGen Step {} w

/-- The chronicle is sound, and every sync will keep to what may become of it. -/
structure Invariant (w : Workload) : Prop where
  sound : w.chronicle.Sound
  tasks : ∀ t ∈ w.tasks, t.errand.Behaves t.rest w.chronicle

/-- Every step of a workload keeps the invariant. -/
theorem Invariant.step (invariant : Invariant w) (step : Step w w') : Invariant w' := by
  have others {c : Chronicle} (moved : w.chronicle.Follows c) (t : Task)
      (behaves : t.errand.Behaves t.rest w.chronicle) : t.errand.Behaves t.rest c :=
    Program.Keeps.others Chronicle.Follows.trans (fun _ => id) behaves moved
  cases step with
  | other step =>
    have moved := step.follows
    exact ⟨moved.2 invariant.sound, fun t member => others moved t (invariant.tasks t member)⟩
  | begin e =>
    refine ⟨invariant.sound, List.forall_mem_append.mpr ⟨invariant.tasks, ?_⟩⟩
    exact List.forall_mem_singleton.mpr (e.behaves_syncRun invariant.sound)
  | @turn before after e call next answer c turn answered =>
    have tasks := invariant.tasks
    rw [turn, List.forall_mem_append, List.forall_mem_cons] at tasks
    obtain ⟨earlier, mine, later⟩ := tasks
    obtain ⟨moved, rest⟩ := mine w.chronicle (.refl _) answer c answered
    refine ⟨moved.2 invariant.sound, List.forall_mem_append.mpr ⟨?_, List.forall_mem_cons.mpr ?_⟩⟩
    · exact fun t member => others moved t (earlier t member)
    · exact ⟨rest, fun t member => others moved t (later t member)⟩

/-- Every workload that is reached satisfies the invariant, by induction on the steps. -/
theorem Reached.invariant (reached : Reached w) : Invariant w := by
  induction reached with
  | refl =>
    refine ⟨⟨Store.Reachable.empty.coherent, ?_, fun _ _ => rfl⟩, ?_⟩
    · exact fun _ impossible => absurd impossible List.not_mem_nil
    · exact fun _ impossible => absurd impossible List.not_mem_nil
  | tail _ step ih => exact ih.step step

/-- In every workload that is reached, a recorded run has the row that its news make. -/
theorem Reached.rowAfter (reached : Reached w) (recorded : .recorded run ∈ w.chronicle.deeds) :
    ∃ row, w.chronicle.store.findRun run.externalRunId = some row ∧
      RowAfter run (w.chronicle.newsOf run.externalRunId) row :=
  reached.invariant.sound.recorded run recorded

end Workload

/-! ## Undisturbed syncs -/

namespace Errand

/-- A program ends in a result while nobody else does anything. -/
def Ends {α : Type} (e : Errand) (p : Program Call.Answer α) (c : Chronicle) (result : α)
    (after : Chronicle) : Prop :=
  ∃ exchanges, p.RunsIn ⟨Eq, e.Answers⟩ c exchanges result after

/-- The chronicle after the commit of a sync which has read a row of its run. -/
def committed (e : Errand) (stale : RunRecord) (detail : RunDetail) (c : Chronicle) :
    Chronicle where
  store := c.store.carryOut (planFor e.externalRunId (c.store.outputSpec stale.workflowId) detail
    stale e.clock).writes
  deeds := c.deeds ++ [.synced e.externalRunId ⟨detail, e.clock⟩]

section Ends

variable {α β : Type} {e : Errand} {c mid after : Chronicle} {p : Program Call.Answer α}
  {result : α} {pageSize : Nat} {detail : RunDetail} {row stale : RunRecord}

theorem Ends.done (result : α) (c : Chronicle) : e.Ends (.done result) c result c :=
  ⟨[], .done result c⟩

theorem Ends.ask {call : Call} {next : call.Answer → Program Call.Answer α} {answer : call.Answer}
    (answered : e.Answers c call answer mid) (rest : e.Ends (next answer) mid result after) :
    e.Ends (.ask call next) c result after := by
  obtain ⟨exchanges, run⟩ := rest
  exact ⟨_, .ask rfl answered run⟩

theorem Ends.bind {f : α → Program Call.Answer β} {result' : β} (first : e.Ends p c result mid)
    (second : e.Ends (f result) mid result' after) : e.Ends (p >>= f) c result' after := by
  obtain ⟨exchanges, run⟩ := first
  obtain ⟨exchanges', run'⟩ := second
  exact ⟨_, Program.runsIn_bind_iff.mpr ⟨_, _, _, _, rfl, run, run'⟩⟩

theorem Ends.look {call : StoreCall} {next : call.Answer → Program Call.Answer α}
    (looks : call.looks = true)
    (rest : e.Ends (next (call.perform c.store).1) c result after) :
    e.Ends (.ask (.store call) next) c result after := by
  refine .ask ⟨?_, ?_⟩ rest
  · rw [Prod.ext_iff]
    exact ⟨rfl, StoreCall.perform_of_looks looks c.store⟩
  · rw [deeds_of_looks looks, List.append_nil]

/-- Undisturbed staging succeeds if the runs are known. -/
theorem ends_stageAll {writes : List Write} (known : c.store.Knows writes) (snap : Snapshot) :
    e.Ends (stageAll (reconciler pageSize).store snap writes) c
      (.ok ⟨snap.writes ++ writes⟩) c := by
  induction writes generalizing snap with
  | nil =>
    rw [List.append_nil]
    exact .done _ c
  | cons write rest ih =>
    obtain ⟨first, others⟩ := List.forall_mem_cons.mp known
    have staged : ((StoreCall.stage snap write).perform c.store).1 = .ok ⟨snap.writes ++ [write]⟩ :=
      Store.stage_of_known snap first
    refine .look rfl ?_
    rw [staged]
    have onwards := ih others ⟨snap.writes ++ [write]⟩
    rwa [List.append_assoc, List.singleton_append] at onwards

/-- Undisturbed resolving gives the locations of the store as it is. -/
theorem ends_locations (detail : RunDetail) (now : Instant) :
    e.Ends ((reconciler pageSize).locations stale detail now) c
      (.ok (locationsFor (c.store.outputSpec stale.workflowId) detail stale now)) c := by
  unfold Reconciler.locations locationsFor
  split
  · exact .look rfl (.done _ c)
  · exact .done _ c

/-- An undisturbed plan is carried out and becomes a deed. -/
theorem ends_persist {plan : Plan} (calm : c.store.failingCommits = 0)
    (known : c.store.Knows plan.writes) :
    e.Ends (persist (reconciler pageSize).store plan) c
      (.ok ⟨plan.transitions.length, plan.logs.length⟩)
      ⟨c.store.carryOut plan.writes,
        c.deeds ++ e.deeds (.store (.commit ⟨plan.writes⟩)) (.ok ())⟩ := by
  have committed : e.Answers c (.store (.commit ⟨plan.writes⟩)) (.ok ())
      ⟨c.store.carryOut plan.writes,
        c.deeds ++ e.deeds (.store (.commit ⟨plan.writes⟩)) (.ok ())⟩ :=
    ⟨Store.commit_of_knows _ calm known, rfl⟩
  exact .look rfl ((ends_stageAll known {}).bind (.ask committed (.done _ _)))

/-- A sync that has read a row of the run, maybe long ago, commits its news. -/
theorem ends_storeDetail (asked : e.answer = .ok detail) (calm : c.store.failingCommits = 0)
    (found : c.store.findRun e.externalRunId = some row) (sameId : stale.id = row.id) :
    ∃ result, e.Ends ((reconciler pageSize).storeDetail e.externalRunId stale detail) c result
      (e.committed stale detail c) := by
  have owns := owns_planFor_of_id found sameId (c.store.outputSpec stale.workflowId) detail e.clock
  have located : e.Ends ((reconciler pageSize).locations stale detail e.clock) c _ c :=
    ends_locations detail e.clock
  have persisted : e.Ends (persist (reconciler pageSize).store _) c _ _ :=
    ends_persist calm owns.knows
  simp only [deeds, asked] at persisted
  exact ⟨_, .ask ⟨rfl, rfl⟩ (located.bind (persisted.bind (.done _ _)))⟩

end Ends

end Errand

namespace Workload

variable {w : Workload} {run : NewRun} {e : Errand} {row : RunRecord} {detail : RunDetail}

section Turns

variable {before rest : List Task} {c after : Chronicle}

/-- A workload in which one errand takes its turn is reached. -/
theorem Reached.turn {call : Call}
    {next : call.Answer → Program Call.Answer (Except SyncError RunOutcome)} {answer : call.Answer}
    (reached : Reached ⟨c, before ++ ⟨e, .ask call next⟩ :: rest⟩)
    (answered : e.Answers c call answer after) :
    Reached ⟨after, before ++ ⟨e, next answer⟩ :: rest⟩ :=
  reached.tail (.turn rfl answered)

/-- A sync may take all its turns before the others take theirs. -/
theorem Reached.ends {p : Program Call.Answer (Except SyncError RunOutcome)}
    {result : Except SyncError RunOutcome}
    (reached : Reached ⟨c, before ++ ⟨e, p⟩ :: rest⟩) (ends : e.Ends p c result after) :
    Reached ⟨after, before ++ ⟨e, .done result⟩ :: rest⟩ := by
  obtain ⟨exchanges, run⟩ := ends
  induction run with
  | done => exact reached
  | ask others answered _ ih =>
    cases others
    exact ih (reached.turn answered)

/-- A sync asks the engine and reads the row of its run. -/
theorem Reached.read
    (reached : Reached ⟨c, before ++ ⟨e, (reconciler 1).syncRun e.externalRunId⟩ :: rest⟩)
    (asked : e.answer = .ok detail) (found : c.store.findRun e.externalRunId = some row) :
    Reached ⟨c, before ++ ⟨e, (reconciler 1).storeDetail e.externalRunId row detail⟩ :: rest⟩ := by
  have query : e.Answers c (.runDetail e.externalRunId) (.ok detail) c := ⟨asked.symm, rfl⟩
  have lookUp : e.Answers c (.store (.findRun e.externalRunId)) (.ok (some row)) c :=
    ⟨congrArg (fun found => (Except.ok found, c.store)) found, (List.append_nil _).symm⟩
  exact (reached.turn query).turn lookUp

/-- A workload in which one errand stores its detail without being disturbed is reached. -/
theorem Reached.store {stale : RunRecord}
    (reached : Reached
      ⟨c, before ++ ⟨e, (reconciler 1).storeDetail e.externalRunId stale detail⟩ :: rest⟩)
    (asked : e.answer = .ok detail) (calm : c.store.failingCommits = 0)
    (found : c.store.findRun e.externalRunId = some row) (sameId : stale.id = row.id) :
    ∃ result, Reached ⟨e.committed stale detail c, before ++ ⟨e, .done result⟩ :: rest⟩ := by
  obtain ⟨result, stored⟩ := Errand.ends_storeDetail asked calm found sameId
  exact ⟨result, reached.ends stored⟩

end Turns

/-- A sync begins, and it commits its news before anything else happens. -/
theorem Reached.sync (reached : Reached w) (asked : e.answer = .ok detail)
    (calm : w.chronicle.store.failingCommits = 0)
    (found : w.chronicle.store.findRun e.externalRunId = some row) :
    ∃ tasks, Reached ⟨e.committed row detail w.chronicle, tasks⟩ := by
  have begun : Reached ⟨w.chronicle, w.tasks ++ ⟨e, _⟩ :: []⟩ := reached.tail (.begin e)
  obtain ⟨result, stored⟩ := (begun.read asked found).store asked calm found rfl
  exact ⟨_, stored⟩

/-- Whatever news there may be of a run, and whatever is declared for it, its syncs may commit them
one after another. -/
theorem exists_reached (run : NewRun) (spec : OutputSpec) (news : List News) :
    ∃ w, Reached w ∧ .recorded run ∈ w.chronicle.deeds ∧
      w.chronicle.newsOf run.externalRunId = news ∧
      w.chronicle.store.findRun run.externalRunId = some (rowOf spec (run.record 1) news) := by
  -- For the next sync, commits must succeed and the declaration must still be the same.
  suffices strong : ∃ w, Reached w ∧ .recorded run ∈ w.chronicle.deeds ∧
      w.chronicle.newsOf run.externalRunId = news ∧
      w.chronicle.store.findRun run.externalRunId = some (rowOf spec (run.record 1) news) ∧
      w.chronicle.store.failingCommits = 0 ∧
      w.chronicle.store.outputSpec run.workflowId = spec by
    obtain ⟨w, reached, recorded, isNews, found, _⟩ := strong
    exact ⟨w, reached, recorded, isNews, found⟩
  induction news using List.reverseRecOn with
  | nil =>
    have recorded : Step {} ⟨⟨{ lastRunId := 1, runs := [run.record 1] }, [.recorded run]⟩, []⟩ :=
      .other (.record rfl)
    have reached := (Relation.ReflTransGen.single recorded).tail
      (.other (.declare run.workflowId spec))
    refine ⟨_, reached, List.mem_cons_self .., rfl, ?_, rfl, ?_⟩
    · simp [Store.declareOutput, Store.findRun, rowOf, NewRun.record]
    · simp [Store.declareOutput, Store.outputSpec]
  | append_singleton news a ih =>
    obtain ⟨w, reached, recorded, isNews, found, calm, declared⟩ := ih
    have declaredToo : w.chronicle.store.outputSpec (rowOf spec (run.record 1) news).workflowId =
        spec := by
      rw [workflowId_rowOf]
      exact declared
    obtain ⟨tasks, synced⟩ :=
      reached.sync (e := ⟨run.externalRunId, .ok a.detail, a.clock⟩) rfl calm found
    rw [Errand.committed, declaredToo] at synced
    have owns := owns_planFor found spec a.detail a.clock
    refine ⟨_, synced, List.mem_append_left _ recorded, ?_, ?_, ?_, ?_⟩
    · rw [Chronicle.newsOf_synced]
      exact congrArg (· ++ [a]) isNews
    · rw [rowOf_append]
      exact Store.findRun_carryOut_self owns
    · exact (Store.failingCommits_carryOut _ _).trans calm
    · exact (Store.outputSpec_carryOut _ _ _).trans declared

/-! ## The row of a run -/

def queuedRun : NewRun := ⟨"x", 1, .queued, none, .null⟩

def queuedChronicle : Chronicle :=
  ⟨{ lastRunId := 1, runs := [queuedRun.record 1] }, [.recorded queuedRun]⟩

theorem reached_queuedChronicle : Reached ⟨queuedChronicle, []⟩ := .single (.other (.record rfl))

/-- News at 10 nanoseconds that the run started at 5. -/
def startedNews : News := ⟨⟨"x", "STARTED", some (.utc 5), none, none, .obj [], []⟩, .utc 10⟩

/-- News at 20 nanoseconds that the run has succeeded. -/
def succeededNews : News := ⟨⟨"x", "SUCCESS", none, none, none, .obj [], []⟩, .utc 20⟩

def errandOf (a : News) : Errand := ⟨"x", .ok a.detail, a.clock⟩

end Workload

end RunLedger.Interleaving
