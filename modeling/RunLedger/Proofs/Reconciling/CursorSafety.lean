import Mathlib.Logic.Relation
import RunLedger.Proofs.Reconciling.Handling

/-!
# Safety of the cursor

A system is a world in which passes follow one another, syncs on demand run at any time, runs are
launched and declarations change, and commits are made to fail. All of them take turns between any
two calls. Whatever the order, a run that lies behind the cursor has been synced since its latest
update.
-/

namespace RunLedger.Interleaving

open RunLedger.Sync RunLedger.Time

/-- A pass that may be under way, and the syncs on demand that are. -/
structure System where
  world : World
  pass : Option (Program Call.Answer (Except SyncError (Option TickReport)))
  triggers : List (Program Call.Answer TriggerResponse)

/-- A system in which nothing has happened yet. -/
def System.start (runs : List RunSummary) (store : Store) : System where
  world := ⟨runs, store, []⟩
  pass := none
  triggers := []

namespace World

/-- The world after an update of a run or with a new one. -/
def update (w : World) (run : RunSummary) : World where
  runs := w.runs.filter (·.runId != run.runId) ++ [run]
  store := w.store
  history := w.history ++ [.updated run.runId]

/-- The world with another store. -/
def withStore (w : World) (store : Store) : World := { w with store := store }

/-- The world after a call of a pass was answered. -/
def record (w : World) (call : Call) (answer : call.Answer) (store : Store) : World where
  runs := w.runs
  store := store
  history := w.history ++ [.answered ⟨call, answer⟩]

end World

/-- The steps of a system. -/
inductive Step (pageSize : Nat) : System → System → Prop where
  /-- The engine updates a run or has a new one; its time is later than all times before. -/
  | update {σ : System} (run : RunSummary)
      (newer : ∀ r ∈ σ.world.runs, r.updateTime < run.updateTime) :
      Step pageSize σ { σ with world := σ.world.update run }
  /-- A run is launched. -/
  | launch {σ : System} {run : NewRun} {row : RunRecord} {store : Store}
      (recorded : σ.world.store.insertRun run = .ok (row, store)) :
      Step pageSize σ { σ with world := σ.world.withStore store }
  /-- A workflow declares where its runs write files. -/
  | declare {σ : System} (workflowId : Int) (spec : OutputSpec) :
      Step pageSize σ { σ with
        world := σ.world.withStore (σ.world.store.declareOutput workflowId spec) }
  /-- The next commits are made to fail. -/
  | failCommits {σ : System} (count : Nat) :
      Step pageSize σ { σ with
        world := σ.world.withStore { σ.world.store with failingCommits := count } }
  | beginTrigger {σ : System} (runId : String) :
      Step pageSize σ { σ with triggers := σ.triggers ++ [(reconciler pageSize).trigger runId] }
  /-- A call of a sync on demand is answered. -/
  | trigger {σ : System} {before after : List (Program Call.Answer TriggerResponse)} {call : Call}
      {next : call.Answer → Program Call.Answer TriggerResponse} {answer : call.Answer}
      {store : Store} (turn : σ.triggers = before ++ .ask call next :: after)
      (answered : Answers σ.world.runs σ.world.store call answer store) :
      Step pageSize σ { σ with
        world := σ.world.withStore store, triggers := before ++ next answer :: after }
  | beginPass {σ : System} (fuel : Nat) (idle : σ.pass = none) :
      Step pageSize σ { σ with pass := some ((reconciler pageSize).tick fuel) }
  /-- A call of the pass is answered. -/
  | pass {σ : System} {call : Call}
      {next : call.Answer → Program Call.Answer (Except SyncError (Option TickReport))}
      {answer : call.Answer} {store : Store} (turn : σ.pass = some (.ask call next))
      (answered : Answers σ.world.runs σ.world.store call answer store) :
      Step pageSize σ { σ with
        world := σ.world.record call answer store, pass := some (next answer) }
  | endPass {σ : System} {report : Except SyncError (Option TickReport)}
      (done : σ.pass = some (.done report)) : Step pageSize σ { σ with pass := none }

variable {pageSize : Nat}

/-- An update of a run changes no other run and leaves the cursor alone. -/
theorem evolves_update {w : World} {run : RunSummary}
    (newer : ∀ r ∈ w.runs, r.updateTime < run.updateTime) :
    Evolves [.updated run.runId] w (w.update run) where
  history := rfl
  cursor := rfl
  runs r member := by
    rcases List.mem_append.mp member with other | itself
    · obtain ⟨known, different⟩ := List.mem_filter.mp other
      refine .inl ⟨known, fun updated => ?_⟩
      have same : r.runId = run.runId := by simpa using updated
      simp [same] at different
    · exact .inr (List.mem_singleton.mp itself ▸ newer)
  kept r member := by
    by_cases same : r.runId = run.runId
    · exact ⟨run, List.mem_append_right _ (List.mem_singleton_self _),
        Instant.le_of_lt (newer r member)⟩
    · exact ⟨r, List.mem_append_left _ (List.mem_filter.mpr ⟨member, by simpa using same⟩),
        Int.le_refl _⟩
  distinct distinct := by
    have others : ((w.runs.filter (·.runId != run.runId)).map (·.runId)).Nodup :=
      distinct.sublist (List.filter_sublist.map _)
    show ((w.runs.filter (·.runId != run.runId) ++ [run]).map (·.runId)).Nodup
    rw [List.map_append, List.map_singleton, List.nodup_append_comm]
    refine List.nodup_cons.mpr ⟨fun taken => ?_, others⟩
    obtain ⟨r, other, same⟩ := List.mem_map.mp taken
    simp [same] at other

/-- A change of the store that leaves the cursor alone changes no run. -/
theorem evolves_withStore {w : World} {store : Store} (cursor : store.cursor = w.store.cursor) :
    Evolves [] w (w.withStore store) where
  history := (List.append_nil _).symm
  cursor := cursor
  runs _ member := .inl ⟨member, List.not_mem_nil⟩
  kept run member := ⟨run, member, Int.le_refl _⟩
  distinct := id

/-- What holds of every state of a system: its world is safe, syncs on demand leave the cursor
alone, and the pass under way will keep the world safe. -/
structure Invariant (pageSize : Nat) (σ : System) : Prop where
  safe : Safe pageSize σ.world
  triggers : ∀ p ∈ σ.triggers, Still p
  pass : ∀ p, σ.pass = some p →
    p.Keeps surroundings (StaysSafe pageSize) (fun _ _ => True) σ.world

namespace Invariant

variable {σ σ' : System}

/-- What others do does not matter to the pass. -/
theorem pass_evolves {events : List Event} {w : World} (invariant : Invariant pageSize σ)
    (others : exchangesOf events = []) (evolved : Evolves events σ.world w) :
    ∀ p, σ.pass = some p → p.Keeps surroundings (StaysSafe pageSize) (fun _ _ => True) w := by
  intro p underWay
  refine Program.Keeps.others ?_ (fun _ => id) (invariant.pass p underWay) ⟨events, others, evolved⟩
  rintro a b c ⟨first, none, evolved⟩ ⟨second, none', evolved'⟩
  exact ⟨first ++ second, by rw [exchangesOf_append, none, none', List.append_nil],
    evolved.trans evolved'⟩

/-- What others do keeps the invariant. -/
theorem withWorld {events : List Event} {w : World} (invariant : Invariant pageSize σ)
    (others : exchangesOf events = []) (evolved : Evolves events σ.world w) :
    Invariant pageSize { σ with world := w } where
  safe := invariant.safe.evolves evolved
  triggers := invariant.triggers
  pass := invariant.pass_evolves others evolved

/-- Every step of a system keeps the invariant, by cases on the step. -/
theorem step (invariant : Invariant pageSize σ) (step : Step pageSize σ σ') :
    Invariant pageSize σ' := by
  cases step with
  | update run newer => exact invariant.withWorld rfl (evolves_update newer)
  | launch recorded =>
    exact invariant.withWorld rfl (evolves_withStore (StoreCall.insertRun_cursor recorded))
  | declare workflowId spec => exact invariant.withWorld rfl (evolves_withStore rfl)
  | failCommits count => exact invariant.withWorld rfl (evolves_withStore rfl)
  | beginTrigger runId =>
    refine { invariant with triggers := fun p member => ?_ }
    rcases List.mem_append.mp member with old | new
    · exact invariant.triggers p old
    · exact List.mem_singleton.mp new ▸ still_trigger runId
  | @trigger before after call next answer store turn answered =>
    have still : Still (.ask call next) := by
      apply invariant.triggers
      rw [turn]
      exact List.mem_append_right _ (List.mem_cons_self ..)
    have evolved := evolves_withStore (w := σ.world) (answered.cursor still.1)
    refine { invariant.withWorld rfl evolved with triggers := fun p member => ?_ }
    rcases List.mem_append.mp member with old | rest
    · exact invariant.triggers p (turn ▸ List.mem_append_left _ old)
    · rcases List.mem_cons.mp rest with rfl | old
      · exact still.2 answer
      · exact invariant.triggers p (turn ▸ List.mem_append_right _ (List.mem_cons_of_mem _ old))
  | beginPass fuel idle =>
    refine { invariant with pass := ?_ }
    rintro p ⟨⟩
    exact keeps_tick fuel invariant.safe
  | @pass call next answer store turn answered =>
    obtain ⟨kept, rest⟩ := invariant.pass _ turn σ.world ⟨[], rfl, .refl _⟩ answer
      (σ.world.record call answer store) ⟨rfl, rfl, answered⟩
    refine { invariant with safe := kept invariant.safe, pass := ?_ }
    rintro p ⟨⟩
    exact rest
  | endPass done => exact { invariant with pass := fun p impossible => nomatch impossible }

theorem start {runs : List RunSummary} {store : Store} (distinct : (runs.map (·.runId)).Nodup)
    (fresh : store.cursor = none) : Invariant pageSize (.start runs store) where
  safe :=
    { distinct := distinct
      bounded := fun _ isCursor => nomatch fresh.symm.trans isCursor
      synced := fun _ _ _ _ isCursor => nomatch fresh.symm.trans isCursor }
  triggers _ member := absurd member List.not_mem_nil
  pass _ impossible := nomatch impossible

/-- All states that a system without a cursor can reach satisfy the invariant. -/
theorem of_reached {runs : List RunSummary} {store : Store}
    (distinct : (runs.map (·.runId)).Nodup) (fresh : store.cursor = none)
    (reached : Relation.ReflTransGen (Step pageSize) (.start runs store) σ) :
    Invariant pageSize σ := by
  induction reached with
  | refl => exact .start distinct fresh
  | tail _ step ih => exact ih.step step

end Invariant

/-- In every state that a system without a cursor can reach, a run that was updated after 1970 and
not after the cursor was synced after its latest update, and the sync did not fail. -/
theorem synced_of_le_cursor {runs : List RunSummary} {store : Store} {σ : System} {run : RunSummary}
    {cursor : Instant} (distinct : (runs.map (·.runId)).Nodup) (fresh : store.cursor = none)
    (reached : Relation.ReflTransGen (Step pageSize) (.start runs store) σ)
    (member : run ∈ σ.world.runs) (afterEpoch : Instant.epoch < run.updateTime)
    (isCursor : σ.world.store.cursor = some cursor) (behind : run.updateTime ≤ cursor) :
    SyncedSince pageSize σ.world.history run.runId :=
  (Invariant.of_reached distinct fresh reached).safe.synced run member afterEpoch cursor isCursor
    behind

/-- A run that the engine knows and the store does not. -/
def strangeRun : RunSummary := ⟨"a", "SUCCESS", .utc 10, []⟩

/-- A run whose details the engine fails to give. -/
def failingRun : RunSummary := ⟨"b", "SUCCESS", .utc 20, []⟩

/-- A pass that found both runs fails at the later one, skips the strange one and moves the cursor
to its time. -/
theorem handle_strangeRun : ∃ fail skip finish,
    (reconciler 3).handle none ⟨[failingRun, strangeRun], none⟩ = .ask (.runDetail "b") fail ∧
    fail (.error (.transport "down")) = .ask (.runDetail "a") skip ∧
    skip (.error (.runNotFound "a")) = .ask (.store (.storeCursor (.utc 10))) finish := by
  have order : Candidates.inOrder ⟨[failingRun, strangeRun], none⟩ = [failingRun, strangeRun] :=
    List.mergeSort_of_pairwise (List.pairwise_pair.mpr (by decide))
  refine ⟨?fail, ?skip, ?finish, ?first, ?second, ?moved⟩
  case first =>
    unfold Reconciler.handle
    rw [order]
    rfl
  case second => rfl
  case moved => rfl

/-- While a pass looks at an engine, the strange run is updated, the other one appears, and a sync
on demand fails. The pass moves the cursor to the strange run, which it synced after its update. -/
theorem synced_of_le_cursor_strangeRun : ∃ σ : System,
    Relation.ReflTransGen (Step 3) (.start [⟨"a", "STARTED", .utc 5, []⟩] {}) σ ∧
    Event.updated strangeRun.runId ∈ σ.world.history ∧
    σ.world.runs = [strangeRun, failingRun] ∧
    σ.world.store.cursor = some strangeRun.updateTime ∧
    SyncedSince 3 σ.world.history strangeRun.runId := by
  obtain ⟨fail, skip, finish, first, second, moved⟩ := handle_strangeRun
  let report (r : Except SyncError TickReport) : Program Call.Answer _ := .done (r.map some)
  let known : RunSummary := ⟨"a", "STARTED", .utc 5, []⟩
  let runs := [strangeRun, failingRun]
  have loads : Answers [known] {} (.store .loadCursor) (.ok none) {} := rfl
  have lists : Answers runs {} (.recentRuns 3 none none) (.ok [failingRun, strangeRun]) {} := by
    refine ⟨rfl, [failingRun, strangeRun], .swap .., List.pairwise_pair.mpr ?_, rfl⟩
    rintro _ ⟨⟩ _ ⟨⟩
    decide
  have missing : Answers runs {} (.runDetail "a") (.error (.runNotFound "a")) {} := rfl
  have down (runId : String) : Answers runs {} (.runDetail runId) (.error (.transport "down")) {} :=
    rfl
  have stores : Answers runs {} (.store (.storeCursor (.utc 10))) (.ok ())
      { cursor := some (.utc 10) } := rfl
  have begun : Relation.ReflTransGen (Step 3) (.start [known] {}) _ := .single (.beginPass 1 rfl)
  have loaded := begun.tail (.pass rfl loads)
  have updated := (loaded.tail (.update strangeRun (by decide))).tail
    (.update failingRun (by decide))
  have listed := updated.tail (.pass rfl lists)
  have wanted := listed.tail (.beginTrigger "a")
  have failed := wanted.tail (.pass (congrArg (fun p => some (p >>= report)) first) (down "b"))
  have refused := failed.tail (@Step.trigger 3 _ [] [] _ _ _ _ rfl (down "a"))
  have skipped := refused.tail (.pass (congrArg (fun p => some (p >>= report)) second) missing)
  have stored := skipped.tail (.pass (congrArg (fun p => some (p >>= report)) moved) stores)
  exact ⟨_, stored, .tail _ (.head _), rfl, rfl, synced_of_le_cursor (by decide) rfl stored
    (List.mem_cons_self ..) (by decide) rfl (Int.le_refl _)⟩

end RunLedger.Interleaving
