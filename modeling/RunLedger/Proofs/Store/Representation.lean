import RunLedger.Proofs.Store.Keyed

/-!
# How a store represents its runs

A run is known by two names, and its steps and log entries carry copies of them. Nothing forces the
writer of a step to give the number and the name of the same run. Still, whatever happens in a
session, the index of names and the map of runs correspond, numbers are given in turn from one on,
rows are stored under their own keys and belong to recorded runs, and a listing holds each row of a
run once, in strict order.
-/

namespace RunLedger

namespace KeyedStore

variable {k : KeyedStore} {s : Store} {recorded : Nat}

/-- The maps of a store in which so many runs were recorded agree with one another, and look-ups and
listings with the maps. -/
structure Represents (k : KeyedStore) (recorded : Nat) : Prop extends Keyed k where
  /-- A name stands for a number if and only if the run with the number has the name. -/
  number_iff : ∀ (name : String) (id : RunId), k.runIds[name]? = some id ↔
    ∃ row, k.runs[id]? = some row ∧ row.externalRunId = name ∧ row.id = id
  /-- Numbers are given in turn from one on. -/
  known_iff : ∀ id : RunId, id ∈ k.runs ↔ 1 ≤ id ∧ id ≤ recorded
  stepRuns : ∀ (key : StepKey) (row : StepRecord), k.steps[key]? = some row → row.runId ∈ k.runs
  logRuns : ∀ (key : LogKey) (entry : LogEntry), k.logs[key]? = some entry → entry.runId ∈ k.runs
  /-- The run that is found is the one with the name. -/
  findRun_iff : ∀ (name : String) (row : RunRecord), k.findRun name = some row ↔
    k.runs[row.id]? = some row ∧ row.externalRunId = name
  /-- A listing has the steps that are stored and have the name, in an order without repetition. -/
  mem_listSteps_iff : ∀ (name : String) (row : StepRecord), row ∈ k.listSteps name ↔
    k.steps[row.key]? = some row ∧ row.externalRunId = name
  pairwise_listSteps : ∀ name : String,
    (k.listSteps name).Pairwise fun a b => a.stepCode < b.stepCode
  /-- A listing has the log entries that are stored and have the name, in an order without
  repetition. -/
  mem_listLogs_iff : ∀ (name : String) (entry : LogEntry), entry ∈ k.listLogs name ↔
    k.logs[entry.key]? = some entry ∧ entry.externalRunId = name
  pairwise_listLogs : ∀ name : String, (k.listLogs name).Pairwise LogEntry.Precedes

/-- The map of runs has an entry for each number that the plain store knows. -/
theorem Holds.mem_runs_iff (holds : k.Holds s) (id : RunId) :
    id ∈ k.runs ↔ (s.run? id).isSome = true := by
  rw [Std.TreeMap.mem_iff_isSome_getElem?, holds.run]

/-- A keyed store that holds a coherent and anchored one represents its runs. -/
theorem Holds.represents (holds : k.Holds s) (coherent : s.Coherent) (anchored : s.Anchored)
    (counted : s.lastRunId = recorded) : k.Represents recorded := by
  have keyed := holds.keyed
  have findRun_iff (name : String) (row : RunRecord) :
      s.findRun name = some row ↔ row ∈ s.runs ∧ row.externalRunId = name :=
    find?_eq_some_iff anchored.names (fun _ => beq_iff_eq) row
  have run_iff (id : RunId) (row : RunRecord) : s.run? id = some row ↔ row ∈ s.runs ∧ row.id = id :=
    find?_eq_some_iff coherent.runIds (fun _ => beq_iff_eq) row
  refine
    { keyed with
      number_iff := fun name id => ?_
      known_iff := fun id => ?_
      stepRuns := fun key row stored => ?_
      logRuns := fun key entry stored => ?_
      findRun_iff := fun name row => ?_
      mem_listSteps_iff := fun name row => mem_listSteps_iff keyed
      pairwise_listSteps := k.pairwise_listSteps keyed
      mem_listLogs_iff := fun name entry => mem_listLogs_iff keyed
      pairwise_listLogs := k.pairwise_listLogs keyed }
  · simp only [holds.runId, holds.run, Option.map_eq_some_iff, findRun_iff, run_iff]
    constructor
    · rintro ⟨row, ⟨member, named⟩, numbered⟩
      exact ⟨row, ⟨member, numbered⟩, named, numbered⟩
    · rintro ⟨row, ⟨member, numbered⟩, named, _⟩
      exact ⟨row, ⟨member, named⟩, numbered⟩
  · rw [holds.mem_runs_iff, anchored.known_iff, counted]
  · have found := (holds.step key.1 key.2).symm.trans stored
    exact (holds.mem_runs_iff row.runId).mpr
      (anchored.steps row ((Store.step?_eq_some_iff coherent).mp found).1)
  · have found := (holds.log key).symm.trans stored
    exact (holds.mem_runs_iff entry.runId).mpr
      (anchored.logs entry ((Store.log?_eq_some_iff coherent).mp found).1)
  · simp only [holds.findRun coherent, holds.run, findRun_iff, run_iff, and_true]

end KeyedStore

namespace Interleaving.Session

/-- Whatever happens in a session that starts with an empty store, the store represents the runs
that were recorded. -/
theorem represents_of_executes {κ : Session KeyedStore} {events : List Event}
    (execution : Executes (.start {}) events κ) :
    κ.store.Represents (events.countP Event.records) := by
  obtain ⟨σ, plain, holds, _⟩ := KeyedStore.exists_executes_plain execution
  have reachable := plain.reachable .empty
  have counted := plain.lastRunId
  exact holds.represents reachable.coherent reachable.anchored (counted.trans (Int.zero_add _))

/-- A step of the first run under the name of another one, which was never recorded. -/
def strayStep (stepCode : String) : Write := .step 1 "y" ⟨stepCode, .started, none, none, none⟩

/-- Stray steps in the reverse order of their codes, of which those of a failing commit are lost. -/
def stray : List Event :=
  [.called (.insertRun launch) (.ok launched), .opened 0, .opened 1, .staged 0 (strayStep "load"),
    .staged 1 (strayStep "save"), .staged 0 (strayStep "init"), .failNext 1,
    .committed 1 (.error Store.injectedFailure), .committed 0 (.ok ())]

/-- Stray steps are stored under the name they were given, and they belong to a recorded run. -/
theorem represents_of_executes_stray : ∃ κ : Session KeyedStore, Executes (.start {}) stray κ ∧
    κ.store.Represents 1 ∧ κ.store.runIds["y"]? = none ∧
    κ.store.steps[(("y", "load") : StepKey)]? =
      some ⟨1, "y", "load", .started, none, none, none, none⟩ ∧
    (κ.store.listSteps "y").map (·.stepCode) = ["init", "load"] := by
  have recorded : Executes (.start ({} : KeyedStore)) (stray.take 1) _ := .single (.call rfl rfl)
  have opened : Executes (.start ({} : KeyedStore)) (stray.take 3) _ :=
    (recorded.snoc (.begin rfl)).snoc (.begin rfl)
  have staged : Executes (.start ({} : KeyedStore)) (stray.take 6) _ :=
    ((opened.snoc (.stage rfl rfl)).snoc (.stage rfl rfl)).snoc (.stage rfl rfl)
  have execution : Executes (.start ({} : KeyedStore)) stray _ :=
    ((staged.snoc (.failNext 1)).snoc (.commit rfl rfl)).snoc (.commit rfl rfl)
  exact ⟨_, execution, represents_of_executes execution, rfl, rfl, rfl⟩

end Interleaving.Session

end RunLedger
