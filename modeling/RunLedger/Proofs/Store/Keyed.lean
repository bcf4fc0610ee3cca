import Mathlib.Data.List.Sort
import RunLedger.Proofs.Store.Anchoring
import RunLedger.Proofs.Store.Lasting
import Std.Data.TreeMap.Lemmas

/-!
# Keyed stores and plain ones

A keyed store holds a plain one if a look-up under any key finds the same row in both. Every
operation has the same answer on both and leaves them so, `simulation`, and so a keyed store and a
plain one have the same sessions. Where rows are stored under their own keys, what a listing has and
in which order is read off the maps.
-/

namespace RunLedger

open Interleaving (StoreCall StoreModel)
open Std (LawfulEqOrd TransCmp TransOrd TreeMap)

/-! ## The order of keys -/

instance : TransOrd EventKind := inferInstanceAs (TransCmp (compareOn EventKind.rank))

instance : LawfulEqOrd EventKind where
  eq_of_compare same := EventKind.rank_injective (Std.compare_eq_iff_eq.mp same)

/-- The steps of one run are in the order of their codes. -/
theorem compare_stepKey_eq_lt {a b : StepKey} (same : a.1 = b.1) :
    compare a b = .lt ↔ a.2 < b.2 := by
  change compareLex (compareOn Prod.fst) (compareOn Prod.snd) a b = .lt ↔ _
  rw [compareLex, compareOn, Std.compare_eq_iff_eq.mpr same]
  exact compareOfLessAndEq_eq_lt

/-! ## The rows of a map -/

section Map

variable {K α : Type} [Ord K] [TransOrd K] [LawfulEqOrd K] {m : TreeMap K α} {key : α → K}

/-- Look-ups after an insertion, with equality of keys in place of their order. -/
theorem getElem?_insert_eq (m : TreeMap K α) (k k' : K) (row : α) [Decidable (k = k')] :
    (m.insert k row)[k']? = if k = k' then some row else m[k']? := by
  rw [TreeMap.getElem?_insert]
  simp only [Std.compare_eq_iff_eq]

/-- A row is in a map if and only if it is stored under its own key. -/
theorem mem_rows_iff (keyed : ∀ (k : K) row, m[k]? = some row → key row = k) {row : α} :
    row ∈ m.toList.map (·.2) ↔ m[key row]? = some row := by
  simp only [List.mem_map, Prod.exists, TreeMap.mem_toList_iff_getElem?_eq_some,
    exists_eq_right]
  constructor
  · rintro ⟨k, stored⟩
    rwa [keyed k row stored]
  · exact fun stored => ⟨_, stored⟩

/-- The rows of a map are in the strict order of their keys, if each is stored under its own. -/
theorem pairwise_rows (keyed : ∀ (k : K) row, m[k]? = some row → key row = k) :
    (m.toList.map (·.2)).Pairwise fun a b => compare (key a) (key b) = .lt := by
  refine List.pairwise_map.mpr (TreeMap.ordered_keys_toList.imp_of_mem ?_)
  intro a b first second less
  rw [keyed a.1 a.2 (TreeMap.mem_toList_iff_getElem?_eq_some.mp first),
    keyed b.1 b.2 (TreeMap.mem_toList_iff_getElem?_eq_some.mp second)]
  exact less

/-- Rows that are stored under their own keys have distinct keys. -/
theorem nodup_map_key_rows (keyed : ∀ (k : K) row, m[k]? = some row → key row = k) :
    ((m.toList.map (·.2)).map key).Nodup := by
  refine List.pairwise_map.mpr ((pairwise_rows keyed).imp fun less same => ?_)
  rw [Std.compare_eq_iff_eq.mpr same] at less
  cases less

end Map

/-- Two lists in the same strict order that have the same members are the same. -/
theorem eq_of_pairwise_of_mem_iff {α : Type} {lt : α → α → Prop} {l l' : List α}
    (asymm : ∀ a b, lt a b → ¬ lt b a) (sorted : l.Pairwise lt) (sorted' : l'.Pairwise lt)
    (same : ∀ a, a ∈ l ↔ a ∈ l') : l = l' := by
  have : Std.Irrefl lt := ⟨fun a less => asymm a a less less⟩
  have : Std.Antisymm lt := ⟨fun a b less greater => absurd greater (asymm a b less)⟩
  exact sorted.eq_of_mem_iff sorted' same

/-- No entry comes both before and after another. -/
theorem LogEntry.Precedes.asymm {a b : LogEntry} (precedes : a.Precedes b) : ¬ b.Precedes a := by
  simp only [LogEntry.Precedes, Time.Instant.lt_def] at *
  omega

namespace KeyedStore

variable {k : KeyedStore} {s : Store} {name : String}

/-! ## Listings of a keyed store -/

/-- Every row is stored under its own key. -/
structure Keyed (k : KeyedStore) : Prop where
  runs : ∀ (id : RunId) row, k.runs[id]? = some row → row.id = id
  steps : ∀ (key : StepKey) row, k.steps[key]? = some row → row.key = key
  logs : ∀ (key : LogKey) entry, k.logs[key]? = some entry → entry.key = key

/-- A listing has the steps that are stored and have the name of the run. -/
theorem mem_listSteps_iff (keyed : k.Keyed) {row : StepRecord} : row ∈ k.listSteps name ↔
    k.steps[row.key]? = some row ∧ row.externalRunId = name := by
  rw [listSteps, List.mem_filter, mem_rows_iff keyed.steps, beq_iff_eq]

/-- A listing has the log entries that are stored and have the name of the run. -/
theorem mem_listLogs_iff (keyed : k.Keyed) {entry : LogEntry} : entry ∈ k.listLogs name ↔
    k.logs[entry.key]? = some entry ∧ entry.externalRunId = name := by
  rw [listLogs, (List.mergeSort_perm _ _).mem_iff, List.mem_filter, mem_rows_iff keyed.logs,
    beq_iff_eq]

/-- The order of the keys puts the steps of a run in the strict order of their codes. -/
theorem pairwise_listSteps (keyed : k.Keyed) (name : String) :
    (k.listSteps name).Pairwise fun a b => a.stepCode < b.stepCode := by
  refine ((pairwise_rows keyed.steps).filter _).imp_of_mem fun {a b} first second less => ?_
  have named : a.externalRunId = name := eq_of_beq (List.mem_filter.mp first).2
  have named' : b.externalRunId = name := eq_of_beq (List.mem_filter.mp second).2
  have same : a.key.1 = b.key.1 := named.trans named'.symm
  exact (compare_stepKey_eq_lt same).mp less

/-- The order of the keys is not the order of a listing, but it keeps the entries apart. -/
theorem pairwise_listLogs (keyed : k.Keyed) (name : String) :
    (k.listLogs name).Pairwise LogEntry.Precedes :=
  pairwise_mergeSort_logLe (nodup_map_snd_filter (nodup_map_key_rows keyed.logs) name)

/-! ## Updates of a run -/

/-- Reading the row of a run after an update. -/
theorem getElem?_updateRuns (runId id : RunId) (u : RunUpdate) (runs : TreeMap RunId RunRecord) :
    (updateRuns runId u runs)[id]? =
      if id = runId then runs[id]?.map (·.merge u) else runs[id]? := by
  unfold updateRuns
  by_cases same : id = runId
  · subst same
    cases found : runs[id]? with
    | none => simp [found]
    | some row => simp
  · rw [if_neg same]
    cases runs[runId]? with
    | none => rfl
    | some row => rw [getElem?_insert_eq, if_neg (Ne.symm same)]

/-! ## Holding a plain store -/

/-- A keyed store finds under every key what a plain one finds. -/
structure Holds (k : KeyedStore) (s : Store) : Prop where
  lastRunId : k.lastRunId = s.lastRunId
  run : ∀ id, k.runs[id]? = s.run? id
  runId : ∀ name, k.runIds[name]? = (s.findRun name).map (·.id)
  step : ∀ name stepCode, k.steps[(name, stepCode)]? = s.step? name stepCode
  log : ∀ key, k.logs[key]? = s.log? key
  spec : ∀ workflowId, k.specs[workflowId]? = s.specs.lookup workflowId
  cursor : k.cursor = s.cursor
  failingCommits : k.failingCommits = s.failingCommits
  commits : k.commits = s.commits

namespace Holds

/-- The empty maps hold the empty lists. -/
theorem empty : Holds {} {} := by
  constructor <;> intros <;> simp [Store.run?, Store.findRun, Store.step?, Store.log?]

/-- A keyed store that holds a plain one keeps its own rules: every row stands under its own key. -/
theorem keyed (holds : k.Holds s) : k.Keyed where
  runs id row stored := Store.id_of_run? (holds.run id ▸ stored)
  steps key row stored := by
    rw [holds.step, Store.step?] at stored
    simpa [Prod.ext_iff, StepRecord.key] using List.find?_some stored
  logs key entry stored := by
    rw [holds.log, Store.log?] at stored
    exact of_decide_eq_true (List.find?_some (p := fun e => decide (LogEntry.key e = key)) stored)

/-! ### Reading -/

/-- The index by name leads to the row that a search by name finds. -/
theorem findRun (holds : k.Holds s) (coherent : s.Coherent) (name : String) :
    k.findRun name = s.findRun name := by
  rw [KeyedStore.findRun, holds.runId]
  cases found : s.findRun name with
  | none => rfl
  | some row => exact (holds.run row.id).trans (Interleaving.run?_of_findRun coherent found)

/-- The steps of a run in the order of the map are the listing by code. -/
theorem listSteps (holds : k.Holds s) (coherent : s.Coherent) (name : String) :
    k.listSteps name = s.listSteps name := by
  refine eq_of_pairwise_of_mem_iff (fun a b => String.lt_asymm)
    (k.pairwise_listSteps holds.keyed name) (Store.pairwise_listSteps coherent name) fun row => ?_
  rw [mem_listSteps_iff holds.keyed, StepRecord.key, holds.step, Store.step?_eq_some_iff coherent]
  simp [Store.listSteps, (List.mergeSort_perm _ _).mem_iff]

/-- The entries of a run in the order of the map are the listing by time and kind. -/
theorem listLogs (holds : k.Holds s) (coherent : s.Coherent) (name : String) :
    k.listLogs name = s.listLogs name := by
  refine eq_of_pairwise_of_mem_iff (fun a b => LogEntry.Precedes.asymm)
    (k.pairwise_listLogs holds.keyed name) (Store.pairwise_listLogs coherent name) fun entry => ?_
  rw [mem_listLogs_iff holds.keyed, holds.log, Store.log?_eq_some_iff coherent]
  simp [Store.listLogs, (List.mergeSort_perm _ _).mem_iff]

theorem outputSpec (holds : k.Holds s) (workflowId : Int) :
    k.outputSpec workflowId = s.outputSpec workflowId := by
  rw [KeyedStore.outputSpec, holds.spec, Store.outputSpec]

theorem checkRun (holds : k.Holds s) (id : RunId) : k.checkRun id = s.checkRun id := by
  rw [KeyedStore.checkRun, TreeMap.contains_eq_isSome_getElem?, holds.run, Store.checkRun]

/-! ### Writing -/

/-- A declaration is made in both stores alike. -/
theorem declareOutput (holds : k.Holds s) (workflowId : Int) (spec : OutputSpec) :
    (k.declareOutput workflowId spec).Holds (s.declareOutput workflowId spec) := by
  refine { holds with spec := fun id => ?_ }
  rw [KeyedStore.declareOutput, getElem?_insert_eq, holds.spec, Store.lookup_declareOutput]

/-- A write is carried out in both stores alike. -/
theorem apply (holds : k.Holds s) (w : Write) : (k.apply w).Holds (s.apply w) := by
  cases w with
  | step runId externalRunId t =>
    refine { holds with step := fun name stepCode => ?_ }
    rw [KeyedStore.apply, Store.apply, Store.step?_putStep, getElem?_insert_eq, holds.step,
      holds.step]
    split
    · rename_i same
      obtain ⟨rfl, rfl⟩ := Prod.mk.inj same
      rfl
    · rfl
  | log entry =>
    refine { holds with log := fun key => ?_ }
    rw [KeyedStore.apply, Store.apply, Store.log?_putLog, getElem?_insert_eq, holds.log]
  | run runId u =>
    refine { holds with run := fun id => ?_, runId := fun name => ?_ }
    · rw [KeyedStore.apply, getElem?_updateRuns, holds.run, Store.apply, Store.run?_putRun']
    · rw [Store.apply, Store.findRun_putRun, Option.map_map]
      refine (holds.runId name).trans (Option.map_congr fun row _ => ?_)
      dsimp only [Function.comp]
      split
      · exact (row.merge_names u).1.symm
      · rfl

theorem foldl_apply (ws : List Write) (holds : k.Holds s) :
    (ws.foldl KeyedStore.apply k).Holds (ws.foldl Store.apply s) := by
  induction ws generalizing k s with
  | nil => exact holds
  | cons w rest ih => exact ih (holds.apply w)

/-- A commit has the same answer on both stores. -/
theorem commit (holds : k.Holds s) (snap : Snapshot) :
    (k.commit snap).1 = (s.commit snap).1 ∧ (k.commit snap).2.Holds (s.commit snap).2 := by
  have checked : (snap.writes.forM fun w => k.checkRun w.runId) =
      snap.writes.forM fun w => s.checkRun w.runId := by
    simp only [holds.checkRun]
  cases pending : s.failingCommits with
  | succ left =>
    simp only [KeyedStore.commit, Store.commit, holds.failingCommits, pending]
    exact ⟨trivial, { holds with failingCommits := rfl }⟩
  | zero =>
    simp only [KeyedStore.commit, Store.commit, holds.failingCommits, pending, checked]
    cases snap.writes.forM fun w => s.checkRun w.runId with
    | error e => exact ⟨rfl, holds⟩
    | ok _ =>
      exact ⟨rfl, { holds.foldl_apply snap.writes with commits := congrArg (· + 1) holds.commits }⟩

/-- A run is recorded in both stores or in neither. -/
theorem insertRun (holds : k.Holds s) (coherent : s.Coherent) (run : NewRun) :
    (∃ e, k.insertRun run = .error e ∧ s.insertRun run = .error e) ∨
    ∃ row k' s', k.insertRun run = .ok (row, k') ∧ s.insertRun run = .ok (row, s') ∧
      k'.Holds s' := by
  have taken : k.runIds.contains run.externalRunId = (s.findRun run.externalRunId).isSome := by
    rw [TreeMap.contains_eq_isSome_getElem?, holds.runId, Option.isSome_map]
  cases found : s.findRun run.externalRunId with
  | some row =>
    left
    rw [found] at taken
    exact ⟨_, if_pos taken, if_pos (by rw [found]; rfl)⟩
  | none =>
    right
    rw [found] at taken
    have inserted : s.insertRun run = .ok (run.record (s.lastRunId + 1), _) :=
      if_neg (by rw [found]; exact Bool.false_ne_true)
    have inserted' : k.insertRun run = .ok (run.record (k.lastRunId + 1), _) :=
      if_neg (by rw [taken]; exact Bool.false_ne_true)
    rw [holds.lastRunId] at inserted'
    refine ⟨_, _, _, inserted', inserted, ?_⟩
    refine { holds with lastRunId := rfl, run := fun id => ?_, runId := fun name => ?_ }
    · -- The new number is greater than all numbers that are in use.
      have unused : s.run? (run.record (s.lastRunId + 1)).id = none := by
        refine List.find?_eq_none.mpr fun row member numbered => ?_
        have bound := coherent.below row member
        rw [eq_of_beq numbered] at bound
        exact absurd bound (Int.not_le.mpr (Int.lt_succ s.lastRunId))
      rw [Store.run?_insertRun inserted, getElem?_insert_eq, holds.run]
      by_cases same : (run.record (s.lastRunId + 1)).id = id
      · rw [if_pos same, ← same, unused, Option.none_or, if_pos rfl]
      · rw [if_neg same, if_neg same, Option.or_none]
    · rw [Store.findRun_insertRun inserted, getElem?_insert_eq, holds.runId]
      change (if run.externalRunId = name then _ else _) = _
      by_cases same : run.externalRunId = name
      · rw [if_pos same, if_pos same, ← same, found]
        rfl
      · rw [if_neg same, if_neg same, Option.or_none]

/-- A call has the same answer on both stores. -/
theorem perform (holds : k.Holds s) (coherent : s.Coherent) (call : StoreCall) :
    (call.perform k).1 = (call.perform s).1 ∧ (call.perform k).2.Holds (call.perform s).2 := by
  cases call with
  | beginSnapshot => exact ⟨rfl, holds⟩
  | stage snap w =>
    refine ⟨?_, holds⟩
    change k.stage snap w = s.stage snap w
    rw [KeyedStore.stage, holds.checkRun, Store.stage]
  | commit snap => exact holds.commit snap
  | abort snap => exact ⟨rfl, holds⟩
  | insertRun run =>
    rcases holds.insertRun coherent run with ⟨e, refused, refused'⟩ | ⟨_, _, _, done, done', holds⟩
    · simp only [StoreCall.perform, StoreModel.backend, Backend.keyed, Backend.plain, refused,
        refused']
      exact ⟨trivial, holds⟩
    · simp only [StoreCall.perform, StoreModel.backend, Backend.keyed, Backend.plain, done, done']
      exact ⟨trivial, holds⟩
  | findRun name => exact ⟨congrArg Except.ok (holds.findRun coherent name), holds⟩
  | listSteps name => exact ⟨congrArg Except.ok (holds.listSteps coherent name), holds⟩
  | listLogs name => exact ⟨congrArg Except.ok (holds.listLogs coherent name), holds⟩
  | outputSpec workflowId => exact ⟨congrArg Except.ok (holds.outputSpec workflowId), holds⟩
  | loadCursor => exact ⟨congrArg Except.ok holds.cursor, holds⟩
  | storeCursor cursor => exact ⟨rfl, { holds with cursor := rfl }⟩

end Holds

/-! ## The same sessions -/

open Interleaving.Session

/-- Whatever is done to a keyed store and to the plain store that it holds, both answer alike. -/
theorem simulation : Simulation fun (k : KeyedStore) (s : Store) => k.Holds s ∧ s.Reachable where
  perform call _ _ := fun ⟨holds, reachable⟩ =>
    let ⟨same, holds'⟩ := holds.perform reachable.coherent call
    ⟨same, holds', .call call reachable⟩
  declareOutput workflowId spec _ _ := fun ⟨holds, reachable⟩ =>
    ⟨holds.declareOutput workflowId spec, .declare workflowId spec reachable⟩
  failNext count _ _ := fun ⟨holds, reachable⟩ =>
    ⟨{ holds with failingCommits := rfl }, .failCommits count reachable⟩

/-- A session with a keyed store can be had with a plain one. -/
theorem exists_executes_plain {κ : Interleaving.Session KeyedStore} {events : List Event}
    (execution : Executes (.start {}) events κ) : ∃ σ : Interleaving.Session Store,
      Executes (.start {}) events σ ∧ κ.store.Holds σ.store ∧ κ.snapshots = σ.snapshots := by
  obtain ⟨σ, plain, ⟨holds, _⟩, snapshots⟩ :=
    simulation.executes (τ := .start ({} : Store)) execution ⟨.empty, .empty⟩ rfl
  exact ⟨σ, plain, holds, snapshots⟩

/-- A session with a plain store can be had with a keyed one. -/
theorem exists_executes_keyed {σ : Interleaving.Session Store} {events : List Event}
    (execution : Executes (.start {}) events σ) : ∃ κ : Interleaving.Session KeyedStore,
      Executes (.start {}) events κ ∧ κ.store.Holds σ.store ∧ κ.snapshots = σ.snapshots := by
  obtain ⟨κ, keyed, ⟨holds, _⟩, snapshots⟩ :=
    simulation.symm.executes (τ := .start ({} : KeyedStore)) execution ⟨.empty, .empty⟩ rfl
  exact ⟨κ, keyed, holds, snapshots.symm⟩

end KeyedStore

end RunLedger
