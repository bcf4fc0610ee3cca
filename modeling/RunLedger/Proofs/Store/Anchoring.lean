import RunLedger.Proofs.Interleaving.Serial
import RunLedger.Proofs.Sync.Persistence

/-!
# Anchored stores

The listings of a coherent store are in strict order. A store is anchored if no two runs share a
name, numbers are given in turn from one on, and every step and every log entry belongs to a
recorded run. Every store that can be reached is anchored.
-/

namespace RunLedger

variable {α K : Type} {key : α → K} {k : K} {p : α → Bool} {rows : List α}

/-! ## Distinct keys -/

/-- The first row with a key is the only one. -/
theorem find?_eq_some_iff (distinct : (rows.map key).Nodup) (asks : ∀ r, p r = true ↔ key r = k)
    (row : α) : rows.find? p = some row ↔ row ∈ rows ∧ key row = k := by
  constructor
  · exact fun found => ⟨List.mem_of_find?_eq_some found, (asks row).mp (List.find?_some found)⟩
  · rintro ⟨member, keyed⟩
    cases found : rows.find? p with
    | none => exact absurd ((asks row).mpr keyed) (List.find?_eq_none.mp found row member)
    | some other =>
      have same : key other = key row := ((asks other).mp (List.find?_some found)).trans keyed.symm
      rw [List.inj_on_of_nodup_map distinct (List.mem_of_find?_eq_some found) member same]

/-- Rows of one name with distinct keys differ in the rest of the key. -/
theorem nodup_map_snd_filter {key : α → String × K} (distinct : (rows.map key).Nodup)
    (name : String) :
    ((rows.filter fun r => (key r).1 == name).map fun r => (key r).2).Nodup := by
  have different : (rows.filter fun r => (key r).1 == name).Pairwise fun a b => key a ≠ key b :=
    (List.pairwise_map.mp distinct).filter _
  refine List.pairwise_map.mpr (different.imp_of_mem fun first second unequal same => ?_)
  have named := eq_of_beq (List.mem_filter.mp first).2
  have named' := eq_of_beq (List.mem_filter.mp second).2
  exact unequal (Prod.ext (named.trans named'.symm) same)

/-- Rows with distinct keys are in strict order once they are sorted by their keys. -/
theorem pairwise_mergeSort_of_nodup {le : α → α → Bool} {lt : α → α → Prop}
    (trans : ∀ a b c, le a b = true → le b c = true → le a c = true)
    (total : ∀ a b, (le a b || le b a) = true)
    (strict : ∀ a b, le a b = true → key a ≠ key b → lt a b) (distinct : (rows.map key).Nodup) :
    (rows.mergeSort le).Pairwise lt := by
  have sorted := List.pairwise_mergeSort trans total rows
  have distinct : ((rows.mergeSort le).map key).Nodup :=
    ((List.mergeSort_perm rows le).map key).nodup_iff.mpr distinct
  exact (sorted.and (List.pairwise_map.mp distinct)).imp fun ⟨le, unequal⟩ => strict _ _ le unequal

/-! ## The order of listings -/

theorem EventKind.rank_injective {a b : EventKind} (same : a.rank = b.rank) : a = b := by
  cases a <;> cases b <;> first | rfl | contradiction

/-- A log entry comes before another: it is earlier, or of the same time and of a smaller kind. -/
def LogEntry.Precedes (a b : LogEntry) : Prop :=
  a.timestamp < b.timestamp ∨
    a.timestamp.nanos = b.timestamp.nanos ∧ a.kind.rank < b.kind.rank

/-- Entries are listed by time, and those of one time by kind. -/
theorem Store.logLe_iff {a b : LogEntry} : Store.logLe a b = true ↔
    a.timestamp.nanos < b.timestamp.nanos ∨
      a.timestamp.nanos = b.timestamp.nanos ∧ a.kind.rank ≤ b.kind.rank := by
  simp [Store.logLe, Time.Instant.lt_def]

/-- Of two entries under different keys the one that may be listed first comes before the other. -/
theorem LogEntry.precedes_of_logLe {a b : LogEntry} (le : Store.logLe a b = true)
    (different : (a.kind, a.timestamp.nanos) ≠ (b.kind, b.timestamp.nanos)) : a.Precedes b := by
  refine (Store.logLe_iff.mp le).imp_right fun ⟨sameTime, atMost⟩ => ⟨sameTime, ?_⟩
  refine Nat.lt_of_le_of_ne atMost fun sameRank => different ?_
  rw [EventKind.rank_injective sameRank, sameTime]

/-- Entries of one run with distinct keys are in strict order once they are sorted. -/
theorem pairwise_mergeSort_logLe {entries : List LogEntry}
    (distinct : (entries.map fun e => (e.kind, e.timestamp.nanos)).Nodup) :
    (entries.mergeSort Store.logLe).Pairwise LogEntry.Precedes := by
  refine pairwise_mergeSort_of_nodup ?_ ?_ (fun a b => LogEntry.precedes_of_logLe) distinct
  · intro a b c first second
    rw [Store.logLe_iff] at *
    omega
  · intro a b
    rw [Bool.or_eq_true, Store.logLe_iff, Store.logLe_iff]
    omega

namespace Store

variable {s : Store}

/-- A listing of steps is ordered by the codes of the steps, and no code occurs twice. -/
theorem pairwise_listSteps (coherent : s.Coherent) (name : String) :
    (s.listSteps name).Pairwise fun a b => a.stepCode < b.stepCode := by
  refine pairwise_mergeSort_of_nodup ?_ ?_ ?_ (nodup_map_snd_filter coherent.stepKeys name)
  · intro a b c first second
    rw [decide_eq_true_eq] at *
    exact String.le_trans first second
  · intro a b
    simpa using String.le_total a.stepCode b.stepCode
  · intro a b le different
    refine String.not_le.mp fun ge => different ?_
    exact String.le_antisymm (of_decide_eq_true le) ge

/-- A listing of entries is ordered by their keys, and no key occurs twice. -/
theorem pairwise_listLogs (coherent : s.Coherent) (name : String) :
    (s.listLogs name).Pairwise LogEntry.Precedes :=
  pairwise_mergeSort_logLe (nodup_map_snd_filter coherent.logKeys name)

/-! ## Look-ups -/

/-- A step is found if and only if it is there and has the names that were asked for. -/
theorem step?_eq_some_iff (coherent : s.Coherent) {name stepCode : String} {row : StepRecord} :
    s.step? name stepCode = some row ↔
      row ∈ s.steps ∧ row.externalRunId = name ∧ row.stepCode = stepCode := by
  have keyed := find?_eq_some_iff (p := fun r : StepRecord =>
    r.externalRunId == name && r.stepCode == stepCode) (k := (name, stepCode))
    coherent.stepKeys (fun r => by simp [StepRecord.key]) row
  rw [step?, keyed, StepRecord.key, Prod.mk.injEq]

/-- A log entry is found if and only if it is there and has the key that was asked for. -/
theorem log?_eq_some_iff (coherent : s.Coherent) {key : LogKey} {entry : LogEntry} :
    s.log? key = some entry ↔ entry ∈ s.logs ∧ entry.key = key :=
  find?_eq_some_iff (p := fun r : LogEntry => decide (r.key = key)) coherent.logKeys
    (fun _ => decide_eq_true_iff) entry

/-- Reading a step after a transition. -/
theorem step?_putStep (s : Store) (runId : RunId) (externalRunId : String) (t : StepTransition)
    (name stepCode : String) : (s.putStep runId externalRunId t).step? name stepCode =
      if (externalRunId, t.stepCode) = (name, stepCode) then
        some (StepRecord.merge (s.step? name stepCode) runId externalRunId t)
      else s.step? name stepCode := by
  rw [step?_eq_find _ runId externalRunId, putStep_eq, step?_eq_find s runId externalRunId]
  exact (stepMerging runId externalRunId).find_upsert s.steps t (name, stepCode)

/-- Reading a log entry after one was put. -/
theorem log?_putLog (s : Store) (entry : LogEntry) (key : LogKey) :
    (s.putLog entry).log? key = if entry.key = key then some entry else s.log? key := by
  rw [putLog_eq]
  exact logMerging.find_upsert s.logs entry key

/-- Reading what a workflow declares after a declaration. -/
theorem lookup_declareOutput (s : Store) (workflowId other : Int) (spec : OutputSpec) :
    (s.declareOutput workflowId spec).specs.lookup other =
      if workflowId = other then some spec else s.specs.lookup other := by
  by_cases same : workflowId = other
  · rw [if_pos same, declareOutput, same, List.lookup_cons_self]
  · rw [if_neg same, declareOutput, List.lookup_cons, beq_false_of_ne (Ne.symm same)]
    change (s.specs.filter (·.1 != workflowId)).lookup other = s.specs.lookup other
    induction s.specs with
    | nil => rfl
    | cons first rest ih =>
      obtain ⟨id, declared⟩ := first
      by_cases replaced : id = workflowId
      · have passed : (other == id) = false := beq_false_of_ne fun h => same (replaced ▸ h.symm)
        rw [List.filter_cons_of_neg (by simpa using replaced), ih, List.lookup_cons, passed]
      · rw [List.filter_cons_of_pos (by simpa using replaced), List.lookup_cons, ih,
          List.lookup_cons]

/-! ## Anchored rows -/

/-- No two runs share a name, numbers are given in turn from one on, and every step and every log
entry belongs to a recorded run. -/
structure Anchored (s : Store) : Prop where
  names : (s.runs.map (·.externalRunId)).Nodup
  counted : 0 ≤ s.lastRunId
  known_iff : ∀ id, (s.run? id).isSome = true ↔ 1 ≤ id ∧ id ≤ s.lastRunId
  steps : ∀ row ∈ s.steps, (s.run? row.runId).isSome = true
  logs : ∀ entry ∈ s.logs, (s.run? entry.runId).isSome = true

/-- A row keeps the run that it was made for. -/
theorem runId_merge (row : Option StepRecord) (runId : RunId) (externalRunId : String)
    (t : StepTransition) :
    (StepRecord.merge row runId externalRunId t).runId = (row.map (·.runId)).getD runId := by
  cases row with
  | none => rfl
  | some row => exact (row.next_names t).1

/-- A write for a known run leaves every row with a known run. -/
theorem Anchored.apply (anchored : s.Anchored) {w : Write}
    (known : (s.run? w.runId).isSome = true) : (s.apply w).Anchored := by
  cases w with
  | step runId externalRunId t =>
    rw [Store.apply, putStep_eq]
    refine { anchored with steps := fun row member => ?_ }
    rcases (stepMerging runId externalRunId).mem_put member with rfl | old
    · -- A merged row keeps the number that it had, whatever number the write gives.
      change (s.run? (StepRecord.merge _ runId externalRunId t).runId).isSome = true
      rw [runId_merge]
      cases found : (stepMerging runId externalRunId).find
        ((stepMerging runId externalRunId).keyOf t) s.steps with
      | none => exact known
      | some row => exact anchored.steps row (List.mem_of_find?_eq_some found)
    · exact anchored.steps row old
  | log entry =>
    rw [Store.apply, putLog_eq]
    refine { anchored with logs := fun other member => ?_ }
    rcases logMerging.mem_put member with rfl | old
    · exact known
    · exact anchored.logs other old
  | run runId u =>
    have still (id : RunId) := isSome_run?_apply s (.run runId u) id
    refine ⟨?_, anchored.counted, ?_, ?_, ?_⟩
    · rw [Store.apply, putRun_eq, map_updateRuns fun row u => (row.merge_names u).2.1]
      exact anchored.names
    · exact fun id => (Bool.coe_iff_coe.mpr (still id)).trans (anchored.known_iff id)
    · exact fun row member => (still row.runId).trans (anchored.steps row member)
    · exact fun entry member => (still entry.runId).trans (anchored.logs entry member)

/-- Writes for known runs leave every row with a known run. -/
theorem Anchored.foldl_apply {ws : List Write} (anchored : s.Anchored) (known : s.Knows ws) :
    (ws.foldl Store.apply s).Anchored := by
  induction ws generalizing s with
  | nil => exact anchored
  | cons w rest ih =>
    obtain ⟨first, others⟩ := List.forall_mem_cons.mp known
    refine ih (anchored.apply first) fun other member => ?_
    rw [isSome_run?_apply]
    exact others other member

/-- A commit checks its runs before it writes, so it leaves every row with a known run. -/
theorem Anchored.commit (anchored : s.Anchored) (snap : Snapshot) : (s.commit snap).2.Anchored := by
  rcases s.commit_cases snap with ⟨_, failed⟩ | ⟨_, _, e, refused⟩ | ⟨_, known, done⟩
  · rw [failed]
    exact { anchored with }
  · rw [refused]
    exact anchored
  · rw [done]
    exact { anchored.foldl_apply known with }

/-- A recorded run takes no other run away. -/
theorem Anchored.insertRun {after : Store} {run : NewRun} {row : RunRecord} (anchored : s.Anchored)
    (inserted : s.insertRun run = .ok (row, after)) : after.Anchored := by
  have known_iff (id : RunId) : (after.run? id).isSome = true ↔
      (s.run? id).isSome = true ∨ row.id = id := by
    rw [run?_insertRun inserted, Option.isSome_or, Bool.or_eq_true]
    refine or_congr_right ?_
    split <;> simp [*]
  obtain ⟨free, rfl, rfl⟩ := insertRun_eq_ok inserted
  refine ⟨?_, Int.le_add_one anchored.counted, fun id => ?_, ?_, ?_⟩
  · rw [List.map_append, List.map_singleton, List.nodup_append_comm]
    refine List.nodup_cons.mpr ⟨fun taken => ?_, anchored.names⟩
    obtain ⟨other, known, same⟩ := List.mem_map.mp taken
    simpa [NewRun.record, same] using List.find?_eq_none.mp free other known
  · rw [known_iff, anchored.known_iff]
    have between (last id : Int) (counted : 0 ≤ last) :
        (1 ≤ id ∧ id ≤ last) ∨ last + 1 = id ↔ 1 ≤ id ∧ id ≤ last + 1 := by omega
    exact between s.lastRunId id anchored.counted
  · exact fun r member => (known_iff r.runId).mpr (.inl (anchored.steps r member))
  · exact fun entry member => (known_iff entry.runId).mpr (.inl (anchored.logs entry member))

/-- Commits record no runs. -/
theorem lastRunId_commit (s : Store) (snap : Snapshot) :
    (s.commit snap).2.lastRunId = s.lastRunId := by
  have kept (ws : List Write) (s : Store) : (ws.foldl apply s).lastRunId = s.lastRunId := by
    induction ws generalizing s with
    | nil => rfl
    | cons w rest ih =>
      rw [List.foldl_cons, ih]
      cases w <;> rfl
  rcases s.commit_cases snap with ⟨_, failed⟩ | ⟨_, _, e, refused⟩ | ⟨_, _, done⟩
  · rw [failed]
  · rw [refused]
  · rw [done]
    exact kept snap.writes s

/-- Every store that can be reached is anchored. -/
theorem Reachable.anchored {s : Store} (reachable : s.Reachable) : s.Anchored := by
  refine reachable.keeps ?_ (fun snap s anchored => anchored.commit snap)
    (fun inserted anchored => anchored.insertRun inserted) fun _ _ _ _ anchored => { anchored with }
  have none_of {β : Type} {q : β → Prop} : ∀ r ∈ ([] : List β), q r :=
    fun _ member => absurd member List.not_mem_nil
  refine ⟨List.nodup_nil, Int.le_refl 0, fun id => ?_, none_of, none_of⟩
  exact iff_of_false Bool.false_ne_true fun ⟨low, high⟩ => absurd (Int.le_trans low high) (by decide)

end Store

namespace Interleaving.Session

def Event.records : Event → Bool
  | .called (.insertRun _) (.ok _) => true
  | _ => false

/-- Numbers are given in turn, one for each run that is recorded. -/
theorem Step.lastRunId {σ σ' : Session Store} {e : Event} (step : Step σ e σ') :
    σ'.store.lastRunId = σ.store.lastRunId + if e.records then 1 else 0 := by
  cases step with
  | commit held answered =>
    have kept := Store.lastRunId_commit σ.store ‹Snapshot›
    rw [show σ.store.commit _ = _ from answered] at kept
    exact kept.trans (Int.add_zero _).symm
  | @call call answer after direct answered =>
    cases call with
    | insertRun run =>
      rcases StoreCall.perform_insertRun_cases run σ.store with
        ⟨row, later, inserted, done⟩ | ⟨e, _, failed⟩
      · cases done.symm.trans answered
        obtain ⟨_, rfl, rfl⟩ := Store.insertRun_eq_ok inserted
        rfl
      · cases failed.symm.trans answered
        exact (Int.add_zero _).symm
    | beginSnapshot | stage | commit | abort => cases direct
    | _ =>
      cases answered
      exact (Int.add_zero _).symm
  | _ => exact (Int.add_zero _).symm

/-- The last number grows by one with every run that is recorded in a session. -/
theorem Executes.lastRunId {σ σ' : Session Store} {events : List Event}
    (execution : Executes σ events σ') :
    σ'.store.lastRunId = σ.store.lastRunId + (events.countP Event.records : Nat) := by
  induction execution with
  | nil => exact (Int.add_zero _).symm
  | snoc _ step ih =>
    rw [step.lastRunId, ih, List.countP_append, List.countP_singleton]
    split <;> simp [Int.add_assoc]

end Interleaving.Session

end RunLedger
