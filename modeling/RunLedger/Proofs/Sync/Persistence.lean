import RunLedger.Proofs.Store.Commit

/-!
# Carrying out a plan

A plan is carried out as a whole or not at all. Its writes are merged into three tables; what
becomes of a row depends on the writes with its key alone, in the order of the plan, and rows that
the plan does not name stay as they are.
-/

namespace RunLedger

namespace Store

def log? (s : Store) (key : String × EventKind × Int) : Option LogEntry :=
  s.logs.find? fun entry => decide (entry.key = key)

end Store

namespace Sync

open Store

variable {s : Store} {p : Plan} {ws : List Write}

/-! ## Staging in turn -/

theorem bind_of_eq {α β : Type} {x : StateM Store α} {f : α → StateM Store β} {a : α}
    {after : Store} (ran : x s = (a, after)) : (x >>= f) s = f a after := by
  change f (x s).1 (x s).2 = f a after
  rw [ran]

/-- Writes for known runs are staged in order. -/
theorem stageAll_of_knows (known : s.Knows ws) (snap : Snapshot) :
    stageAll Backend.plain snap ws s = (.ok ⟨snap.writes ++ ws⟩, s) := by
  induction ws generalizing snap with
  | nil =>
    rw [List.append_nil]
    rfl
  | cons w rest ih =>
    obtain ⟨first, others⟩ := List.forall_mem_cons.mp known
    have staged : Backend.plain.stage snap w s = (.ok ⟨snap.writes ++ [w]⟩, s) :=
      congrArg (·, s) (stage_of_known snap first)
    rw [stageAll, bind_of_eq staged]
    simpa using ih others ⟨snap.writes ++ [w]⟩

/-- Staging stops at the first write for an unknown run, and the store is as before. -/
theorem stageAll_of_unknown (unknown : ¬ s.Knows ws) (snap : Snapshot) :
    ∃ refused, stageAll Backend.plain snap ws s = (.error refused, s) := by
  induction ws generalizing snap with
  | nil => exact absurd (fun _ member => absurd member List.not_mem_nil) unknown
  | cons w rest ih =>
    rw [stageAll]
    cases found : s.run? w.runId with
    | none =>
      have refused : Backend.plain.stage snap w s = (.error (.runNotFound w.runId), s) :=
        congrArg (·, s) (stage_of_unknown snap found)
      rw [bind_of_eq refused]
      exact ⟨_, rfl⟩
    | some row =>
      have first : (s.run? w.runId).isSome = true := by rw [found]; rfl
      have staged : Backend.plain.stage snap w s = (.ok ⟨snap.writes ++ [w]⟩, s) :=
        congrArg (·, s) (stage_of_known snap first)
      rw [bind_of_eq staged]
      exact ih (fun others => unknown (List.forall_mem_cons.mpr ⟨first, others⟩)) _

/-! ## The outcomes of a plan -/

/-- A plan for an unknown run is refused, and the store is as before. -/
theorem persist_of_unknown (unknown : ¬ s.Knows p.writes) :
    ∃ e, persist Backend.plain p s = (.error e, s) := by
  obtain ⟨⟨e, snap⟩, refused⟩ := stageAll_of_unknown unknown {}
  have opened : Backend.plain.beginSnapshot s = (.ok {}, s) := rfl
  refine ⟨e, ?_⟩
  rw [persist, bind_of_eq opened]
  dsimp only
  rw [bind_of_eq refused]
  rfl

/-- A plan whose runs are known ends as its commit does. -/
theorem persist_of_knows (known : s.Knows p.writes) {answer : Except StoreError Unit}
    {after : Store} (committed : s.commit ⟨p.writes⟩ = (answer, after)) :
    persist Backend.plain p s =
      (answer.map fun _ => ⟨p.transitions.length, p.logs.length⟩, after) := by
  have opened : Backend.plain.beginSnapshot s = (.ok {}, s) := rfl
  have committed : Backend.plain.commit ⟨[] ++ p.writes⟩ s = (answer, after) := committed
  rw [persist, bind_of_eq opened]
  dsimp only
  rw [bind_of_eq (stageAll_of_knows known {})]
  dsimp only
  rw [bind_of_eq committed]
  cases answer <;> rfl

/-- A plan fails and leaves at most fewer failures to come, or it is carried out. -/
theorem persist_cases (s : Store) (p : Plan) :
    ((¬ s.Knows p.writes ∨ 0 < s.failingCommits) ∧
      ∃ e left, persist Backend.plain p s = (.error e, { s with failingCommits := left })) ∨
    (s.Knows p.writes ∧ s.failingCommits = 0 ∧ persist Backend.plain p s =
      (.ok ⟨p.transitions.length, p.logs.length⟩, s.carryOut p.writes)) := by
  by_cases known : s.Knows p.writes
  · by_cases calm : s.failingCommits = 0
    · right
      exact ⟨known, calm, persist_of_knows known (commit_of_knows ⟨p.writes⟩ calm known)⟩
    · left
      exact ⟨.inr (Nat.pos_of_ne_zero calm), injectedFailure, s.failingCommits - 1,
        persist_of_knows known (commit_of_pending ⟨p.writes⟩ calm)⟩
  · obtain ⟨e, refused⟩ := persist_of_unknown known
    exact .inl ⟨.inl known, e, s.failingCommits, refused⟩

/-- The runs of a plan are those of its entries and the one that it updates. -/
theorem knows_writes_iff :
    s.Knows p.writes ↔ (s.run? p.runId).isSome = true ∧
      ∀ entry ∈ p.logs, (s.run? entry.runId).isSome = true := by
  unfold Store.Knows Plan.writes
  simp only [List.forall_mem_append, List.forall_mem_map, List.forall_mem_singleton, Write.runId]
  constructor
  · rintro ⟨⟨_, entries⟩, updated⟩
    exact ⟨updated, entries⟩
  · rintro ⟨updated, entries⟩
    exact ⟨⟨fun _ _ => updated, entries⟩, updated⟩

/-! ## What a plan makes of the rows -/

/-- What a plan makes of a store when it is carried out. -/
structure Persisted (p : Plan) (before after : Store) : Prop where
  /-- The transitions with a code are merged in turn into the step with that code. -/
  steps : ∀ stepCode, after.step? p.externalRunId stepCode =
    (p.transitions.filter (·.stepCode = stepCode)).foldl
      (fun row t => some (StepRecord.merge row p.runId p.externalRunId t))
      (before.step? p.externalRunId stepCode)
  otherSteps : ∀ name stepCode, name ≠ p.externalRunId →
    after.step? name stepCode = before.step? name stepCode
  /-- The last entry with a key takes the place of the one with that key. -/
  logs : ∀ key, after.log? key =
    (p.logs.filter (·.key = key)).getLast?.or (before.log? key)
  run : ∃ row, before.run? p.runId = some row ∧ after.run? p.runId = some (row.merge p.update)
  otherRuns : ∀ id, id ≠ p.runId → after.run? id = before.run? id
  coherent : before.Coherent → after.Coherent
  commits : after.commits = before.commits + 1
  cursor : after.cursor = before.cursor
  specs : after.specs = before.specs
  lastRunId : after.lastRunId = before.lastRunId

theorem itemsOf_stepMerging (runId : RunId) (externalRunId name stepCode : String)
    (l : List StepTransition) :
    (stepMerging runId externalRunId).itemsOf (name, stepCode) l =
      if name = externalRunId then l.filter (·.stepCode = stepCode) else [] := by
  unfold Merging.itemsOf
  by_cases own : name = externalRunId
  · simp [own, stepMerging]
  · have other : ¬ externalRunId = name := fun same => own same.symm
    simp [own, other, stepMerging]

/-- After a plan the row of a step has its transitions merged in, in their order. -/
theorem step?_carryOut (s : Store) (p : Plan) (name stepCode : String) :
    (s.carryOut p.writes).step? name stepCode =
      (stepMerging p.runId p.externalRunId).mergeAll (s.step? name stepCode)
        (if name = p.externalRunId then p.transitions.filter (·.stepCode = stepCode) else []) := by
  rw [step?_eq_find _ p.runId p.externalRunId, step?_eq_find _ p.runId p.externalRunId, carryOut,
    foldl_apply_writes, Merging.find_upsertAll, itemsOf_stepMerging]

/-- After a plan an entry is the last one that the plan has under the key. -/
theorem log?_carryOut (s : Store) (p : Plan) (key : String × EventKind × Int) :
    (s.carryOut p.writes).log? key =
      (p.logs.filter (·.key = key)).getLast?.or (s.log? key) := by
  change logMerging.find key (s.carryOut p.writes).logs = _
  rw [carryOut, foldl_apply_writes, Merging.find_upsertAll, logMerging_mergeAll]
  rfl

/-- After a plan the run is updated, and other runs are as before. -/
theorem run?_carryOut (s : Store) (p : Plan) (id : RunId) :
    (s.carryOut p.writes).run? id =
      (s.run? id).map fun row => if row.id == p.runId then row.merge p.update else row := by
  rw [← run?_putRun, carryOut, foldl_apply_writes]
  rfl

/-- What it means to carry out a plan, for every kind of row. -/
theorem persisted_carryOut (known : (s.run? p.runId).isSome = true) :
    Persisted p s (s.carryOut p.writes) where
  steps stepCode := by
    rw [step?_carryOut, if_pos rfl]
    rfl
  otherSteps name stepCode other := by
    rw [step?_carryOut, if_neg other]
    rfl
  logs := log?_carryOut s p
  run := by
    obtain ⟨row, found⟩ := Option.isSome_iff_exists.mp known
    refine ⟨row, found, ?_⟩
    simp [run?_carryOut, found, id_of_run? found]
  otherRuns id other := by
    rw [run?_carryOut]
    cases found : s.run? id with
    | none => rfl
    | some row => simp [id_of_run? found, other]
  coherent coherent := { coherent.foldl_apply p.writes with }
  commits := rfl
  cursor := by rw [carryOut, foldl_apply_writes]
  specs := by rw [carryOut, foldl_apply_writes]
  lastRunId := by rw [carryOut, foldl_apply_writes]

/-- A plan is carried out as a whole, or it fails and everything stays as it was but for a failure
that was used up. It fails exactly if its run or the run of an entry is not known or a commit is
made to fail. -/
theorem persist_exact (p : Plan) (s : Store) :
    ((∃ e, (persist Backend.plain p s).1 = .error e) ↔ s.run? p.runId = none ∨
      (∃ entry ∈ p.logs, s.run? entry.runId = none) ∨ 0 < s.failingCommits) ∧
    (∀ e after, persist Backend.plain p s = (.error e, after) →
      after = { s with failingCommits := after.failingCommits }) ∧
    (∀ summary after, persist Backend.plain p s = (.ok summary, after) →
      summary = ⟨p.transitions.length, p.logs.length⟩ ∧ Persisted p s after) := by
  have unknown : ¬ s.Knows p.writes ↔ s.run? p.runId = none ∨
      ∃ entry ∈ p.logs, s.run? entry.runId = none := by
    simp [knows_writes_iff, imp_iff_not_or]
  rw [← or_assoc, ← unknown]
  rcases persist_cases s p with ⟨refused, e, left, failed⟩ | ⟨known, calm, done⟩
  · rw [failed]
    refine ⟨⟨fun _ => refused, fun _ => ⟨e, rfl⟩⟩, ?_, nofun⟩
    rintro _ _ ⟨⟩
    rfl
  · rw [done]
    refine ⟨⟨nofun, ?_⟩, nofun, ?_⟩
    · rintro (unknown | pending)
      · exact absurd known unknown
      · omega
    · rintro _ _ ⟨⟩
      exact ⟨rfl, persisted_carryOut (knows_writes_iff.mp known).1⟩

end Sync

end RunLedger
