import RunLedger.Proofs.Store.Coherence

/-!
# Staging and committing

A write may be staged if its run is known. A commit has one of three outcomes: a failure that was
asked for, a refusal because a run is not known, or all writes at once. No write makes a run known
or takes it away, so the order of the writes does not matter to the checks.
-/

namespace RunLedger

namespace Store

variable {s : Store} {snap : Snapshot} {w : Write} {ws : List Write} {id runId : RunId}

/-! ## Runs after a write -/

/-- A look-up that an update of a run cannot change finds the updated row. -/
theorem find?_updateRuns {p : RunRecord → Bool} (keeps : ∀ row u, p (row.merge u) = p row)
    (runId : RunId) (u : RunUpdate) (runs : List RunRecord) :
    (updateRuns runId u runs).find? p =
      (runs.find? p).map fun row => if row.id == runId then row.merge u else row := by
  have same : (p ∘ fun row : RunRecord => if row.id == runId then row.merge u else row) = p := by
    funext row
    simp only [Function.comp_apply]
    split
    · exact keeps row u
    · rfl
  rw [updateRuns, List.find?_map, same]

/-- An update changes the row with its number, and what is found under other numbers is as
before. -/
theorem run?_putRun (s : Store) (runId id : RunId) (u : RunUpdate) :
    (s.putRun runId u).run? id =
      (s.run? id).map fun row => if row.id == runId then row.merge u else row :=
  find?_updateRuns (fun row u => by rw [(row.merge_names u).1]) runId u s.runs

theorem id_of_run? {row : RunRecord} (found : s.run? id = some row) : row.id = id := by
  simpa using List.find?_some found

/-- An update changes the run with its number. -/
theorem run?_putRun' (s : Store) (runId id : RunId) (u : RunUpdate) :
    (s.putRun runId u).run? id = if id = runId then (s.run? id).map (·.merge u) else s.run? id := by
  rw [run?_putRun]
  cases found : s.run? id with
  | none => split <;> rfl
  | some row =>
    simp only [Option.map_some, id_of_run? found, beq_iff_eq]
    split <;> rfl

/-- An update changes the row with its number, also where that is looked up by its name. -/
theorem findRun_putRun (s : Store) (runId : RunId) (name : String) (u : RunUpdate) :
    (s.putRun runId u).findRun name =
      (s.findRun name).map fun row => if row.id == runId then row.merge u else row :=
  find?_updateRuns (fun row u => by rw [(row.merge_names u).2.1]) runId u s.runs

/-- A write neither makes a run known nor takes one away. -/
theorem isSome_run?_apply (s : Store) (w : Write) (id : RunId) :
    ((s.apply w).run? id).isSome = (s.run? id).isSome := by
  cases w with
  | run runId u => simp only [apply, run?_putRun, Option.isSome_map]
  | _ => rfl

theorem isSome_run?_foldl_apply (ws : List Write) (s : Store) (id : RunId) :
    ((ws.foldl apply s).run? id).isSome = (s.run? id).isSome := by
  induction ws generalizing s with
  | nil => rfl
  | cons w rest ih => rw [List.foldl_cons, ih, isSome_run?_apply]

theorem externalRunId_of_findRun {name : String} {row : RunRecord}
    (found : s.findRun name = some row) : row.externalRunId = name := by
  simpa using List.find?_some found

/-! ## Known runs -/

/-- The runs of some writes are all recorded. -/
def Knows (s : Store) (ws : List Write) : Prop := ∀ w ∈ ws, (s.run? w.runId).isSome = true

theorem checkRun_of_known (known : (s.run? id).isSome = true) : s.checkRun id = .ok () :=
  if_pos known

/-- An unknown run does not pass the check, and the error names it. -/
theorem checkRun_of_unknown (unknown : s.run? id = none) :
    s.checkRun id = .error (.runNotFound id) := by
  simp [checkRun, unknown]

/-- A write for a known run is staged after the others. -/
theorem stage_of_known (snap : Snapshot) (known : (s.run? w.runId).isSome = true) :
    s.stage snap w = .ok ⟨snap.writes ++ [w]⟩ := by
  rw [stage, checkRun_of_known known]
  rfl

/-- A write for an unknown run is refused. -/
theorem stage_of_unknown (snap : Snapshot) (unknown : s.run? w.runId = none) :
    s.stage snap w = .error (.runNotFound w.runId) := by
  rw [stage, checkRun_of_unknown unknown]
  rfl

/-- Only a write for a known run is staged. -/
theorem of_stage_eq_ok {next : Snapshot} (staged : s.stage snap w = .ok next) :
    (s.run? w.runId).isSome = true ∧ next.writes = snap.writes ++ [w] := by
  cases found : s.run? w.runId with
  | none =>
    rw [stage_of_unknown snap found] at staged
    cases staged
  | some row =>
    rw [stage_of_known snap (by rw [found]; rfl)] at staged
    cases staged
    exact ⟨rfl, rfl⟩

/-- Writes for known runs pass the check before a commit. -/
theorem forM_checkRun_of_knows (known : s.Knows ws) :
    (ws.forM fun w => s.checkRun w.runId) = .ok () := by
  induction ws with
  | nil => rfl
  | cons w rest ih =>
    obtain ⟨first, others⟩ := List.forall_mem_cons.mp known
    rw [List.forM_eq_forM, List.forM_cons, checkRun_of_known first]
    exact ih others

/-- Only writes for known runs pass the check before a commit. -/
theorem knows_of_forM_checkRun (checked : (ws.forM fun w => s.checkRun w.runId) = .ok ()) :
    s.Knows ws := by
  induction ws with
  | nil => exact fun _ member => absurd member List.not_mem_nil
  | cons w rest ih =>
    cases found : s.run? w.runId with
    | none =>
      rw [List.forM_eq_forM, List.forM_cons, checkRun_of_unknown found] at checked
      cases checked
    | some row =>
      have known : (s.run? w.runId).isSome = true := by rw [found]; rfl
      rw [List.forM_eq_forM, List.forM_cons, checkRun_of_known known] at checked
      exact List.forall_mem_cons.mpr ⟨known, ih checked⟩

/-! ## Commits -/

/-- The store after some writes and one more commit. -/
def carryOut (s : Store) (ws : List Write) : Store :=
  { ws.foldl apply s with commits := s.commits + 1 }

/-- A commit that is made to fail writes nothing and uses up one failure. -/
theorem commit_of_pending (snap : Snapshot) (pending : s.failingCommits ≠ 0) :
    s.commit snap =
      (.error injectedFailure, { s with failingCommits := s.failingCommits - 1 }) := by
  obtain ⟨left, more⟩ := Nat.exists_eq_succ_of_ne_zero pending
  simp only [commit, more, Nat.succ_eq_add_one, Nat.add_sub_cancel]

/-- A commit of writes for known runs carries them all out. -/
theorem commit_of_knows (snap : Snapshot) (calm : s.failingCommits = 0)
    (known : s.Knows snap.writes) :
    s.commit snap = (.ok (), s.carryOut snap.writes) := by
  simp only [commit, calm, forM_checkRun_of_knows known, carryOut]

theorem commit_cases (s : Store) (snap : Snapshot) :
    (s.failingCommits ≠ 0 ∧ s.commit snap =
      (.error injectedFailure, { s with failingCommits := s.failingCommits - 1 })) ∨
    (s.failingCommits = 0 ∧ ¬ s.Knows snap.writes ∧ ∃ e, s.commit snap = (.error e, s)) ∨
    (s.failingCommits = 0 ∧ s.Knows snap.writes ∧
      s.commit snap = (.ok (), s.carryOut snap.writes)) := by
  by_cases calm : s.failingCommits = 0
  · right
    by_cases known : s.Knows snap.writes
    · exact .inr ⟨calm, known, commit_of_knows snap calm known⟩
    · left
      refine ⟨calm, known, ?_⟩
      cases checked : snap.writes.forM fun w => s.checkRun w.runId with
      | error e => exact ⟨e, by simp only [commit, calm, checked]⟩
      | ok _ => exact absurd (knows_of_forM_checkRun checked) known
  · exact .inl ⟨calm, commit_of_pending snap calm⟩

/-! ## Failures that are to come -/

/-- The store, with no commit made to fail. -/
def calm (s : Store) : Store := { s with failingCommits := 0 }

/-- Writes do not depend on the failures that are to come. -/
theorem calm_apply (s : Store) (w : Write) : (s.apply w).calm = s.calm.apply w := by
  cases w <;> rfl

theorem calm_carryOut (s : Store) (ws : List Write) :
    (s.carryOut ws).calm = s.calm.carryOut ws := by
  have same : (ws.foldl apply s).calm = ws.foldl apply s.calm := by
    induction ws generalizing s with
    | nil => rfl
    | cons w rest ih => rw [List.foldl_cons, ih, calm_apply, List.foldl_cons]
  rw [carryOut, carryOut, ← same]
  rfl

/-- Recording a run does not depend on the failures that are to come. -/
theorem insertRun_calm (s : Store) (run : NewRun) :
    s.calm.insertRun run = (s.insertRun run).map fun (row, after) => (row, after.calm) := by
  unfold insertRun
  change (if (s.findRun run.externalRunId).isSome then _ else _) = _
  split <;> rfl

/-! ## Recorded runs -/

/-- A run is recorded only under a name that is free. -/
theorem insertRun_eq_ok {after : Store} {run : NewRun} {row : RunRecord}
    (inserted : s.insertRun run = .ok (row, after)) :
    s.findRun run.externalRunId = none ∧ row = run.record (s.lastRunId + 1) ∧
      after = { s with lastRunId := row.id, runs := s.runs ++ [row] } := by
  unfold insertRun at inserted
  split at inserted
  · cases inserted
  · rename_i free
    cases inserted
    exact ⟨Option.not_isSome_iff_eq_none.mp free, rfl, rfl⟩

/-- A run is found under its number as soon as it is recorded, and no other one is lost. -/
theorem run?_insertRun {after : Store} {run : NewRun} {row : RunRecord}
    (inserted : s.insertRun run = .ok (row, after)) (id : RunId) :
    after.run? id = (s.run? id).or (if row.id = id then some row else none) := by
  obtain ⟨_, rfl, rfl⟩ := insertRun_eq_ok inserted
  simp only [run?, List.find?_append, List.find?_singleton, beq_iff_eq]

/-- A run is found under its name as soon as it is recorded, and no other one is lost. -/
theorem findRun_insertRun {after : Store} {run : NewRun} {row : RunRecord}
    (inserted : s.insertRun run = .ok (row, after)) (name : String) :
    after.findRun name =
      (s.findRun name).or (if run.externalRunId = name then some row else none) := by
  obtain ⟨_, rfl, rfl⟩ := insertRun_eq_ok inserted
  simp [findRun, List.find?_append, List.find?_singleton, NewRun.record]

end Store

end RunLedger
