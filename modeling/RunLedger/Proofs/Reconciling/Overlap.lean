import Mathlib.Logic.Relation
import RunLedger.Proofs.Reconciling.Storing

/-!
# Overlapping syncs

Several syncs of one run are under way at once. All of them get the same answer from the engine;
each has a clock of its own, and any of their commits may be made to fail. The first commit that
succeeds decides the rows of the store: whatever comes later was computed from the row before or
after that commit and changes nothing.
-/

namespace RunLedger.Interleaving

open RunLedger.Sync RunLedger.Time
open Store (SameRows)

/-- How a call of a sync is answered if the engine gives the same answer to all, and the store that
is left. -/
def AnswersAlike (detail : RunDetail) (s : Store) : (call : Call) → call.Answer → Store → Prop
  | .runDetail _, answer, after => answer = .ok detail ∧ after = s
  | .recentRuns _ _ _, _, _ => False
  | .now, _, after => after = s
  | .store call, answer, after => call.perform s = (answer, after)

/-- A round of syncs of one recorded run, which all get the same answer from the engine. -/
structure Round where
  start : Store
  coherent : start.Coherent
  externalRunId : String
  run : RunRecord
  recorded : start.findRun externalRunId = some run
  detail : RunDetail

namespace Round

variable (r : Round) {pageSize : Nat} {stale : RunRecord} {now : Instant} {s s' s'' : Store}

/-- What the workflow of the run declares. -/
def spec : OutputSpec := r.start.outputSpec r.run.workflowId

/-- The plan of a sync which has read a row of the run. -/
def plan (stale : RunRecord) (now : Instant) : Plan :=
  planFor r.externalRunId r.spec r.detail stale now

/-- The row of the run after the commit of a sync that read the row of the start. -/
def settledRun (now : Instant) : RunRecord := r.run.merge (updateFor r.spec r.detail r.run now)

/-- No sync has committed yet. -/
structure Untouched (s : Store) : Prop where
  rows : SameRows r.start s
  specs : s.specs = r.start.specs
  commits : s.commits = r.start.commits

/-- The rows are those that a sync has committed whose clock said `now`. -/
structure Settled (now : Instant) (s : Store) : Prop where
  rows : SameRows ((r.plan r.run now).writes.foldl Store.apply r.start) s
  specs : s.specs = r.start.specs
  commits : r.start.commits < s.commits

/-- A store that the syncs may bring about. -/
def Sound (s : Store) : Prop := r.Untouched s ∨ ∃ now, r.Settled now s

/-- What the syncs may make of a store: it stays sound, and what is settled stays settled. -/
def Follows (s s' : Store) : Prop :=
  r.Sound s → r.Sound s' ∧ ∀ now, r.Settled now s → r.Settled now s'

/-- A row that a sync may have read: the one of the start, or the one that is settled. -/
def MayRead (stale : RunRecord) (s : Store) : Prop :=
  stale = r.run ∨ ∃ now, stale = r.settledRun now ∧ r.Settled now s

variable {r}

theorem Follows.refl (s : Store) : r.Follows s s := fun sound => ⟨sound, fun _ => id⟩

theorem Follows.trans (first : r.Follows s s') (second : r.Follows s' s'') : r.Follows s s'' := by
  intro sound
  obtain ⟨sound', settled⟩ := first sound
  obtain ⟨sound'', settled'⟩ := second sound'
  exact ⟨sound'', fun now before => settled' now (settled now before)⟩

/-- A store with the same rows and declarations, and no commit more, or more commits of a settled
one. -/
theorem follows_of_sameRows (rows : SameRows s s') (specs : s'.specs = s.specs)
    (commits : s'.commits = s.commits) : r.Follows s s' := by
  have settled : ∀ now, r.Settled now s → r.Settled now s' := fun now before =>
    ⟨before.rows.trans rows, specs.trans before.specs, commits ▸ before.commits⟩
  intro sound
  refine ⟨?_, settled⟩
  rcases sound with untouched | ⟨now, before⟩
  · exact .inl ⟨untouched.rows.trans rows, specs.trans untouched.specs,
      commits.trans untouched.commits⟩
  · exact .inr ⟨now, settled now before⟩

/-- A row that a sync may have read is still such a row in all that follows. -/
theorem MayRead.follows (read : r.MayRead stale s) (sound : r.Sound s) (step : r.Follows s s') :
    r.MayRead stale s' :=
  read.imp_right fun ⟨now, same, settled⟩ => ⟨now, same, (step sound).2 now settled⟩

theorem exists_mayRead (sound : r.Sound s) :
    ∃ stale, s.findRun r.externalRunId = some stale ∧ r.MayRead stale s := by
  rcases sound with untouched | ⟨now, settled⟩
  · refine ⟨r.run, ?_, .inl rfl⟩
    unfold Store.findRun
    rw [untouched.rows.runs]
    exact r.recorded
  · refine ⟨r.settledRun now, ?_, .inr ⟨now, rfl, settled⟩⟩
    have rows : s.runs = Store.updateRuns r.run.id (updateFor r.spec r.detail r.run now)
        r.start.runs := by
      rw [settled.rows.runs, Store.foldl_apply_writes]
      rfl
    have recorded : r.start.runs.find? (·.externalRunId == r.externalRunId) = some r.run :=
      r.recorded
    rw [Store.findRun, rows, Store.find?_updateRuns fun row u => by rw [(row.merge_names u).2.1],
      recorded]
    simp [settledRun]

/-- A row that may be read is of the workflow of the run. -/
theorem MayRead.workflowId (read : r.MayRead stale s) : stale.workflowId = r.run.workflowId := by
  rcases read with rfl | ⟨now, rfl, _⟩
  · rfl
  · exact (r.run.merge_names _).2.2

/-- The declarations are those from the start. -/
theorem Sound.specs (sound : r.Sound s) : s.specs = r.start.specs := by
  rcases sound with untouched | ⟨now, settled⟩
  · exact untouched.specs
  · exact settled.specs

/-- On a settled store the plan of a sync changes no row. -/
theorem sameRows_applied (read : r.MayRead stale s) {settledAt : Instant}
    (settled : r.Settled settledAt s) (now : Instant) :
    SameRows s ((r.plan stale now).writes.foldl Store.apply s) := by
  have known : r.run ∈ r.start.runs := List.mem_of_find?_eq_some r.recorded
  -- The row was read before the commit that settled the store, or it is the settled one.
  have same : ∃ clock, r.Settled clock s ∧ (stale = r.run ∨ stale = r.settledRun clock) := by
    rcases read with before | ⟨clock, after, settled⟩
    · exact ⟨settledAt, settled, .inl before⟩
    · exact ⟨clock, settled, .inr after⟩
  obtain ⟨clock, settled, read⟩ := same
  have replayed := Store.sameRows_replay r.externalRunId r.coherent known now read
  exact settled.rows.symm.trans (replayed.trans (settled.rows.foldl_apply (r.plan stale now)))

/-- To carry out the plan of a sync settles the store, or leaves it settled as it is. -/
theorem follows_applied (read : r.MayRead stale s) (now : Instant) :
    r.Follows s
      { (r.plan stale now).writes.foldl Store.apply s with commits := s.commits + 1 } := by
  have specs : ((r.plan stale now).writes.foldl Store.apply s).specs = s.specs := by
    rw [Store.foldl_apply_writes]
  have settled : ∀ clock, r.Settled clock s → r.Settled clock
      { (r.plan stale now).writes.foldl Store.apply s with commits := s.commits + 1 } := by
    intro clock settled
    have same := sameRows_applied read settled now
    exact ⟨settled.rows.trans ⟨same.runs, same.steps, same.logs⟩, specs.trans settled.specs,
      Nat.lt_succ_of_lt settled.commits⟩
  intro sound
  refine ⟨.inr ?_, settled⟩
  rcases sound with untouched | ⟨clock, before⟩
  · have first : stale = r.run := by
      rcases read with first | ⟨clock, _, settled⟩
      · exact first
      · exact absurd untouched.commits (Nat.ne_of_gt settled.commits)
    have rows := untouched.rows.foldl_apply (r.plan stale now)
    rw [first] at rows ⊢
    exact ⟨now, ⟨rows.runs, rows.steps, rows.logs⟩, (first ▸ specs).trans untouched.specs,
      Nat.lt_succ_of_le (Nat.le_of_eq untouched.commits.symm)⟩
  · exact ⟨clock, settled clock before⟩

/-- The commit of a sync of the round keeps the round sound, even if it read an older row. -/
theorem follows_commit (read : r.MayRead stale s) (now : Instant) {snap : Snapshot}
    (staged : snap.writes = (r.plan stale now).writes) : r.Follows s (s.commit snap).2 := by
  unfold Store.commit
  split
  · exact follows_of_sameRows ⟨rfl, rfl, rfl⟩ rfl rfl
  · split
    · exact .refl s
    · rw [staged]
      exact follows_applied read now

/-! ## A sync among others -/

variable (r) in
/-- The surroundings of a sync: the other syncs of the round take their turns. -/
def surroundings : Program.Surroundings Call.Answer Store where
  others := r.Follows
  answers := AnswersAlike r.detail

variable (r) in
/-- A sync that is under way keeps to what the syncs may make of a store. -/
def Behaves {α : Type} (p : Program Call.Answer α) (s : Store) : Prop :=
  p.Keeps r.surroundings r.Follows (fun _ _ => True) s

variable (r) in
/-- A sync has read a row in a sound store. -/
def HasRead (stale : RunRecord) (s : Store) : Prop := r.Sound s ∧ r.MayRead stale s

theorem HasRead.follows (read : r.HasRead stale s) (step : r.Follows s s') : r.HasRead stale s' :=
  ⟨(step read.1).1, read.2.follows read.1 step⟩

/-- A sync that has read the row finds the declaration of the round. -/
theorem HasRead.outputSpec (read : r.HasRead stale s) : s.outputSpec stale.workflowId = r.spec := by
  rw [read.2.workflowId, spec, Store.outputSpec, Store.outputSpec, read.1.specs]

variable (r) in
/-- The store of a round serves its syncs: what they have read stays true. -/
theorem serves (stale : RunRecord) : Serves r.surroundings r.Follows id (r.HasRead stale) where
  refl := Follows.refl
  stable := HasRead.follows
  looks looks answered :=
    ⟨(congrArg Prod.snd answered).symm.trans (StoreCall.perform_of_looks looks _),
      congrArg Prod.fst answered⟩

/-- Once a sync has read the row of its run, the rest of it keeps to what the syncs may make of a
store. -/
theorem behaves_storeDetail (read : r.HasRead stale s) :
    r.Behaves ((reconciler pageSize).storeDetail r.externalRunId stale r.detail) s := by
  refine (r.serves stale).keeps_storeDetail (fun answered => ⟨answered, trivial⟩) ?_ read
  intro now s' s after snap answer _ held read staged answered
  rw [id, held.outputSpec] at staged
  rw [show after = (s.commit snap).2 from (congrArg Prod.snd answered).symm]
  exact follows_commit read.2 now staged

/-- A sync of the round keeps to what the syncs may make of a store. -/
theorem behaves_syncRun (sound : r.Sound s) :
    r.Behaves ((reconciler pageSize).syncRun r.externalRunId) s := by
  rintro s' others answer after ⟨rfl, rfl⟩
  refine ⟨.refl _, ?_⟩
  have sound := (others sound).1
  intro now others found after answered
  obtain rfl : after = now := (congrArg Prod.snd answered).symm
  refine ⟨.refl _, ?_⟩
  have sound := (others sound).1
  obtain ⟨stale, row, read⟩ := exists_mayRead sound
  obtain rfl : found = .ok (some stale) := by
    rw [← row]
    exact (congrArg Prod.fst answered).symm
  exact behaves_storeDetail ⟨sound, read⟩

end Round

/-! ## The round -/

/-- A store and the syncs that are under way. -/
structure Pool where
  store : Store
  syncs : List (Program Call.Answer (Except SyncError RunOutcome))

/-- The steps of a pool. -/
inductive Pool.Step (detail : RunDetail) : Pool → Pool → Prop where
  /-- A call of one of the syncs is answered. -/
  | turn {pool : Pool} {before after : List (Program Call.Answer (Except SyncError RunOutcome))}
      {call : Call} {next : call.Answer → Program Call.Answer (Except SyncError RunOutcome)}
      {answer : call.Answer} {store : Store} (turn : pool.syncs = before ++ .ask call next :: after)
      (answered : AnswersAlike detail pool.store call answer store) :
      Pool.Step detail pool ⟨store, before ++ next answer :: after⟩
  /-- The next commits are made to fail. -/
  | failCommits {pool : Pool} (count : Nat) :
      Pool.Step detail pool { pool with store := { pool.store with failingCommits := count } }

namespace Pool

/-- A pool in which nothing has happened yet. -/
def start (store : Store) (externalRunId : String) (count : Nat) : Pool where
  store := store
  syncs := List.replicate count ((reconciler 1).syncRun externalRunId)

variable {r : Round} {pool pool' : Pool}

/-- What holds of every state of a pool: its store is sound, and every sync will keep to what it may
make of it. -/
structure Invariant (r : Round) (pool : Pool) : Prop where
  sound : r.Sound pool.store
  syncs : ∀ p ∈ pool.syncs, r.Behaves p pool.store

/-- Every step keeps the invariant and to what the syncs may make of a store. -/
theorem Invariant.step (invariant : Invariant r pool) (step : Step r.detail pool pool') :
    Invariant r pool' ∧ r.Follows pool.store pool'.store := by
  have others {p} (behaves : r.Behaves p pool.store) {s : Store} (moved : r.Follows pool.store s) :
      r.Behaves (α := Except SyncError RunOutcome) p s :=
    Program.Keeps.others Round.Follows.trans (fun _ => id) behaves moved
  cases step with
  | @turn before after call next answer store turn answered =>
    have mine : r.Behaves (.ask call next) pool.store := by
      apply invariant.syncs
      rw [turn]
      exact List.mem_append_right _ (List.mem_cons_self ..)
    obtain ⟨moved, rest⟩ := mine pool.store (.refl _) answer store answered
    refine ⟨⟨(moved invariant.sound).1, fun p member => ?_⟩, moved⟩
    rcases List.mem_append.mp member with old | new
    · exact others (invariant.syncs p (turn ▸ List.mem_append_left _ old)) moved
    · rcases List.mem_cons.mp new with rfl | old
      · exact rest
      · exact others (invariant.syncs p
          (turn ▸ List.mem_append_right _ (List.mem_cons_of_mem _ old))) moved
  | failCommits count =>
    have moved : r.Follows pool.store { pool.store with failingCommits := count } :=
      Round.follows_of_sameRows ⟨rfl, rfl, rfl⟩ rfl rfl
    exact ⟨⟨(moved invariant.sound).1, fun p member => others (invariant.syncs p member) moved⟩,
      moved⟩

/-- A run of steps keeps the invariant, and the store follows, by induction on the steps. -/
theorem Invariant.run (invariant : Invariant r pool)
    (steps : Relation.ReflTransGen (Step r.detail) pool pool') :
    Invariant r pool' ∧ r.Follows pool.store pool'.store := by
  induction steps with
  | refl => exact ⟨invariant, .refl _⟩
  | tail _ step ih =>
    obtain ⟨later, moved⟩ := ih
    obtain ⟨last, moved'⟩ := later.step step
    exact ⟨last, moved.trans moved'⟩

theorem Invariant.start (r : Round) (count : Nat) :
    Invariant r (.start r.start r.externalRunId count) where
  sound := .inl ⟨⟨rfl, rfl, rfl⟩, rfl, rfl⟩
  syncs p member := by
    rw [List.eq_of_mem_replicate member]
    exact Round.behaves_syncRun (.inl ⟨⟨rfl, rfl, rfl⟩, rfl, rfl⟩)

end Pool

/-- However many syncs of a recorded run overlap, all with the same answer from the engine: as soon
as one commit has succeeded, the rows of the store are for ever what they are then. -/
theorem rows_of_overlapping_syncs {start : Store} {externalRunId : String} {run : RunRecord}
    {detail : RunDetail} {count : Nat} {first last : Pool} (reachable : start.Reachable)
    (recorded : start.findRun externalRunId = some run)
    (earlier : Relation.ReflTransGen (Pool.Step detail) (.start start externalRunId count) first)
    (committed : start.commits < first.store.commits)
    (later : Relation.ReflTransGen (Pool.Step detail) first last) :
    last.store.runs = first.store.runs ∧ last.store.steps = first.store.steps ∧
      last.store.logs = first.store.logs := by
  let r : Round := ⟨start, reachable.coherent, externalRunId, run, recorded, detail⟩
  obtain ⟨invariant, _⟩ := (Pool.Invariant.start r count).run earlier
  obtain ⟨_, follows⟩ := invariant.run later
  rcases invariant.sound with untouched | ⟨now, settled⟩
  · exact absurd untouched.commits (Nat.ne_of_gt committed)
  · have same := settled.rows.symm.trans ((follows invariant.sound).2 now settled).rows
    exact ⟨same.runs, same.steps, same.logs⟩

/-- A run that was launched and of which nothing else is known. -/
def launchedStore : Store := ((StoreCall.insertRun ⟨"x", 1, .queued, none, .null⟩).perform {}).2

/-- A run that succeeded without saying when. -/
def timelessDetail : RunDetail := ⟨"x", "SUCCESS", none, none, none, .obj [], []⟩

/-- Two syncs of a run whose end is told by their clocks alone, one at 10 and one at 20 nanoseconds:
the second commit leaves the rows of the first. -/
theorem rows_of_overlapping_syncs_timelessDetail : ∃ first last : Pool,
    Relation.ReflTransGen (Pool.Step timelessDetail) (.start launchedStore "x" 2) first ∧
    Relation.ReflTransGen (Pool.Step timelessDetail) first last ∧
    first.store.commits = 1 ∧ last.store.commits = 2 ∧
    last.store.runs = first.store.runs ∧ last.store.steps = first.store.steps ∧
      last.store.logs = first.store.logs := by
  have head {s store rest call next} {answer : call.Answer}
      (answered : AnswersAlike timelessDetail s call answer store) :
      Pool.Step timelessDetail ⟨s, .ask call next :: rest⟩ ⟨store, next answer :: rest⟩ :=
    @Pool.Step.turn _ ⟨s, _⟩ [] rest call next answer store rfl answered
  have second {s store p rest call next} {answer : call.Answer}
      (answered : AnswersAlike timelessDetail s call answer store) :
      Pool.Step timelessDetail ⟨s, p :: .ask call next :: rest⟩ ⟨store, p :: next answer :: rest⟩ :=
    @Pool.Step.turn _ ⟨s, _⟩ [p] rest call next answer store rfl answered
  have clock (t : Instant) (s : Store) : AnswersAlike timelessDetail s .now t s := rfl
  have asked : Relation.ReflTransGen (Pool.Step timelessDetail) (.start launchedStore "x" 2) _ :=
    .single (head ⟨rfl, rfl⟩)
  have planned := ((asked.tail (head rfl)).tail (head (clock (.utc 10) _))).tail (head rfl)
  have first := ((planned.tail (head rfl)).tail (head rfl)).tail (head rfl)
  have here {pool}
      (_ : Relation.ReflTransGen (Pool.Step timelessDetail) (.start launchedStore "x" 2) pool) :
      Relation.ReflTransGen (Pool.Step timelessDetail) pool pool := .refl
  have asked' := (here first).tail (second ⟨rfl, rfl⟩)
  have planned' := ((asked'.tail (second rfl)).tail (second (clock (.utc 20) _))).tail (second rfl)
  have last := ((planned'.tail (second rfl)).tail (second rfl)).tail (second rfl)
  refine ⟨_, _, first, last, rfl, rfl, ?_⟩
  exact rows_of_overlapping_syncs (.call _ .empty) rfl first Nat.one_pos last

end RunLedger.Interleaving
