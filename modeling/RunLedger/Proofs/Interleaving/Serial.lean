import RunLedger.Proofs.Interleaving.Session

/-!
# Serial sessions

A session in which many snapshots are open at once has the same rows, and gives the same answers, as
a serial one. In the serial session a snapshot is opened when the other one commits it with success;
all writes that were accepted for it follow at once, and then its commit. A snapshot that is aborted
or dropped, or whose commit fails, does not appear in the serial session at all.
-/

namespace RunLedger.Interleaving.Session

/-! ## The serial form of a session -/

/-- What an event adds to the writes of a snapshot, or that it opens the snapshot anew. -/
def gather (handle : Nat) (writes : List Write) : Event → List Write
  | .opened h => if h = handle then [] else writes
  | .staged h w => if h = handle then writes ++ [w] else writes
  | _ => writes

/-- The writes that were accepted for the snapshot which was opened last under a handle. -/
def writesOf (handle : Nat) (events : List Event) : List Write :=
  events.foldl (gather handle) []

/-- A snapshot from its opening to its commit, with nothing in between. -/
def block (handle : Nat) (writes : List Write) : List Event :=
  .opened handle :: writes.map (.staged handle) ++ [.committed handle (.ok ())]

/-- What remains of an event in the serial form, given what happened before it. -/
def serialOf (past : List Event) : Event → List Event
  | .committed handle (.ok ()) => block handle (writesOf handle past)
  | .called call answer => [.called call answer]
  | .declared workflowId spec => [.declared workflowId spec]
  | _ => []

def serialAfter (past : List Event) : List Event → List Event
  | [] => []
  | e :: rest => serialOf past e ++ serialAfter (past ++ [e]) rest

/-- The serial form of a session. -/
def serial (events : List Event) : List Event := serialAfter [] events

theorem serialAfter_append (past events : List Event) (e : Event) :
    serialAfter past (events ++ [e]) = serialAfter past events ++ serialOf (past ++ events) e := by
  induction events generalizing past with
  | nil => simp [serialAfter]
  | cons first rest ih => simp [serialAfter, ih]

/-- One more event adds its serial form. -/
theorem serial_append (events : List Event) (e : Event) :
    serial (events ++ [e]) = serial events ++ serialOf events e :=
  serialAfter_append [] events e

/-- One more event adds to the writes of a snapshot what it stages, or ends them. -/
theorem writesOf_append (handle : Nat) (events : List Event) (e : Event) :
    writesOf handle (events ++ [e]) = gather handle (writesOf handle events) e := by
  simp [writesOf]

/-! ## Blocks -/

variable {σ σ' : Session Store} {events : List Event} {e : Event} {handle : Nat} {snap : Snapshot}
  {ws : List Write}

@[simp] theorem store_hold (σ : Session Store) (handle : Nat) (snap : Option Snapshot) :
    (σ.hold handle snap).store = σ.store := rfl

@[simp] theorem snapshots_withStore (σ : Session Store) (s : Store) :
    (σ.withStore s).snapshots = σ.snapshots := rfl

@[simp] theorem store_withStore (σ : Session Store) (s : Store) : (σ.withStore s).store = s := rfl

@[simp] theorem snapshots_hold_self (σ : Session Store) (handle : Nat) (snap : Option Snapshot) :
    (σ.hold handle snap).snapshots handle = snap := by
  simp [hold]

theorem snapshots_hold_of_ne {other : Nat} (different : other ≠ handle) (σ : Session Store)
    (snap : Option Snapshot) : (σ.hold handle snap).snapshots other = σ.snapshots other := by
  simp [hold, different]

@[simp] theorem hold_hold (σ : Session Store) (handle : Nat) (snap snap' : Option Snapshot) :
    (σ.hold handle snap).hold handle snap' = σ.hold handle snap' := by
  simp [hold]

/-- To hold again what is held changes nothing. -/
theorem hold_of_eq {snap : Option Snapshot} (held : σ.snapshots handle = snap) :
    σ.hold handle snap = σ := by
  subst held
  simp [hold]

/-- A snapshot that is open after a step was open before, or it was opened by the step, or a write
was staged in it. -/
theorem Step.of_open (step : Step σ e σ') {other : Nat} {snap' : Snapshot}
    (open' : σ'.snapshots other = some snap') :
    (σ.snapshots other = some snap' ∧ ∀ ws, gather other ws e = ws) ∨
    (e = .opened other ∧ snap' = {}) ∨
    ∃ snap w, e = .staged other w ∧ σ.snapshots other = some snap ∧
      σ.store.stage snap w = .ok snap' := by
  cases step with
  | @begin handle free =>
    by_cases same : other = handle
    · subst same
      rw [snapshots_hold_self] at open'
      exact .inr (.inl ⟨rfl, (Option.some.inj open').symm⟩)
    · rw [snapshots_hold_of_ne same] at open'
      exact .inl ⟨open', fun ws => if_neg (Ne.symm same)⟩
  | @stage handle snap next w held accepted =>
    by_cases same : other = handle
    · subst same
      rw [snapshots_hold_self] at open'
      exact .inr (.inr ⟨snap, w, rfl, held, Option.some.inj open' ▸ accepted⟩)
    · rw [snapshots_hold_of_ne same] at open'
      exact .inl ⟨open', fun ws => if_neg (Ne.symm same)⟩
  | @commit handle | @abort handle | @drop handle =>
    by_cases same : other = handle
    · subst same
      simp at open'
    · simp only [snapshots_withStore, snapshots_hold_of_ne same] at open'
      exact .inl ⟨open', fun _ => rfl⟩
  | _ => exact .inl ⟨open', fun _ => rfl⟩

/-- Writes for known runs are staged one after the other. -/
theorem executes_staged (held : σ.snapshots handle = some snap) (known : σ.store.Knows ws) :
    Executes σ (ws.map (.staged handle)) (σ.hold handle (some ⟨snap.writes ++ ws⟩)) := by
  induction ws generalizing σ snap with
  | nil =>
    rw [List.append_nil, hold_of_eq held]
    exact .nil σ
  | cons w rest ih =>
    obtain ⟨first, others⟩ := List.forall_mem_cons.mp known
    have step : Step σ (.staged handle w) (σ.hold handle (some ⟨snap.writes ++ [w]⟩)) :=
      .stage held (Store.stage_of_known snap first)
    have later := ih (snapshots_hold_self σ handle (some ⟨snap.writes ++ [w]⟩)) others
    rw [hold_hold, List.append_assoc, List.singleton_append] at later
    exact (Executes.single step).trans later

/-- A block opens a snapshot, stages its writes and commits them, with nothing in between. -/
theorem executes_block (free : σ.snapshots handle = none) (known : σ.store.Knows ws)
    (calm : σ.store.failingCommits = 0) :
    Executes σ (block handle ws) (σ.withStore (σ.store.carryOut ws)) := by
  have opened : Executes σ [.opened handle] (σ.hold handle (some {})) := .single (.begin free)
  have staged := opened.trans (executes_staged (snapshots_hold_self ..) known)
  rw [hold_hold, List.nil_append] at staged
  have answered := Store.commit_of_knows ⟨ws⟩ calm known
  have committed := staged.snoc (.commit (snapshots_hold_self ..) answered)
  rw [hold_hold, hold_of_eq free] at committed
  exact committed

/-! ## The serial session keeps up -/

/-- How a session and its serial form have got on: the stores differ in the failures that are to
come alone, and every open snapshot holds what was accepted for it, all of it for known runs. -/
structure Replayed (first : Store) (events : List Event) (σ : Session Store) : Prop where
  execution : Executes (.start first.calm) (serial events) (.start σ.store.calm)
  held : ∀ handle snap, σ.snapshots handle = some snap →
    snap.writes = writesOf handle events ∧ σ.store.Knows snap.writes

namespace Replayed

variable {first : Store}

/-- The serial form of an event takes the serial session as far as the event takes the other one. -/
theorem executes_serialOf (replayed : Replayed first events σ) (step : Step σ e σ') :
    Executes (.start σ.store.calm) (serialOf events e) (.start σ'.store.calm) := by
  cases step with
  | @commit handle snap answer after held answered =>
    obtain ⟨writes, known⟩ := replayed.held handle snap held
    rcases σ.store.commit_cases snap with ⟨_, failed⟩ | ⟨_, unknown, _⟩ | ⟨_, _, done⟩
    · cases answered.symm.trans failed
      exact .nil _
    · exact absurd known unknown
    · cases answered.symm.trans done
      have free : (Session.start σ.store.calm).snapshots handle = none := rfl
      have carried := executes_block free known rfl
      rw [writes] at carried
      rw [store_withStore, writes, Store.calm_carryOut]
      exact carried
  | @call call answer after direct answered =>
    have same := StoreCall.perform_calm direct σ.store
    rw [answered] at same
    exact .single (.call direct same)
  | declare workflowId spec => exact .single (.declare workflowId spec)
  | _ => exact .nil _

/-- An open snapshot holds the writes that were staged in it, all for known runs. -/
theorem held_step (replayed : Replayed first events σ) (step : Step σ e σ') (other : Nat)
    (snap' : Snapshot) (open' : σ'.snapshots other = some snap') :
    snap'.writes = writesOf other (events ++ [e]) ∧ σ'.store.Knows snap'.writes := by
  rw [writesOf_append]
  rcases step.of_open open' with ⟨held, same⟩ | ⟨rfl, rfl⟩ | ⟨snap, w, rfl, held, accepted⟩
  · obtain ⟨writes, known⟩ := replayed.held other snap' held
    exact ⟨writes.trans (same _).symm, step.knows known⟩
  · refine ⟨?_, fun w member => absurd member List.not_mem_nil⟩
    simp [gather]
  · obtain ⟨writes, known⟩ := replayed.held other snap held
    obtain ⟨new, added⟩ := Store.of_stage_eq_ok accepted
    refine ⟨?_, step.knows ?_⟩
    · rw [added, writes]
      simp [gather]
    · rw [added]
      exact List.forall_mem_append.mpr ⟨known, List.forall_mem_singleton.mpr new⟩

/-- Before the first event the serial session stands where the session does. -/
theorem start (first : Store) : Replayed first [] (.start first) where
  execution := .nil _
  held _ _ impossible := nomatch impossible

/-- Each event of a session has its serial form, by cases on the event. -/
theorem step (replayed : Replayed first events σ) (step : Step σ e σ') :
    Replayed first (events ++ [e]) σ' where
  execution := by
    rw [serial_append]
    exact replayed.execution.trans (replayed.executes_serialOf step)
  held := replayed.held_step step

/-- The serial session keeps up with a whole session, by induction on the events. -/
theorem of_executes (execution : Executes (.start first) events σ) : Replayed first events σ := by
  induction execution with
  | nil => exact .start first
  | snoc _ step ih => exact ih.step step

end Replayed

/-- A commit fails exactly if it is made to fail, because all that was staged is for known runs. -/
theorem answer_of_committed (replayed : Replayed first events σ) {answer : Except StoreError Unit}
    (step : Step σ (.committed handle answer) σ') :
    answer = if σ.store.failingCommits = 0 then .ok () else .error Store.injectedFailure := by
  cases step with
  | @commit handle snap answer after held answered =>
    rcases σ.store.commit_cases snap with ⟨pending, failed⟩ | ⟨_, unknown, _⟩ | ⟨calm, _, done⟩
    · cases answered.symm.trans failed
      rw [if_neg pending]
    · exact absurd (replayed.held handle snap held).2 unknown
    · cases answered.symm.trans done
      rw [if_pos calm]

/-- The answer to a call does not depend on the failures that are to come. -/
theorem answer_of_called {call : StoreCall} {answer : call.Answer}
    (step : Step σ (.called call answer) σ') : answer = (call.perform σ.store.calm).1 := by
  cases step with
  | call direct answered => rw [StoreCall.perform_calm direct, answered]

/-- Whatever happens in a session in whatever order, its serial form can be carried out and leads to
the same rows. A call is answered as in the state of the serial session, and the commit of a
snapshot fails only if a failure was asked for. -/
theorem serializable {first : Store} (execution : Executes (.start first) events σ) :
    ∃ τ : Session Store, Executes (.start first.calm) (serial events) τ ∧
      τ.store.runs = σ.store.runs ∧ τ.store.steps = σ.store.steps ∧
      τ.store.logs = σ.store.logs ∧
      (∀ (call : StoreCall) (answer : call.Answer) (later : Session Store),
        Step σ (.called call answer) later → answer = (call.perform τ.store).1) ∧
      ∀ (handle : Nat) (answer : Except StoreError Unit) (later : Session Store),
        Step σ (.committed handle answer) later →
          answer = if σ.store.failingCommits = 0 then .ok () else .error Store.injectedFailure := by
  have replayed := Replayed.of_executes execution
  refine ⟨.start σ.store.calm, replayed.execution, rfl, rfl, rfl, ?_, ?_⟩
  · exact fun call answer later step => answer_of_called step
  · exact fun handle answer later step => answer_of_committed replayed step

def launch : NewRun := ⟨"x", 1, .queued, none, .null⟩

def launched : RunRecord := ⟨1, "x", 1, .queued, none, none, none, none, [], .null⟩

def ending : Write := .run 1 { status := some .completed }

def going : Write := .run 1 { status := some .running, startedAt := some (.utc 5) }

/-- Two snapshots are open at once and the one that was opened last commits first; the commit of a
third one fails. -/
def race : List Event :=
  [.called (.insertRun launch) (.ok launched), .opened 0, .opened 1, .staged 0 going,
    .staged 1 ending, .committed 1 (.ok ()), .opened 2, .staged 2 going, .failNext 1,
    .committed 2 (.error Store.injectedFailure), .committed 0 (.ok ())]

/-- The race in serial form: the snapshots that were committed, in the order of their commits. -/
theorem serializable_race : ∃ σ τ : Session Store, Executes (.start {}) race σ ∧
    Executes (.start {}) [.called (.insertRun launch) (.ok launched), .opened 1, .staged 1 ending,
      .committed 1 (.ok ()), .opened 0, .staged 0 going, .committed 0 (.ok ())] τ ∧
    τ.store.runs = σ.store.runs ∧ σ.store.commits = 2 := by
  have inserted : Executes (.start ({} : Store)) (race.take 1) _ := .single (.call rfl rfl)
  have opened : Executes (.start ({} : Store)) (race.take 3) _ :=
    (inserted.snoc (.begin rfl)).snoc (.begin rfl)
  have staged : Executes (.start ({} : Store)) (race.take 5) _ :=
    (opened.snoc (.stage rfl rfl)).snoc (.stage rfl rfl)
  have committed : Executes (.start ({} : Store)) (race.take 6) _ := staged.snoc (.commit rfl rfl)
  have failing : Executes (.start ({} : Store)) (race.take 9) _ :=
    ((committed.snoc (.begin rfl)).snoc (.stage rfl rfl)).snoc (.failNext 1)
  have execution : Executes (.start ({} : Store)) race _ :=
    (failing.snoc (.commit rfl rfl)).snoc (.commit rfl rfl)
  obtain ⟨τ, serial, runs, _⟩ := serializable execution
  exact ⟨_, τ, execution, serial, runs, rfl⟩

end RunLedger.Interleaving.Session
