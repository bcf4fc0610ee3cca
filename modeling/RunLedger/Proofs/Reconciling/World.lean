import RunLedger.Proofs.Interleaving.Calls
import RunLedger.Proofs.Sync.Listing
import RunLedger.Rehearsal.EngineScript

/-!
# The world of a pass

A world holds the runs of an engine, a store, and the history of what has happened: the updates of
runs and the exchanges of passes. The engine updates its runs while a pass is under way; an update
is later than all times before it. `Evolves` says what may become of a world while the cursor stays
where it is.
-/

namespace RunLedger.Interleaving

open RunLedger.Sync RunLedger.Time
open RunLedger.Rehearsal (EngineScript.within)

/-- What happens in a world. -/
inductive Event where
  /-- A run was updated in the engine, or is new there. -/
  | updated (runId : String)
  /-- A call of a pass was answered. -/
  | answered (exchange : Exchange Call.Answer)

/-- The exchanges among events. -/
def exchangesOf (events : List Event) : List (Exchange Call.Answer) :=
  events.filterMap fun
    | .answered exchange => some exchange
    | .updated _ => none

@[simp] theorem exchangesOf_append (first second : List Event) :
    exchangesOf (first ++ second) = exchangesOf first ++ exchangesOf second :=
  List.filterMap_append ..

@[simp] theorem exchangesOf_answered (exchange : Exchange Call.Answer) :
    exchangesOf [.answered exchange] = [exchange] := rfl

/-- An engine, a store, and what has happened. -/
structure World where
  runs : List RunSummary
  store : Store
  history : List Event

/-- How a call is answered by an engine with some runs and by a store, and the store that is left.
An engine answers a query for a run as it likes; it refuses a listing, or lists the newest runs of
those asked for. -/
def Answers (runs : List RunSummary) (s : Store) : (call : Call) → call.Answer → Store → Prop
  | .runDetail _, _, after => after = s
  | .recentRuns _ _ _, .error _, after => after = s
  | .recentRuns limit lower upper, .ok page, after =>
    after = s ∧ IsListing (fun run => some run.updateTime) limit
      (runs.filter fun run => EngineScript.within lower upper run.updateTime) page
  | .now, _, after => after = s
  | .store call, answer, after => call.perform s = (answer, after)

/-- Every call but one leaves the cursor alone. -/
theorem Answers.cursor {runs : List RunSummary} {s after : Store} {call : Call}
    {answer : call.Answer} (answered : Answers runs s call answer after)
    (still : call.movesCursor = false) : after.cursor = s.cursor := by
  cases call with
  | runDetail runId => rw [show after = s from answered]
  | recentRuns limit lower upper =>
    cases answer with
    | error e => rw [show after = s from answered]
    | ok page => rw [answered.1]
  | now => rw [show after = s from answered]
  | store call =>
    have same := StoreCall.perform_cursor still s
    rw [show call.perform s = (answer, after) from answered] at same
    exact same

/-- What may become of a world while `events` happen and the cursor stays: a run is as it was and
not updated, or it is newer than all runs were. -/
structure Evolves (events : List Event) (w w' : World) : Prop where
  history : w'.history = w.history ++ events
  cursor : w'.store.cursor = w.store.cursor
  runs : ∀ run ∈ w'.runs, run ∈ w.runs ∧ Event.updated run.runId ∉ events ∨
    ∀ r ∈ w.runs, r.updateTime < run.updateTime
  kept : ∀ run ∈ w.runs, ∃ r ∈ w'.runs, run.updateTime ≤ r.updateTime
  distinct : (w.runs.map (·.runId)).Nodup → (w'.runs.map (·.runId)).Nodup

namespace Evolves

variable {events events' : List Event} {w w' w'' : World} {run : RunSummary}

theorem refl (w : World) : Evolves [] w w where
  history := (List.append_nil _).symm
  cursor := rfl
  runs _ member := .inl ⟨member, List.not_mem_nil⟩
  kept run member := ⟨run, member, Int.le_refl _⟩
  distinct := id

theorem trans (first : Evolves events w w') (second : Evolves events' w' w'') :
    Evolves (events ++ events') w w'' where
  history := by rw [second.history, first.history, List.append_assoc]
  cursor := second.cursor.trans first.cursor
  runs run member := by
    rcases second.runs run member with ⟨before, calm'⟩ | newer
    · rcases first.runs run before with ⟨known, calm⟩ | newer
      · exact .inl ⟨known, fun updated => (List.mem_append.mp updated).elim calm calm'⟩
      · exact .inr newer
    · refine .inr fun r known => ?_
      obtain ⟨r', member', later⟩ := first.kept r known
      exact Instant.lt_of_le_of_lt later (newer r' member')
  kept run member := by
    obtain ⟨r, known, later⟩ := first.kept run member
    obtain ⟨r', known', later'⟩ := second.kept r known
    exact ⟨r', known', Instant.le_trans later later'⟩
  distinct := fun distinct => second.distinct (first.distinct distinct)

/-- A run that is not newer than all runs were is as it was and was not updated. -/
theorem unchanged (evolved : Evolves events w w') (member : run ∈ w'.runs) {r : RunSummary}
    (known : r ∈ w.runs) (old : run.updateTime ≤ r.updateTime) :
    run ∈ w.runs ∧ Event.updated run.runId ∉ events := by
  rcases evolved.runs run member with same | newer
  · exact same
  · exact absurd (newer r known) (Instant.not_lt.mpr old)

/-- A run that is there before and after was there in between. -/
theorem between (first : Evolves events w w') (second : Evolves events' w' w'')
    (before : run ∈ w.runs) (after : run ∈ w''.runs) : run ∈ w'.runs := by
  obtain ⟨r, known, later⟩ := first.kept run before
  exact (second.unchanged after known later).1

/-- The answer to a call that leaves the cursor alone changes no run. -/
theorem answered {call : Call} {answer : call.Answer} {after : Store}
    (w : World) (answered : Answers w.runs w.store call answer after)
    (still : call.movesCursor = false) :
    Evolves [.answered ⟨call, answer⟩] w
      ⟨w.runs, after, w.history ++ [.answered ⟨call, answer⟩]⟩ where
  history := rfl
  cursor := answered.cursor still
  runs run member := .inl ⟨member, by simp⟩
  kept run member := ⟨run, member, Int.le_refl _⟩
  distinct := id

end Evolves

/-! ## Safe worlds -/

variable {pageSize : Nat}

/-- Among events is a whole sync of a run that did not fail. -/
def SyncedIn (pageSize : Nat) (events : List Event) (runId : String) : Prop :=
  ∃ before during after outcome, events = before ++ during ++ after ∧
    ((reconciler pageSize).syncRun runId).Runs (exchangesOf during) (.ok outcome)

theorem SyncedIn.later {events : List Event} {runId : String}
    (synced : SyncedIn pageSize events runId) (last : List Event) :
    SyncedIn pageSize (events ++ last) runId := by
  obtain ⟨before, during, after, outcome, rfl, sync⟩ := synced
  exact ⟨before, during, after ++ last, outcome, List.append_assoc .., sync⟩

theorem SyncedIn.earlier {events : List Event} {runId : String}
    (synced : SyncedIn pageSize events runId) (first : List Event) :
    SyncedIn pageSize (first ++ events) runId := by
  obtain ⟨before, during, after, outcome, rfl, sync⟩ := synced
  exact ⟨first ++ before, during, after, outcome, by simp only [List.append_assoc], sync⟩

/-- A run was synced after its latest update, and the sync did not fail. -/
def SyncedSince (pageSize : Nat) (history : List Event) (runId : String) : Prop :=
  ∃ old events, history = old ++ events ∧ Event.updated runId ∉ events ∧
    SyncedIn pageSize events runId

/-- A run stays synced until it is updated. -/
theorem SyncedSince.append {history events : List Event} {runId : String}
    (synced : SyncedSince pageSize history runId) (calm : Event.updated runId ∉ events) :
    SyncedSince pageSize (history ++ events) runId := by
  obtain ⟨old, since, rfl, calm', sync⟩ := synced
  refine ⟨old, since ++ events, List.append_assoc .., fun updated => ?_, sync.later events⟩
  exact (List.mem_append.mp updated).elim calm' calm

/-- Nothing is lost behind the cursor: every run that was updated after 1970 and not after the
cursor has been synced since. -/
structure Safe (pageSize : Nat) (w : World) : Prop where
  distinct : (w.runs.map (·.runId)).Nodup
  bounded : ∀ c, w.store.cursor = some c → ∃ run ∈ w.runs, c ≤ run.updateTime
  synced : ∀ run ∈ w.runs, Instant.epoch < run.updateTime → ∀ c, w.store.cursor = some c →
    run.updateTime ≤ c → SyncedSince pageSize w.history run.runId

/-- While the cursor stays where it is, nothing gets lost behind it. -/
theorem Safe.evolves {events : List Event} {w w' : World} (safe : Safe pageSize w)
    (evolved : Evolves events w w') : Safe pageSize w' where
  distinct := evolved.distinct safe.distinct
  bounded c isCursor := by
    obtain ⟨run, known, behind⟩ := safe.bounded c (evolved.cursor ▸ isCursor)
    obtain ⟨r, member, later⟩ := evolved.kept run known
    exact ⟨r, member, Instant.le_trans behind later⟩
  synced run member afterEpoch c isCursor behind := by
    have isCursor : w.store.cursor = some c := evolved.cursor ▸ isCursor
    obtain ⟨r, known, bound⟩ := safe.bounded c isCursor
    obtain ⟨same, calm⟩ := evolved.unchanged member known (Instant.le_trans behind bound)
    rw [evolved.history]
    exact (safe.synced run same afterEpoch c isCursor behind).append calm

/-- The surroundings of a pass: others change the world and leave the cursor alone, and the
exchanges of the pass are recorded. -/
def surroundings : Program.Surroundings Call.Answer World where
  others w w' := ∃ events, exchangesOf events = [] ∧ Evolves events w w'
  answers w call answer w' := w'.runs = w.runs ∧
    w'.history = w.history ++ [.answered ⟨call, answer⟩] ∧
    Answers w.runs w.store call answer w'.store

/-- A step that keeps a safe world safe. -/
def StaysSafe (pageSize : Nat) (w w' : World) : Prop := Safe pageSize w → Safe pageSize w'

/-- The answer to a call that does not move the cursor. -/
theorem evolves_of_answers {w w' : World} {call : Call} {answer : call.Answer}
    (answered : surroundings.answers w call answer w') (still : call.movesCursor = false) :
    Evolves [.answered ⟨call, answer⟩] w w' := by
  obtain ⟨runs, store, history⟩ := w'
  obtain ⟨rfl, rfl, answered⟩ := answered
  exact .answered w answered still

/-- A program that leaves the cursor alone holds a conversation, and the world stays safe. -/
theorem keeps_of_asks {α : Type} {p : Program Call.Answer α}
    (still : p.Asks (·.movesCursor = false)) (w : World) :
    p.Keeps surroundings (StaysSafe pageSize)
      (fun result w' => ∃ events, Evolves events w w' ∧ p.Runs (exchangesOf events) result) w := by
  induction p generalizing w with
  | done result => exact ⟨[], .refl w, .done result⟩
  | ask call next ih =>
    rintro now ⟨events, others, evolved⟩ answer after answered
    have step := evolves_of_answers answered still.1
    refine ⟨fun safe => safe.evolves step, (ih answer (still.2 answer) after).mono ?_⟩
    rintro result w' ⟨later, evolved', conversation⟩
    refine ⟨events ++ [.answered ⟨call, answer⟩] ++ later, (evolved.trans step).trans evolved', ?_⟩
    simp only [exchangesOf_append, others, exchangesOf_answered, List.nil_append,
      List.singleton_append]
    exact .ask conversation

end RunLedger.Interleaving
