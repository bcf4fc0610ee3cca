import RunLedger.Proofs.Store.Commit
import RunLedger.Proofs.Sync.Resync

/-!
# The history of a run

Each sync that commits brings news of its run: what the engine answered, and what time it was. The
row of the run is decided by the news in the order of the commits. The first news of an end decide
how the run ended and when, and how long it took as far as its start was known by then. A start
stands from the first time it is told, and a configuration until another one is told, before the end
and after it.
-/

namespace RunLedger

open Sync
open Time (Instant)

/-- What a sync was told: the answer of the engine, and the time. -/
structure News where
  detail : RunDetail
  clock : Instant

namespace News

def status (a : News) : RunStatus := .ofEngine a.detail.status

def ends (a : News) : Bool := a.status.isTerminal

/-- The times of the events that can be read. -/
def eventTimes (a : News) : List Instant := (readable a.detail.events).filterMap (·.timestamp)

/-- When a run ended of whose end the news tell: at the end time that the engine gives, else at the
time of the latest event, else at the time of the sync. -/
inductive FinishesAt (a : News) : Instant → Prop where
  | told {t : Instant} : a.detail.endTime = some t → FinishesAt a t
  | latest {t : Instant} : a.detail.endTime = none → t ∈ a.eventTimes →
      (∀ u ∈ a.eventTimes, u ≤ t) → FinishesAt a t
  | clock : a.detail.endTime = none → a.eventTimes = [] → FinishesAt a a.clock

/-- The news of an end tell when it was. -/
theorem finishesAt_finishTime (a : News) : a.FinishesAt (finishTime a.detail a.clock) := by
  change a.FinishesAt ((a.detail.endTime.or (Instant.latest? a.eventTimes)).getD a.clock)
  cases ended : a.detail.endTime with
  | some t => exact .told ended
  | none =>
    rw [Option.none_or]
    cases last : Instant.latest? a.eventTimes with
    | some t =>
      exact .latest ended (Instant.latest?_mem last) fun _ => Instant.le_latest? last
    | none => exact .clock ended (Instant.latest?_eq_none.mp last)

/-- The update of a sync that was told the news, and that has read an earlier row of the run. -/
def update (a : News) (spec : OutputSpec) (stale : RunRecord) : RunUpdate :=
  updateFor spec a.detail stale a.clock

variable {a : News} {news : List News} {spec : OutputSpec} {stale : RunRecord}

/-- The news of an end bring the end to the row. -/
theorem finishedAt_update (ends : a.ends = true) :
    (a.update spec stale).finishedAt = some (finishTime a.detail a.clock) :=
  if_pos ends

def firstStart (news : List News) : Option Instant := news.findSome? (·.detail.startTime)

def lastConfig (news : List News) : Option Json :=
  ((news.map (·.detail.config)).filter (!·.isNull)).getLast?

/-- The first start that was told is kept. -/
theorem firstStart_append (news : List News) (a : News) :
    firstStart (news ++ [a]) = (firstStart news).or a.detail.startTime := by
  simp [firstStart]

/-- The last configuration that was told counts. -/
theorem lastConfig_append (news : List News) (a : News) :
    lastConfig (news ++ [a]) =
      (if a.detail.config.isNull then none else some a.detail.config).or (lastConfig news) := by
  unfold lastConfig
  cases known : a.detail.config.isNull <;> simp [known]

end News

open News

/-- The rows that the syncs of a run may leave which was recorded and of which there has been some
news since. Each sync has read some row of the run and some declaration, whatever they were. -/
inductive RowAfter (run : NewRun) : List News → RunRecord → Prop where
  | recorded (id : RunId) : RowAfter run [] (run.record id)
  | synced {news : List News} {row : RunRecord} (spec : OutputSpec) (stale : RunRecord) (a : News) :
      RowAfter run news row → RowAfter run (news ++ [a]) (row.merge (a.update spec stale))

/-- The row after syncs that came one after another, each of which has read the row that the last
one left. -/
def rowOf (spec : OutputSpec) (row : RunRecord) (news : List News) : RunRecord :=
  news.foldl (fun row a => row.merge (a.update spec row)) row

/-- The row after more news is the row from before with one more update. -/
theorem rowOf_append (spec : OutputSpec) (row : RunRecord) (news : List News) (a : News) :
    rowOf spec row (news ++ [a]) =
      (rowOf spec row news).merge (a.update spec (rowOf spec row news)) := by
  rw [rowOf, List.foldl_append]
  rfl

theorem workflowId_rowOf (spec : OutputSpec) (row : RunRecord) (news : List News) :
    (rowOf spec row news).workflowId = row.workflowId := by
  induction news using List.reverseRecOn with
  | nil => rfl
  | append_singleton news a ih =>
    rw [rowOf_append, (RunRecord.merge_names _ _).2.2]
    exact ih

namespace RowAfter

variable {run : NewRun} {news before after : List News} {a : News} {row : RunRecord}

/-- A row shows the start of the launch, or else the first that was told. -/
theorem startedAt (after : RowAfter run news row) :
    row.startedAt = run.startedAt.or (firstStart news) := by
  induction after with
  | recorded id => exact (Option.or_none).symm
  | @synced news row spec stale a _ ih =>
    rw [RunRecord.startedAt_merge, ih, firstStart_append, Option.or_assoc]
    rfl

/-- A row shows the last configuration that was told, or else that of the launch. -/
theorem runConfig (after : RowAfter run news row) :
    row.runConfig = (lastConfig news).getD run.runConfig := by
  induction after with
  | recorded id => rfl
  | @synced news row spec stale a _ ih =>
    rw [lastConfig_append]
    change (if a.detail.config.isNull then none else some a.detail.config).getD row.runConfig = _
    rw [ih]
    split <;> rfl

/-- Until there is news of an end, a run has the status that was told last, and no end. -/
theorem of_running (after : RowAfter run news row) (launched : run.status.isTerminal = false)
    (running : ∀ a ∈ news, a.ends = false) :
    row.status = (news.getLast?.map News.status).getD run.status ∧
      row.status.isTerminal = false ∧ row.finishedAt = none ∧ row.durationSeconds = none := by
  induction after with
  | recorded id => exact ⟨rfl, launched, rfl, rfl⟩
  | @synced news row spec stale a _ ih =>
    obtain ⟨earlier, last⟩ := List.forall_mem_append.mp running
    obtain ⟨_, open_, finish, duration⟩ := ih earlier
    have goesOn : a.status.isTerminal = false := last a (List.mem_singleton_self a)
    rw [RunRecord.merge_of_running open_ rfl goesOn, List.getLast?_concat]
    exact ⟨rfl, goesOn, finish, duration⟩

/-- The first news of an end decide how a run has ended. -/
theorem of_ended (rowAfter : RowAfter run news row) (launched : run.status.isTerminal = false)
    (split : news = before ++ a :: after) (first : ∀ b ∈ before, b.ends = false)
    (ends : a.ends = true) :
    row.status = a.status ∧ row.finishedAt = some (finishTime a.detail a.clock) ∧
      row.durationSeconds = (run.startedAt.or (firstStart (before ++ [a]))).map
        (·.secondsUntil (finishTime a.detail a.clock)) := by
  induction rowAfter generalizing after with
  | recorded id => simp at split
  | @synced news row spec stale last earlier ih =>
    rcases after.eq_nil_or_concat with rfl | ⟨after, last', rfl⟩
    · obtain ⟨rfl, same⟩ := List.append_inj' split rfl
      obtain rfl := List.singleton_inj.mp same
      obtain ⟨_, open_, _, _⟩ := earlier.of_running launched first
      rw [RunRecord.merge_of_ending open_ rfl ends, finishedAt_update ends, earlier.startedAt,
        firstStart_append, ← Option.or_assoc]
      refine ⟨rfl, rfl, ?_⟩
      change durationBetween ((run.startedAt.or (firstStart news)).or last.detail.startTime) _ = _
      cases (run.startedAt.or (firstStart news)).or last.detail.startTime <;> rfl
    · -- The end was told before the last news, so these change nothing of it.
      rw [List.concat_eq_append, ← List.cons_append, ← List.append_assoc] at split
      obtain ⟨rfl, _⟩ := List.append_inj' split rfl
      obtain ⟨status, finish, duration⟩ := ih rfl
      have ended : row.status.isTerminal = true := status ▸ ends
      rw [RunRecord.merge_of_ended ended]
      exact ⟨status, finish, duration⟩

end RowAfter

theorem rowAfter_rowOf (run : NewRun) (id : RunId) (spec : OutputSpec) (news : List News) :
    RowAfter run news (rowOf spec (run.record id) news) := by
  induction news using List.reverseRecOn with
  | nil => exact .recorded id
  | append_singleton news a ih =>
    rw [rowOf_append]
    exact ih.synced spec _ a

/-- What the news of a run say about its row. -/
structure Outline (run : NewRun) (news : List News) (row : RunRecord) : Prop where
  /-- The first news of an end decide how the run ended and when, and how long it took. -/
  ended : ∀ before a after, news = before ++ a :: after → (∀ b ∈ before, b.ends = false) →
    a.ends = true → row.status = a.status ∧ ∃ finish, a.FinishesAt finish ∧
      row.finishedAt = some finish ∧ row.durationSeconds =
        (run.startedAt.or (firstStart (before ++ [a]))).map (·.secondsUntil finish)
  running : (∀ a ∈ news, a.ends = false) →
    row.status = (news.getLast?.map News.status).getD run.status ∧ row.finishedAt = none ∧
      row.durationSeconds = none
  startedAt : row.startedAt = run.startedAt.or (firstStart news)
  runConfig : row.runConfig = (lastConfig news).getD run.runConfig
  finished : row.finishedAt.isSome = row.status.isTerminal

/-- Among news of an end are the first. -/
theorem News.exists_first {news : List News} (ended : ∃ a ∈ news, a.ends = true) :
    ∃ before a after, news = before ++ a :: after ∧ (∀ b ∈ before, b.ends = false) ∧
      a.ends = true := by
  obtain ⟨a, found⟩ := Option.isSome_iff_exists.mp (List.find?_isSome.mpr ended)
  obtain ⟨ends, before, after, split, first⟩ := List.find?_eq_some_iff_append.mp found
  exact ⟨before, a, after, split, fun b member => by simpa using first b member, ends⟩

/-- The row of a launch that had not ended, in outline. -/
theorem RowAfter.outline {run : NewRun} {news : List News} {row : RunRecord}
    (rowAfter : RowAfter run news row) (launched : run.status.isTerminal = false) :
    Outline run news row where
  ended before a after split first ends := by
    obtain ⟨status, finish, duration⟩ := rowAfter.of_ended launched split first ends
    exact ⟨status, _, a.finishesAt_finishTime, finish, duration⟩
  running running := by
    obtain ⟨status, _, finish, duration⟩ := rowAfter.of_running launched running
    exact ⟨status, finish, duration⟩
  startedAt := rowAfter.startedAt
  runConfig := rowAfter.runConfig
  finished := by
    by_cases ended : ∃ a ∈ news, a.ends = true
    · obtain ⟨before, a, after, split, first, ends⟩ := News.exists_first ended
      obtain ⟨status, finish, _⟩ := rowAfter.of_ended launched split first ends
      rw [status, finish]
      exact ends.symm
    · have running : ∀ a ∈ news, a.ends = false := by simpa using ended
      obtain ⟨_, open_, finish, _⟩ := rowAfter.of_running launched running
      rw [open_, finish]
      rfl

end RunLedger
