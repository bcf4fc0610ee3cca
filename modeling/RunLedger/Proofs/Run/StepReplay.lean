import RunLedger.Proofs.Run.StepLifetime

/-!
# Merging a batch again

The transitions of a step arrive in batches, and a batch may arrive twice. Start, end and error of a
row are those of the first time, since the fields of a step are replayed without effect. The
duration is another matter, because a late start measures it anew. It stays for every row but one
kind, a running step that has a duration and no start, which no transition makes
(`StepRecord.replay_iff`).
-/

namespace RunLedger

/-- A fold stays at a state that no item changes. -/
theorem foldl_eq_self {α β : Type} {f : β → α → β} {b : β} {l : List α}
    (still : ∀ a ∈ l, f b a = b) : l.foldl f b = b :=
  List.foldlRecOn l f (motive := (· = b)) rfl fun _ same a member => same ▸ still a member

namespace StepRecord

variable {row : StepRecord} {t : StepTransition} {l replayed : List StepTransition}
  {runId : RunId} {externalRunId : String}

/-! ## Batches -/

/-- The row of a step after a batch. -/
def mergeAll (runId : RunId) (externalRunId : String) (row : Option StepRecord)
    (l : List StepTransition) : Option StepRecord :=
  l.foldl (fun row t => some (merge row runId externalRunId t)) row

theorem mergeAll_some (row : StepRecord) (l : List StepTransition) :
    mergeAll runId externalRunId (some row) l = some (l.foldl next row) := by
  induction l generalizing row with
  | nil => rfl
  | cons t rest ih => exact ih (row.next t)

/-- The row that a batch is merged into: a new step starts from a blank one. -/
def beforeBatch (runId : RunId) (externalRunId : String) (row : Option StepRecord)
    (l : List StepTransition) : Option StepRecord :=
  row.or (l.head?.map (blank runId externalRunId))

/-- A batch is merged into the row from before, or into a blank row for its first transition. -/
theorem mergeAll_eq_map (row : Option StepRecord) (l : List StepTransition) :
    mergeAll runId externalRunId row l =
      (beforeBatch runId externalRunId row l).map (l.foldl next) := by
  cases row with
  | some row => exact mergeAll_some row l
  | none =>
    cases l with
    | nil => rfl
    | cons t rest =>
      change mergeAll runId externalRunId (some (merge none runId externalRunId t)) rest = _
      rw [mergeAll_some, merge_none]
      rfl

/-- A batch without a row to be merged into is empty. -/
theorem eq_nil_of_beforeBatch {before : Option StepRecord}
    (none : beforeBatch runId externalRunId before l = none) : l = [] := by
  cases l with
  | nil => rfl
  | cons t rest => cases before <;> cases none

/-! ## The state after a batch -/

/-- A transition moves the state up if it can. -/
theorem status_next (row : StepRecord) (t : StepTransition) :
    (row.next t).status = max row.status t.status := by
  cases order : row.status.mayBecome t.status with
  | true =>
    rw [next_of_allowed order, accept_status, max_eq_right (StepState.mayBecome_iff_le.mp order)]
  | false =>
    have below := StepState.mayBecome_eq_false_iff.mp order
    rw [next_of_refused order, refuse_status, max_eq_left below.le]

/-- The state after transitions is the highest that there was. -/
theorem status_foldl_next (row : StepRecord) (l : List StepTransition) :
    (l.foldl next row).status = (l.map (·.status)).foldl max row.status := by
  induction l generalizing row with
  | nil => rfl
  | cons t rest ih => simp [ih, status_next]

/-- No transition is above the state in the end. -/
theorem le_status_foldl_next (member : t ∈ l) : t.status ≤ (l.foldl next row).status := by
  have bound := (endField.mayBecome_foldl row.endCell l).2 t member
  rw [state_endField] at bound
  exact StepState.mayBecome_iff_le.mp bound

/-- A step ends in the highest of its state and the states of the transitions. -/
theorem status_mergeAll (row : Option StepRecord) (l : List StepTransition) :
    (mergeAll runId externalRunId row l).map (·.status) =
      (row.toList.map (·.status) ++ l.map (·.status)).max? := by
  rw [mergeAll_eq_map]
  cases row with
  | some row =>
    change some (l.foldl next row).status = (row.status :: l.map (·.status)).max?
    rw [List.max?_cons', status_foldl_next]
  | none =>
    cases l with
    | nil => rfl
    | cons t rest =>
      change some (rest.foldl next ((blank runId externalRunId t).next t)).status =
        (t.status :: rest.map (·.status)).max?
      rw [List.max?_cons', status_foldl_next, status_next]
      exact congrArg (fun first => some ((rest.map (·.status)).foldl max first)) (max_self t.status)

/-! ## Durations that are out of step -/

theorem timed_foldl_next (timed : row.Timed) (l : List StepTransition) : (l.foldl next row).Timed :=
  (foldl_next row l).1 timed

/-- Times that cannot be measured in the end could not be measured before. -/
theorem Precedes.durationBetween_eq_none {row' : StepRecord} (kept : row.Precedes row')
    (apart : durationBetween row'.startedAt row'.finishedAt = none) :
    durationBetween row.startedAt row.finishedAt = none := by
  rw [durationBetween_eq_none_iff] at apart ⊢
  exact apart.imp (not_imp_not.mp kept.startedAt) (not_imp_not.mp kept.finishedAt)

/-- A transition after which the duration is out of step has measured nothing: it was allowed while
the start or the end was missing, or it came too late and had no gap to fill. -/
theorem of_untimed_next (untimed : ¬ (row.next t).Timed) :
    (row.status ≤ t.status ∧
        durationBetween (row.next t).startedAt (row.next t).finishedAt = none) ∨
      (row.next t = row ∧ (t.status = .started → row.startedAt ≠ none)) := by
  cases order : row.status.mayBecome t.status with
  | true =>
    refine .inl ⟨StepState.mayBecome_iff_le.mp order, ?_⟩
    rw [next_of_allowed order] at untimed ⊢
    by_contra known
    apply untimed
    exact Option.or_of_isSome (Option.isSome_iff_ne_none.mpr known)
  | false =>
    rw [next_of_refused order] at untimed ⊢
    by_cases fills : t.status = .started ∧ row.startedAt = none
    · refine absurd ?_ untimed
      simp [refuse, fills, Timed]
    · refine .inr ⟨?_, fun started missing => fills ⟨started, missing⟩⟩
      simpa [refuse] using fun started missing => absurd ⟨started, missing⟩ fills

/-- A transition leaves the duration alone if the start or the end is still missing afterwards and
it is no late start. -/
theorem durationSeconds_next
    (apart : durationBetween (row.next t).startedAt (row.next t).finishedAt = none)
    (unfilled : row.startedAt ≠ none ∨ t.status ≠ .started) :
    (row.next t).durationSeconds = row.durationSeconds := by
  cases order : row.status.mayBecome t.status with
  | true =>
    rw [next_of_allowed order] at apart ⊢
    change (durationBetween (row.accept t).startedAt (row.accept t).finishedAt).or _ = _
    rw [apart, Option.none_or]
  | false =>
    have gap : ¬ (t.status = .started ∧ row.startedAt = none) := by
      rintro ⟨started, missing⟩
      exact unfilled.elim (· missing) (· started)
    simp [next_of_refused order, refuse, gap]

/-- As long as nothing can be measured and no gap is filled, an old duration stays. -/
theorem durationSeconds_foldl_next
    (apart : durationBetween (l.foldl next row).startedAt (l.foldl next row).finishedAt = none)
    (unfilled : row.startedAt ≠ none ∨ ∀ t ∈ l, t.status ≠ .started) :
    (l.foldl next row).durationSeconds = row.durationSeconds := by
  induction l generalizing row with
  | nil => rfl
  | cons t rest ih =>
    have first : (row.next t).durationSeconds = row.durationSeconds := by
      apply durationSeconds_next
      · exact ((row.next t).precedes_foldl_next rest).durationBetween_eq_none apart
      · exact unfilled.imp_right fun none => none t (List.mem_cons_self ..)
    rw [List.foldl_cons, ← first]
    apply ih apart
    exact unfilled.imp (row.precedes_next t).startedAt
      fun none u member => none u (List.mem_cons_of_mem _ member)

/-- If start and end are known and the duration is still out of step, no transition had any effect. -/
theorem next_eq_self_of_untimed (untimed : ¬ (l.foldl next row).Timed)
    (known : durationBetween (l.foldl next row).startedAt (l.foldl next row).finishedAt ≠ none) :
    ∀ t ∈ l, row.next t = row := by
  induction l generalizing row with
  | nil => exact fun t member => absurd member List.not_mem_nil
  | cons t rest ih =>
    have others := ih untimed known
    have last : rest.foldl next (row.next t) = row.next t := foldl_eq_self others
    rw [List.foldl_cons, last] at untimed known
    have first : row.next t = row := by
      rcases of_untimed_next untimed with ⟨_, apart⟩ | ⟨same, _⟩
      · exact absurd apart known
      · exact same
    intro u member
    rcases List.mem_cons.mp member with rfl | member
    · exact first
    · exact first ▸ others u member

/-- If no transition told the start and the duration is still out of step, a start among them was
merged into a running step. -/
theorem status_of_untimed (untimed : ¬ (l.foldl next row).Timed)
    (missing : (l.foldl next row).startedAt = none) (member : t ∈ l) (started : t.status = .started) :
    row.status = .started := by
  induction l generalizing row with
  | nil => exact absurd member List.not_mem_nil
  | cons u rest ih =>
    rcases List.mem_cons.mp member with rfl | member
    · have before : ¬ (row.next t).Timed := fun timed => untimed (timed_foldl_next timed rest)
      rcases of_untimed_next before with ⟨le, _⟩ | ⟨_, filled⟩
      · exact StepState.eq_started_of_le (started ▸ le)
      · exact absurd missing ((row.precedes_foldl_next (t :: rest)).startedAt (filled started))
    · have running : (row.next u).status = .started := ih untimed missing member
      exact StepState.eq_started_of_le (running ▸ (row.precedes_next u).status)

/-! ## Merging again -/

/-- A running step with a duration and without a start. -/
def Unfounded (row : StepRecord) : Prop :=
  row.status = .started ∧ row.startedAt = none ∧ row.durationSeconds ≠ none

/-- A duration in step has its two times. -/
theorem Timed.not_unfounded (timed : row.Timed) : ¬ row.Unfounded := by
  rintro ⟨_, missing, measured⟩
  apply measured
  rw [show row.durationSeconds = _ from timed, missing]
  rfl

/-- Transitions that were merged before and that leave start, end and error alone leave the whole row
alone. -/
theorem foldl_next_eq_self (founded : ¬ row.Unfounded) (again : ∀ t ∈ replayed, t ∈ l)
    (start : replayed.foldl startField.step (l.foldl next row).startCell =
      (l.foldl next row).startCell)
    (finish : replayed.foldl endField.step (l.foldl next row).endCell = (l.foldl next row).endCell)
    (error : replayed.foldl errorField.step (l.foldl next row).errorCell =
      (l.foldl next row).errorCell) :
    replayed.foldl next (l.foldl next row) = l.foldl next row := by
  obtain ⟨_, names, start', finish', error'⟩ := foldl_next (l.foldl next row) replayed
  rw [start] at start'
  rw [finish] at finish'
  rw [error] at error'
  by_cases timed : (l.foldl next row).Timed
  · exact ext_of_cells (timed_foldl_next timed replayed) timed names start' finish' error'
  · by_cases apart :
        durationBetween (l.foldl next row).startedAt (l.foldl next row).finishedAt = none
    · refine eq_of_cells names start' finish' error' (durationSeconds_foldl_next ?_ ?_)
      · rwa [show (replayed.foldl next (l.foldl next row)).startedAt = _ from
          congrArg Cell.value start', show (replayed.foldl next (l.foldl next row)).finishedAt = _
          from congrArg Cell.value finish']
      · by_cases missing : (l.foldl next row).startedAt = none
        · right
          intro t member started
          have kept := row.precedes_foldl_next l
          have unknown : row.startedAt = none := by
            by_contra known
            exact kept.startedAt known missing
          refine founded ⟨status_of_untimed timed missing (again t member) started, unknown, ?_⟩
          intro unmeasured
          refine timed (timed_foldl_next ?_ l)
          rw [Timed, unmeasured, unknown]
          rfl
        · exact .inl missing
    · -- Nothing had any effect the first time, so nothing has now.
      have still := next_eq_self_of_untimed timed apart
      rw [foldl_eq_self still]
      exact foldl_eq_self fun t member => still t (again t member)

/-- A batch begins with a founded row if the row from before was founded. -/
theorem founded_beforeBatch {before : Option StepRecord}
    (founded : ∀ r, before = some r → ¬ r.Unfounded)
    (first : beforeBatch runId externalRunId before l = some row) : ¬ row.Unfounded := by
  cases before with
  | some r => exact founded row first
  | none =>
    obtain ⟨t, _, rfl⟩ := Option.map_eq_some_iff.mp first
    exact (timed_blank runId externalRunId t).not_unfounded

/-- Merging a batch again changes nothing. -/
theorem mergeAll_mergeAll {row : Option StepRecord} (founded : ∀ r, row = some r → ¬ r.Unfounded)
    (l : List StepTransition) :
    mergeAll runId externalRunId (mergeAll runId externalRunId row l) l =
      mergeAll runId externalRunId row l := by
  rw [mergeAll_eq_map row]
  cases before : beforeBatch runId externalRunId row l with
  | none =>
    rw [eq_nil_of_beforeBatch before]
    rfl
  | some first =>
    rw [Option.map_some, mergeAll_some]
    obtain ⟨_, _, start, finish, error⟩ := foldl_next first l
    congr 1
    apply foldl_next_eq_self (founded_beforeBatch founded before) fun t member => member
    · rw [start, Field.foldl_foldl]
    · rw [finish, Field.foldl_foldl]
    · rw [error, Field.foldl_foldl]

/-- A start and a success, both without a time. -/
def timelessBatch (stepCode : String) : List StepTransition :=
  [⟨stepCode, .started, none, none, none⟩, ⟨stepCode, .success, none, none, none⟩]

/-- The start is allowed the first time. When it comes again it is late and measures a duration
between times that are not known. -/
theorem mergeAll_timelessBatch_ne (unfounded : row.Unfounded) (stepCode : String) :
    mergeAll runId externalRunId
        (mergeAll runId externalRunId (some row) (timelessBatch stepCode))
        (timelessBatch stepCode) ≠
      mergeAll runId externalRunId (some row) (timelessBatch stepCode) := by
  obtain ⟨running, missing, measured⟩ := unfounded
  rw [mergeAll_some, mergeAll_some]
  intro same
  have durations := congrArg StepRecord.durationSeconds (Option.some.inj same)
  simp [timelessBatch, next, merge, accept, refuse, StepState.mayBecome, StepState.isTerminal,
    durationBetween, running, missing] at durations
  exact measured durations.symm

/-- Merging a batch again changes nothing, whatever the batch, exactly if the row was not a running
step with a duration and without a start. The step ends in the highest of all states. -/
theorem replay_iff (runId : RunId) (externalRunId : String) (row : Option StepRecord) :
    ((∀ l, mergeAll runId externalRunId (mergeAll runId externalRunId row l) l =
        mergeAll runId externalRunId row l) ↔ ∀ r, row = some r → ¬ r.Unfounded) ∧
      ∀ l, (mergeAll runId externalRunId row l).map (·.status) =
        (row.toList.map (·.status) ++ l.map (·.status)).max? := by
  refine ⟨⟨?_, mergeAll_mergeAll⟩, status_mergeAll row⟩
  rintro stable r rfl unfounded
  exact mergeAll_timelessBatch_ne unfounded "" (stable _)

/-- A running step with a duration of five seconds and without a start. -/
def unfoundedRow : StepRecord where
  runId := 1
  externalRunId := "r1"
  stepCode := "load"
  status := .started
  startedAt := none
  finishedAt := none
  durationSeconds := some 5.0
  errorMessage := none

/-- The duration of such a row is lost when a batch comes again. -/
theorem replay_unfoundedRow :
    mergeAll 1 "r1" (mergeAll 1 "r1" (some unfoundedRow) (timelessBatch "load"))
        (timelessBatch "load") ≠
      mergeAll 1 "r1" (some unfoundedRow) (timelessBatch "load") :=
  mergeAll_timelessBatch_ne ⟨rfl, rfl, Option.some_ne_none _⟩ "load"

end StepRecord

end RunLedger
