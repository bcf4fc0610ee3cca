import RunLedger.Proofs.Output.Emptiness
import RunLedger.Sync.Plan

/-!
# Syncing a run again

Two syncs of a run that got the same answer from the engine may have read different rows and
different clocks. Once the update of one of them is stored, that of the other changes nothing: an
ended run keeps its end, settled locations stay, and whether there are any does not depend on the
clock.
-/

namespace RunLedger

open Time (Instant)

namespace RunRecord

variable {run : RunRecord} {u : RunUpdate} {status : RunStatus}

/-- A run that has ended takes from an update only what it lacks, and its configuration. -/
theorem merge_of_ended (ended : run.status.isTerminal = true) :
    run.merge u = { run with
      startedAt := run.startedAt.or u.startedAt
      errorMessage := run.errorMessage.or u.errorMessage
      outputLocations :=
        if run.locationsSettled then run.outputLocations
        else u.outputLocations.getD run.outputLocations
      runConfig := u.runConfig.getD run.runConfig } := by
  unfold merge
  simp only [ended, if_true]

/-- A run that has not ended ends with an update whose status is final. -/
theorem merge_of_ending (running : run.status.isTerminal = false)
    (hasStatus : u.status = some status)
    (final : status.isTerminal = true) :
    run.merge u = { run with
      status := status
      startedAt := run.startedAt.or u.startedAt
      finishedAt := u.finishedAt.or run.finishedAt
      durationSeconds := u.durationSeconds.or
        (durationBetween (run.startedAt.or u.startedAt) (u.finishedAt.or run.finishedAt))
      errorMessage := u.errorMessage.or run.errorMessage
      outputLocations := u.outputLocations.getD run.outputLocations
      runConfig := u.runConfig.getD run.runConfig } := by
  unfold merge advance locationsSettled
  simp only [running, hasStatus, final, Bool.false_and, if_true, Bool.false_eq_true, if_false]

/-- A run that has not ended goes on with an update whose status is not final. -/
theorem merge_of_running (running : run.status.isTerminal = false)
    (hasStatus : u.status = some status)
    (open_ : status.isTerminal = false) :
    run.merge u = { run with
      status := status
      startedAt := run.startedAt.or u.startedAt
      errorMessage := u.errorMessage.or run.errorMessage
      outputLocations := u.outputLocations.getD run.outputLocations
      runConfig := u.runConfig.getD run.runConfig } := by
  unfold merge advance locationsSettled
  simp only [running, hasStatus, open_, Bool.false_and, Bool.false_eq_true, if_false]

/-- The locations of an ended run are open exactly if it has none. -/
theorem locationsSettled_eq_false (ended : run.status.isTerminal = true) :
    run.locationsSettled = false ↔ run.outputLocations = [] := by
  unfold locationsSettled
  rw [ended, Bool.true_and, Bool.not_eq_false', List.isEmpty_iff]

/-- An update brings locations as long as they are not settled. -/
theorem merge_outputLocations (run : RunRecord) (u : RunUpdate) :
    (run.merge u).outputLocations = if run.locationsSettled then run.outputLocations
      else u.outputLocations.getD run.outputLocations := rfl

/-- A run that has ended, or is told that it has, has ended. -/
theorem isTerminal_merge (hasStatus : u.status = some status)
    (final : run.status.isTerminal = true ∨ status.isTerminal = true) :
    (run.merge u).status.isTerminal = true := by
  cases ended : run.status.isTerminal with
  | true =>
    rw [merge_of_ended ended]
    exact ended
  | false =>
    rw [merge_of_ending ended hasStatus (final.resolve_left (Bool.eq_false_iff.mp ended))]
    exact final.resolve_left (Bool.eq_false_iff.mp ended)

theorem startedAt_merge (run : RunRecord) (u : RunUpdate) :
    (run.merge u).startedAt = run.startedAt.or u.startedAt := by
  unfold merge advance
  dsimp only
  split
  · rfl
  · split
    · rfl
    · split <;> rfl

/-- An error that was merged once is not changed by merging it again. -/
theorem errorMessage_merge_or (run : RunRecord) (u : RunUpdate) :
    (run.merge u).errorMessage.or u.errorMessage = (run.merge u).errorMessage := by
  show (if run.status.isTerminal then run.errorMessage.or u.errorMessage
    else u.errorMessage.or run.errorMessage).or u.errorMessage = if run.status.isTerminal then
      run.errorMessage.or u.errorMessage else u.errorMessage.or run.errorMessage
  split
  · rw [Option.or_assoc, Option.or_self]
  · cases known : u.errorMessage with
    | none => rw [Option.or_none]
    | some e => rfl

/-- An update that has nothing new for an ended run leaves its row as it is. -/
theorem merge_eq_self (ended : run.status.isTerminal = true)
    (start : run.startedAt.or u.startedAt = run.startedAt)
    (error : run.errorMessage.or u.errorMessage = run.errorMessage)
    (locations : run.outputLocations = [] → u.outputLocations.getD [] = [])
    (config : u.runConfig.getD run.runConfig = run.runConfig) : run.merge u = run := by
  have kept : (if run.locationsSettled then run.outputLocations
      else u.outputLocations.getD run.outputLocations) = run.outputLocations := by
    cases settled : run.locationsSettled with
    | true => rfl
    | false =>
      have empty := (locationsSettled_eq_false ended).mp settled
      rw [if_neg Bool.false_ne_true, empty]
      exact locations empty
  rw [merge_of_ended ended, start, error, kept, config]

/-- An update that has nothing new for a running run leaves its row as it is. -/
theorem merge_eq_self_of_running (running : run.status.isTerminal = false)
    (hasStatus : u.status = some run.status)
    (start : run.startedAt.or u.startedAt = run.startedAt) (error : u.errorMessage = none)
    (locations : u.outputLocations = none)
    (config : u.runConfig.getD run.runConfig = run.runConfig) : run.merge u = run := by
  rw [merge_of_running running hasStatus running, start, error, Option.none_or, locations,
    Option.getD_none, config]

end RunRecord

namespace Sync

variable {run stale : RunRecord} {detail : RunDetail} {spec : OutputSpec} {now : Instant}

/-- The locations that a sync resolves which has read a row of the run. -/
def locationsFor (spec : OutputSpec) (detail : RunDetail) (run : RunRecord) (now : Instant) :
    Option (List OutputLocation) :=
  if needsLocations run detail then some (Output.resolveOrNone (effectiveConfig run detail) spec now)
  else none

/-- The update that a sync stores which has read a row of the run. -/
def updateFor (spec : OutputSpec) (detail : RunDetail) (run : RunRecord) (now : Instant) :
    RunUpdate :=
  updateOf detail (locationsFor spec detail run now) now

/-- A run that succeeded has ended. -/
theorem isTerminal_of_succeeded {word : String} (succeeded : engineSucceeded word = true) :
    (RunStatus.ofEngine word).isTerminal = true := by
  rw [eq_of_beq succeeded]
  rfl

/-- A run that has not succeeded has no locations to resolve. -/
theorem locationsFor_of_failed (failed : engineSucceeded detail.status = false) :
    locationsFor spec detail run now = none := by
  unfold locationsFor needsLocations
  rw [failed, Bool.false_and, if_neg Bool.false_ne_true]

/-- The locations of a run that succeeded are resolved unless they are settled. -/
theorem locationsFor_of_succeeded (succeeded : engineSucceeded detail.status = true)
    (unsettled : run.locationsSettled = false) :
    locationsFor spec detail run now =
      some (Output.resolveOrNone (effectiveConfig run detail) spec now) := by
  unfold locationsFor needsLocations
  rw [succeeded, unsettled, Bool.true_and, Bool.not_false, if_pos rfl]

/-- A sync of the same detail resolves from the same configuration. -/
theorem effectiveConfig_merge (u : RunUpdate)
    (config : u.runConfig = if detail.config.isNull then none else some detail.config) :
    effectiveConfig (run.merge u) detail = effectiveConfig run detail := by
  unfold effectiveConfig
  cases known : detail.config.isNull with
  | true =>
    rw [known, if_pos rfl] at config
    show u.runConfig.getD run.runConfig = run.runConfig
    rw [config]
    rfl
  | false => rfl

/-- If the first of two syncs left an ended run without locations, the second finds none. -/
theorem locationsFor_again {now' : Instant}
    (read : stale = run ∨ stale = run.merge (updateFor spec detail run now))
    (ended : (run.merge (updateFor spec detail run now)).status.isTerminal = true)
    (empty : (run.merge (updateFor spec detail run now)).outputLocations = []) :
    (locationsFor spec detail stale now').getD [] = [] := by
  cases succeeded : engineSucceeded detail.status with
  | false => rw [locationsFor_of_failed succeeded, Option.getD_none]
  | true =>
    have unsettled : run.locationsSettled = false := by
      cases settled : run.locationsSettled with
      | false => rfl
      | true =>
        rw [RunRecord.merge_outputLocations, if_pos settled] at empty
        unfold RunRecord.locationsSettled at settled
        rw [empty, List.isEmpty_nil, Bool.not_true, Bool.and_false] at settled
        exact settled.symm
    have none_now : Output.resolveOrNone (effectiveConfig run detail) spec now = [] := by
      rw [RunRecord.merge_outputLocations, unsettled, if_neg Bool.false_ne_true] at empty
      rwa [show (updateFor spec detail run now).outputLocations = _ from
        locationsFor_of_succeeded succeeded unsettled] at empty
    have stale_unsettled : stale.locationsSettled = false := by
      rcases read with rfl | rfl
      · exact unsettled
      · exact (RunRecord.locationsSettled_eq_false ended).mpr empty
    have same : effectiveConfig stale detail = effectiveConfig run detail := by
      rcases read with rfl | rfl
      · rfl
      · exact effectiveConfig_merge _ rfl
    rw [locationsFor_of_succeeded succeeded stale_unsettled, same, Option.getD_some]
    exact Output.resolveOrNone_eq_nil_iff.mp none_now

/-- Once a sync has stored its update, a second sync with the same answer changes nothing, whether
it has read the row before or after and whatever its clock says. -/
theorem merge_updateFor_again (now' : Instant)
    (read : stale = run ∨ stale = run.merge (updateFor spec detail run now)) :
    (run.merge (updateFor spec detail run now)).merge (updateFor spec detail stale now') =
      run.merge (updateFor spec detail run now) := by
  have start : (run.merge (updateFor spec detail run now)).startedAt.or detail.startTime =
      (run.merge (updateFor spec detail run now)).startedAt := by
    rw [RunRecord.startedAt_merge]
    show (run.startedAt.or detail.startTime).or detail.startTime = run.startedAt.or detail.startTime
    rw [Option.or_assoc, Option.or_self]
  have config : ∀ stored : Json, (if detail.config.isNull then none else some detail.config).getD
      ((if detail.config.isNull then none else some detail.config).getD stored) =
        (if detail.config.isNull then none else some detail.config).getD stored := by
    intro stored
    split <;> rfl
  have error := RunRecord.errorMessage_merge_or run (updateFor spec detail run now)
  by_cases final : run.status.isTerminal = true ∨
      (RunStatus.ofEngine detail.status).isTerminal = true
  · have ended : (run.merge (updateFor spec detail run now)).status.isTerminal = true :=
      RunRecord.isTerminal_merge rfl final
    exact RunRecord.merge_eq_self ended start error (locationsFor_again read ended) (config _)
  · obtain ⟨running, open_⟩ := not_or.mp final
    rw [Bool.not_eq_true] at running open_
    have status : (run.merge (updateFor spec detail run now)).status =
        RunStatus.ofEngine detail.status := by
      rw [RunRecord.merge_of_running running rfl open_]
    have failed : engineSucceeded detail.status = false :=
      Bool.eq_false_iff.mpr fun succeeded => by
        rw [isTerminal_of_succeeded succeeded] at open_
        exact nomatch open_
    have unfailed : RunStatus.ofEngine detail.status ≠ .failed := fun isFailed => by
      rw [isFailed] at open_
      exact nomatch open_
    exact RunRecord.merge_eq_self_of_running (status ▸ open_) (congrArg some status.symm) start
      (if_neg unfailed) (locationsFor_of_failed failed) (config _)

end Sync

end RunLedger
