import RunLedger.Proofs.Reconciling.Workload

/-!
# An engine that contradicts itself

An error belongs to a failed run, and output locations belong to a completed one. A sync tells them
by what the engine answers now, whereas the row keeps the status of the first end that was told. So
they agree as long as the engine stands by how a run has ended. If it may answer with two different
ends, an ended run can get an error or locations that its status has no place for.
-/

namespace RunLedger

open Sync

/-- The error and the locations of a run agree with its status. -/
structure RunRecord.Agrees (row : RunRecord) : Prop where
  error : row.errorMessage ≠ none → row.status = .failed
  locations : row.outputLocations ≠ [] → row.status = .completed

/-- An update neither takes an error away nor brings one that it does not have. -/
theorem RunRecord.errorMessage_merge_eq_none_iff (row : RunRecord) (u : RunUpdate) :
    (row.merge u).errorMessage = none ↔ row.errorMessage = none ∧ u.errorMessage = none := by
  change (if row.status.isTerminal then row.errorMessage.or u.errorMessage
    else u.errorMessage.or row.errorMessage) = none ↔ _
  split
  · exact Option.or_eq_none_iff
  · rw [Option.or_eq_none_iff, and_comm]

variable {run : NewRun} {news : List News} {a : News} {row stale : RunRecord} {spec : OutputSpec}

/-! ## An engine that stands by its answers -/

/-- Only the news of a failure bring an error. -/
theorem News.status_of_error (told : (a.update spec stale).errorMessage ≠ none) :
    a.status = .failed := by
  by_contra other
  exact told (if_neg other)

/-- Only the news of a success bring locations. -/
theorem News.status_of_locations (told : (a.update spec stale).outputLocations ≠ none) :
    a.status = .completed := by
  cases succeeded : engineSucceeded a.detail.status with
  | false => exact absurd (locationsFor_of_failed succeeded) told
  | true =>
    rw [News.status, eq_of_beq succeeded]
    rfl

/-- A row has an error only if there were news of a failure. -/
theorem RowAfter.exists_failed (rowAfter : RowAfter run news row)
    (error : row.errorMessage ≠ none) : ∃ a ∈ news, a.status = .failed := by
  induction rowAfter with
  | recorded id => exact absurd rfl error
  | @synced news row spec stale a _ ih =>
    rw [Ne, RunRecord.errorMessage_merge_eq_none_iff, not_and_or] at error
    rcases error with known | told
    · obtain ⟨b, earlier, failed⟩ := ih known
      exact ⟨b, List.mem_append_left _ earlier, failed⟩
    · exact ⟨a, List.mem_append_right _ (List.mem_singleton_self a), News.status_of_error told⟩

/-- A row has locations only if there were news of a success. -/
theorem RowAfter.exists_completed (rowAfter : RowAfter run news row)
    (locations : row.outputLocations ≠ []) : ∃ a ∈ news, a.status = .completed := by
  induction rowAfter with
  | recorded id => exact absurd rfl locations
  | @synced news row spec stale a _ ih =>
    by_cases told : (a.update spec stale).outputLocations = none
    · rw [RunRecord.merge_outputLocations, told, Option.getD_none, ite_self] at locations
      obtain ⟨b, earlier, completed⟩ := ih locations
      exact ⟨b, List.mem_append_left _ earlier, completed⟩
    · exact ⟨a, List.mem_append_right _ (List.mem_singleton_self a), News.status_of_locations told⟩

/-- If all news of an end agree, the row agrees with itself. -/
theorem RowAfter.agrees (rowAfter : RowAfter run news row)
    (launched : run.status.isTerminal = false)
    (agree : ∀ a ∈ news, ∀ b ∈ news, a.ends = true → b.ends = true → a.status = b.status) :
    row.Agrees := by
  have isStatus (a : News) (member : a ∈ news) (ends : a.ends = true) : row.status = a.status := by
    obtain ⟨before, b, after, split, first, ends'⟩ := News.exists_first ⟨a, member, ends⟩
    obtain ⟨status, _⟩ := rowAfter.of_ended launched split first ends'
    have listed : b ∈ news := split ▸ List.mem_append_right _ (List.mem_cons_self ..)
    exact status.trans (agree b listed a member ends' ends)
  constructor
  · intro error
    obtain ⟨a, member, failed⟩ := rowAfter.exists_failed error
    rw [← failed]
    exact isStatus a member (congrArg RunStatus.isTerminal failed)
  · intro locations
    obtain ⟨a, member, completed⟩ := rowAfter.exists_completed locations
    rw [← completed]
    exact isStatus a member (congrArg RunStatus.isTerminal completed)

/-! ## An engine that contradicts itself -/

/-- An engine has three words for the end of a run. -/
theorem RunStatus.word_of_isTerminal {word : String} (ends : (ofEngine word).isTerminal = true) :
    word = "SUCCESS" ∨ word = "FAILURE" ∨ word = "CANCELED" := by
  unfold ofEngine at ends
  split at ends
  · exact .inl ‹_›
  · split at ends
    · exact .inr (.inl ‹_›)
    · split at ends
      · exact .inr (.inr ‹_›)
      · split at ends
        · cases ends
        · split at ends
          · cases ends
          · split at ends <;> cases ends

/-- News of a run of which a step has failed, with the engine's word for its status. -/
def newsWith (word : String) : News :=
  ⟨⟨"x", word, none, none, none, .obj [],
    [.obj [("__typename", .str "ExecutionStepFailureEvent"), ("stepKey", .str "load")]]⟩, .utc 10⟩

/-- The row of a run of which two different ends were told, and which declares a pattern. -/
def disputedRow (run : NewRun) (first second : String) : RunRecord :=
  rowOf (.pattern "out") (run.record 1) [newsWith first, newsWith second]

/-- The first end that is told decides the status. -/
theorem status_disputedRow {first : String} (launched : run.status.isTerminal = false)
    (final : (RunStatus.ofEngine first).isTerminal = true) (second : String) :
    (disputedRow run first second).status = .ofEngine first := by
  have split : [newsWith first, newsWith second] = [] ++ newsWith first :: [newsWith second] := rfl
  have ends : (newsWith first).ends = true := final
  exact ((rowAfter_rowOf run 1 (.pattern "out") _).of_ended launched split nofun ends).1

/-- A failure that is told later brings its error all the same. -/
theorem error_disputedRow (run : NewRun) (first : String) :
    (disputedRow run first "FAILURE").errorMessage ≠ none := by
  intro clear
  have silent := ((RunRecord.errorMessage_merge_eq_none_iff _ _).mp clear).2
  cases silent

/-- A success that is told later brings its locations all the same. -/
theorem locations_disputedRow {first : String} (run : NewRun) (different : first ≠ "SUCCESS") :
    (disputedRow run first "SUCCESS").outputLocations ≠ [] := by
  have failed : engineSucceeded (newsWith first).detail.status = false :=
    beq_eq_false_iff_ne.mpr different
  -- The first end has told no locations, so they are not settled when the second comes.
  generalize isUpdate : (newsWith first).update (.pattern "out") (run.record 1) = u
  have untold : u.outputLocations = none := by
    rw [← isUpdate]
    exact locationsFor_of_failed failed
  have empty : ((run.record 1).merge u).outputLocations = [] := by
    rw [RunRecord.merge_outputLocations, untold, Option.getD_none, ite_self]
    rfl
  have unsettled : ((run.record 1).merge u).locationsSettled = false := by
    rw [RunRecord.locationsSettled, empty, List.isEmpty_nil, Bool.not_true, Bool.and_false]
  have told :
      ((newsWith "SUCCESS").update (.pattern "out") ((run.record 1).merge u)).outputLocations =
        some (Output.resolveOrNone _ _ _) := locationsFor_of_succeeded rfl unsettled
  rw [disputedRow, rowOf, List.foldl_cons, isUpdate, List.foldl_cons, List.foldl_nil,
    RunRecord.merge_outputLocations, unsettled, told]
  exact List.cons_ne_nil _ _

/-- So a row of which two ends were told does not agree with itself. -/
theorem not_agrees_disputedRow {first second : String} (launched : run.status.isTerminal = false)
    (final : (RunStatus.ofEngine first).isTerminal = true) (different : first ≠ second)
    (tells : second = "FAILURE" ∨ second = "SUCCESS") :
    ¬ (disputedRow run first second).Agrees := by
  intro agrees
  have status := status_disputedRow launched final second
  have words := RunStatus.word_of_isTerminal final
  rcases tells with rfl | rfl
  · have failed := status.symm.trans (agrees.error (error_disputedRow run first))
    rcases words with rfl | rfl | rfl
    · cases failed
    · exact different rfl
    · cases failed
  · have completed := status.symm.trans (agrees.locations (locations_disputedRow run different))
    rcases words with rfl | rfl | rfl
    · exact different rfl
    · cases completed
    · cases completed

namespace Interleaving.Workload

/-- The rows of runs agree with themselves whatever syncs do, if and only if the engine has no two
words for the end of a run. -/
theorem agrees_iff (words : String → Prop) :
    (∀ (w : Workload) (run : NewRun) (row : RunRecord), Reached w →
      .recorded run ∈ w.chronicle.deeds → run.status.isTerminal = false →
      w.chronicle.store.findRun run.externalRunId = some row →
      (∀ a ∈ w.chronicle.newsOf run.externalRunId, words a.detail.status) → row.Agrees) ↔
    ∀ first second, words first → words second → (RunStatus.ofEngine first).isTerminal = true →
      (RunStatus.ofEngine second).isTerminal = true → first = second := by
  constructor
  · intro always first second firstWord secondWord final final'
    by_contra different
    have tells (first second : String) (firstWord : words first) (secondWord : words second)
        (final : (RunStatus.ofEngine first).isTerminal = true) (different : first ≠ second) :
        ¬ (second = "FAILURE" ∨ second = "SUCCESS") := by
      intro tells
      obtain ⟨w, reached, recorded, isNews, found⟩ := exists_reached queuedRun (.pattern "out")
        [newsWith first, newsWith second]
      refine not_agrees_disputedRow rfl final different tells
        (always w queuedRun _ reached recorded rfl found ?_)
      rw [isNews]
      simp [newsWith, firstWord, secondWord]
    -- Not both of two different words are the one for a cancelled run.
    rcases RunStatus.word_of_isTerminal final' with rfl | rfl | rfl
    · exact tells first _ firstWord secondWord final different (.inr rfl)
    · exact tells first _ firstWord secondWord final different (.inl rfl)
    · have untold := tells _ first secondWord firstWord final' (Ne.symm different)
      rcases RunStatus.word_of_isTerminal final with rfl | rfl | rfl
      · exact untold (.inr rfl)
      · exact untold (.inl rfl)
      · exact different rfl
  · intro same w run row reached recorded launched found inWords
    obtain ⟨row', found', rowAfter⟩ := reached.rowAfter recorded
    cases found.symm.trans found'
    refine rowAfter.agrees launched fun a member b member' ends ends' => ?_
    exact congrArg RunStatus.ofEngine
      (same _ _ (inWords a member) (inWords b member') ends ends')

end Interleaving.Workload

end RunLedger
