import RunLedger.Proofs.Reconciling.Alone
import RunLedger.Proofs.Reconciling.Storing
import RunLedger.Proofs.Store.Lasting
import RunLedger.Proofs.Sync.History

/-!
# The chronicle of a store

Syncs of any runs are under way at once, and each may be told anything by the engine and by its
clock. Between two calls of a sync the others take their turns, runs are recorded, outputs declared,
the cursor moved and commits made to fail. A chronicle tells which runs were recorded and which news
were committed. Nothing else matters to the row of a run: whatever the syncs had read when they
made their plans, the row is one that the news of the run lead to.
-/

namespace RunLedger.Interleaving

open RunLedger.Sync RunLedger.Time

/-- What a chronicle tells: that a run was recorded, or that a sync has committed its news. -/
inductive Deed where
  | recorded (run : NewRun)
  | synced (externalRunId : String) (news : News)

/-- A store and its past. -/
structure Chronicle where
  store : Store := {}
  deeds : List Deed := []

namespace Chronicle

/-- The news of a run in the order in which they were committed. -/
def newsOf (c : Chronicle) (externalRunId : String) : List News :=
  c.deeds.filterMap fun
    | .synced name news => if name = externalRunId then some news else none
    | .recorded _ => none

/-- What may happen to a store besides the syncs. -/
inductive Step : Chronicle → Chronicle → Prop where
  | record {c : Chronicle} {run : NewRun} {row : RunRecord} {after : Store}
      (inserted : c.store.insertRun run = .ok (row, after)) :
      Step c ⟨after, c.deeds ++ [.recorded run]⟩
  | declare {c : Chronicle} (workflowId : Int) (spec : OutputSpec) :
      Step c { c with store := c.store.declareOutput workflowId spec }
  | failCommits {c : Chronicle} (count : Nat) :
      Step c { c with store := { c.store with failingCommits := count } }
  | moveCursor {c : Chronicle} (cursor : Option Instant) :
      Step c { c with store := { c.store with cursor := cursor } }

/-- The row of every recorded run is one that the news of the run lead to. -/
structure Sound (c : Chronicle) : Prop where
  coherent : c.store.Coherent
  recorded : ∀ run, .recorded run ∈ c.deeds → ∃ row,
    c.store.findRun run.externalRunId = some row ∧ RowAfter run (c.newsOf run.externalRunId) row
  unrecorded : ∀ name, c.store.findRun name = none → c.newsOf name = []

/-- What may become of a chronicle: no run is lost, and it stays sound. -/
def Follows (c c' : Chronicle) : Prop :=
  c.store.KeepsRuns c'.store ∧ (c.Sound → c'.Sound)

variable {c c' c'' : Chronicle} {name : String} {run : NewRun} {row stale : RunRecord} {a : News}
  {p : Plan} {spec : OutputSpec}

theorem Follows.refl (c : Chronicle) : Follows c c := ⟨.refl _, id⟩

theorem Follows.trans (first : Follows c c') (second : Follows c' c'') : Follows c c'' :=
  ⟨first.1.trans second.1, fun sound => second.2 (first.2 sound)⟩

/-- A launch is no news of a run. -/
theorem newsOf_recorded (store : Store) (deeds : List Deed) (run : NewRun) (name : String) :
    (Chronicle.mk store (deeds ++ [.recorded run])).newsOf name =
      (Chronicle.mk store deeds).newsOf name := by
  simp [newsOf]

/-- A sync adds its news to those of its run. -/
theorem newsOf_synced (store : Store) (deeds : List Deed) (name : String) (a : News) :
    (Chronicle.mk store (deeds ++ [.synced name a])).newsOf name =
      (Chronicle.mk store deeds).newsOf name ++ [a] := by
  simp [newsOf]

theorem newsOf_synced_of_ne {other : String} (different : other ≠ name) (store : Store)
    (deeds : List Deed) (a : News) :
    (Chronicle.mk store (deeds ++ [.synced name a])).newsOf other =
      (Chronicle.mk store deeds).newsOf other := by
  simp [newsOf, different.symm]

/-- The bookkeeping of a store does not matter to what a chronicle says. -/
theorem follows_of_runs {store : Store} (runs : store.runs = c.store.runs)
    (coherent : c.store.Coherent → store.Coherent) : Follows c { c with store := store } where
  left := Store.keepsRuns_of_runs runs
  right sound := by
    have found (name : String) : store.findRun name = c.store.findRun name := by
      rw [Store.findRun, runs]
      rfl
    refine ⟨coherent sound.coherent, fun run told => ?_, fun name free => ?_⟩
    · rw [found]
      exact sound.recorded run told
    · exact sound.unrecorded name (found name ▸ free)

/-- A launch is in the store as it is in the chronicle. -/
theorem Sound.record {after : Store} (sound : c.Sound)
    (inserted : c.store.insertRun run = .ok (row, after)) :
    Sound ⟨after, c.deeds ++ [.recorded run]⟩ where
  coherent := sound.coherent.insertRun inserted
  recorded := by
    intro run' told
    rw [newsOf_recorded, Store.findRun_insertRun inserted]
    rcases List.mem_append.mp told with old | new
    · obtain ⟨row', found, rowAfter⟩ := sound.recorded run' old
      rw [found, Option.some_or]
      exact ⟨row', rfl, rowAfter⟩
    · cases List.mem_singleton.mp new
      obtain ⟨free, rfl, _⟩ := Store.insertRun_eq_ok inserted
      have nothing : (Chronicle.mk after c.deeds).newsOf run.externalRunId = [] :=
        sound.unrecorded _ free
      rw [free, Option.none_or, if_pos rfl, nothing]
      exact ⟨_, rfl, .recorded _⟩
  unrecorded := by
    intro name free
    rw [Store.findRun_insertRun inserted, Option.or_eq_none_iff] at free
    rw [newsOf_recorded]
    exact sound.unrecorded name free.1

/-- A sync that commits its news keeps a chronicle sound, whatever row it had read. -/
theorem Sound.sync (sound : c.Sound) (owns : c.store.Owns p row)
    (update : p.update = a.update spec stale) :
    Sound ⟨c.store.carryOut p.writes, c.deeds ++ [.synced p.externalRunId a]⟩ where
  coherent := { sound.coherent.foldl_apply p.writes with }
  recorded := by
    intro run told
    rcases List.mem_append.mp told with old | impossible
    · obtain ⟨row', found, rowAfter⟩ := sound.recorded run old
      -- The update reaches the row of its own run and no other.
      by_cases same : run.externalRunId = p.externalRunId
      · rw [same] at found rowAfter ⊢
        cases owns.found.symm.trans found
        rw [Store.findRun_carryOut_self owns, update, newsOf_synced]
        exact ⟨_, rfl, rowAfter.synced spec stale a⟩
      · rw [Store.findRun_carryOut_of_ne sound.coherent owns same, newsOf_synced_of_ne same]
        exact ⟨row', found, rowAfter⟩
    · cases List.mem_singleton.mp impossible
  unrecorded := by
    intro name free
    by_cases same : name = p.externalRunId
    · rw [same, Store.findRun_carryOut_self owns] at free
      cases free
    · rw [Store.findRun_carryOut_of_ne sound.coherent owns same] at free
      rw [newsOf_synced_of_ne same]
      exact sound.unrecorded name free

/-- A step of others loses no run and keeps the chronicle sound. -/
theorem Step.follows (step : Step c c') : Follows c c' := by
  cases step with
  | record inserted =>
    exact ⟨Store.keepsRuns_insertRun inserted, fun sound => sound.record inserted⟩
  | declare | failCommits | moveCursor =>
    exact follows_of_runs rfl fun coherent => { coherent with }

end Chronicle

/-! ## A sync among others -/

/-- A sync of a run, with all that it will be told: the answer of the engine and the time. -/
structure Errand where
  externalRunId : String
  answer : Except EngineError RunDetail
  clock : Instant

namespace Errand

/-- What an answered call adds to a chronicle: a sync whose commit succeeds has stored its news. -/
def deeds (e : Errand) : (call : Call) → call.Answer → List Deed
  | .store (.commit _), .ok () =>
    (e.answer.toOption.map fun detail => .synced e.externalRunId ⟨detail, e.clock⟩).toList
  | _, _ => []

/-- How a call of a sync is answered, and the chronicle that is left. -/
def Answers (e : Errand) (c : Chronicle) : (call : Call) → call.Answer → Chronicle → Prop
  | .runDetail _, answer, after => answer = e.answer ∧ after = c
  | .recentRuns _ _ _, _, _ => False
  | .now, answer, after => answer = e.clock ∧ after = c
  | .store call, answer, after => call.perform c.store = (answer, after.store) ∧
    after.deeds = c.deeds ++ e.deeds (.store call) answer

/-- The surroundings of a sync: others do what may become of a chronicle. -/
def surroundings (e : Errand) : Program.Surroundings Call.Answer Chronicle where
  others := Chronicle.Follows
  answers := e.Answers

/-- A sync that is under way keeps to what may become of a chronicle. -/
def Behaves {α : Type} (e : Errand) (p : Program Call.Answer α) (c : Chronicle) : Prop :=
  p.Keeps e.surroundings Chronicle.Follows (fun _ _ => True) c

/-- A sync has read a row of its run. -/
def HasRead (e : Errand) (stale : RunRecord) (c : Chronicle) : Prop :=
  c.Sound ∧ ∃ row, c.store.findRun e.externalRunId = some row ∧ stale.id = row.id

variable {e : Errand} {c after : Chronicle} {stale : RunRecord} {detail : RunDetail}
  {spec : OutputSpec}

/-- A call that only looks is no deed. -/
theorem deeds_of_looks {call : StoreCall} (looks : call.looks = true) (answer : call.Answer) :
    e.deeds (.store call) answer = [] := by
  cases call with
  | commit snap => cases looks
  | _ => rfl

/-- The chronicle serves a sync: what it has read stays true, whatever others do. -/
theorem serves (e : Errand) (stale : RunRecord) :
    Serves e.surroundings Chronicle.Follows Chronicle.store (e.HasRead stale) where
  refl := .refl
  stable := by
    rintro c c' ⟨sound, row, found, sameId⟩ ⟨keeps, stays⟩
    obtain ⟨later, found', lasts⟩ := keeps _ row found
    exact ⟨stays sound, later, found', sameId.trans lasts.id.symm⟩
  looks := by
    rintro c ⟨store, deeds⟩ call answer looks ⟨performed, told⟩
    have still : store = c.store := by
      rw [← StoreCall.perform_of_looks looks c.store, performed]
    rw [deeds_of_looks looks, List.append_nil] at told
    exact ⟨by rw [still, show deeds = c.deeds from told], congrArg Prod.fst performed⟩

/-- The commit of a sync stores its news, or it fails and stores nothing. -/
theorem follows_commit (asked : e.answer = .ok detail) (read : e.HasRead stale c) {snap : Snapshot}
    {answer : Except StoreError Unit}
    (staged : snap.writes = (planFor e.externalRunId spec detail stale e.clock).writes)
    (answered : e.Answers c (.store (.commit snap)) answer after) : c.Follows after := by
  obtain ⟨sound, row, found, sameId⟩ := read
  obtain ⟨store, deeds⟩ := after
  obtain ⟨performed, told⟩ := answered
  have performed : c.store.commit snap = (answer, store) := performed
  rcases c.store.commit_cases snap with ⟨_, failed⟩ | ⟨_, _, error, refused⟩ | ⟨_, _, done⟩
  · cases failed.symm.trans performed
    obtain rfl : deeds = c.deeds := told.trans (List.append_nil _)
    exact Chronicle.follows_of_runs rfl fun coherent => { coherent with }
  · cases refused.symm.trans performed
    obtain rfl : deeds = c.deeds := told.trans (List.append_nil _)
    exact .refl c
  · cases done.symm.trans performed
    obtain rfl : deeds = c.deeds ++ [.synced e.externalRunId ⟨detail, e.clock⟩] := by
      simp only [Errand.deeds, asked] at told
      exact told
    have owns := owns_planFor_of_id found sameId spec detail e.clock
    refine ⟨?_, fun sound => ?_⟩
    · exact (Store.keepsRuns_foldl_apply snap.writes c.store).trans (Store.keepsRuns_of_runs rfl)
    · rw [staged]
      exact sound.sync owns rfl

/-- Once a sync has read the row of its run, the rest of it keeps to what may become of a
chronicle. -/
theorem behaves_storeDetail {pageSize : Nat} (asked : e.answer = .ok detail)
    (read : e.HasRead stale c) :
    e.Behaves ((reconciler pageSize).storeDetail e.externalRunId stale detail) c := by
  have clock {w after now} (answered : e.surroundings.answers w .now now after) :
      after = w ∧ now = e.clock := ⟨answered.2, answered.1⟩
  refine (e.serves stale).keeps_storeDetail clock ?_ read
  rintro _ _ c after snap answer rfl _ read staged answered
  exact follows_commit asked read staged answered

/-- Whatever a sync is told, it keeps to what may become of a chronicle. -/
theorem behaves_syncRun {pageSize : Nat} (e : Errand) (sound : c.Sound) :
    e.Behaves ((reconciler pageSize).syncRun e.externalRunId) c := by
  rintro c₁ others _ after ⟨rfl, rfl⟩
  refine ⟨.refl _, ?_⟩
  -- Before it has read a row a sync relies on nothing but a sound chronicle.
  have sound := others.2 sound
  cases asked : e.answer with
  | error error => cases error <;> trivial
  | ok detail =>
    rintro c₂ others found ⟨store, deeds⟩ ⟨performed, told⟩
    obtain rfl : store = c₂.store := (congrArg Prod.snd performed).symm
    obtain rfl : deeds = c₂.deeds := told.trans (List.append_nil _)
    have answered : found = .ok (c₂.store.findRun e.externalRunId) :=
      (congrArg Prod.fst performed).symm
    refine ⟨.refl _, ?_⟩
    have sound := others.2 sound
    cases row : c₂.store.findRun e.externalRunId with
    | none =>
      rw [answered, row]
      trivial
    | some stale =>
      rw [answered, row]
      exact behaves_storeDetail asked ⟨sound, stale, row, rfl⟩

end Errand

end RunLedger.Interleaving
