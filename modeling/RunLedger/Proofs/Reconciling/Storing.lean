import RunLedger.Proofs.Reconciling.Replay
import RunLedger.Proofs.Store.Commit

/-!
# Storing an answer among others

A sync that has the answer of the engine and a row of the run looks at the clock and at the store,
stages its plan and commits it. Only the commit changes anything. So what it knows of the world it
still knows when it commits, provided that others do not undo it, and it keeps a guarantee if the
commit of its plan does.
-/

namespace RunLedger.Interleaving

open RunLedger.Sync RunLedger.Time

/-- Whether a call only looks at a store. -/
def StoreCall.looks : StoreCall → Bool
  | commit _ | insertRun _ | storeCursor _ => false
  | _ => true

/-- A call that only looks changes nothing. -/
theorem StoreCall.perform_of_looks {call : StoreCall} (looks : call.looks = true) (s : Store) :
    (call.perform s).2 = s := by
  cases call with
  | commit | insertRun | storeCursor => cases looks
  | _ => rfl

variable {W : Type} {env : Program.Surroundings Call.Answer W} {guarantee : W → W → Prop}
  {store : W → Store} {known : W → Prop}

/-- Surroundings in which calls are answered by a store, with a guarantee that a step without effect
keeps and with knowledge of the world that others do not undo. -/
structure Serves (env : Program.Surroundings Call.Answer W) (guarantee : W → W → Prop)
    (store : W → Store) (known : W → Prop) : Prop where
  refl : ∀ w, guarantee w w
  stable : ∀ {w w'}, known w → env.others w w' → known w'
  looks : ∀ {w after : W} {call : StoreCall} {answer : call.Answer}, call.looks = true →
    env.answers w (.store call) answer after → after = w ∧ (call.perform (store w)).1 = answer

namespace Serves

variable {w : W} {pageSize : Nat} {run : RunRecord} {detail : RunDetail} {now : Instant}
  (serves : Serves env guarantee store known)

include serves

theorem keeps_look {α : Type} {post : α → W → Prop} {call : StoreCall}
    {next : call.Answer → Program Call.Answer α} (looks : call.looks = true) (holds : known w)
    (each : ∀ now, known now →
      (next (call.perform (store now)).1).Keeps env guarantee post now) :
    (Program.ask (.store call) next).Keeps env guarantee post w := by
  intro now others answer after answered
  obtain ⟨rfl, rfl⟩ := serves.looks looks answered
  exact ⟨serves.refl _, each _ (serves.stable holds others)⟩

/-- What a sync stages is what it was given, after what was staged before. -/
theorem keeps_stageAll (holds : known w) (snap : Snapshot) (writes : List Write) :
    (stageAll (reconciler pageSize).store snap writes).Keeps env guarantee
      (fun result after => known after ∧
        ∀ staged, result = .ok staged → staged.writes = snap.writes ++ writes) w := by
  induction writes generalizing snap w with
  | nil =>
    refine ⟨holds, ?_⟩
    rintro staged ⟨⟩
    exact (List.append_nil _).symm
  | cons write rest ih =>
    refine serves.keeps_look rfl holds fun now holds => ?_
    generalize answered : ((StoreCall.stage snap write).perform (store now)).1 = answer
    cases answer with
    | error e => exact ⟨holds, nofun⟩
    | ok next =>
      have grown : next.writes = snap.writes ++ [write] := (Store.of_stage_eq_ok answered).2
      refine (ih holds next).mono ?_
      rintro result after ⟨holds, staged⟩
      refine ⟨holds, fun final done => ?_⟩
      rw [staged final done, grown, List.append_assoc, List.singleton_append]

/-- Storing a plan keeps a guarantee if its commit does. -/
theorem keeps_persist {plan : Plan}
    (commits : ∀ {w after snap answer}, known w → snap.writes = plan.writes →
      env.answers w (.store (.commit snap)) answer after → guarantee w after)
    (holds : known w) :
    (persist (reconciler pageSize).store plan).Keeps env guarantee (fun _ _ => True) w := by
  refine serves.keeps_look rfl holds fun _ holds => ?_
  refine (serves.keeps_stageAll holds {} plan.writes).bind fun result s ⟨holds, staged⟩ => ?_
  cases result with
  | error refused => exact serves.keeps_look rfl holds fun _ _ => trivial
  | ok snap =>
    intro s' others answer after answered
    refine ⟨commits (serves.stable holds others) (staged snap rfl) answered, ?_⟩
    cases answer <;> trivial

/-- The locations of a sync are those of a store of which what is known holds. -/
theorem keeps_locations (holds : known w) :
    ((reconciler pageSize).locations run detail now).Keeps env guarantee
      (fun result after => known after ∧ ∀ locations, result = .ok locations →
        ∃ w', known w' ∧
          locations = locationsFor ((store w').outputSpec run.workflowId) detail run now) w := by
  unfold Reconciler.locations locationsFor
  split
  · refine serves.keeps_look rfl holds fun w' holds => ⟨holds, ?_⟩
    rintro locations ⟨⟩
    exact ⟨w', holds, rfl⟩
  · refine ⟨holds, ?_⟩
    rintro locations ⟨⟩
    exact ⟨w, holds, rfl⟩

/-- A sync that has read a row keeps the guarantee if its commit does, which is that of the plan for
the row, for a declaration that was read meanwhile, and for a time that the clock has told. -/
theorem keeps_storeDetail {told : Instant → Prop} {externalRunId : String}
    (clock : ∀ {w after now}, env.answers w .now now after → after = w ∧ told now)
    (commits : ∀ {now w' w after snap answer}, told now → known w' → known w →
      snap.writes = (planFor externalRunId ((store w').outputSpec run.workflowId) detail run
        now).writes →
      env.answers w (.store (.commit snap)) answer after → guarantee w after)
    (holds : known w) :
    ((reconciler pageSize).storeDetail externalRunId run detail).Keeps env guarantee
      (fun _ _ => True) w := by
  intro first others now after answered
  obtain ⟨rfl, isTold⟩ := clock answered
  refine ⟨serves.refl _, ?_⟩
  refine (serves.keeps_locations (serves.stable holds others)).bind
    fun result s ⟨holds, resolved⟩ => ?_
  cases result with
  | error e => trivial
  | ok locations =>
    obtain ⟨w', held, rfl⟩ := resolved locations rfl
    refine (serves.keeps_persist (fun holds staged => commits isTold held holds staged) holds).bind
      fun persisted _ _ => ?_
    cases persisted <;> trivial

end Serves

end RunLedger.Interleaving
