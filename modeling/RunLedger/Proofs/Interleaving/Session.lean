import Mathlib.Logic.Function.Basic
import RunLedger.Proofs.Store.Commit

/-!
# Sessions

A session is a store with the snapshots that are open on it, each under the handle of its owner. The
owners take turns in any order: they open snapshots, stage writes, commit, abort or drop, and others
record runs, read, move the cursor, declare outputs and make commits fail in between. `Executes`
holds the sessions that follow one another and tells what happened, with all answers. Stores of two
kinds that answer alike whatever is done to them have the same sessions.
-/

namespace RunLedger.Interleaving

/-- Whether a call to a store has nothing to do with a snapshot. -/
def StoreCall.isDirect : StoreCall → Bool
  | beginSnapshot | stage .. | commit _ | abort _ => false
  | _ => true

/-- A number that is known stays known. -/
theorem StoreCall.isSome_run?_perform (call : StoreCall) (s : Store) (id : RunId)
    (known : (s.run? id).isSome = true) : ((call.perform s).2.run? id).isSome = true := by
  refine perform_rel (fun s s' => (s.run? id).isSome = true → (s'.run? id).isSome = true)
    (fun _ known => known) ?_ ?_ (fun _ _ known => known) call s known
  · intro snap s known
    rcases s.commit_cases snap with ⟨_, failed⟩ | ⟨_, _, e, refused⟩ | ⟨_, _, done⟩
    · rw [failed]
      exact known
    · rw [refused]
      exact known
    · rw [done]
      exact (Store.isSome_run?_foldl_apply snap.writes s id).trans known
  · intro run s row after inserted known
    obtain ⟨_, rfl⟩ := of_insertRun_eq_ok inserted
    rw [Store.run?] at known
    rw [Store.run?, List.find?_append, Option.isSome_or, known, Bool.true_or]

/-- Failures that are to come do not matter to a call that has nothing to do with a snapshot. -/
theorem StoreCall.perform_calm {call : StoreCall} (direct : call.isDirect = true) (s : Store) :
    call.perform s.calm = ((call.perform s).1, (call.perform s).2.calm) := by
  cases call with
  | insertRun run =>
    simp only [perform, StoreModel.backend, Backend.plain, Store.insertRun_calm]
    cases s.insertRun run <;> rfl
  | beginSnapshot | stage | commit | abort => cases direct
  | _ => rfl

/-- A store and the snapshots that are open on it, by their handles. -/
structure Session (S : Type) where
  store : S
  snapshots : Nat → Option Snapshot

namespace Session

variable {S : Type}

def start (store : S) : Session S := ⟨store, fun _ => none⟩

def withStore (σ : Session S) (store : S) : Session S := { σ with store := store }

/-- The session with a snapshot, or none, under a handle. -/
def hold (σ : Session S) (handle : Nat) (snap : Option Snapshot) : Session S :=
  { σ with snapshots := Function.update σ.snapshots handle snap }

/-- What happens in a session. -/
inductive Event where
  | opened (handle : Nat)
  /-- A write was accepted. -/
  | staged (handle : Nat) (w : Write)
  | refused (handle : Nat) (w : Write) (e : StoreError)
  | committed (handle : Nat) (answer : Except StoreError Unit)
  | aborted (handle : Nat)
  | dropped (handle : Nat)
  /-- A run was recorded, something was read or the cursor was moved. -/
  | called (call : StoreCall) (answer : call.Answer)
  | declared (workflowId : Int) (spec : OutputSpec)
  /-- So many of the next commits are made to fail. -/
  | failNext (count : Nat)

variable [StoreModel S]

/-- The steps of a session. -/
inductive Step : Session S → Event → Session S → Prop where
  | begin {σ : Session S} {handle : Nat} (free : σ.snapshots handle = none) :
      Step σ (.opened handle) (σ.hold handle (some {}))
  | stage {σ : Session S} {handle : Nat} {snap next : Snapshot} {w : Write}
      (held : σ.snapshots handle = some snap)
      (accepted : ((StoreCall.stage snap w).perform σ.store).1 = .ok next) :
      Step σ (.staged handle w) (σ.hold handle (some next))
  | refuse {σ : Session S} {handle : Nat} {snap : Snapshot} {w : Write} {e : StoreError}
      (held : σ.snapshots handle = some snap)
      (refused : ((StoreCall.stage snap w).perform σ.store).1 = .error e) :
      Step σ (.refused handle w e) σ
  | commit {σ : Session S} {handle : Nat} {snap : Snapshot} {answer : Except StoreError Unit}
      {after : S} (held : σ.snapshots handle = some snap)
      (answered : (StoreCall.commit snap).perform σ.store = (answer, after)) :
      Step σ (.committed handle answer) ((σ.hold handle none).withStore after)
  | abort {σ : Session S} {handle : Nat} {snap : Snapshot}
      (held : σ.snapshots handle = some snap) : Step σ (.aborted handle) (σ.hold handle none)
  | drop {σ : Session S} {handle : Nat} {snap : Snapshot}
      (held : σ.snapshots handle = some snap) : Step σ (.dropped handle) (σ.hold handle none)
  | call {σ : Session S} {call : StoreCall} {answer : call.Answer} {after : S}
      (direct : call.isDirect = true) (answered : call.perform σ.store = (answer, after)) :
      Step σ (.called call answer) (σ.withStore after)
  | declare {σ : Session S} (workflowId : Int) (spec : OutputSpec) :
      Step σ (.declared workflowId spec)
        (σ.withStore (StoreModel.declareOutput σ.store workflowId spec))
  | failNext {σ : Session S} (count : Nat) :
      Step σ (.failNext count) (σ.withStore (StoreModel.failNext σ.store count))

/-- `Executes σ events σ'`: with these events in this order the session goes from `σ` to `σ'`. -/
inductive Executes : Session S → List Event → Session S → Prop where
  | nil (σ : Session S) : Executes σ [] σ
  | snoc {σ σ' σ'' : Session S} {events : List Event} {e : Event} :
      Executes σ events σ' → Step σ' e σ'' → Executes σ (events ++ [e]) σ''

namespace Executes

variable {σ σ' σ'' : Session S} {events events' : List Event} {e : Event}

theorem single (step : Step σ e σ') : Executes σ [e] σ' := .snoc (.nil σ) step

theorem trans (first : Executes σ events σ') (second : Executes σ' events' σ'') :
    Executes σ (events ++ events') σ'' := by
  induction second with
  | nil => rwa [List.append_nil]
  | snoc _ step ih =>
    rw [← List.append_assoc]
    exact .snoc ih step

end Executes

/-! ## What a step does to the store -/

/-- A relation between stores that every operation keeps to is kept to by every step. -/
theorem Step.store_rel (rel : S → S → Prop) {σ σ' : Session S} {e : Event} (step : Step σ e σ')
    (refl : ∀ s, rel s s) (call : ∀ (call : StoreCall) (s : S), rel s (call.perform s).2)
    (declare : ∀ (workflowId : Int) (spec : OutputSpec) (s : S),
      rel s (StoreModel.declareOutput s workflowId spec))
    (failNext : ∀ (count : Nat) (s : S), rel s (StoreModel.failNext s count)) :
    rel σ.store σ'.store := by
  cases step with
  | @commit _ snap _ after _ answered =>
    have performed := call (.commit snap) σ.store
    rwa [answered] at performed
  | @call storeCall _ after _ answered =>
    have performed := call storeCall σ.store
    rwa [answered] at performed
  | declare workflowId spec => exact declare workflowId spec σ.store
  | failNext count => exact failNext count σ.store
  | _ => exact refl σ.store

/-- A step from a store that can be reached leads to one. -/
theorem Step.reachable {σ σ' : Session Store} {e : Event} (step : Step σ e σ')
    (reachable : σ.store.Reachable) : σ'.store.Reachable :=
  step.store_rel (fun s s' => s.Reachable → s'.Reachable) (fun _ => id)
    (fun call _ => .call call) (fun workflowId spec _ => .declare workflowId spec)
    (fun count _ => .failCommits count) reachable

/-- A session from a store that can be reached leads to one. -/
theorem Executes.reachable {σ σ' : Session Store} {events : List Event}
    (execution : Executes σ events σ') (reachable : σ.store.Reachable) : σ'.store.Reachable := by
  induction execution with
  | nil => exact reachable
  | snoc _ step ih => exact step.reachable ih

/-- Runs that are recorded before a step are recorded after it. -/
theorem Step.knows {σ σ' : Session Store} {e : Event} (step : Step σ e σ') {ws : List Write}
    (known : σ.store.Knows ws) : σ'.store.Knows ws := by
  have keeps := step.store_rel
    (fun s s' => ∀ id, (s.run? id).isSome = true → (s'.run? id).isSome = true)
    (fun _ _ => id) StoreCall.isSome_run?_perform (fun _ _ _ _ => id) (fun _ _ _ => id)
  exact fun w member => keeps _ (known w member)

/-! ## Stores that answer alike -/

/-- A relation between stores of two kinds that makes them answer alike, whatever is done to
both. -/
structure Simulation {S S' : Type} [StoreModel S] [StoreModel S'] (rel : S → S' → Prop) :
    Prop where
  perform : ∀ (call : StoreCall) {s : S} {s' : S'}, rel s s' →
    (call.perform s).1 = (call.perform s').1 ∧ rel (call.perform s).2 (call.perform s').2
  declareOutput : ∀ (workflowId : Int) (spec : OutputSpec) {s : S} {s' : S'}, rel s s' →
    rel (StoreModel.declareOutput s workflowId spec) (StoreModel.declareOutput s' workflowId spec)
  failNext : ∀ (count : Nat) {s : S} {s' : S'}, rel s s' →
    rel (StoreModel.failNext s count) (StoreModel.failNext s' count)

namespace Simulation

variable {S' : Type} [StoreModel S'] {rel : S → S' → Prop} {σ σ' : Session S} {τ : Session S'}
  {events : List Event} {e : Event}

/-- Stores that answer alike do so in both directions. -/
theorem symm (simulation : Simulation rel) : Simulation (Function.swap rel) where
  perform call _ _ related :=
    ⟨(simulation.perform call related).1.symm, (simulation.perform call related).2⟩
  declareOutput workflowId spec _ _ related := simulation.declareOutput workflowId spec related
  failNext count _ _ related := simulation.failNext count related

/-- A call that one store answers the other one answers in the same way. -/
theorem answered (simulation : Simulation rel) {call : StoreCall} {s after : S} {s' : S'}
    {answer : call.Answer} (related : rel s s') (answered : call.perform s = (answer, after)) :
    ∃ after', call.perform s' = (answer, after') ∧ rel after after' := by
  obtain ⟨same, related⟩ := simulation.perform call related
  rw [answered] at same related
  exact ⟨_, Prod.ext same.symm rfl, related⟩

/-- What happens in a session can happen in one with the other kind of store. -/
theorem step (simulation : Simulation rel) (step : Step σ e σ') (related : rel σ.store τ.store)
    (open' : σ.snapshots = τ.snapshots) : ∃ τ', Step τ e τ' ∧ rel σ'.store τ'.store ∧
      σ'.snapshots = τ'.snapshots := by
  have hold (handle : Nat) (snap : Option Snapshot) :
      (σ.hold handle snap).snapshots = (τ.hold handle snap).snapshots := by
    rw [Session.hold, Session.hold, open']
  cases step with
  | @begin handle free => exact ⟨_, .begin (open' ▸ free), related, hold handle _⟩
  | @stage handle snap next w held accepted =>
    have same := (simulation.perform (.stage snap w) related).1
    exact ⟨_, .stage (open' ▸ held) (same.symm.trans accepted), related, hold handle _⟩
  | @refuse handle snap w e held refused =>
    have same := (simulation.perform (.stage snap w) related).1
    exact ⟨τ, .refuse (open' ▸ held) (same.symm.trans refused), related, open'⟩
  | @commit handle snap answer after held answered =>
    obtain ⟨after', answered', related'⟩ := simulation.answered related answered
    exact ⟨_, .commit (open' ▸ held) answered', related', hold handle none⟩
  | @abort handle snap held => exact ⟨_, .abort (open' ▸ held), related, hold handle none⟩
  | @drop handle snap held => exact ⟨_, .drop (open' ▸ held), related, hold handle none⟩
  | call direct answered =>
    obtain ⟨after', answered', related'⟩ := simulation.answered related answered
    exact ⟨_, .call direct answered', related', open'⟩
  | declare workflowId spec =>
    exact ⟨_, .declare workflowId spec, simulation.declareOutput workflowId spec related, open'⟩
  | failNext count => exact ⟨_, .failNext count, simulation.failNext count related, open'⟩

/-- A session with the one kind of store is one with the other, event by event. -/
theorem executes (simulation : Simulation rel) (execution : Executes σ events σ')
    (related : rel σ.store τ.store) (open' : σ.snapshots = τ.snapshots) :
    ∃ τ', Executes τ events τ' ∧ rel σ'.store τ'.store ∧ σ'.snapshots = τ'.snapshots := by
  induction execution with
  | nil => exact ⟨τ, .nil τ, related, open'⟩
  | snoc _ step ih =>
    obtain ⟨mid, execution, related, open'⟩ := ih
    obtain ⟨last, step', related, open'⟩ := simulation.step step related open'
    exact ⟨last, execution.snoc step', related, open'⟩

end Simulation

end Session

end RunLedger.Interleaving
