import RunLedger.Store.Backend
import RunLedger.Sync.Plan

/-!
# Carrying out a plan

All writes of a plan go into one snapshot. The first failure ends the snapshot without storing
anything.
-/

namespace RunLedger.Sync

/-- How much a plan wrote. -/
structure PersistSummary where
  stepTransitions : Nat
  logEntries : Nat
deriving DecidableEq, Repr, Inhabited

section Persist

variable {m : Type → Type} [Monad m] {σ : Type}

/-- Stages writes in turn, up to the first that is refused; then the snapshot as it was before that
write is returned along with the refusal. -/
def stageAll (b : Backend m σ) : σ → List Write → m (Except (StoreError × σ) σ)
  | snap, [] => pure (.ok snap)
  | snap, w :: ws => do
    match ← b.stage snap w with
    | .error e => pure (.error (e, snap))
    | .ok snap => stageAll b snap ws

/-- Carries out a plan, all of it or nothing. -/
def persist (b : Backend m σ) (p : Plan) : m (Except StoreError PersistSummary) := do
  match ← b.beginSnapshot with
  | .error e => pure (.error e)
  | .ok snap =>
    match ← stageAll b snap p.writes with
    | .error (e, snap) => do
      let _ ← b.abort snap
      pure (.error e)
    | .ok snap =>
      match ← b.commit snap with
      | .error e => pure (.error e)
      | .ok () => pure (.ok ⟨p.transitions.length, p.logs.length⟩)

end Persist

end RunLedger.Sync
