import RunLedger.Engine.Basic
import RunLedger.Text.Digits

/-!
# Candidates of a pass

The engine lists the runs that were updated last, the latest first and at most so many at a time. A
full page may hide earlier runs, so the next request asks for the runs up to the earliest update
time of the page. A full page that only repeats that time asks again for more runs, twice as many
each time, and beyond a bound the search ends there and says at which time it is incomplete.

`Paging.advance` is the step of this search from one page to the next request or to the end.
-/

namespace RunLedger.Sync

open RunLedger.Time (Instant)

/-- How many pages may share one update time. -/
def widestPages : Nat := 64

/-- Counts in requests stop at the greatest 64-bit word. -/
def greatestCount : Nat := wordCount 64 - 1

/-- The runs that a pass looks at. -/
structure Candidates where
  runs : List RunSummary
  /-- The update time at which the search ended early: earlier runs may be missing, and runs of this
  time too. -/
  incompleteAt : Option Instant
deriving Repr, Inhabited

/-- A search under way: the next request and what was found so far. -/
structure Paging where
  limit : Nat
  before : Option Instant
  found : List RunSummary
deriving Repr, Inhabited

/-- What follows a page. -/
inductive Paging.Next where
  | request (paging : Paging)
  | finished (candidates : Candidates)
deriving Repr, Inhabited

namespace Paging

/-- The first request of a search. -/
def start (pageSize : Nat) : Paging where
  limit := max pageSize 1
  before := none
  found := []

/-- Adds a run that was updated after the floor and is not yet found. -/
def add (floor : Instant) (found : List RunSummary) (run : RunSummary) : List RunSummary :=
  if floor < run.updateTime && !found.any (·.runId == run.runId) then found ++ [run] else found

/-- The search after a page. -/
def advance (pageSize : Nat) (floor : Instant) (p : Paging) (page : List RunSummary) : Next :=
  let size := max pageSize 1
  let found := page.foldl (add floor) p.found
  match Instant.earliest? (page.map (·.updateTime)) with
  | none => .finished ⟨found, none⟩
  | some oldest =>
    if page.length < p.limit then .finished ⟨found, none⟩
    else if p.before == some oldest then
      if p.limit ≥ min (size * widestPages) greatestCount then .finished ⟨found, some oldest⟩
      else .request { limit := min (p.limit * 2) greatestCount, before := p.before, found := found }
    else .request { limit := size, before := some oldest, found := found }

end Paging

/-- The update time that candidates lie after. -/
def floorOf (cursor : Option Instant) : Instant :=
  cursor.getD Instant.epoch

/-- Searches for candidates with at most `fuel` requests. Nothing is found out if the search has not
ended by then. -/
def collect {m : Type → Type} [Monad m] (engine : Engine m) (pageSize : Nat)
    (cursor : Option Instant) : (fuel : Nat) → Paging → m (Except EngineError (Option Candidates))
  | 0, _ => pure (.ok none)
  | fuel + 1, p => do
    match ← engine.recentRuns p.limit cursor p.before with
    | .error e => pure (.error e)
    | .ok page =>
      match p.advance pageSize (floorOf cursor) page with
      | .finished candidates => pure (.ok (some candidates))
      | .request next => collect engine pageSize cursor fuel next

/-- The candidates in the order of a pass: the latest update first. -/
def Candidates.inOrder (c : Candidates) : List RunSummary :=
  c.runs.mergeSort fun a b => decide (b.updateTime ≤ a.updateTime)

end RunLedger.Sync
