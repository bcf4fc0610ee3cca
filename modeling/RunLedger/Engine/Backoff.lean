import RunLedger.Engine.Error
import RunLedger.Text.Digits

/-!
# Backoff

A query that failed for a passing reason is repeated, each time after a longer wait: the first wait
is the base, each further one twice as long as the one before, and none longer than a cap.
-/

namespace RunLedger

/-- How often and how patiently a query is repeated. Waits are counted in nanoseconds. -/
structure Backoff where
  maxRetries : Nat := 3
  base : Nat := 300000000
  cap : Nat := 5000000000
deriving DecidableEq, Repr, Inhabited

namespace Backoff

/-- Never repeats a query. -/
def never : Backoff := { maxRetries := 0 }

/-- Waits that can be expressed are shorter than this: their whole seconds are a 64-bit word. -/
def waitBound : Nat := wordCount 64 * 1000000000

/-- The wait before a repetition, the first being number 1. The factor is a 32-bit word that stops
at its greatest value, and a wait that cannot be expressed is the cap. -/
def delay (p : Backoff) (retry : Nat) : Nat :=
  if retry = 0 then 0
  else
    let factor := if retry - 1 < 32 then Nat.pow 2 (retry - 1) else wordCount 32 - 1
    let wait := p.base * factor
    if wait < waitBound then min wait p.cap else p.cap

variable {m : Type → Type} [Monad m] {α : Type}

/-- Runs a query that has been repeated `retry` times and may be repeated `left` more times. -/
def attempt (p : Backoff) (sleep : Nat → m Unit) (query : m (Except EngineError α)) :
    (left retry : Nat) → m (Except EngineError α)
  | 0, _ => query
  | left + 1, retry => do
    match ← query with
    | .ok a => pure (.ok a)
    | .error e =>
      if e.isRetriable then
        sleep (p.delay (retry + 1))
        p.attempt sleep query left (retry + 1)
      else pure (.error e)

/-- Runs a query, repeating it as long as it fails for a passing reason and repetitions are left. -/
def run (p : Backoff) (sleep : Nat → m Unit) (query : m (Except EngineError α)) :
    m (Except EngineError α) :=
  p.attempt sleep query p.maxRetries 0

end Backoff

end RunLedger
