/-!
# The schedule of passes

Passes are due at once and then at a regular interval. A pass that begins late, because the one
before took too long, moves all later ones: the next is due one interval after it began. Being late
by no more than the grain of the clock does not count. Times are counted in milliseconds.
-/

namespace RunLedger.Sync

/-- By how much a pass may be late without moving the later ones. -/
def lateness : Nat := 5

/-- When the next pass is due, after one that was due at `due` began at `start`. -/
def nextDue (interval due start : Nat) : Nat :=
  if due + lateness < start then start + interval else due + interval

section Schedule

variable {m : Type → Type} [Monad m]

/-- Runs passes until they are told to stop at a time, and returns when the last one had ended. A
pass that is under way at that time is finished. `now` tells the time, `waitUntil` lets it pass. At
most `fuel` passes are run. -/
def runPasses (now : m Nat) (waitUntil : Nat → m Unit) (pass : m Unit) (interval stop : Nat) :
    (fuel : Nat) → (due : Nat) → m Nat
  | 0, _ => now
  | fuel + 1, due => do
    let start := max (← now) due
    if start < stop then
      waitUntil start
      pass
      runPasses now waitUntil pass interval stop fuel (nextDue interval due start)
    else
      waitUntil stop
      now

end Schedule

end RunLedger.Sync
