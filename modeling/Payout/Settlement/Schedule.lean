import Payout.Settlement.Batch

/-!
# The schedule

Passes follow one another with a rest of one interval between them, until shutdown is asked for. A
pass that has started runs to its end; the wish to stop is looked at before each pass and wakes a
rest.
-/

namespace Payout.Settlement.Schedule

/-- How a rest ends. -/
inductive Waking where
  /-- The interval is over. -/
  | timeUp
  /-- A value arrived on the shutdown channel, whichever it is. -/
  | signalled
  /-- Nobody can ask for shutdown any more, and nothing is left unread. -/
  | abandoned
deriving DecidableEq

/-- What the schedule asks of its surroundings. -/
inductive Request where
  /-- The value last sent on the shutdown channel. -/
  | shutdown
  /-- One pass over the ledger. -/
  | pass
  /-- A rest of some milliseconds, shorter if something arrives on the shutdown channel. -/
  | rest (ms : Nat)
  | note (n : Notice)

abbrev Request.Answer : Request → Type
  | .shutdown => Bool
  | .pass => Except SettlementError Summary
  | .rest _ => Waking
  | .note _ => Unit

abbrev interface : Interface := ⟨Request, Request.Answer⟩

/-- Asks the surroundings. -/
def ask (r : Request) : Program interface r.Answer := Program.request (I := interface) r

/-- What is reported after a pass: nothing when there was nothing to do. -/
def notice? : Except SettlementError Summary → Option Notice
  | .error e => some (.cycleFailed e)
  | .ok summary => if 0 < summary.total then some (.cycleFinished summary) else none

/-- At most `limit` passes with rests between them; true if shutdown ended them. -/
def cycles (intervalMs : Nat) : Nat → Program interface Bool
  | 0 => pure false
  | limit + 1 => do
    if ← ask .shutdown then pure true
    else do
      let result ← ask .pass
      if let some n := notice? result then ask (.note n)
      match ← ask (.rest intervalMs) with
      | .abandoned => pure true
      | _ => cycles intervalMs limit

/-- The schedule from start to stop; false if it was still going after `limit` passes. -/
def run (intervalMs limit : Nat) : Program interface Bool := do
  ask (.note (.scheduleStarted intervalMs))
  let stopped ← cycles intervalMs limit
  if stopped then ask (.note .scheduleStopped)
  pure stopped

end Payout.Settlement.Schedule
