import Payout.Rehearsal.World
import Payout.Settlement.Schedule

/-!
# Rehearsing the schedule

The schedule run in scripted surroundings. Events of one time happen before the schedule reacts to
any of them.
-/

namespace Payout.Rehearsal

open Settlement (Settler KnownDecimals)

/-- The scripted surroundings and what the settler knows. -/
abbrev Rehearsed := StateT KnownDecimals (StateM World)

/-- Runs a pass of a settler. -/
def runPass (s : Settler) : Rehearsed (Except SettlementError Summary) := fun known =>
  World.runStep (s.poll known)

/-- How a rest ends in a world: at once if something is unread, with the next event on the channel
if that comes before the interval is over. `fuel` bounds the events looked at. -/
def restIn : Nat → World → Nat → Settlement.Schedule.Waking × World
  | 0, w, deadline => (.timeUp, w.advance deadline)
  | fuel + 1, w, deadline =>
    if w.channel.unread then
      (.signalled, { w with channel := { w.channel with unread := false } })
    else if !w.channel.hasSender then (.abandoned, w)
    else match w.events with
      | (time, _) :: _ =>
        if time < deadline then restIn fuel (w.advance time) deadline
        else (.timeUp, w.advance deadline)
      | [] => (.timeUp, w.advance deadline)

/-- Answers a request of the schedule. -/
def answerSchedule (s : Settler) :
    (r : Settlement.Schedule.Request) → Rehearsed r.Answer
  | .shutdown => do
    let w ← getThe World
    pure w.channel.value
  | .pass => runPass s
  | .rest ms => do
    let w ← getThe World
    let (waking, w) := restIn (w.events.length + 1) w (w.clock + ms)
    set w
    pure waking
  | .note n => World.keep n

/-- How many passes a schedule can make before the last event and in answer to it. -/
def passLimit (intervalMs : Nat) (events : List (Nat × Event)) : Nat :=
  let last := events.foldl (fun t e => max t e.1) 0
  last / max intervalMs 1 + events.length + 4

/-- Runs the schedule until it stops; the result is the time at which it does. -/
def runSchedule (s : Settler) (intervalMs : Nat) : Rehearsed (Option Nat) := do
  let w ← getThe World
  let limit := passLimit intervalMs w.events
  set (w.advance 0)
  let stopped ← (Settlement.Schedule.run intervalMs limit).run (answerSchedule s)
  let w ← getThe World
  pure (if stopped then some w.clock else none)

end Payout.Rehearsal
