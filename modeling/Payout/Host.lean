import Payout.Disk.Service
import Payout.Evm.Node
import Payout.Instant.Basic
import Payout.Log
import Payout.Settlement.Schedule

/-!
# The host

Everything that the program as a whole asks of the machine it runs on. Programs over the disk alone
run on a host as they are.
-/

namespace Payout.Host

inductive Request where
  | disk (r : Disk.Request)
  | node (r : Node.Request)
  | now
  /-- A pause before another attempt; false when there is no time for one. -/
  | pause
  | log (l : LogLine)
  /-- Whether shutdown was asked for. -/
  | shutdown
  /-- A rest of some milliseconds, shorter if shutdown is asked for. -/
  | rest (ms : Nat)

abbrev Request.Answer : Request → Type
  | .disk r => Except DiskError r.Value
  | .node r => Except Node.Failure r.Value
  | .now => Instant
  | .pause => Bool
  | .log _ => Unit
  | .shutdown => Bool
  | .rest _ => Settlement.Schedule.Waking

abbrev interface : Interface := ⟨Request, Request.Answer⟩

/-- Asks the host. -/
def ask (r : Request) : Program interface r.Answer := Program.request (I := interface) r

/-- Asks the node. -/
def askNode (r : Node.Request) : Program interface (Except Node.Failure r.Value) := ask (.node r)

/-- Writes a log line. -/
def log (l : LogLine) : Program interface Unit := ask (.log l)

/-- Runs a program over the disk. -/
def onDisk {α : Type} (p : Program Disk.interface α) : Program interface α :=
  p.run fun r => ask (.disk r)

end Payout.Host
