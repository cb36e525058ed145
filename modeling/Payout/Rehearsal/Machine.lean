import Payout.Host
import Payout.Rehearsal.Node

/-!
# A scripted machine

A host with a disk, a node or none within reach, and a clock that stands still. There is never time
for another attempt, and a rest ends because shutdown is asked for.
-/

namespace Payout.Rehearsal

/-- A scripted machine. -/
structure Machine where
  /-- The time that rows are stamped with. -/
  now : Instant
  disk : Disk
  /-- The node, or why it cannot be reached. -/
  node : Except Node.Failure ScriptedNode
  /-- Whether shutdown was asked for. -/
  shutdown : Bool
  /-- The log lines so far, the latest first. -/
  lines : List LogLine

namespace Machine

/-- The answer of the node, and the machine after it. -/
def askNode (m : Machine) (r : Node.Request) : Except Node.Failure r.Value × Machine :=
  match m.node with
  | .error e => (.error e, m)
  | .ok n =>
    let (a, n) := n.answer r
    (a, { m with node := .ok n })

/-- The answer to a request, and the machine after it. -/
def reply (m : Machine) : (r : Host.Request) → r.Answer × Machine
  | .disk r =>
    let (a, d) := m.disk.perform r
    (a, { m with disk := d })
  | .node r => m.askNode r
  | .now => (m.now, m)
  | .pause => (false, m)
  | .log l => ((), { m with lines := l :: m.lines })
  | .shutdown => (m.shutdown, m)
  | .rest _ => (.signalled, { m with shutdown := true })

def answer (r : Host.Request) : StateM Machine r.Answer := fun m => m.reply r

/-- Runs a program on a machine. -/
def run {α : Type} (p : Program Host.interface α) : StateM Machine α := p.run answer

/-- The journal of the node, the earliest first. -/
def nodeJournal (m : Machine) : List NodeEntry :=
  match m.node with
  | .error _ => []
  | .ok n => n.journal.reverse

/-- The machine with everything that was reported and asked so far forgotten. -/
def forget (m : Machine) : Machine :=
  { m with
    node := m.node.map fun n => { n with journal := [] }
    lines := [] }

end Machine

end Payout.Rehearsal
