import Payout.Disk.Tree
import Payout.Program

/-!
# The disk as surroundings

The steps that a program may ask of a disk. A program can be cut off between any two.
-/

namespace Payout.Disk

/-- A step on a disk. -/
inductive Request where
  | read (path : String)
  /-- Makes a directory and those above it. -/
  | makeDirectories (path : String)
  | write (path : String) (content : Bytes)
  | rename (source target : String)

/-- What a step brings back when it is not refused. -/
abbrev Request.Value : Request → Type
  | .read _ => Bytes
  | _ => Unit

abbrev interface : Interface := ⟨Request, fun r => Except DiskError r.Value⟩

/-- Asks the disk. -/
def ask (r : Request) : Program interface (Except DiskError r.Value) :=
  Program.request (I := interface) r

/-- The answer to a step, and the disk after it. -/
def perform (d : Disk) : (r : Request) → Except DiskError r.Value × Disk
  | .read path => (d.read path, d)
  | .makeDirectories path => Disk.makeDirectories (path.length + 1) d path
  | .write path content => settle (d.write path content)
  | .rename source target => settle (d.rename source target)
where
  /-- The disk after a step that changes it as a whole or not at all. -/
  settle : Except DiskError Disk → Except DiskError Unit × Disk
    | .ok d' => (.ok (), d')
    | .error e => (.error e, d)

/-- Answers a step. -/
def answer (r : Request) : StateM Disk (Except DiskError r.Value) := fun d => d.perform r

end Payout.Disk
