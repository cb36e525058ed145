import Payout.Command.Run
import Payout.Instant.Count
import Std.Time.DateTime.Timestamp

/-!
# The program

Runs the command line on the machine it is started on. The disk, the clock and the output are the
machine's; there is no way to a node, and shutdown comes by ending the process.
-/

namespace Payout.Main

/-- The disk's word for an error of the machine. -/
def diskError : IO.Error → DiskError
  | .noFileOrDirectory _ _ _ => .notFound
  | .alreadyExists _ _ _ => .exists
  | e => .other (toString e)

/-- Does something with the disk. -/
def attempt {α : Type} (act : IO α) : IO (Except DiskError α) :=
  try
    let a ← act
    pure (.ok a)
  catch e => pure (.error (diskError e))

/-- Bytes as the machine holds them. -/
def array (content : Bytes) : ByteArray := ⟨content.toArray⟩

def answerDisk : (r : Disk.Request) → IO (Except DiskError r.Value)
  | .read path => attempt do
    let content ← IO.FS.readBinFile path
    pure content.data.toList
  | .makeDirectories path => attempt (if path.isEmpty then pure () else IO.FS.createDirAll path)
  | .write path content => attempt (IO.FS.writeBinFile path (array content))
  | .rename source target => attempt (IO.FS.rename source target)

/-- The start of 1970. -/
def epoch : Instant := (Instant.ofSeconds? 0 0).get (by decide)

/-- The time. -/
def now : IO Instant := do
  let time ← Std.Time.Timestamp.now
  let nanos := time.toNanosecondsSinceUnixEpoch.val.toNat
  pure ((Instant.ofSeconds? (nanos / 10 ^ 9) (nanos % 10 ^ 9)).getD epoch)

/-- Waits for some milliseconds. -/
def sleep (ms : Nat) : IO Unit := IO.sleep (UInt32.ofNat (min ms (2 ^ 32 - 1)))

/-- Answers a request, with log lines written in a format. -/
def answer (f : LogFormat) : (r : Host.Request) → IO r.Answer
  | .disk r => answerDisk r
  | .node _ => pure (.error (.unusable "there is no way to a node"))
  | .now => now
  | .pause => do
    sleep Settlement.leastPauseMs
    pure true
  | .log l => do
    let time ← now
    IO.println (l.written time f)
  | .shutdown => pure false
  | .rest ms => do
    sleep ms
    pure .timeUp

/-- A variable of the environment and its value. -/
def assignment? (text : String) : Option (String × String) :=
  match text.splitOn "=" with
  | name :: value@(_ :: _) => some (name, "=".intercalate value)
  | _ => none

/-- The environment of the process. -/
def environment : IO Environment := do
  match ← attempt (IO.FS.readBinFile "/proc/self/environ") with
  | .error _ => pure ⟨[]⟩
  | .ok content =>
    let text := (Bytes.text? content.data.toList).getD ""
    pure ⟨(text.splitOn "\x00").filterMap assignment?⟩

end Payout.Main

open Payout in
/-- Does what the arguments ask for. -/
def main (words : List String) : IO UInt32 := do
  match Command.read words with
  | .error e => do
    IO.eprintln s!"error: {e.message}"
    pure 2
  | .ok .help => do
    IO.println Command.usage
    pure 0
  | .ok (.orders o) => do
    let env ← Main.environment
    match ← (Command.run env o).run (Main.answer o.logFormat) with
    | .ok _ => pure 0
    | .error e => do
      IO.eprintln e.text
      pure 1
