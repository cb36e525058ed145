import Payout.Disk.Service
import Payout.Ledger.Document

/-!
# Ledger stores

A store keeps the tables in memory and, with a file behind it, writes the whole document after every
request that changes them. The document is written beside its place and then renamed to it, and the
tables in memory are replaced only once that succeeded.
-/

namespace Payout.Ledger

/-- What is behind a ledger. -/
inductive Backend where
  | memory
  /-- A document at a path. -/
  | file (path : String)
deriving DecidableEq

/-- A ledger: what is behind it, and its tables. -/
structure Store where
  backend : Backend
  tables : Tables

/-- The file that a document is written to before it is renamed. -/
def temporaryPath (path : String) : String := Path.withExtension "tmp" path

/-- A step on the disk whose refusal is the backend's. -/
def onDisk (r : Disk.Request) : Program Disk.interface (Except LedgerError r.Value) := do
  match ← Disk.ask r with
  | .ok a => pure (.ok a)
  | .error e => pure (.error (.backend e.message))

/-- Writes the document of tables: the directories, the temporary file, the new name. -/
def persist (path : String) (t : Tables) : Program Disk.interface (Except LedgerError Unit) := do
  let directories : Except LedgerError Unit ← match Path.parent? path with
    | none => pure (.ok ())
    | some parent => onDisk (.makeDirectories parent)
  match directories with
  | .error e => pure (.error e)
  | .ok _ =>
    match ← onDisk (.write (temporaryPath path) (Bytes.ofText t.document)) with
    | .error e => pure (.error e)
    | .ok _ => onDisk (.rename (temporaryPath path) path)

/-- The tables of a document at a path; without a document they are empty. -/
def load (path : String) : Program Disk.interface (Except LedgerError Tables) := do
  match ← Disk.ask (.read path) with
  | .error .notFound => pure (.ok .empty)
  | .error e => pure (.error (.backend e.message))
  | .ok (content : Bytes) =>
    match content.text?.bind Tables.ofDocument? with
    | some t => pure (.ok t)
    | none => pure (.error (.serialization "not a ledger document"))

namespace Store

def opened (b : Backend) : Program Disk.interface (Except LedgerError Store) := do
  match b with
  | .memory => pure (.ok ⟨.memory, .empty⟩)
  | .file path => do
    let tables ← load path
    pure (tables.map (⟨.file path, ·⟩))

/-- Answers a request and returns the ledger after it. -/
def answer (now : Instant) (s : Store) (r : Request) :
    Program Disk.interface (Except LedgerError r.Value × Store) := do
  match r.writes, s.backend, Tables.perform now r s.tables with
  | _, _, .error e => pure (.error e, s)
  | true, .file path, .ok (value, tables) =>
    match ← persist path tables with
    | .error e => pure (.error e, s)
    | .ok _ => pure (.ok value, { s with tables := tables })
  | _, _, .ok (value, tables) => pure (.ok value, { s with tables := tables })

end Store

end Payout.Ledger
