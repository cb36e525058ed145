import Payout.Disk.Path

/-!
# Disks

Files and directories by name, and what reading, writing, renaming and making directories does to
them. Relative paths start at a home directory.
-/

namespace Payout

/-- The content of a file. -/
abbrev Bytes := List UInt8

def Bytes.ofText (s : String) : Bytes := s.toUTF8.data.toList

/-- The text that bytes stand for, if they are valid UTF-8. -/
def Bytes.text? (b : Bytes) : Option String := String.fromUTF8? ⟨b.toArray⟩

/-- Why a disk refuses. -/
inductive DiskError where
  | notFound
  | notDirectory
  | isDirectory
  | exists
  | invalidName
  | nameTooLong
  /-- Any other reason, in the words of the disk. -/
  | other (reason : String)
deriving DecidableEq

def DiskError.message : DiskError → String
  | .notFound => "No such file or directory (os error 2)"
  | .notDirectory => "Not a directory (os error 20)"
  | .isDirectory => "Is a directory (os error 21)"
  | .exists => "File exists (os error 17)"
  | .invalidName => "file name contained an unexpected NUL byte"
  | .nameTooLong => "File name too long (os error 36)"
  | .other reason => reason

/-- What stands under a name. -/
inductive DiskEntry where
  | file (content : Bytes)
  | directory
deriving DecidableEq

/-- The names on a disk, each from the root down. The root is a directory without an entry. -/
structure Disk where
  entries : List (List String × DiskEntry)
deriving DecidableEq

namespace Disk

/-- Where relative paths start. -/
def home : List String := ["home"]

/-- A disk with nothing but its home directory. -/
def empty : Disk := ⟨[(home, .directory)]⟩

/-- What stands under a place. -/
def entry? (d : Disk) (place : List String) : Option DiskEntry :=
  if place = [] then some .directory else d.entries.lookup place

/-- The disk with something put under a place. -/
def put (d : Disk) (place : List String) (e : DiskEntry) : Disk :=
  ⟨(place, e) :: d.entries.filter (·.1 ≠ place)⟩

/-- The disk without what stands under a place itself. -/
def remove (d : Disk) (place : List String) : Disk := ⟨d.entries.filter (·.1 ≠ place)⟩

/-- The disk without a place and all that lies under it. -/
def erase (d : Disk) (place : List String) : Disk :=
  ⟨d.entries.filter fun e => !place.isPrefixOf e.1⟩

/-- Goes down from a directory; every component but the last has to lead to a directory. -/
def walk (d : Disk) : List String → List String → Except DiskError (List String)
  | place, [] => .ok place
  | place, c :: rest =>
    if 255 < c.utf8ByteSize then .error .nameTooLong
    else
      let next := if c = ".." then place.dropLast else place ++ [c]
      if rest.isEmpty then .ok next
      else match d.entry? next with
        | none => .error .notFound
        | some (.file _) => .error .notDirectory
        | some .directory => walk d next rest

/-- The place that a path leads to. -/
def locate (d : Disk) (path : String) : Except DiskError (List String) :=
  if path.isEmpty then .error .notFound
  else if '\x00' ∈ path.toList then .error .invalidName
  else
    let parts := Path.parts path
    d.walk (if parts.absolute then [] else home) parts.components

/-- What a path leads to, with its place; a file may not be written as a directory. -/
def find (d : Disk) (path : String) : Except DiskError (List String × Option DiskEntry) := do
  let place ← d.locate path
  match d.entry? place with
  | some (.file content) =>
    if (Path.parts path).directory then throw .notDirectory
    else pure (place, some (.file content))
  | e => pure (place, e)

/-- The content of a file. -/
def read (d : Disk) (path : String) : Except DiskError Bytes := do
  match ← d.find path with
  | (_, some (.file content)) => pure content
  | (_, some .directory) => throw .isDirectory
  | (_, none) => throw .notFound

/-- Whether a path leads to a directory. -/
def isDirectory (d : Disk) (path : String) : Bool :=
  match d.find path with
  | .ok (_, some .directory) => true
  | _ => false

def makeDirectory (d : Disk) (path : String) : Except DiskError Disk := do
  match ← d.find path with
  | (_, some _) => throw .exists
  | (place, none) => pure (d.put place .directory)

/-- Makes a directory unless it is there; returns the disk after it. -/
def ensureDirectory (d : Disk) (path : String) : Except DiskError Unit × Disk :=
  match d.makeDirectory path with
  | .ok d => (.ok (), d)
  | .error e => (if d.isDirectory path then .ok () else .error e, d)

/-- Makes a directory and those above it that are missing; `fuel` bounds how many that are. What was
made before a failure stays. -/
def makeDirectories : Nat → Disk → String → Except DiskError Unit × Disk
  | 0, d, _ => (.error .notFound, d)
  | fuel + 1, d, path =>
    if path.isEmpty then (.ok (), d)
    else match d.ensureDirectory path with
      | (.error .notFound, d) =>
        match Path.parent? path with
        | none => (.error .notFound, d)
        | some parent =>
          match makeDirectories fuel d parent with
          | (.ok _, d) => d.ensureDirectory path
          | (.error e, d) => (.error e, d)
      | result => result

/-- Writes a file, new or in place of its content. -/
def write (d : Disk) (path : String) (content : Bytes) : Except DiskError Disk := do
  match ← d.find path with
  | (_, some .directory) => throw .isDirectory
  | (place, some (.file _)) => pure (d.put place (.file content))
  | (place, none) =>
    if (Path.parts path).directory then throw .isDirectory
    else pure (d.put place (.file content))

/-- Gives a file another name, in place of a file that has it. -/
def rename (d : Disk) (source target : String) : Except DiskError Disk := do
  match ← d.find source with
  | (_, none) => throw .notFound
  | (_, some .directory) => throw .isDirectory
  | (origin, some (.file content)) =>
    match ← d.find target with
    | (_, some .directory) => throw .isDirectory
    | (place, _) =>
      if (Path.parts target).directory then throw .notDirectory
      else if place = origin then pure d
      else pure ((d.remove origin).put place (.file content))

end Disk

end Payout
