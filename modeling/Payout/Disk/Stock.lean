import Payout.Disk.Tree

/-!
# Stocking disks

What a disk holds below its home directory, by relative names, and how it comes to hold it.
-/

namespace Payout.Disk

/-- Makes a place a directory unless something is there. -/
def ensurePlace (d : Disk) (place : List String) : Disk :=
  if (d.entry? place).isSome then d else d.put place .directory

/-- Puts something under a path below the home directory, with the directories above it. -/
def stock (d : Disk) (path : String) (e : DiskEntry) : Disk :=
  let components := (Path.parts path).components
  let above := (List.range components.length).map fun n => home ++ components.take n
  (above.foldl ensurePlace d).put (home ++ components) e

/-- Removes what lies under a path below the home directory. -/
def discard (d : Disk) (path : String) : Disk :=
  d.erase (home ++ (Path.parts path).components)

/-- Whether something lies below a place. -/
def isAbove (d : Disk) (place : List String) : Bool :=
  d.entries.any fun e => place.isPrefixOf e.1 && e.1 ≠ place

/-- Every file below the home directory and every directory without anything in it. -/
def listing (d : Disk) : List (String × DiskEntry) :=
  d.entries.filterMap fun (place, e) =>
    if !home.isPrefixOf place || place = home || d.isAbove place then none
    else some ("/".intercalate (place.drop home.length), e)

end Payout.Disk
