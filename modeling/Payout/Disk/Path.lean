/-!
# Paths

Paths as written, and the parts of a path: the name it ends in, the directory before that, and the
path with another extension. A trailing slash and a trailing dot component do not count as a name.
-/

namespace Payout.Path

/-- Drops slashes and dot components from the end of a path, given backwards. -/
def dropTrailing : List Char → List Char
  | '/' :: rest => if rest.isEmpty then ['/'] else dropTrailing rest
  | '.' :: '/' :: rest => if rest.isEmpty then ['/'] else dropTrailing rest
  | path => path

/-- A path without what does not count at its end. -/
def trimmed (path : String) : List Char := (dropTrailing path.toList.reverse).reverse

/-- The part of a path up to and with its last slash, and the part after it. -/
def split (path : List Char) : List Char × List Char :=
  let name := (path.reverse.takeWhile (· ≠ '/')).reverse
  (path.take (path.length - name.length), name)

/-- The name that a path ends in; none for a path that ends in a dot component or in nothing. -/
def fileName? (path : String) : Option (List Char) :=
  let name := (split (trimmed path)).2
  if name = [] ∨ name = ['.'] ∨ name = ['.', '.'] then none else some name

/-- The directory that a path lies in: empty for a bare name, none for the root and the empty
path. -/
def parent? (path : String) : Option String :=
  let path := trimmed path
  if path = [] ∨ path = ['/'] then none
  else some (String.ofList (dropTrailing (split path).1.reverse).reverse)

/-- A name without its extension, which starts at the last dot unless that is its first
character. -/
def stem (name : List Char) : List Char :=
  match name.reverse.dropWhile (· ≠ '.') with
  | _ :: before => if before.isEmpty then name else before.reverse
  | [] => name

/-- The path with the extension of its name replaced; unchanged if it ends in no name. -/
def withExtension (extension path : String) : String :=
  match fileName? path with
  | none => path
  | some name =>
    String.ofList ((split (trimmed path)).1 ++ stem name ++ '.' :: extension.toList)

/-- The components of a path, in order; whether it starts at the root; and whether it can only be a
directory. -/
structure Parts where
  absolute : Bool
  components : List String
  directory : Bool

/-- The parts of a text between its slashes. -/
def pieces : List Char → List (List Char)
  | [] => [[]]
  | c :: rest =>
    if c = '/' then [] :: pieces rest
    else match pieces rest with
      | piece :: more => (c :: piece) :: more
      | [] => [[c]]

/-- Takes a path apart. -/
def parts (path : String) : Parts :=
  let pieces := pieces path.toList
  { absolute := path.toList.head? = some '/'
    components := (pieces.filter fun c => c ≠ [] ∧ c ≠ ['.']).map String.ofList
    directory := path.toList ≠ [] ∧ pieces.getLast? ∈ [some [], some ['.'], some ['.', '.']] }

end Payout.Path
