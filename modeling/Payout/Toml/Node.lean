import Payout.Toml.Basic

/-!
# Tables under construction

A document names a table by a header, by dotted keys, or on the way to either, and each name may be
used in certain ways only: a header opens a table once, and a dotted key puts its value into tables
that dotted keys made. Values written in place, tables and arrays among them, stay as they are.
-/

namespace Payout.Toml

/-- How a table came to be. -/
inductive Origin where
  /-- A header named it. -/
  | header
  /-- It lies on the way to a table that a header named. -/
  | implied
  /-- Dotted keys made it. -/
  | dotted
deriving DecidableEq

/-- A value, a table that may grow, or tables under one name of which the last may grow. -/
inductive Node where
  | value (v : Toml)
  | table (origin : Origin) (members : List (String × Node))
  | tables (earlier : List (List (String × Node))) (last : List (String × Node))

/-- The members of a table. -/
abbrev Members := List (String × Node)

namespace Node

mutual

/-- The value that a node came to be. -/
def toToml : Node → Toml
  | value v => v
  | table _ members => .table (membersToToml members)
  | tables earlier last => .array (tablesToToml earlier ++ [.table (membersToToml last)])

/-- The values of members. -/
def membersToToml : List (String × Node) → List (String × Toml)
  | [] => []
  | (name, node) :: rest => (name, toToml node) :: membersToToml rest

/-- The values of tables. -/
def tablesToToml : List (List (String × Node)) → List Toml
  | [] => []
  | members :: rest => .table (membersToToml members) :: tablesToToml rest

end

end Node

namespace Members

/-- The members with a node under a name, in the place of the one there, else at the end. -/
def put (name : String) (node : Node) : Members → Members
  | [] => [(name, node)]
  | (name', node') :: rest =>
    if name' = name then (name, node) :: rest else (name', node') :: put name node rest

/-- Changes the table that a path leads to, given how it came to be. Tables that are missing on the
way come to be like the path; a dotted path does not pass through a table that a header named, and
nothing passes through a value. Of several tables under one name the last is meant. -/
def change (way : Origin) (f : Origin → Members → Option Members) :
    List String → Origin → Members → Option Members
  | [], here, members => f here members
  | name :: path, _, members =>
    match members.lookup name with
    | none => do
      let inner ← change way f path way []
      some (members.put name (.table way inner))
    | some (.table origin inner) =>
      if way = .dotted ∧ origin = .header then none
      else do
        let inner ← change way f path origin inner
        some (members.put name (.table origin inner))
    | some (.tables earlier last) => do
      let last ← change way f path .header last
      some (members.put name (.tables earlier last))
    | some (.value _) => none

/-- Puts a value under a dotted key: the path to its table, and its name there. -/
def assign (path : List String) (name : String) (v : Toml) (members : Members) : Option Members :=
  let add (here : Origin) (members : Members) : Option Members :=
    if (here = .dotted) = (path = []) then none
    else if (members.lookup name).isSome then none
    else some (members.put name (.value v))
  change .dotted add path .header members

/-- Opens the table of a header. -/
def openTable (path : List String) (name : String) (members : Members) : Option Members :=
  let add (_ : Origin) (members : Members) : Option Members :=
    match members.lookup name with
    | none => some (members.put name (.table .header []))
    | some (.table .implied inner) => some (members.put name (.table .header inner))
    | _ => none
  change .implied add path .header members

/-- Opens one more of the tables under the name of a header. -/
def openNext (path : List String) (name : String) (members : Members) : Option Members :=
  let add (_ : Origin) (members : Members) : Option Members :=
    match members.lookup name with
    | none => some (members.put name (.tables [] []))
    | some (.tables earlier last) => some (members.put name (.tables (earlier ++ [last]) []))
    | _ => none
  change .implied add path .header members

/-- Puts a value under a dotted key in the table that a header opened. -/
def assignIn (header path : List String) (name : String) (v : Toml) (members : Members) :
    Option Members :=
  change .implied (fun _ members => assign path name v members) header .header members

end Members

end Payout.Toml
