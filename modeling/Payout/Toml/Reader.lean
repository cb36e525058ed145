import Payout.Toml.Node
import Payout.Toml.Quoted
import Payout.Toml.Scalar

/-!
# Reading TOML

A document is read line by line: blank lines, headers, and keys with values. Arrays and tables
written in place may go over several lines and lie at most eighty deep in one another.
-/

namespace Payout.Toml

/-- How deep arrays and tables written in place may lie in one another. -/
def maxDepth : Nat := 80

/-- Drops blanks within a line. -/
def skipSpaces (text : List Char) : List Char := text.dropWhile isSpace

/-- Drops a comment, if there is one; what follows has to be a line end or nothing. -/
def skipComment? : List Char → Option (List Char)
  | '#' :: rest =>
    match rest.dropWhile isPlain with
    | [] => some []
    | rest => if (readLineEnd? rest).isSome then some rest else none
  | text => some text

/-- Drops blanks, comments and line ends; `fuel` bounds the number of line ends. -/
def skipLines? : Nat → List Char → Option (List Char)
  | 0, _ => none
  | fuel + 1, text => do
    let rest ← skipComment? (skipSpaces text)
    match readLineEnd? rest with
    | some (_, rest) => skipLines? fuel rest
    | none => some rest

/-- Whether a character may stand in an unquoted key. -/
def isBare (c : Char) : Bool := c.isAlphanum ∨ c = '-' ∨ c = '_'

/-- Reads one part of a key. -/
def readName? (text : List Char) : Option (String × List Char) :=
  match readLine? text with
  | some result => some result
  | none =>
    let name := text.takeWhile isBare
    if name.isEmpty then none else some (String.ofList name, text.drop name.length)

/-- Reads a key: its parts but the last, and the last. `fuel` bounds the number of parts. -/
def readKey? : Nat → List Char → Option (List String × String × List Char)
  | 0, _ => none
  | fuel + 1, text => do
    let (name, rest) ← readName? (skipSpaces text)
    match skipSpaces rest with
    | '.' :: rest => do
      let (path, last, rest) ← readKey? fuel rest
      some (name :: path, last, rest)
    | rest => some ([], name, rest)

/-- Whether a character ends an unquoted value. -/
def endsScalar (c : Char) : Bool :=
  isSpace c ∨ c = '\r' ∨ c = '\n' ∨ c = '#' ∨ c = ',' ∨ c = '[' ∨ c = ']' ∨ c = '{' ∨
    c = '}' ∨ c = '='

/-- Reads an unquoted value. A date and a time may have one blank between them. -/
def readScalar? (text : List Char) : Option (Toml × List Char) := do
  let first := text.takeWhile (!endsScalar ·)
  let second := match text.drop first.length with
    | ' ' :: c :: rest => if c.isDigit ∧ Moment.isDated first then
        ' ' :: (c :: rest).takeWhile (!endsScalar ·) else []
    | _ => []
  let v ← scalar? (first ++ second)
  some (v, text.drop (first.length + second.length))

mutual

/-- Reads a value inside `depth` others; `fuel` bounds the number of values and keys. -/
def readValue? : Nat → Nat → List Char → Option (Toml × List Char)
  | 0, _, _ => none
  | fuel + 1, depth, text =>
    match text with
    | '"' :: _ | '\x27' :: _ => do
      let (s, rest) ← readQuoted? text
      some (.string s, rest)
    | '[' :: rest =>
      if maxDepth ≤ depth then none
      else do
        let (items, rest) ← readItems? fuel (depth + 1) rest
        some (.array items, rest)
    | '{' :: rest =>
      if maxDepth ≤ depth then none
      else do
        let (members, rest) ← readMembers? fuel (depth + 1) [] rest
        some (.table (Node.membersToToml members), rest)
    | _ => readScalar? text

/-- Reads the items of an array up to its closing bracket. -/
def readItems? : Nat → Nat → List Char → Option (List Toml × List Char)
  | 0, _, _ => none
  | fuel + 1, depth, text => do
    match ← skipLines? (text.length + 1) text with
    | ']' :: rest => some ([], rest)
    | text => do
      let (v, rest) ← readValue? fuel depth text
      match ← skipLines? (rest.length + 1) rest with
      | ',' :: rest => do
        let (items, rest) ← readItems? fuel depth rest
        some (v :: items, rest)
      | ']' :: rest => some ([v], rest)
      | _ => none

/-- Reads the members of a table written in place up to its closing brace and adds them to those
before. -/
def readMembers? : Nat → Nat → Members → List Char → Option (Members × List Char)
  | 0, _, _, _ => none
  | fuel + 1, depth, members, text => do
    match ← skipLines? (text.length + 1) text with
    | '}' :: rest => some (members, rest)
    | text => do
      let (path, name, rest) ← readKey? (text.length + 1) text
      match rest with
      | '=' :: rest => do
        let (v, rest) ← readValue? fuel depth (skipSpaces rest)
        let members ← members.assign path name v
        match ← skipLines? (rest.length + 1) rest with
        | ',' :: rest => readMembers? fuel depth members rest
        | '}' :: rest => some (members, rest)
        | _ => none
      | _ => none

end

/-- What follows the end of a line, after blanks and a comment. -/
def endLine? (text : List Char) : Option (List Char) := do
  match ← skipComment? (skipSpaces text) with
  | [] => some []
  | rest => Prod.snd <$> readLineEnd? rest

/-- A document as read so far: its tables, and the path of the table that is open. -/
structure Draft where
  members : Members
  opened : List String

/-- Reads a header after its opening bracket. -/
def readHeader? (draft : Draft) (text : List Char) : Option (Draft × List Char) := do
  let (isNext, text) := match text with
    | '[' :: rest => (true, rest)
    | _ => (false, text)
  let (path, name, rest) ← readKey? (text.length + 1) text
  let rest ← match isNext, rest with
    | true, ']' :: ']' :: rest => some rest
    | false, ']' :: rest => some rest
    | _, _ => none
  let members ← if isNext then draft.members.openNext path name
    else draft.members.openTable path name
  some (⟨members, path ++ [name]⟩, ← endLine? rest)

/-- Reads a key and its value. -/
def readPair? (draft : Draft) (text : List Char) : Option (Draft × List Char) := do
  let (path, name, rest) ← readKey? (text.length + 1) text
  match rest with
  | '=' :: rest => do
    let (v, rest) ← readValue? (rest.length + 1) 0 (skipSpaces rest)
    let members ← draft.members.assignIn draft.opened path name v
    some ({ draft with members := members }, ← endLine? rest)
  | _ => none

/-- Reads lines up to the end; `fuel` bounds their number. -/
def readDocument? : Nat → Draft → List Char → Option Draft
  | 0, _, _ => none
  | fuel + 1, draft, text => do
    match ← skipLines? (text.length + 1) text with
    | [] => some draft
    | '[' :: rest => do
      let (draft, rest) ← readHeader? draft rest
      readDocument? fuel draft rest
    | text => do
      let (draft, rest) ← readPair? draft text
      readDocument? fuel draft rest

/-- The table of a document. A byte order mark at its start does not count. -/
def ofText? (text : String) : Option Toml := do
  let chars := text.toList
  let chars := if chars.head? = some '\ufeff' then chars.drop 1 else chars
  let draft ← readDocument? (chars.length + 1) ⟨[], []⟩ chars
  some (.table (Node.membersToToml draft.members))

end Payout.Toml
