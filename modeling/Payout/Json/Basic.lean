import Payout.Binary64
import Payout.Text.Hex

/-!
# JSON values

The value type, its two written forms, and free values: those that can be kept as they are, with
each object's members sorted by name and only the last of equal names.
-/

namespace Payout

/-- A JSON value. Whole numbers are those of signed or unsigned 64 bits written without fraction or
exponent; all others are binary64. -/
inductive Json where
  | null
  | bool (value : Bool)
  | integer (value : Int)
  | float (value : Binary64)
  | string (value : String)
  | array (items : List Json)
  | object (members : List (String × Json))
  /-- A value that can be skipped but not used: text with half a surrogate pair, or a number beyond
  the range of binary64. -/
  | unusable

instance : Inhabited Json := ⟨.null⟩

namespace Json

/-- A character inside quotes. -/
def escape (c : Char) : List Char :=
  if c = '"' then ['\\', '"']
  else if c = '\\' then ['\\', '\\']
  else if c = '\n' then ['\\', 'n']
  else if c = '\r' then ['\\', 'r']
  else if c = '\t' then ['\\', 't']
  else if c = '\x08' then ['\\', 'b']
  else if c = '\x0c' then ['\\', 'f']
  else if c.toNat < 32 then '\\' :: 'u' :: Text.hexOfNat 4 c.toNat
  else [c]

/-- Text inside quotes. -/
def quote (s : String) : List Char := '"' :: s.toList.flatMap escape ++ ['"']

/-- A whole number in digits. -/
def integerText (n : Int) : List Char :=
  (if n < 0 then ['-'] else []) ++ Nat.toDigits 10 n.natAbs

/-- A value that holds no other, written out. -/
def scalarText : Json → List Char
  | .bool true => ['t', 'r', 'u', 'e']
  | .bool false => ['f', 'a', 'l', 's', 'e']
  | .integer n => integerText n
  | .float x => x.scientificText
  | .string s => quote s
  | _ => ['n', 'u', 'l', 'l']

mutual

/-- The value on one line, without blanks. -/
def compact : Json → List Char
  | .array items => '[' :: compactItems items ++ [']']
  | .object members => '{' :: compactMembers members ++ ['}']
  | .null => scalarText .null
  | .bool b => scalarText (.bool b)
  | .integer n => scalarText (.integer n)
  | .float x => scalarText (.float x)
  | .string s => scalarText (.string s)
  | .unusable => scalarText .null

/-- Items separated by commas. -/
def compactItems : List Json → List Char
  | [] => []
  | [v] => compact v
  | v :: rest => compact v ++ ',' :: compactItems rest

/-- Members separated by commas. -/
def compactMembers : List (String × Json) → List Char
  | [] => []
  | [(k, v)] => quote k ++ ':' :: compact v
  | (k, v) :: rest => quote k ++ ':' :: compact v ++ ',' :: compactMembers rest

end

/-- A line break and the indentation of a nesting level. -/
def newLine (level : Nat) : List Char := '\n' :: List.replicate (2 * level) ' '

mutual

/-- The value with a line for each item and member, indented by two blanks a level; an empty array
or object stays on its line. -/
def pretty (level : Nat) : Json → List Char
  | .array [] => ['[', ']']
  | .array items =>
    '[' :: newLine (level + 1) ++ prettyItems (level + 1) items ++ newLine level ++ [']']
  | .object [] => ['{', '}']
  | .object members =>
    '{' :: newLine (level + 1) ++ prettyMembers (level + 1) members ++ newLine level ++ ['}']
  | .null => scalarText .null
  | .bool b => scalarText (.bool b)
  | .integer n => scalarText (.integer n)
  | .float x => scalarText (.float x)
  | .string s => scalarText (.string s)
  | .unusable => scalarText .null

/-- Items on lines of one level. -/
def prettyItems (level : Nat) : List Json → List Char
  | [] => []
  | [v] => pretty level v
  | v :: rest => pretty level v ++ ',' :: newLine level ++ prettyItems level rest

/-- Members on lines of one level. -/
def prettyMembers (level : Nat) : List (String × Json) → List Char
  | [] => []
  | [(k, v)] => quote k ++ ':' :: ' ' :: pretty level v
  | (k, v) :: rest =>
    quote k ++ ':' :: ' ' :: pretty level v ++ ',' :: newLine level ++ prettyMembers level rest

end

/-- The value as a line of text. -/
def compactText (v : Json) : String := String.ofList (compact v)

/-- The value as indented text. -/
def prettyText (v : Json) : String := String.ofList (pretty 0 v)

mutual

/-- How deep arrays and objects lie in one another. -/
def depth : Json → Nat
  | .array items => depthOfItems items + 1
  | .object members => depthOfMembers members + 1
  | _ => 0

/-- The greatest depth among items. -/
def depthOfItems : List Json → Nat
  | [] => 0
  | v :: rest => max (depth v) (depthOfItems rest)

/-- The greatest depth among members. -/
def depthOfMembers : List (String × Json) → Nat
  | [] => 0
  | (_, v) :: rest => max (depth v) (depthOfMembers rest)

end

/-- Puts a member into members sorted by name, in place of one of the same name. -/
def insertMember (k : String) (v : Json) : List (String × Json) → List (String × Json)
  | [] => [(k, v)]
  | (k', v') :: rest =>
    if k < k' then (k, v) :: (k', v') :: rest
    else if k = k' then (k, v) :: rest
    else (k', v') :: insertMember k v rest

mutual

/-- The value with the members of every object sorted by name, of equal names the last; none when
some part of it cannot be used. -/
def free? : Json → Option Json
  | .array items => do pure (.array (← freeItems? items))
  | .object members => do pure (.object (← freeMembers? [] members))
  | .unusable => none
  | .null => some .null
  | .bool b => some (.bool b)
  | .integer n => some (.integer n)
  | .float x => some (.float x)
  | .string s => some (.string s)

/-- The free forms of items. -/
def freeItems? : List Json → Option (List Json)
  | [] => some []
  | v :: rest => do pure ((← free? v) :: (← freeItems? rest))

/-- The free forms of members, put into those collected so far. -/
def freeMembers? (collected : List (String × Json)) : List (String × Json) →
    Option (List (String × Json))
  | [] => some collected
  | (k, v) :: rest => do
    let v ← free? v
    freeMembers? (insertMember k v collected) rest

end

end Json

end Payout
