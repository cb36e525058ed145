import Payout.Json.Number

/-!
# Reading JSON

A reader for a whole text. It accepts exactly the grammar of the format; text and numbers that have
no value become `Json.unusable`, so that a value nobody asks for may hold them.
-/

namespace Payout.Json

/-- Drops blanks, tabs and line ends. -/
def skipBlanks : List Char → List Char
  | c :: rest => if c = ' ' ∨ c = '\n' ∨ c = '\t' ∨ c = '\r' then skipBlanks rest else c :: rest
  | [] => []

/-- The value of four hexadecimal digits. -/
def unit? (a b c d : Char) : Option Nat := Text.natOfHex? [a, b, c, d]

/-- The character of an escape other than by code. -/
def unescape? (c : Char) : Option Char :=
  match c with
  | '"' => some '"'
  | '\\' => some '\\'
  | '/' => some '/'
  | 'b' => some '\x08'
  | 'f' => some '\x0c'
  | 'n' => some '\n'
  | 'r' => some '\r'
  | 't' => some '\t'
  | _ => none

/-- Whether a code unit is the first half of a surrogate pair. -/
def isHighHalf (n : Nat) : Bool := 0xD800 ≤ n ∧ n < 0xDC00

/-- Whether a code unit is the second half of a surrogate pair. -/
def isLowHalf (n : Nat) : Bool := 0xDC00 ≤ n ∧ n < 0xE000

/-- The character of a surrogate pair. -/
def pairChar (high low : Nat) : Char :=
  Char.ofNat (0x10000 + (high - 0xD800) * 0x400 + (low - 0xDC00))

/-- The characters of code points and surrogate halves; none if a half stands alone. -/
def joinUnits : List Nat → Option (List Char)
  | [] => some []
  | high :: low :: rest =>
    if isHighHalf high ∧ isLowHalf low then (pairChar high low :: ·) <$> joinUnits rest
    else if isHighHalf high ∨ isLowHalf high then none
    else (Char.ofNat high :: ·) <$> joinUnits (low :: rest)
  | [n] => if isHighHalf n ∨ isLowHalf n then none else some [Char.ofNat n]

/-- Reads text up to its closing quote, as code points and surrogate halves, and returns what
follows it. -/
def readUnits : List Char → Option (List Nat × List Char)
  | [] => none
  | '"' :: rest => some ([], rest)
  | '\\' :: 'u' :: a :: b :: c :: d :: rest => do
    let n ← unit? a b c d
    let (units, rest) ← readUnits rest
    some (n :: units, rest)
  | '\\' :: c :: rest => do
    let c ← unescape? c
    let (units, rest) ← readUnits rest
    some (c.toNat :: units, rest)
  | c :: rest =>
    if c.toNat < 32 ∨ c = '\\' then none
    else do
      let (units, rest) ← readUnits rest
      some (c.toNat :: units, rest)

/-- Reads text up to its closing quote; the text is none if it holds half a surrogate pair. -/
def readText (text : List Char) : Option (Option String × List Char) := do
  let (units, rest) ← readUnits text
  some ((joinUnits units).map String.ofList, rest)

/-- Splits off the leading decimal digits. -/
def readDigits : List Char → List Nat × List Char
  | [] => ([], [])
  | c :: rest =>
    if '0' ≤ c ∧ c ≤ '9' then
      let (digits, rest) := readDigits rest
      ((c.toNat - 48) :: digits, rest)
    else ([], c :: rest)

/-- Reads the part of a number from its exponent mark on. -/
def readExponent (rest : List Char) : Option (Option (Bool × List Nat) × List Char) :=
  match rest with
  | c :: more =>
    if c = 'e' ∨ c = 'E' then
      let (negative, more) := match more with
        | '-' :: more => (true, more)
        | '+' :: more => (false, more)
        | _ => (false, more)
      let (digits, more) := readDigits more
      if digits.isEmpty then none else some (some (negative, digits), more)
    else some (none, rest)
  | [] => some (none, [])

/-- Reads the part of a number from its point on. -/
def readFraction (rest : List Char) : Option (Option (List Nat) × List Char) :=
  match rest with
  | '.' :: more =>
    let (digits, more) := readDigits more
    if digits.isEmpty then none else some (some digits, more)
  | _ => some (none, rest)

def readNumber (text : List Char) : Option (Json × List Char) := do
  let (negative, text) := match text with
    | '-' :: rest => (true, rest)
    | _ => (false, text)
  let (whole, text) := readDigits text
  if whole.isEmpty ∨ (whole.head? = some 0 ∧ whole.length ≠ 1) then none
  else
    let (fraction, text) ← readFraction text
    let (exponent, text) ← readExponent text
    some (Literal.value ⟨negative, whole, fraction, exponent⟩, text)

/-- A value made of named parts, or `unusable` when one of the names is. -/
def ofMembers (members : List (Option String × Json)) : Json :=
  match members.mapM fun (k, v) => k.map (·, v) with
  | some members => .object members
  | none => .unusable

mutual

/-- Reads a value after blanks; `fuel` bounds the number of values and separators. -/
def readValue : Nat → List Char → Option (Json × List Char)
  | 0, _ => none
  | fuel + 1, text =>
    match skipBlanks text with
    | 'n' :: 'u' :: 'l' :: 'l' :: rest => some (.null, rest)
    | 't' :: 'r' :: 'u' :: 'e' :: rest => some (.bool true, rest)
    | 'f' :: 'a' :: 'l' :: 's' :: 'e' :: rest => some (.bool false, rest)
    | '"' :: rest => do
      let (s, rest) ← readText rest
      some (s.elim .unusable .string, rest)
    | '[' :: rest =>
      match skipBlanks rest with
      | ']' :: rest => some (.array [], rest)
      | rest => do
        let (items, rest) ← readItems fuel rest
        some (.array items, rest)
    | '{' :: rest =>
      match skipBlanks rest with
      | '}' :: rest => some (.object [], rest)
      | rest => do
        let (members, rest) ← readMembers fuel rest
        some (ofMembers members, rest)
    | text => readNumber text

/-- Reads the items of an array up to its closing bracket. -/
def readItems : Nat → List Char → Option (List Json × List Char)
  | 0, _ => none
  | fuel + 1, text => do
    let (v, rest) ← readValue fuel text
    match skipBlanks rest with
    | ',' :: rest => do
      let (items, rest) ← readItems fuel rest
      some (v :: items, rest)
    | ']' :: rest => some ([v], rest)
    | _ => none

/-- Reads the members of an object up to its closing brace. -/
def readMembers : Nat → List Char → Option (List (Option String × Json) × List Char)
  | 0, _ => none
  | fuel + 1, text => do
    match skipBlanks text with
    | '"' :: rest => do
      let (k, rest) ← readText rest
      match skipBlanks rest with
      | ':' :: rest => do
        let (v, rest) ← readValue fuel rest
        match skipBlanks rest with
        | ',' :: rest => do
          let (members, rest) ← readMembers fuel rest
          some ((k, v) :: members, rest)
        | '}' :: rest => some ([(k, v)], rest)
        | _ => none
      | _ => none
    | _ => none

end

/-- Reads a text that holds one value and blanks around it. -/
def ofText? (text : String) : Option Json := do
  let chars := text.toList
  let (v, rest) ← readValue (2 * chars.length + 2) chars
  if (skipBlanks rest).isEmpty then some v else none

end Payout.Json
