import Payout.Text.Hex

/-!
# Quoted TOML text

Text between double quotes, with escapes, or between single quotes, as it stands; either on one line
or, between three quotes, on several. Control characters other than the tab are refused.
-/

namespace Payout.Toml

/-- Whether a character may stand for itself in text and comments. -/
def isPlain (c : Char) : Bool := c = '\t' ∨ (32 ≤ c.toNat ∧ c.toNat ≠ 127)

/-- Whether a character is a blank within a line. -/
def isSpace (c : Char) : Bool := c = ' ' ∨ c = '\t'

/-- The character of a code given by exactly `width` hexadecimal digits, and what follows them. -/
def readCode? (width : Nat) (text : List Char) : Option (Char × List Char) := do
  let digits := text.take width
  if digits.length = width then
    let n ← Text.natOfHex? digits
    if h : n.isValidChar then some (Char.ofNatAux n h, text.drop width) else none
  else none

/-- The character of an escape, and what follows it; the text starts after the backslash. -/
def readEscape? : List Char → Option (Char × List Char)
  | 'b' :: rest => some ('\x08', rest)
  | 't' :: rest => some ('\t', rest)
  | 'n' :: rest => some ('\n', rest)
  | 'f' :: rest => some ('\x0c', rest)
  | 'r' :: rest => some ('\r', rest)
  | 'e' :: rest => some ('\x1b', rest)
  | '"' :: rest => some ('"', rest)
  | '\\' :: rest => some ('\\', rest)
  | 'x' :: rest => readCode? 2 rest
  | 'u' :: rest => readCode? 4 rest
  | 'U' :: rest => readCode? 8 rest
  | _ => none

/-- Reads escaped text up to its closing quote; `fuel` bounds the number of characters. -/
def readEscaped? : Nat → List Char → Option (List Char × List Char)
  | 0, _ => none
  | _ + 1, [] => none
  | fuel + 1, c :: rest =>
    if c = '"' then some ([], rest)
    else do
      let (c, rest) ←
        if c = '\\' then readEscape? rest else if isPlain c then some (c, rest) else none
      let (text, rest) ← readEscaped? fuel rest
      some (c :: text, rest)

/-- Reads verbatim text up to its closing quote. -/
def readVerbatim? : List Char → Option (List Char × List Char)
  | [] => none
  | c :: rest =>
    if c = '\x27' then some ([], rest)
    else if isPlain c then do
      let (text, rest) ← readVerbatim? rest
      some (c :: text, rest)
    else none

/-- Splits a line end off a text. -/
def readLineEnd? : List Char → Option (List Char × List Char)
  | '\n' :: rest => some (['\n'], rest)
  | '\r' :: '\n' :: rest => some (['\r', '\n'], rest)
  | _ => none

/-- What follows the three quotes that end text: up to two more quotes belong to the text. -/
def closing? (quote : Char) (text : List Char) : Option (List Char × List Char) :=
  let quotes := text.takeWhile (· = quote)
  if quotes.length < 3 then none
  else
    let own := quotes.take (min 5 quotes.length - 3)
    some (own, text.drop (own.length + 3))

/-- Drops blanks and line ends. -/
def skipBlankLines : List Char → List Char
  | '\r' :: '\n' :: rest => skipBlankLines rest
  | c :: rest => if isSpace c ∨ c = '\n' then skipBlankLines rest else c :: rest
  | [] => []

/-- Drops the blanks and line ends that follow a backslash at the end of a line; none if the line
goes on after the backslash. -/
def joinLines? (text : List Char) : Option (List Char) :=
  (readLineEnd? (text.dropWhile isSpace)).map fun _ => skipBlankLines text

/-- Reads text on several lines up to its closing quotes, with escapes between double quotes; `fuel`
bounds the number of characters. -/
def readLines? (quote : Char) : Nat → List Char → Option (List Char × List Char)
  | 0, _ => none
  | _ + 1, [] => none
  | fuel + 1, c :: rest =>
    match closing? quote (c :: rest) with
    | some result => some result
    | none =>
      if c = '\\' ∧ quote = '"' then
        match joinLines? rest with
        | some rest => readLines? quote fuel rest
        | none => do
          let (c, rest) ← readEscape? rest
          let (text, rest) ← readLines? quote fuel rest
          some (c :: text, rest)
      else do
        let (own, rest) ← match readLineEnd? (c :: rest) with
          | some lineEnd => some lineEnd
          | none => if isPlain c then some ([c], rest) else none
        let (text, rest) ← readLines? quote fuel rest
        some (own ++ text, rest)

/-- Reads text on several lines; a line end right after the opening quotes does not count. -/
def readBlock? (quote : Char) (text : List Char) : Option (List Char × List Char) :=
  let text := (readLineEnd? text).elim text Prod.snd
  readLines? quote (text.length + 1) text

def readLine? : List Char → Option (String × List Char)
  | '"' :: rest => do
    let (text, rest) ← readEscaped? (rest.length + 1) rest
    some (String.ofList text, rest)
  | '\x27' :: rest => do
    let (text, rest) ← readVerbatim? rest
    some (String.ofList text, rest)
  | _ => none

def readQuoted? : List Char → Option (String × List Char)
  | '"' :: '"' :: '"' :: rest => do
    let (text, rest) ← readBlock? '"' rest
    some (String.ofList text, rest)
  | '\x27' :: '\x27' :: '\x27' :: rest => do
    let (text, rest) ← readBlock? '\x27' rest
    some (String.ofList text, rest)
  | text => readLine? text

end Payout.Toml
