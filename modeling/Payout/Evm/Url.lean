import Payout.Power
import Payout.Text.Hex

/-!
# Addresses of nodes

Whether a text is an address on the web: a scheme, and for the schemes of the web a host that is a
name, an IPv4 or an IPv6 address, and a port. Blanks around it and line ends and tabs in it do not
count.
-/

namespace Payout.Url

/-- Whether a character is a control character or a blank. -/
def isControlOrSpace (c : Char) : Bool := c.toNat ≤ 32

/-- The text without what does not count. -/
def cleaned (text : List Char) : List Char :=
  let trimmed := (text.dropWhile isControlOrSpace).reverse.dropWhile isControlOrSpace
  trimmed.reverse.filter fun c => !(c = '\t' ∨ c = '\n' ∨ c = '\r')

/-- The scheme in lower case, and what follows its colon. -/
def scheme? (text : List Char) : Option (List Char × List Char) :=
  match text with
  | [] => none
  | first :: _ =>
    let name := text.takeWhile fun c => c.isAlphanum ∨ c = '+' ∨ c = '-' ∨ c = '.'
    match text.drop name.length with
    | ':' :: rest => if first.isAlpha then some (name.map Char.toLower, rest) else none
    | _ => none

/-- The schemes whose addresses have a host. -/
def hasHost (scheme : List Char) : Bool :=
  [['h', 't', 't', 'p'], ['h', 't', 't', 'p', 's'], ['w', 's'], ['w', 's', 's'],
    ['f', 't', 'p']].contains scheme

/-- Replaces `%` and two hexadecimal digits by the character of that value. -/
def unescaped : List Char → List Char
  | '%' :: a :: b :: rest =>
    match Text.natOfHex? [a, b] with
    | some n => Char.ofNat n :: unescaped rest
    | none => '%' :: unescaped (a :: b :: rest)
  | c :: rest => c :: unescaped rest
  | [] => []

/-- Whether a character may not stand in the name of a host. -/
def isForbidden (c : Char) : Bool :=
  isControlOrSpace c ∨ c.toNat = 127 ∨
    ['#', '/', ':', '<', '>', '?', '@', '[', '\\', ']', '^', '|', '%'].contains c

/-- The parts of a text between the places of a mark. -/
def splitAt (mark : Char) : List Char → List (List Char)
  | [] => [[]]
  | c :: rest =>
    match splitAt mark rest with
    | [] => [[c]]
    | part :: parts => if c = mark then [] :: part :: parts else (c :: part) :: parts

/-- The value of digits in a base, if all are digits of it. -/
def digitsValue? (base : Nat) (digits : List Char) : Option Nat :=
  digits.foldlM (fun n c => do
    let d ← Text.hexValue? c
    if d < base then some (base * n + d) else none) 0

/-- The number of a part of an IPv4 address: decimal, octal after a zero, or hexadecimal after
`0x`. -/
def ipv4Number? (part : List Char) : Option Nat :=
  match part with
  | [] => none
  | '0' :: 'x' :: digits => digitsValue? 16 digits
  | '0' :: 'X' :: digits => digitsValue? 16 digits
  | '0' :: digits => digitsValue? 8 digits
  | digits => digitsValue? 10 digits

/-- The parts of a host name, without an empty one at its end. -/
def labels (host : List Char) : List (List Char) :=
  let parts := splitAt '.' host
  if 1 < parts.length ∧ parts.getLast? = some [] then parts.dropLast else parts

/-- Whether the last part of a host name is a number, so that the name has to be an IPv4 address. -/
def endsInNumber (host : List Char) : Bool :=
  match (labels host).getLast? with
  | none => false
  | some part => (part ≠ [] ∧ part.all Char.isDigit) ∨ (ipv4Number? part).isSome

/-- Whether a host name is an IPv4 address: at most four numbers, all but the last below 256, the
last within the bytes that are left. -/
def isIPv4 (host : List Char) : Bool :=
  let parts := labels host
  match parts.mapM ipv4Number? with
  | none => false
  | some numbers =>
    match numbers.reverse with
    | [] => false
    | last :: before =>
      parts.length ≤ 4 ∧ before.all (· < 256) ∧ last < 256 ^ (5 - parts.length)

/-- How many pieces of sixteen bits parts stand for, if each is one of one to four hexadecimal
digits; the last may be an IPv4 address for two. -/
def pieces? : List (List Char) → Option Nat
  | [] => some 0
  | [part] =>
    if part.contains '.' then
      let bytes := splitAt '.' part
      if bytes.length = 4 ∧ bytes.all fun b => b ≠ [] ∧ b.all Char.isDigit ∧
          (b.length = 1 ∨ b.head? ≠ some '0') ∧ (digitsValue? 10 b).any (· < 256)
      then some 2 else none
    else if part ≠ [] ∧ part.length ≤ 4 ∧ (digitsValue? 16 part).isSome then some 1 else none
  | part :: rest =>
    if part ≠ [] ∧ part.length ≤ 4 ∧ (digitsValue? 16 part).isSome then (· + 1) <$> pieces? rest
    else none

/-- The text before the first double colon and the text after it. -/
def splitDouble : List Char → Option (List Char × List Char)
  | [] => none
  | ':' :: ':' :: rest => some ([], rest)
  | c :: rest => (splitDouble rest).map fun (a, b) => (c :: a, b)

/-- Whether a text is an IPv6 address. -/
def isIPv6 (text : List Char) : Bool :=
  let count (text : List Char) : Option Nat :=
    if text = [] then some 0 else pieces? (splitAt ':' text)
  match splitDouble text with
  | none => count text = some 8
  | some (before, after) =>
    match count before, count after with
    | some a, some b => a + b ≤ 7 ∧ !before.contains '.'
    | _, _ => false

def isHost (text : List Char) : Bool :=
  match text with
  | [] => false
  | '[' :: rest => rest.getLast? = some ']' ∧ isIPv6 rest.dropLast
  | _ =>
    let host := unescaped text
    host ≠ [] ∧ !host.any isForbidden ∧ (!endsInNumber host || isIPv4 host)

/-- Whether a text is a port or empty. -/
def isPort (text : List Char) : Bool :=
  text.all Char.isDigit ∧ (digitsValue? 10 text).any (· < 2 ^ 16)

/-- The text after the last place of a mark; all of it without one. -/
def afterLast (mark : Char) (text : List Char) : List Char :=
  (text.reverse.takeWhile (· ≠ mark)).reverse

/-- The length of a host at the start of a text that may go on with a port. -/
def hostLength (text : List Char) : Nat :=
  match text with
  | '[' :: _ => (text.takeWhile (· ≠ ']')).length + 1
  | _ => (text.takeWhile (· ≠ ':')).length

/-- Whether a text is a host and perhaps a port. -/
def isAuthority (text : List Char) : Bool :=
  let host := text.take (hostLength text)
  match text.drop (hostLength text) with
  | [] => isHost host
  | ':' :: port => isHost host ∧ isPort port
  | _ => false

/-- Whether a text is the address of something on the web. -/
def isValid (text : String) : Bool :=
  match scheme? (cleaned text.toList) with
  | none => false
  | some (scheme, rest) =>
    if hasHost scheme then
      let rest := rest.dropWhile fun c => c = '/' ∨ c = '\\'
      let authority := rest.takeWhile fun c => !(['/', '\\', '?', '#'].contains c)
      isAuthority (afterLast '@' authority)
    else true

end Payout.Url
