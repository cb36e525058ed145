import Payout.Instant.Basic
import Payout.Text.Blank

/-!
# Reading instants

The reader takes a date, a time and an offset from universal time. It is lenient: numbers may be
short and have blanks before them, and the offset may be spelled in several ways.
-/

namespace Payout.Instant

/-- Reads up to `width` leading digits into a number; at least one is needed. -/
def readNumber? (width : Nat) (text : List Char) : Option (Nat × List Char) :=
  let digits := (text.takeWhile Char.isDigit).take width
  if digits.isEmpty then none
  else some (digits.foldl (fun n c => 10 * n + (c.toNat - 48)) 0, text.drop digits.length)

/-- Reads a number after blanks. -/
def readField? (width : Nat) (text : List Char) : Option (Nat × List Char) :=
  readNumber? width (Text.trimStart text)

/-- Reads a year after blanks: up to four digits, or any number of them after a sign. -/
def readYear? (text : List Char) : Option (Int × List Char) :=
  match Text.trimStart text with
  | '-' :: rest => (fun (n, rest) => (-(n : Int), rest)) <$> readNumber? rest.length rest
  | '+' :: rest => (fun (n, rest) => ((n : Int), rest)) <$> readNumber? rest.length rest
  | rest => (fun (n, rest) => ((n : Int), rest)) <$> readNumber? 4 rest

/-- Reads a mark after blanks. -/
def readMark? (mark : Char) (text : List Char) : Option (List Char) :=
  match Text.trimStart text with
  | c :: rest => if c = mark then some rest else none
  | [] => none

/-- Reads the fraction of a second, in nanoseconds; digits after the ninth are dropped. -/
def readFraction? (text : List Char) : Option (Nat × List Char) :=
  match text with
  | '.' :: rest => do
    let (n, _) ← readNumber? 9 rest
    let digits := rest.takeWhile Char.isDigit
    some (n * 10 ^ (9 - min 9 digits.length), rest.drop digits.length)
  | _ => some (0, text)

/-- Reads an offset: `Z` or `UTC` in either case, or a sign, two digits of hours and two of minutes,
with any blanks and colons between. The result is in minutes, below a day. -/
def readOffset? (text : List Char) : Option (Int × List Char) :=
  let text := Text.trimStart text
  if (text.take 3).map Char.toUpper = ['U', 'T', 'C'] then some (0, text.drop 3)
  else match text with
  | [] => none
  | sign :: rest =>
    if sign = 'Z' ∨ sign = 'z' then some (0, rest)
    else if sign = '+' ∨ sign = '-' ∨ sign = '\u2212' then do
      let two? (text : List Char) : Option (Nat × List Char) :=
        if ((text.take 2).takeWhile Char.isDigit).length = 2 then readNumber? 2 text else none
      let (hours, rest) ← two? rest
      let (minutes, rest) ← two? (rest.dropWhile fun c => c = ':' ∨ Text.isBlank c)
      if minutes < 60 ∧ hours < 24 then
        let offset : Int := 60 * hours + minutes
        some (if sign = '+' then offset else -offset, rest)
      else none
    else none

/-- The instant of a local date and time whose clock is ahead by an offset of minutes. -/
def ofLocal? (date : Date) (hour minute second nano : Nat) (offset : Int) : Option Instant := do
  let total : Int := 60 * hour + minute - offset
  let date ← if total < 0 then date.previous? else if 1440 ≤ total then date.next? else some date
  let inDay := (total % 1440).toNat
  ofParts? date (inDay / 60) (inDay % 60) second nano

/-- Reads an instant; nothing may follow it. -/
def ofText? (text : List Char) : Option Instant := do
  let (year, rest) ← readYear? text
  let (month, rest) ← readField? 2 (← readMark? '-' rest)
  let (day, rest) ← readField? 2 (← readMark? '-' rest)
  let rest ← match rest with
    | c :: rest => if c = 'T' ∨ c = 't' ∨ c = ' ' then some rest else none
    | [] => none
  let (hour, rest) ← readField? 2 rest
  let (minute, rest) ← readField? 2 (← readMark? ':' rest)
  let (second, rest) ← readField? 2 (← readMark? ':' rest)
  let (nano, rest) ← readFraction? rest
  let (offset, rest) ← readOffset? rest
  let date ← Date.ofParts? year month day
  if hour < 24 ∧ minute < 60 ∧ rest.isEmpty then ofLocal? date hour minute second nano offset
  else none

end Payout.Instant
