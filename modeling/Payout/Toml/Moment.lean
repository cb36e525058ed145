import Payout.Instant.Basic

/-!
# Moments

Dates and times of day as a settings document gives them: a date, a time, or both with or without an
offset from universal time. They are kept as given and not moved to universal time.
-/

namespace Payout

/-- A day by year, month and day of the month. -/
structure Moment.Day where
  year : Nat
  month : Nat
  day : Nat
deriving DecidableEq

/-- A time of day to the nanosecond. -/
structure Moment.Clock where
  hour : Nat
  minute : Nat
  second : Nat
  nano : Nat
deriving DecidableEq

/-- How far a clock is from universal time. -/
inductive Moment.Offset where
  /-- Not at all. -/
  | zulu
  /-- Ahead by some minutes. -/
  | minutes (ahead : Int)
deriving DecidableEq

/-- A date, a time, or both. -/
inductive Moment where
  | day (d : Moment.Day)
  | clock (c : Moment.Clock)
  | both (d : Moment.Day) (c : Moment.Clock) (offset : Option Moment.Offset)
deriving DecidableEq

namespace Moment

open Instant (padded)

/-- A day in writing. -/
def Day.text (d : Day) : List Char :=
  padded 4 d.year ++ '-' :: padded 2 d.month ++ '-' :: padded 2 d.day

/-- The digits of a list without the zeros it ends in. -/
def dropTrailingZeros (digits : List Char) : List Char :=
  (digits.reverse.dropWhile (· = '0')).reverse

/-- A time in writing, with as many fraction digits as it needs. -/
def Clock.text (c : Clock) : List Char :=
  padded 2 c.hour ++ ':' :: padded 2 c.minute ++ ':' :: padded 2 c.second ++
    if c.nano = 0 then [] else '.' :: dropTrailingZeros (padded 9 c.nano)

/-- An offset in writing. -/
def Offset.text : Offset → List Char
  | zulu => ['Z']
  | minutes ahead =>
    (if ahead < 0 then '-' else '+') ::
      padded 2 (ahead.natAbs / 60) ++ ':' :: padded 2 (ahead.natAbs % 60)

/-- A moment in writing. -/
def text : Moment → List Char
  | day d => d.text
  | clock c => c.text
  | both d c offset => d.text ++ 'T' :: c.text ++ offset.elim [] Offset.text

/-- Reads exactly `width` digits. -/
def readDigits? (width : Nat) (text : List Char) : Option (Nat × List Char) :=
  let digits := text.takeWhile Char.isDigit
  if digits.length = width then
    some (digits.foldl (fun n c => 10 * n + (c.toNat - 48)) 0, text.drop width)
  else none

def readMark? (mark : Char) : List Char → Option (List Char)
  | c :: rest => if c = mark then some rest else none
  | [] => none

/-- Reads a day of the calendar. -/
def readDay? (text : List Char) : Option (Day × List Char) := do
  let (year, rest) ← readDigits? 4 text
  let (month, rest) ← readDigits? 2 (← readMark? '-' rest)
  let (inMonth, rest) ← readDigits? 2 (← readMark? '-' rest)
  if 1 ≤ month ∧ month ≤ 12 ∧ 1 ≤ inMonth ∧ inMonth ≤ daysInMonth year month then
    some (⟨year, month, inMonth⟩, rest)
  else none

/-- Reads the fraction of a second, in nanoseconds; digits after the ninth are dropped. -/
def readFraction? : List Char → Option (Nat × List Char)
  | '.' :: rest =>
    let digits := rest.takeWhile Char.isDigit
    if digits.isEmpty then none
    else
      let nine := (digits ++ List.replicate 9 '0').take 9
      some (nine.foldl (fun n c => 10 * n + (c.toNat - 48)) 0, rest.drop digits.length)
  | text => some (0, text)

/-- Reads the seconds of a time, which may be left out, and their fraction. -/
def readSeconds? : List Char → Option (Nat × Nat × List Char)
  | ':' :: rest => do
    let (second, rest) ← readDigits? 2 rest
    let (nano, rest) ← readFraction? rest
    some (second, nano, rest)
  | text => some (0, 0, text)

/-- Reads a time of day; second sixty is a leap second. -/
def readClock? (text : List Char) : Option (Clock × List Char) := do
  let (hour, rest) ← readDigits? 2 text
  let (minute, rest) ← readDigits? 2 (← readMark? ':' rest)
  let (second, nano, rest) ← readSeconds? rest
  if hour < 24 ∧ minute < 60 ∧ second ≤ 60 then some (⟨hour, minute, second, nano⟩, rest) else none

/-- Reads an offset at the end of a text; without any text there is none. -/
def offset? : List Char → Option (Option Offset)
  | [] => some none
  | sign :: rest =>
    if rest = [] ∧ (sign = 'Z' ∨ sign = 'z') then some (some .zulu)
    else if sign = '+' ∨ sign = '-' then do
      let (hours, rest) ← readDigits? 2 rest
      let (minutes, rest) ← readDigits? 2 (← readMark? ':' rest)
      let ahead : Int := 60 * hours + minutes
      if rest = [] ∧ hours < 24 ∧ minutes < 60 then
        some (some (.minutes (if sign = '-' then -ahead else ahead)))
      else none
    else none

/-- The moment of a text. A date and a time are divided by a `T` of either case or a blank. -/
def ofText? (text : List Char) : Option Moment :=
  match readDay? text with
  | none => do
    let (c, rest) ← readClock? text
    if rest = [] then some (clock c) else none
  | some (d, []) => some (day d)
  | some (d, mark :: rest) =>
    if mark = 'T' ∨ mark = 't' ∨ mark = ' ' then do
      let (c, rest) ← readClock? rest
      let offset ← offset? rest
      some (both d c offset)
    else none

/-- Whether a text starts with what may be a date: four digits, two and two, divided by dashes. -/
def isDated (text : List Char) : Bool := (readDay? text).isSome ∧ text.length = 10

end Moment

end Payout
