import Payout.Instant.Basic

/-!
# Instants by their count of seconds

The seconds since the start of 1970, leap seconds left out, as a date and a time of day. Years are
counted from March here, so that a leap day is the last of its year.
-/

namespace Payout

/-- The days from the first of March of year zero to the start of 1970. -/
def Date.daysBefore1970 : Nat := 719468

/-- The date of a number of days after the first of March of year zero. -/
def Date.ofDays? (days : Nat) : Option Date :=
  let inEra := days % 146097
  let yearInEra := (inEra - inEra / 1460 + inEra / 36524 - inEra / 146096) / 365
  let inYear := inEra - (365 * yearInEra + yearInEra / 4 - yearInEra / 100)
  let month := (5 * inYear + 2) / 153
  let day := inYear - (153 * month + 2) / 5 + 1
  let year := yearInEra + 400 * (days / 146097)
  if month < 10 then ofParts? year (month + 3) day else ofParts? (year + 1) (month - 9) day

/-- The instant of a number of seconds after the start of 1970 and a fraction of the next. -/
def Instant.ofSeconds? (seconds nano : Nat) : Option Instant := do
  let date ← Date.ofDays? (seconds / 86400 + Date.daysBefore1970)
  ofParts? date (seconds / 3600 % 24) (seconds / 60 % 60) (seconds % 60) nano

end Payout
