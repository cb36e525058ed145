/-!
# Log lines

What is reported while the program runs: how grave it is, the part of the program that speaks, a
message and named values.
-/

namespace Payout

/-- How grave a log line is. -/
inductive LogLevel where
  | error
  | warn
  | info
deriving DecidableEq

def LogLevel.name : LogLevel → String
  | .error => "ERROR"
  | .warn => "WARN"
  | .info => "INFO"

/-- A named value of a log line. -/
inductive LogValue where
  | number (n : Nat)
  | text (s : String)
deriving DecidableEq

structure LogLine where
  level : LogLevel
  target : String
  message : String
  fields : List (String × LogValue)
deriving DecidableEq

end Payout
