import Payout.Instant.Basic
import Payout.Json.Basic
import Payout.Log

/-!
# How log lines are written

As text for people or as JSON for programs, a line each, with the time in front or inside.
-/

namespace Payout

/-- How log lines are written. -/
inductive LogFormat where
  | text
  | json
deriving DecidableEq

namespace LogFormat

def all : List LogFormat := [.text, .json]

/-- The name of a format on the command line. -/
def name : LogFormat → String
  | .text => "text"
  | .json => "json"

/-- The format of a name, which is spelled in lower case. -/
def ofName? (s : String) : Option LogFormat := all.find? (·.name = s)

end LogFormat

namespace LogValue

def shown : LogValue → String
  | number n => toString n
  | text s => s

/-- The value as JSON: a number stays one. -/
def toJson : LogValue → Json
  | number n => .integer n
  | text s => .string s

end LogValue

namespace LogLine

/-- The line in words: level, speaker, message, and the named values. -/
def shown (l : LogLine) : String :=
  let fields := l.fields.map fun (name, value) => s!" {name}={value.shown}"
  s!"{l.level.name} {l.target}: {l.message}" ++ String.join fields

/-- The message and the named values as an object. -/
def fieldsJson (l : LogLine) : Json :=
  .object (("message", .string l.message) :: l.fields.map fun (name, value) => (name, value.toJson))

/-- The line as it is written at a time. -/
def written (l : LogLine) (time : Instant) : LogFormat → String
  | .text =>
    let room := String.ofList (List.replicate (5 - l.level.name.length) ' ')
    s!"{time} {room}{l.shown}"
  | .json =>
    (Json.object [("timestamp", .string (toString time)), ("level", .string l.level.name),
      ("fields", l.fieldsJson), ("target", .string l.target)]).compactText

end LogLine

end Payout
