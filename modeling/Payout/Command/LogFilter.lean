import Payout.Host
import Payout.Text.Blank
import Payout.Text.Number

/-!
# Log filters

A filter is a list of rules, each with a level and perhaps the start of the names of those it is
for. The rule with the longest start decides whether a line is written; a line that no rule is for
is not written.
-/

namespace Payout

/-- How much is written: everything up to a level of detail. -/
inductive Verbosity where
  | off
  | error
  | warn
  | info
  | debug
  | trace
deriving DecidableEq

namespace Verbosity

/-- Every verbosity, from nothing to everything. -/
def all : List Verbosity := [.off, .error, .warn, .info, .debug, .trace]

/-- The place of a verbosity in this order. -/
def rank : Verbosity → Nat
  | off => 0
  | error => 1
  | warn => 2
  | info => 3
  | debug => 4
  | trace => 5

def name : Verbosity → String
  | off => "off"
  | error => "error"
  | warn => "warn"
  | info => "info"
  | debug => "debug"
  | trace => "trace"

/-- The verbosity of a name in any case, or of a place in the order. -/
def ofName? (s : String) : Option Verbosity :=
  all.find? fun v => v.name = s.toLower ∨
    (Text.readUInt64 s).toOption.any fun n => n.toNat = v.rank

end Verbosity

/-- The least verbosity that writes a level. -/
def LogLevel.verbosity : LogLevel → Verbosity
  | .error => .error
  | .warn => .warn
  | .info => .info

structure LogRule where
  /-- The start of the names that the rule is for; empty for all. -/
  start : String
  verbosity : Verbosity

namespace LogRule

/-- Whether a character can begin a rule. -/
def isInitial (c : Char) : Bool := c.isAlphanum ∨ c = '-' ∨ c = ':' ∨ c = '_'

/-- Reads a rule: a verbosity for all, a name, or a name with its verbosity after an equals sign. A
name without verbosity has the highest. -/
def ofText? (text : List Char) : Option LogRule :=
  match text.head? with
  | none => none
  | some c =>
    if !isInitial c then none
    else
      let head := String.ofList (text.takeWhile (· ≠ '='))
      match text.dropWhile (· ≠ '=') with
      | [] =>
        match Verbosity.ofName? head with
        | some v => some ⟨"", v⟩
        | none => some ⟨head, .trace⟩
      | [_] => some ⟨head, .trace⟩
      | _ :: level => (Verbosity.ofName? (String.ofList level)).map (⟨head, ·⟩)

/-- Whether a rule is for a line. -/
def isFor (r : LogRule) (l : LogLine) : Bool := r.start.toList.isPrefixOf l.target.toList

/-- Whether a rule lets a line of its own be written. -/
def allows (r : LogRule) (l : LogLine) : Bool := l.level.verbosity.rank ≤ r.verbosity.rank

end LogRule

/-- A filter of log lines: its rules, later ones before earlier ones of the same start. -/
structure LogFilter where
  rules : List LogRule

namespace LogFilter

/-- The parts of a text between commas. -/
def parts : List Char → List (List Char)
  | [] => [[]]
  | c :: rest =>
    match parts rest with
    | [] => [[c]]
    | part :: more => if c = ',' then [] :: part :: more else (c :: part) :: more

/-- Reads a filter; one without rules writes errors only. -/
def ofText? (text : String) : Option LogFilter := do
  let rules ← ((parts text.toList).filter (· ≠ [])).mapM fun part =>
    LogRule.ofText? (Text.trimmed part)
  pure ⟨if rules.isEmpty then [⟨"", .error⟩] else rules.reverse⟩

/-- The more particular of a rule for a line and one found so far. -/
def better (l : LogLine) (found : Option LogRule) (r : LogRule) : Option LogRule :=
  if r.isFor l then
    match found with
    | none => some r
    | some best => if best.start.length < r.start.length then some r else some best
  else found

/-- Whether a line is written. -/
def allows (f : LogFilter) (l : LogLine) : Bool :=
  match f.rules.foldl (better l) none with
  | none => false
  | some r => r.allows l

/-- Answers a request, with log lines going through a filter. -/
def answer (f : LogFilter) : (r : Host.Request) → Program Host.interface r.Answer
  | .log l => if f.allows l then Host.log l else pure ()
  | r => Host.ask r

/-- A program whose log lines go through a filter. -/
def limit {α : Type} (f : LogFilter) (p : Program Host.interface α) : Program Host.interface α :=
  p.run f.answer

end LogFilter

end Payout
