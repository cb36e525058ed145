import Payout.Disk.Service
import Payout.Settings.Validation
import Payout.Text.Number

/-!
# Loading settings

Settings are read from a file, then overridden by two variables of the environment, then checked.
-/

namespace Payout.Settings

/-- The variables that override settings start with this unless another start is asked for. -/
def defaultStart : String := "SETTLER_"

/-- The settings with the variables of the environment that override them, whose names start as
given. -/
def override (env : Environment) (start : String) (s : Settings) : Except SettingsError Settings :=
  let level := (env.value? (start ++ "LOG_LEVEL")).getD s.service.logLevel
  match env.value? (start ++ "POLL_INTERVAL_SECS") with
  | none => .ok { s with service := { s.service with logLevel := level } }
  | some text =>
    match Text.readUInt64 text with
    | .error e => .error (.invalid s!"Invalid poll interval: {e.message}")
    | .ok n => .ok { s with service := { s.service with logLevel := level, pollIntervalSecs := n } }

/-- The document at a path. -/
def readFile (path : String) : Program Disk.interface (Except SettingsError String) := do
  match ← Disk.ask (.read path) with
  | .error .notFound => pure (.error (.fileNotFound path))
  | .error e => pure (.error (.unreadable e.message))
  | .ok (content : Bytes) =>
    match content.text? with
    | some text => pure (.ok text)
    | none => pure (.error (.unreadable "stream did not contain valid UTF-8"))

/-- Loads settings from a file. -/
def load (env : Environment) (start : String) (path : Option String) :
    Program Disk.interface (Except SettingsError Settings) := do
  match path with
  | none => pure (.error (.fileNotFound "No configuration file specified"))
  | some path => do
    let document ← readFile path
    pure (do validate (← override env start (← read env (← document))))

end Payout.Settings
