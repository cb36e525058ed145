import Payout.Assembly.Running
import Payout.Command.Arguments
import Payout.Command.LogFilter
import Payout.Settings.Loader

/-!
# Carrying out orders

Settings are loaded, the log filter is chosen, and then the deed is done: the service runs until
shutdown is asked for, makes one pass, or reports its settings.
-/

namespace Payout.Command

open Host (ask log onDisk)
open Settlement (KnownDecimals)

/-- Why orders were not carried out. -/
inductive Failure where
  | noSettings (path : String) (e : SettingsError)
  | badFilter
  | notBuilt (e : SettlementError)
  | passFailed (e : SettlementError)
deriving DecidableEq

/-- Text in quotes, with quotes, backslashes and control characters escaped. -/
def quoted (text : String) : String :=
  let escaped := text.toList.map fun c =>
    match c with
    | '"' => "\\\""
    | '\\' => "\\\\"
    | '\n' => "\\n"
    | '\r' => "\\r"
    | '\t' => "\\t"
    | '\x00' => "\\0"
    | c =>
      if c.toNat < 32 ∨ (127 ≤ c.toNat ∧ c.toNat < 160) then
        "\\u\x7b" ++ String.ofList (Nat.toDigits 16 c.toNat) ++ "\x7d"
      else c.toString
  "\"" ++ String.join escaped ++ "\""

/-- The failure in words: what failed, and why. -/
def Failure.messages : Failure → List String
  | noSettings path e => [s!"Failed to load configuration from {quoted path}", e.message]
  | badFilter => ["Invalid log level", "invalid filter directive"]
  | notBuilt e => ["Failed to build settler", e.message]
  | passFailed e => ["Settlement pass failed", e.message]

/-- The failure as it is written on the error output. -/
def Failure.text (e : Failure) : String :=
  "Error: " ++ "\n\nCaused by:\n    ".intercalate e.messages

/-- The part of the program that carries out orders. -/
def target : String := "asset_settler"

/-- Reports something. -/
def report (message : String) (fields : List (String × LogValue)) : Program Host.interface Unit :=
  log ⟨.info, target, message, fields⟩

/-- The variable that names the filter before all others. -/
def filterVariable : String := "RUST_LOG"

/-- The variable that stands for the option of the filter. -/
def levelVariable : String := Settings.defaultStart ++ "LOG_LEVEL"

/-- The filter: that of its own variable if that is one, else the one that is named by the option,
its variable or the settings. -/
def chooseFilter (env : Environment) (o : Orders) (s : Settings) : Option LogFilter :=
  ((env.value? filterVariable).bind LogFilter.ofText?).or
    (LogFilter.ofText? ((o.logLevel.or (env.value? levelVariable)).getD s.service.logLevel))

/-- The lines of a report of settings. -/
def description (s : Settings) : List String :=
  ["Configuration is valid", s!"Settler name: {s.service.name}",
    s!"Ledger backend: {s.ledger.backend}", s!"Chain ID: {s.chain.chainId}"] ++
  s.assets.map (fun (c, a) => s!"  Asset: {c.name} ({a.contract})") ++
  s.currencies.map fun (c, a) => s!"  Currency: {c.symbol} ({a.contract}, {(a.callFor c).title})"

/-- Reports settings line by line. -/
def describe : List String → Program Host.interface Unit
  | [] => pure ()
  | line :: rest => do
    report line []
    describe rest

/-- Answers a request of the schedule, and reports when the wish to stop is seen. -/
def answerSchedule (a : Assembly) : (r : Settlement.Schedule.Request) → Assembly.Running r.Answer
  | .shutdown => do
    let wanted : Bool ← ask .shutdown
    if wanted then report "Shutdown signal received, finishing current cycle..." []
    pure wanted
  | r => a.answerSchedule r

/-- More passes than a service makes. -/
def passLimit : Nat := 2 ^ 64

/-- A service that knows no number of decimals yet. -/
def noneKnown : KnownDecimals := fun _ => none

/-- Makes passes until shutdown is asked for. -/
def start (s : Settings) : Program Host.interface (Except Failure Unit) := do
  report "Starting asset settler" [("name", .text s.service.name)]
  match ← Assembly.build s none with
  | .error e => pure (.error (.notBuilt e))
  | .ok (a, store) => do
    let schedule := Settlement.Schedule.run a.intervalMs passLimit
    let _ ← ((schedule.run (answerSchedule a)).run noneKnown).run store
    report "Asset settler stopped" []
    pure (.ok ())

/-- Makes one pass. -/
def pollOnce (s : Settings) : Program Host.interface (Except Failure Unit) := do
  match ← Assembly.build s none with
  | .error e => pure (.error (.notBuilt e))
  | .ok (a, store) => do
    let ((result, _), _) ← (a.poll.run noneKnown).run store
    match result with
    | .error e => pure (.error (.passFailed e))
    | .ok summary => do
      report "Settlement pass finished" (Notice.ofSummary summary)
      pure (.ok ())

def perform (s : Settings) : Deed → Program Host.interface (Except Failure Unit)
  | .start => start s
  | .validate => do
    describe (description s)
    pure (.ok ())
  | .pollOnce => pollOnce s

/-- Carries out orders. -/
def run (env : Environment) (o : Orders) : Program Host.interface (Except Failure Unit) := do
  match ← onDisk (Settings.load env Settings.defaultStart (some o.config)) with
  | .error e => pure (.error (.noSettings o.config e))
  | .ok s =>
    match chooseFilter env o s with
    | none => pure (.error .badFilter)
    | some f => f.limit do
      report s!"Loaded configuration from: {quoted o.config}" []
      perform s o.deed

end Payout.Command
