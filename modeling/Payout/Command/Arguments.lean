import Payout.Command.LogFormat

/-!
# Arguments

The words after the program's name: options, then what to do. An option's value is the rest of its
word or the next word. A value in a word of its own is looked at when the next option or the end
comes, so help on a deed wins over a bad value before it.
-/

namespace Payout.Command

/-- What the program can be told to do. -/
inductive Deed where
  /-- Passes over the ledger until shutdown is asked for. -/
  | start
  /-- A report of the settings. -/
  | validate
  /-- One pass over the ledger. -/
  | pollOnce
deriving DecidableEq

namespace Deed

def all : List Deed := [.start, .validate, .pollOnce]

def name : Deed → String
  | .start => "start"
  | .validate => "validate"
  | .pollOnce => "poll-once"

def ofName? (s : String) : Option Deed := all.find? (·.name = s)

end Deed

/-- An option that takes a value. -/
inductive Choice where
  | config
  | logLevel
  | logFormat
deriving DecidableEq

namespace Choice

/-- Every option. -/
def all : List Choice := [.config, .logLevel, .logFormat]

/-- The name of an option. -/
def name : Choice → String
  | .config => "config"
  | .logLevel => "log-level"
  | .logFormat => "log-format"

def ofName? (s : String) : Option Choice := all.find? (·.name = s)

end Choice

/-- What the arguments ask for. -/
structure Orders where
  /-- The path of the settings. -/
  config : String
  /-- The log filter, if one is given. -/
  logLevel : Option String
  logFormat : LogFormat
  deed : Deed
deriving DecidableEq

/-- What the program makes of its arguments. -/
inductive Reading where
  | help
  | orders (o : Orders)
deriving DecidableEq

inductive Refusal where
  | unexpected (word : String)
  | missingValue (c : Choice)
  | badValue (c : Choice) (value : String)
  | repeated (c : Choice)
deriving DecidableEq

def Refusal.message : Refusal → String
  | unexpected word => s!"unexpected argument: {word}"
  | missingValue c => s!"a value is required for --{c.name}"
  | badValue c value => s!"invalid value for --{c.name}: {value}"
  | repeated c => s!"--{c.name} cannot be used multiple times"

/-- A word of the command line. -/
inductive Word where
  /-- The end of options. -/
  | separator
  | help
  /-- An option whose value is the next word. -/
  | choice (c : Choice)
  /-- An option and its value. -/
  | chosen (c : Choice) (value : String)
  | plain (text : String)
  | unknown
deriving DecidableEq

namespace Word

/-- A long option by the text after its dashes. -/
def ofLong (text : List Char) : Word :=
  let name := String.ofList (text.takeWhile (· ≠ '='))
  match Choice.ofName? name, text.dropWhile (· ≠ '=') with
  | some c, [] => choice c
  | some c, _ :: value => chosen c (String.ofList value)
  | none, rest => if name = "help" ∧ rest = [] then help else unknown

def ofText (text : String) : Word :=
  match text.toList with
  | ['-', '-'] => separator
  | '-' :: '-' :: rest => ofLong rest
  | '-' :: 'h' :: _ => help
  | ['-', 'c'] => choice .config
  | '-' :: 'c' :: '=' :: value => chosen .config (String.ofList value)
  | '-' :: 'c' :: value => chosen .config (String.ofList value)
  | '-' :: _ :: _ => unknown
  | _ => plain text

/-- Whether a text can be the value of the option before it. -/
def canBeValue (text : String) : Bool :=
  match text.toList with
  | '-' :: _ :: _ => false
  | _ => true

end Word

/-- The options read so far, and one whose value was not looked at yet. -/
structure Progress where
  config : Option String
  logLevel : Option String
  logFormat : Option LogFormat
  waiting : Option (Choice × String)

namespace Progress

/-- Nothing read. -/
def none : Progress := ⟨.none, .none, .none, .none⟩

/-- Looks at the value of an option. A path may not be empty. -/
def take (p : Progress) (c : Choice) (value : String) : Except Refusal Progress :=
  match c with
  | .config =>
    if value.isEmpty then .error (.badValue c value)
    else if p.config.isSome then .error (.repeated c)
    else .ok { p with config := some value }
  | .logLevel =>
    if p.logLevel.isSome then .error (.repeated c) else .ok { p with logLevel := some value }
  | .logFormat =>
    match LogFormat.ofName? value with
    | .none => .error (.badValue c value)
    | some format =>
      if p.logFormat.isSome then .error (.repeated c)
      else .ok { p with logFormat := some format }

/-- Looks at the value that waits, if one does. -/
def settle (p : Progress) : Except Refusal Progress :=
  match p.waiting with
  | .none => .ok p
  | some (c, value) => { p with waiting := .none }.take c value

/-- The path of the settings unless another is given. -/
def defaultConfig : String := "config/settler.toml"

/-- The orders to do something with the options that were read. -/
def finish (p : Progress) (d : Deed) : Except Refusal Reading := do
  let p ← p.settle
  pure (.orders ⟨p.config.getD defaultConfig, p.logLevel, p.logFormat.getD .text, d⟩)

end Progress

/-- The help. -/
def usage : String :=
  "\n".intercalate
    ["Settles in-game asset and currency withdrawals on chain", "",
      "Usage: asset-settler [OPTIONS] [COMMAND]", "", "Commands:",
      "  start      Poll the ledger until interrupted",
      "  validate   Validate the configuration file",
      "  poll-once  Run a single settlement pass and exit",
      "  help       Print this message or the help of the given subcommand(s)", "", "Options:",
      "  -c, --config <FILE>            [default: config/settler.toml]",
      "      --log-level <LOG_LEVEL>    Overrides `settler.log_level` from the configuration file",
      "      --log-format <LOG_FORMAT>  [default: text] [possible values: text, json]",
      "  -h, --help                     Print help"]

/-- Reads the words after `help`: at most the name of a deed or `help` itself. -/
def readHelp : List String → Except Refusal Reading
  | [] => .ok .help
  | [word] =>
    if word = "help" ∨ (Deed.ofName? word).isSome then .ok .help else .error (.unexpected word)
  | _ :: word :: _ => .error (.unexpected word)

/-- Reads the words after a deed: nothing more than the wish for help on it. -/
def readDeed (p : Progress) (d : Deed) : List String → Except Refusal Reading
  | [] => p.finish d
  | word :: rest =>
    match Word.ofText word, rest with
    | .help, _ => .ok .help
    | .separator, [] => p.finish d
    | .separator, word :: _ => .error (.unexpected word)
    | _, _ => .error (.unexpected word)

/-- Reads options and what follows them; without a deed the program starts. -/
def readOptions (p : Progress) : List String → Except Refusal Reading
  | [] => p.finish .start
  | word :: rest =>
    match Word.ofText word with
    | .separator =>
      match rest with
      | [] => p.finish .start
      | word :: _ => .error (.unexpected word)
    | .help => do
      let _ ← p.settle
      pure .help
    | .chosen c value => do
      let p ← p.settle
      let p ← p.take c value
      readOptions p rest
    | .choice c =>
      match rest with
      | [] => .error (.missingValue c)
      | value :: rest => do
        let p ← p.settle
        if Word.canBeValue value then readOptions { p with waiting := some (c, value) } rest
        else .error (.missingValue c)
    | .plain text =>
      if text = "help" then readHelp rest
      else
        match Deed.ofName? text with
        | some d => readDeed p d rest
        | none => .error (.unexpected text)
    | .unknown => .error (.unexpected word)

/-- Reads the words after the program's name. -/
def read (words : List String) : Except Refusal Reading := readOptions .none words

end Payout.Command
