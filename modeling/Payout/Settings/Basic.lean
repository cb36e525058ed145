import Payout.Asset
import Payout.Currency
import Payout.Toml.Basic

/-!
# Settings

What a settings document says, section by section, with the values that hold when it is silent.
-/

namespace Payout

/-- The service itself: its name, its pace and its log. -/
structure ServiceSettings where
  /-- The name used in log lines. -/
  name : String
  /-- The seconds between the end of one pass and the start of the next. -/
  pollIntervalSecs : UInt64
  /-- The blocks to wait for after a submission. -/
  confirmations : UInt64
  /-- The seconds that a confirmation is awaited at most. -/
  confirmationTimeoutSecs : UInt64
  /-- The log filter, unless another is given. -/
  logLevel : String
deriving DecidableEq

/-- The service when its section is empty. -/
def ServiceSettings.default : ServiceSettings := ⟨"asset-settler", 10, 1, 600, "info"⟩

/-- Where the ledger is kept. -/
structure LedgerSettings where
  backend : String
  /-- The seconds that a failing release of an asset is tried again. -/
  retryWindowSecs : UInt64
  /-- What the backend is told. -/
  config : Toml

/-- The seconds that a failing release is tried again unless settings say otherwise. -/
def LedgerSettings.defaultRetrySecs : UInt64 := 30

/-- The chain and the node that leads to it. -/
structure ChainSettings where
  rpcUrl : String
  /-- The number that the node has to report for its chain. -/
  chainId : UInt64
  /-- The contract that holds the assets in custody. -/
  vaultAddress : String
deriving DecidableEq

/-- How much gas costs. -/
structure GasSettings where
  /-- The percentage of the node's estimate to pay. -/
  adjustmentPercent : UInt64
  /-- The seconds that a failing estimate is asked for again. -/
  retryWindowSecs : UInt64
deriving DecidableEq

/-- The gas settings when their section is empty or missing. -/
def GasSettings.default : GasSettings := ⟨120, 10⟩

/-- The private keys by role. -/
structure SignerSettings where
  vault : String
  minter : String
  treasury : String
deriving DecidableEq

/-- The keys in a form that may be logged: none of them is in it. -/
def SignerSettings.redacted (_ : SignerSettings) : String :=
  let hidden := "\"<redacted>\""
  "SignerSettings \x7b vault: " ++ hidden ++ ", minter: " ++ hidden ++ ", treasury: " ++ hidden ++
    " \x7d"

/-- The contract of a class of assets. -/
structure AssetSettings where
  contract : String
  /-- What a token's number is appended to for its metadata. -/
  metadataBaseUri : String
deriving DecidableEq

/-- The contract that pays out a currency. -/
structure CurrencySettings where
  contract : String
  /-- The call, if not the default one of the class. -/
  call : Option CallKind
  /-- The scale of ledger amounts, if not the default one of the class. -/
  internalScale : Option UInt64
deriving DecidableEq

namespace CurrencySettings

/-- The call that pays out a currency of a class. -/
def callFor (s : CurrencySettings) (c : CurrencyClass) : CallKind := s.call.getD c.defaultCall

/-- The scale of ledger amounts of a class, if they have one. -/
def scaleFor (s : CurrencySettings) (c : CurrencyClass) : Option UInt64 :=
  s.internalScale.or c.defaultScale

end CurrencySettings

structure Settings where
  service : ServiceSettings
  ledger : LedgerSettings
  chain : ChainSettings
  gas : GasSettings
  signers : SignerSettings
  asset : AssetClass → Option AssetSettings
  currency : CurrencyClass → Option CurrencySettings

namespace Settings

/-- The classes of assets that have a contract, in the order of classes. -/
def assets (s : Settings) : List (AssetClass × AssetSettings) :=
  AssetClass.all.filterMap fun c => (s.asset c).map (c, ·)

/-- The currencies that have a contract, in the order of classes. -/
def currencies (s : Settings) : List (CurrencyClass × CurrencySettings) :=
  CurrencyClass.all.filterMap fun c => (s.currency c).map (c, ·)

end Settings

inductive SettingsError where
  | fileNotFound (path : String)
  /-- The document is not well formed or lacks something. -/
  | malformed (reason : String)
  | invalid (reason : String)
  | variableNotFound (name : String)
  | unreadable (reason : String)
deriving DecidableEq

def SettingsError.kind : SettingsError → String
  | fileNotFound _ => "FileNotFound"
  | malformed _ => "ParseError"
  | invalid _ => "ValidationError"
  | variableNotFound _ => "EnvVarNotFound"
  | unreadable _ => "IoError"

def SettingsError.message : SettingsError → String
  | fileNotFound path => s!"File not found: {path}"
  | malformed reason => s!"Parse error: {reason}"
  | invalid reason => s!"Validation error: {reason}"
  | variableNotFound name => s!"Environment variable not found: {name}"
  | unreadable reason => s!"IO error: {reason}"

end Payout
