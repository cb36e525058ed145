import Payout.Settings.Reader
import Payout.Text.Hex

/-!
# Checking settings

Every check with what is said when it fails, in the order in which they are looked at. Settings are
valid when all checks hold; otherwise the first that does not is reported.
-/

namespace Payout

namespace Text

/-- A text without the mark `0x` at its start. -/
def dropHexMark : List Char → List Char
  | '0' :: 'x' :: rest => rest
  | text => text

/-- The number of bytes that a text takes. -/
def byteLength (text : List Char) : Nat := (String.ofList text).utf8ByteSize

/-- Whether every character is a hexadecimal digit. -/
def isHex (text : List Char) : Bool := text.all fun c => (hexValue? c).isSome

end Text

namespace Settings

/-- A condition on settings, and what is said when it does not hold. -/
structure Check where
  holds : Bool
  complaint : String

/-- The check of an address: forty hexadecimal digits with or without the mark. -/
def addressCheck (field value : String) : Check :=
  let digits := Text.dropHexMark value.toList
  ⟨digits.length = 40 ∧ Text.isHex digits, s!"{field} must be a 20-byte hex address"⟩

/-- The checks of a private key: sixty-four bytes of text, all hexadecimal digits, with or without
the mark. -/
def keyChecks (field value : String) : List Check :=
  let digits := Text.dropHexMark value.toList
  [⟨Text.byteLength digits = 64, s!"{field} must be 64 hex characters (32 bytes)"⟩,
    ⟨Text.isHex digits, s!"{field} must be valid hexadecimal"⟩]

/-- The checks of the service and of gas. -/
def paceChecks (s : Settings) : List Check :=
  [⟨s.service.pollIntervalSecs ≠ 0, "poll_interval_secs must be greater than zero"⟩,
    ⟨s.service.confirmations ≠ 0, "confirmations must be at least 1"⟩,
    ⟨s.service.confirmationTimeoutSecs ≠ 0,
      "confirmation_timeout_secs must be greater than zero"⟩,
    ⟨s.gas.adjustmentPercent ≠ 0, "gas adjustment_percent must be greater than zero"⟩]

/-- Whether an address of a node starts as one of the web does. -/
def isWebAddress (url : String) : Bool :=
  "http://".toList.isPrefixOf url.toList ∨ "https://".toList.isPrefixOf url.toList

/-- The checks of the chain and of the signers. -/
def chainChecks (s : Settings) : List Check :=
  [⟨isWebAddress s.chain.rpcUrl, "RPC URL must start with http:// or https://"⟩,
    addressCheck "chain.vault_address" s.chain.vaultAddress] ++
    keyChecks "signers.vault" s.signers.vault ++ keyChecks "signers.minter" s.signers.minter ++
    keyChecks "signers.treasury" s.signers.treasury

def contractChecks (s : Settings) : List Check :=
  ⟨!(s.assets.isEmpty && s.currencies.isEmpty),
      "At least one asset or currency class must be configured"⟩ ::
    (s.assets.map fun (c, a) => addressCheck s!"assets.{c.name}.contract" a.contract) ++
    s.currencies.flatMap fun (c, x) =>
      [addressCheck s!"currencies.{c.symbol}.contract" x.contract,
        ⟨x.scaleFor c ≠ some 0, s!"currencies.{c.symbol}.internal_scale must be positive"⟩]

def checks (s : Settings) : List Check := s.paceChecks ++ s.chainChecks ++ s.contractChecks

/-- The first complaint, if there is one. -/
def complaint? (s : Settings) : Option String :=
  (s.checks.find? (!·.holds)).map (·.complaint)

/-- Accepts settings about which there is no complaint. -/
def validate (s : Settings) : Except SettingsError Settings :=
  match s.complaint? with
  | none => .ok s
  | some complaint => .error (.invalid complaint)

/-- The settings of a document, read and checked. -/
def ofDocument (env : Environment) (document : String) : Except SettingsError Settings := do
  (← read env document).validate

end Settings

end Payout
