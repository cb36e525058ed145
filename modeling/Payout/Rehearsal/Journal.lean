import Payout.Ledger.Document
import Payout.Rehearsal.Node

/-!
# How journals are written

Each request is written as an array: its name, its arguments, and for a ledger its answer in short.
-/

namespace Payout.Rehearsal

/-- A number that may be large, as text. -/
def numberText (n : Nat) : Json := .string (toString n)

def argumentsJson : Ledger.Request → List Json
  | .unprocessed _ => []
  | .asset c n => [.string c.name, .ofUInt64 n]
  | .release c n => [.string c.name, .ofUInt64 n]
  | .user id => [.string id]
  | .claim _ id => [.string id]
  | .userByWallet wallet => [.string wallet]
  | .update _ id o => [.string id, o.toJson]

/-- The answer of a ledger in short: rows and users by their ids. -/
def briefJson : (r : Ledger.Request) → r.Value → Json
  | .unprocessed _, (rows : List (Withdrawal _)) => .array (rows.map (.string ·.id))
  | .asset _ _, _ => .string "found"
  | .user _, (u : Option User) => .ofOption (.string ·.id) u
  | .userByWallet _, (u : Option User) => .ofOption (.string ·.id) u
  | .claim _ _, (b : Bool) => .bool b
  | .update _ _ _, _ => .string "ok"
  | .release _ _, _ => .string "ok"

def ledgerJson (r : Ledger.Request) (answer : Except LedgerError r.Value) : Json :=
  let last := match answer with
    | .error e => .object [("error", .string e.kind)]
    | .ok a => briefJson r a
  .array (.string (requestName r) :: argumentsJson r ++ [last])

def callJson (c : ContractCall) (gasPrice : Nat) : Json :=
  let arguments : List Json := match c with
    | .mintAsset _ receiver n uri =>
      [.string "nft_mint", .string receiver, .ofUInt64 n, .string uri]
    | .transferFromVault _ receiver n =>
      [.string "transfer_from_vault", .string receiver, .ofUInt64 n]
    | .mintCurrency _ receiver amount =>
      [.string "currency_mint", .string receiver, numberText amount]
    | .transferCurrency _ receiver amount =>
      [.string "currency_transfer", .string receiver, numberText amount]
  .array (arguments ++ [numberText gasPrice])

namespace Entry

/-- The request of an entry; none for pauses and notices. -/
def toJson? : Entry → Option Json
  | ⟨_, .ledger r, answer⟩ => some (ledgerJson r answer)
  | ⟨_, .estimate, _⟩ => some (.array [.string "estimate"])
  | ⟨_, .decimals _, _⟩ => some (.array [.string "decimals"])
  | ⟨_, .call c gasPrice, _⟩ => some (callJson c gasPrice)
  | ⟨_, .wait _ n timeoutMs, _⟩ =>
    some (.array [.string "wait", .ofUInt64 n, .integer (timeoutMs / 1000)])
  | _ => none

/-- The log line of an entry that is a notice. -/
def line? : Entry → Option LogLine
  | ⟨_, .note n, _⟩ => some n.line
  | _ => none

end Entry

namespace NodeEntry

/-- Bytes in hexadecimal digits after `0x`. -/
def bytesJson (bytes : List UInt8) : Json :=
  .string (String.ofList ('0' :: 'x' :: Text.hexOfBytes bytes))

/-- The transaction of an entry, if the node took one. -/
def transaction? : NodeEntry → Option Json
  | ⟨.send signer c gas, .ok _⟩ => some (.object
      [("type", .integer 0), ("from", .string signer.address.text), ("to", .string c.target.text),
        ("nonce", .ofUInt64 c.nonce), ("gas_price", numberText c.gasPrice), ("gas", .integer gas),
        ("chain_id", .ofUInt64 c.chainId), ("value", numberText 0), ("input", bytesJson c.input)])
  | _ => none

/-- The address of an entry that asks for a count of transactions. -/
def countQuery? : NodeEntry → Option Json
  | ⟨.pendingCount a, _⟩ => some (.array [.string a.lowerText, .string "pending"])
  | _ => none

/-- The contract and the input of an entry that reads from a contract. -/
def view? : NodeEntry → Option Json
  | ⟨.view target input, _⟩ => some (.array [.string target.lowerText, bytesJson input])
  | _ => none

end NodeEntry

end Payout.Rehearsal
