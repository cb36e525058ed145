import Payout.Json.Basic

/-!
# Transactions

Hashes, receipts and the handle of a transaction on its way.
-/

namespace Payout

/-- A transaction hash, as bytes. -/
structure TransactionHash where
  bytes : List UInt8
deriving DecidableEq

namespace TransactionHash

/-- The hash in hexadecimal after `0x`. -/
def text (h : TransactionHash) : String :=
  String.ofList ('0' :: 'x' :: Text.hexOfBytes h.bytes)

/-- The first four bytes, with dots for the others; for log lines. -/
def short (h : TransactionHash) : String :=
  let digits := Text.hexOfBytes h.bytes
  String.ofList (if digits.length ≤ 8 then digits else digits.take 8 ++ ['.', '.'])

end TransactionHash

/-- What a node reports of a transaction in a block. -/
structure Receipt where
  hash : TransactionHash
  block : UInt64
  success : Bool
  /-- The receipt as the node gave it. -/
  raw : Option Json

/-- A transaction that was sent: its hash, its nonce, and a ticket that tells sent transactions
apart. -/
structure Pending where
  hash : TransactionHash
  nonce : UInt64
  ticket : Nat
deriving DecidableEq

/-- A sent transaction and the address that signed it. -/
structure Submitted where
  hash : TransactionHash
  nonce : UInt64
  signer : String
deriving DecidableEq

/-- A sent transaction whose receipt reports success. -/
structure Confirmed where
  submitted : Submitted
  receipt : Receipt

end Payout
