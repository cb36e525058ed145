import Payout.Evm.Node
import Payout.Rehearsal.World

/-!
# A scripted node

A node that takes transactions as a script says: some are refused, some are never included, some
fail. It counts the transactions of each sender, and everything asked is kept with its answer.
-/

namespace Payout.Rehearsal

/-- What becomes of a transaction that a scripted node takes. -/
structure Inclusion where
  /-- Whether the node ever reports it. -/
  reported : Bool
  success : Bool
  block : Option UInt64
  /-- The hash that the report names, if not the one that was told before. -/
  reportedHash : Option TransactionHash

/-- What becomes of a request to send a transaction. -/
inductive Delivery where
  | refused (e : Node.Failure)
  | taken (hash : Option TransactionHash) (i : Inclusion)

/-- A transaction that was taken. -/
structure Taken where
  signer : Account
  call : Node.Call
  gas : Nat
  hash : TransactionHash
  inclusion : Inclusion

/-- A request to a node with its answer. -/
structure NodeEntry where
  request : Node.Request
  answer : Except Node.Failure request.Value

structure ScriptedNode where
  chainId : UInt64
  gasPrice : Nat
  gas : Nat
  /-- The transactions that addresses sent before. -/
  sentBefore : List (Address × UInt64)
  viewResult : List UInt8
  /-- The methods that always fail. -/
  failures : List (String × Node.Failure)
  /-- What becomes of transactions, in the order in which they are sent. -/
  deliveries : List Delivery
  /-- The number of requests to send so far. -/
  sends : Nat
  /-- The transactions that were taken, the latest first. -/
  taken : List Taken
  /-- Everything asked so far, the latest first. -/
  journal : List NodeEntry

/-- The name of the method behind a request. -/
def methodName : Node.Request → String
  | .chainId => "eth_chainId"
  | .gasPrice => "eth_gasPrice"
  | .pendingCount _ => "eth_getTransactionCount"
  | .view _ _ => "eth_call"
  | .gas _ _ => "eth_estimateGas"
  | .send _ _ _ => "eth_sendRawTransaction"
  | .report _ _ _ => "eth_getTransactionReceipt"

namespace Taken

/-- The receipt of a transaction as the node writes it. -/
def receipt (t : Taken) (hash : TransactionHash) : Json := .object
  [("blockHash", .string ("0x" ++ String.ofList (List.replicate 64 'b'))),
    ("blockNumber", if t.inclusion.block.isSome then .string "0x64" else .null),
    ("contractAddress", .null), ("cumulativeGasUsed", .string "0x5208"),
    ("effectiveGasPrice", .string "0x1"), ("from", .string t.signer.address.lowerText),
    ("gasUsed", .string "0x5208"), ("logs", .array []),
    ("logsBloom", .string ("0x" ++ String.ofList (List.replicate 512 '0'))),
    ("status", .string (if t.inclusion.success then "0x1" else "0x0")),
    ("to", .string t.call.target.lowerText), ("transactionHash", .string hash.text),
    ("transactionIndex", .string "0x0"), ("type", .string "0x0")]

/-- What the node reports of a transaction, if it does. -/
def report? (t : Taken) : Option Node.Report :=
  let hash := t.inclusion.reportedHash.getD t.hash
  if t.inclusion.reported then
    some ⟨hash, t.inclusion.block, t.inclusion.success, t.receipt hash⟩
  else none

end Taken

namespace ScriptedNode

/-- The usual delivery. -/
def delivered : Delivery := .taken none ⟨true, true, some 100, none⟩

/-- The next delivery, and the node after it. -/
def send (n : ScriptedNode) (signer : Account) (c : Node.Call) (gas : Nat) :
    Except Node.Failure TransactionHash × ScriptedNode :=
  let sent := { n with sends := n.sends + 1 }
  match n.deliveries[n.sends]?.getD delivered with
  | .refused e => (.error e, sent)
  | .taken hash i =>
    let hash := hash.getD (plainHash (n.sends + 1))
    (.ok hash, { sent with taken := ⟨signer, c, gas, hash, i⟩ :: n.taken })

/-- The transactions that an address sent. -/
def count (n : ScriptedNode) (a : Address) : UInt64 :=
  (n.sentBefore.lookup a).getD 0 + UInt64.ofNat (n.taken.countP (·.signer.address = a))

/-- The answer of a node whose methods all work, and the node after it. -/
def perform (n : ScriptedNode) : (r : Node.Request) → Except Node.Failure r.Value × ScriptedNode
  | .chainId => (.ok n.chainId, n)
  | .gasPrice => (.ok n.gasPrice, n)
  | .pendingCount a => (.ok (n.count a), n)
  | .view _ _ => (.ok n.viewResult, n)
  | .gas _ _ => (.ok n.gas, n)
  | .send signer c gas => n.send signer c gas
  | .report hash _ _ => (.ok ((n.taken.find? (·.hash = hash)).bind Taken.report?), n)

/-- Answers a request and keeps it with its answer. -/
def answer (n : ScriptedNode) (r : Node.Request) : Except Node.Failure r.Value × ScriptedNode :=
  let (a, n) : Except Node.Failure r.Value × ScriptedNode :=
    match n.failures.lookup (methodName r) with
    | some e => (.error e, n)
    | none => n.perform r
  (a, { n with journal := ⟨r, a⟩ :: n.journal })

end ScriptedNode

end Payout.Rehearsal
