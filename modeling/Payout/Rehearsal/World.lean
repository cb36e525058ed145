import Payout.Settlement.Batch

/-!
# Rehearsal

Scripted surroundings for settlement: a ledger in memory, some of whose requests fail as written
down, a chain that answers from a script, and a clock that only moves when a confirmation is slow.
Everything asked is kept with its answer and the time.
-/

namespace Payout.Rehearsal

open Settlement (Request)

/-- How a sent transaction ends. -/
inductive Verdict where
  | success
  | reverted
  | timeout
  | failure (e : ChainError)

/-- A transaction that the chain takes: what its handle and its receipt say, where not the usual,
and how long its confirmation takes. -/
structure Acceptance where
  nonce : Option UInt64
  hash : Option TransactionHash
  receiptHash : Option TransactionHash
  block : UInt64
  raw : Option Json
  delayMs : Nat
  verdict : Verdict

/-- What becomes of a call. -/
inductive Reply where
  | refused (e : ChainError)
  | accepted (a : Acceptance)

/-- A request to the ledger that goes wrong: it fails, or it claims an answer; the tables stay as
they are either way. -/
inductive Fault where
  | error (e : LedgerError)
  | claimAnswer (b : Bool)

/-- A request with its answer and the time of asking in milliseconds. -/
structure Entry where
  time : Nat
  request : Request
  answer : request.Answer

/-- What happens to the surroundings from outside at some time. -/
inductive Event where
  | insert (k : Kind) (row : Withdrawal k.Order)
  /-- A value is sent on the shutdown channel. -/
  | signal (value : Bool)
  /-- The shutdown channel loses its sender. -/
  | abandon

/-- The shutdown channel as its receiver sees it. -/
structure Channel where
  value : Bool
  unread : Bool
  hasSender : Bool

/-- The scripted surroundings. -/
structure World where
  /-- The time that rows are stamped with. -/
  now : Instant
  clock : Nat
  tables : Ledger.Tables
  /-- The faults to come, for each request by name; none lets a request through. -/
  faults : List (String × List (Option Fault))
  /-- The estimates to come; the last stays. -/
  estimates : List (Except ChainError Nat)
  /-- The numbers of decimals to come; the last stays. -/
  decimals : List (Except ChainError UInt8)
  /-- The replies to come, and the one for every call after them. -/
  replies : List Reply
  lastReply : Reply
  nextNonce : UInt64
  /-- The transactions that were taken, the latest first. -/
  taken : List Acceptance
  /-- Events to come, in order of time. -/
  events : List (Nat × Event)
  channel : Channel
  /-- Everything asked so far, the latest first. -/
  journal : List Entry

def requestName : Ledger.Request → String
  | .unprocessed .asset => "unprocessed_withdrawals"
  | .unprocessed .currency => "unprocessed_currency_withdrawals"
  | .asset _ _ => "asset"
  | .user _ => "user"
  | .userByWallet _ => "user_by_wallet"
  | .claim .asset _ => "claim_withdrawal"
  | .claim .currency _ => "claim_currency_withdrawal"
  | .update .asset _ _ => "update_withdrawal"
  | .update .currency _ _ => "update_currency_withdrawal"
  | .release _ _ => "release_asset"

/-- The head of a list whose last element stays, and the list after it. -/
def draw {α : Type} : List α → Option (α × List α)
  | [] => none
  | [a] => some (a, [a])
  | a :: rest => some (a, rest)

/-- A hash of thirty-two equal bytes. -/
def plainHash (byte : Nat) : TransactionHash := ⟨List.replicate 32 (UInt8.ofNat byte)⟩

namespace Event

/-- The world after an event. -/
def apply (w : World) : Event → World
  | insert k row => { w with tables := w.tables.insert k row }
  | signal value => { w with channel := { w.channel with value := value, unread := true } }
  | abandon => { w with channel := { w.channel with hasSender := false } }

end Event

namespace World

/-- The fault that the next request of a name meets, and the faults after it. -/
def drawFault (name : String) : List (String × List (Option Fault)) →
    Option Fault × List (String × List (Option Fault))
  | [] => (none, [])
  | (other, queue) :: rest =>
    if other = name then
      match queue with
      | [] => (none, (other, queue) :: rest)
      | fault :: queue => (fault, (other, queue) :: rest)
    else
      let (fault, rest) := drawFault name rest
      (fault, (other, queue) :: rest)

/-- The answer of the tables, and the world after it; a refused request changes nothing. -/
def performOn (w : World) (r : Ledger.Request) : Except LedgerError r.Value × World :=
  match Ledger.Tables.perform w.now r w.tables with
  | .error e => (.error e, w)
  | .ok (value, tables) => (.ok value, { w with tables := tables })

/-- The answer of the ledger, faults included, and the world after it. -/
def askLedger (w : World) (r : Ledger.Request) : Except LedgerError r.Value × World :=
  let (fault, faults) := drawFault (requestName r) w.faults
  let w := { w with faults := faults }
  match fault, r with
  | some (.error e), _ => (.error e, w)
  | some (.claimAnswer b), .claim _ _ => (.ok b, w)
  | _, r => w.performOn r

/-- The node's estimate. -/
def askEstimate (w : World) : Except ChainError Nat × World :=
  match draw w.estimates with
  | some (e, rest) => (e, { w with estimates := rest })
  | none => (.error (.rpc "no estimate"), w)

/-- A contract's number of decimals. -/
def askDecimals (w : World) : Except ChainError UInt8 × World :=
  match draw w.decimals with
  | some (d, rest) => (d, { w with decimals := rest })
  | none => (.error (.rpc "no decimals"), w)

/-- The reply to a call. A transaction that is taken uses up a nonce unless its own is written
down. -/
def askCall (w : World) : Except ChainError Pending × World :=
  let (reply, replies) := match w.replies with
    | reply :: rest => (reply, rest)
    | [] => (w.lastReply, [])
  let w := { w with replies := replies }
  match reply with
  | .refused e => (.error e, w)
  | .accepted a =>
    let nonce := a.nonce.getD w.nextNonce
    let pending : Pending :=
      ⟨a.hash.getD (plainHash (nonce.toNat + 1)), nonce, w.taken.length⟩
    let next := if a.nonce.isSome then w.nextNonce else w.nextNonce + 1
    (.ok pending, { w with taken := a :: w.taken, nextNonce := next })

/-- Moves the clock to a time and lets the events up to it happen. -/
def advance (w : World) (time : Nat) : World :=
  let due := w.events.takeWhile (·.1 ≤ time)
  let rest := w.events.dropWhile (·.1 ≤ time)
  { due.foldl (fun w e => e.2.apply w) w with events := rest, clock := max w.clock time }

/-- The end of a wait. -/
def askReceipt (w : World) (p : Pending) (timeoutMs : Nat) : Except ChainError Receipt × World :=
  match w.taken.reverse[p.ticket]? with
  | none => (.error (.confirmation "unknown transaction"), w)
  | some a =>
    let w := w.advance (w.clock + a.delayMs)
    let receipt (success : Bool) : Receipt := ⟨a.receiptHash.getD p.hash, a.block, success, a.raw⟩
    let answer := match a.verdict with
      | .success => .ok (receipt true)
      | .reverted => .ok (receipt false)
      | .timeout => .error (.confirmationTimeout p.hash (timeoutMs / 1000))
      | .failure e => .error e
    (answer, w)

/-- The answer to a request. There is always time for another attempt. -/
def reply (w : World) : (r : Request) → r.Answer × World
  | .ledger r => w.askLedger r
  | .estimate => w.askEstimate
  | .decimals _ => w.askDecimals
  | .call _ _ => w.askCall
  | .wait p _ timeoutMs => w.askReceipt p timeoutMs
  | .pause => (true, w)
  | .note _ => ((), w)

/-- Answers a request and keeps it with its answer. -/
def answer (r : Request) : StateM World r.Answer := do
  let w ← get
  let (a, w') := w.reply r
  set { w' with journal := ⟨w.clock, r, a⟩ :: w'.journal }
  pure a

/-- Runs a settlement program in scripted surroundings. -/
def runStep {α : Type} (p : Settlement.Step α) : StateM World α := p.run answer

/-- Keeps a notice that comes from elsewhere. -/
def keep (n : Notice) : StateM World Unit := answer (.note n)

end World

end Payout.Rehearsal
