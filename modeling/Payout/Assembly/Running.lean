import Payout.Assembly.Wiring

/-!
# Running a settler

What a wired settler asks is answered by its ledger and its connection, which ask the host in turn.
-/

namespace Payout.Assembly

open Host (ask log onDisk)
open Settlement (KnownDecimals)

/-- A program on a host that keeps the ledger. -/
abbrev Kept := StateT Ledger.Store (Program Host.interface)

/-- A program on a host that keeps the ledger and the known numbers of decimals. -/
abbrev Running := StateT KnownDecimals Kept

def answerLedger (r : Ledger.Request) : Kept (Except LedgerError r.Value) := fun store => do
  let now ← ask .now
  onDisk (store.answer now r)

/-- Sends a call from the account of its role. -/
def answerCall (a : Assembly) (c : ContractCall) (gasPrice : Nat) :
    Program Host.interface (Except ChainError Pending) :=
  match Connection.order a.assetContract a.currencyContract c with
  | .error e => pure (.error e)
  | .ok o => a.connection.submit c.role o gasPrice

/-- The number of decimals that a currency's contract reports. -/
def answerDecimals (a : Assembly) (c : CurrencyClass) :
    Program Host.interface (Except ChainError UInt8) :=
  match a.currencyContract c with
  | some contract => Connection.decimals contract
  | none => pure (.error (.config "no contract for the class"))

def answer (a : Assembly) : (r : Settlement.Request) → Kept r.Answer
  | .ledger r => answerLedger r
  | .estimate => Connection.estimate
  | .decimals c => a.answerDecimals c
  | .call c gasPrice => a.answerCall c gasPrice
  | .wait p confirmations timeoutMs => Connection.wait p confirmations timeoutMs
  | .pause => ask .pause
  | .note n => log n.line

/-- One pass over the ledger. -/
def poll (a : Assembly) : Running (Except SettlementError Summary) := fun known =>
  (a.settler.poll known).run a.answer

def answerSchedule (a : Assembly) : (r : Settlement.Schedule.Request) → Running r.Answer
  | .shutdown => ask .shutdown
  | .pass => a.poll
  | .rest ms => ask (.rest ms)
  | .note n => log n.line

/-- The schedule from start to stop, of at most `limit` passes. -/
def runSchedule (a : Assembly) (limit : Nat) : Running Bool :=
  (Settlement.Schedule.run a.intervalMs limit).run a.answerSchedule

end Payout.Assembly
