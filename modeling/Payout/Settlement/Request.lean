import Payout.Program
import Payout.Settlement.Notice

/-!
# The surroundings of settlement

Everything that settlement asks of the outside: the ledger, the chain, time to try again, and a
place to report to. A settlement is a program over this interface.
-/

namespace Payout.Settlement

/-- A request of settlement to its surroundings. -/
inductive Request where
  | ledger (r : Ledger.Request)
  /-- The node's current gas price. -/
  | estimate
  /-- The number of decimals that a currency's contract reports. -/
  | decimals (currencyClass : CurrencyClass)
  /-- Sends a call at a gas price. -/
  | call (c : ContractCall) (gasPrice : Nat)
  /-- Waits for the receipt of a sent transaction, that many blocks deep, no longer than a time in
  milliseconds. -/
  | wait (p : Pending) (confirmations : UInt64) (timeoutMs : Nat)
  /-- Pauses before another attempt; false when there is no time for one. -/
  | pause
  | note (n : Notice)

abbrev Request.Answer : Request → Type
  | .ledger r => Except LedgerError r.Value
  | .estimate => Except ChainError Nat
  | .decimals _ => Except ChainError UInt8
  | .call _ _ => Except ChainError Pending
  | .wait _ _ _ => Except ChainError Receipt
  | .pause => Bool
  | .note _ => Unit

abbrev interface : Interface := ⟨Request, Request.Answer⟩

/-- A settlement program. -/
abbrev Step := Program interface

/-- Asks the surroundings. -/
def ask (r : Request) : Step r.Answer := Program.request (I := interface) r

/-- Asks the ledger. -/
def ledger (r : Ledger.Request) : Step (Except LedgerError r.Value) := ask (.ledger r)

/-- Reports something. -/
def note (n : Notice) : Step Unit := ask (.note n)

/-- The least pause between two attempts, in milliseconds. -/
def leastPauseMs : Nat := 250

/-- How many attempts can follow the first within a time window in milliseconds. -/
def furtherAttempts (windowMs : Nat) : Nat := windowMs / leastPauseMs

/-- Attempts something until it succeeds, fails for good, or there is no time for another attempt,
of which at most `further` follow the first. -/
def retry {ε α : Type} (isTransient : ε → Bool) (attempt : Step (Except ε α)) :
    Nat → Step (Except ε α)
  | 0 => attempt
  | further + 1 => do
    match ← attempt with
    | .ok a => pure (.ok a)
    | .error e =>
      if isTransient e then
        if ← ask .pause then retry isTransient attempt further else pure (.error e)
      else pure (.error e)

end Payout.Settlement
