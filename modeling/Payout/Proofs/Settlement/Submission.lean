import Payout.Proofs.Program.Worlds
import Payout.Proofs.Settlement.Dispatch
import Payout.Proofs.Settlement.Evidence
import Payout.Proofs.Settlement.Insistence

/-!
# Submissions

One submission asks for one fee and comes to one verdict. The node is asked for an estimate anew,
and again after a failure of the connection only; with no estimate nothing is sent, and with one a
single call goes out at the price that is made of it (`Submits`). What is sent and awaited then
decides the verdict, in every world (`submit_priced_anew`).
-/

namespace Payout.Settlement
open Program

/-- One request for an estimate. -/
def estimateAsks (a : Except ChainError Nat) : Trace := [⟨.estimate, a⟩]

/-- A submission, request by request: estimates until the last, and then what the last one leads
to. -/
inductive Submits (p : Policy) (signer : String) (c : ContractCall) :
    Trace → Except SettlementError Confirmed → Prop where
  | unpriced {es e} :
    Insists ChainError.isTransient (furtherAttempts p.estimateWindowMs) estimateAsks es (.error e) →
    Submits p signer c es (.error (.chain e))
  | priced {es estimate fs v} :
    Insists ChainError.isTransient (furtherAttempts p.estimateWindowMs) estimateAsks es
      (.ok estimate) →
    Sends p signer c (Fee.adjust p.feePercent estimate) fs v →
    Submits p signer c (es ++ fs) v

/-- A verdict that says of a call what its exchanges show: what was sent is in it, and it is a
success where a receipt of success came. -/
structure Attests (signer : String) (c : ContractCall) (es : Trace)
    (v : Except SettlementError Confirmed) :
    Prop where
  calls : (sent es).length ≤ 1
  waits : (awaited es).length ≤ 1
  transaction : ∀ tx, transaction? v = some tx ↔
    ∃ pending, (c, .ok pending) ∈ sent es ∧ tx = ⟨pending.hash, pending.nonce, signer⟩
  success : v.isOk = true ↔ ∃ pending receipt, (pending, .ok receipt) ∈ awaited es ∧
    receipt.success = true

variable {p : Policy} {signer : String} {c : ContractCall} {price : Nat} {es fs : Trace}
  {v : Except SettlementError Confirmed}

/-- Every path of a submission is one request after the other, as `Submits` says. -/
lemma submit_submits (h : (submit p signer c).Ends es v) : Submits p signer c es v := by
  obtain ⟨e, unpriced, rfl⟩ | ⟨price, es₁, es₂, rfl, priced, sends⟩ := submit_cases h
  · obtain ⟨estimate, attempts, failed⟩ := gasPrice_cases unpriced
    cases estimate with
    | error e =>
      cases failed
      exact .unpriced (retry_insists ends_ask.1 attempts)
    | ok _ => cases failed
  · obtain ⟨estimate, attempts, got⟩ := gasPrice_cases priced
    cases estimate with
    | error _ => cases got
    | ok estimate =>
      cases got
      exact .priced (retry_insists ends_ask.1 attempts) sends

/-- Where nothing was sent, the verdict is a failure without a transaction. -/
lemma attests_of_unsent {e : SettlementError} (calls : (sent es).length ≤ 1)
    (unsent : ∀ pending, (c, .ok pending) ∉ sent es) (unawaited : awaited es = [])
    (submitted : e.submitted = none) :
    Attests signer c es (.error e) where
  calls := calls
  waits := by rw [unawaited]; exact Nat.zero_le 1
  transaction tx := by
    refine ⟨fun some => ?_, fun ⟨pending, mem, _⟩ => absurd mem (unsent pending)⟩
    cases submitted.symm.trans some
  success := by
    refine ⟨nofun, fun ⟨pending, receipt, mem, _⟩ => ?_⟩
    rw [unawaited] at mem
    cases mem

/-- Where something was sent, it was awaited, and what came of that is the verdict. -/
lemma attests_of_sent {pending : Pending} {a : Except ChainError Receipt}
    (one : sent es = [(c, .ok pending)]) (got : awaited es = [(pending, a)])
    (tx : transaction? v = some ⟨pending.hash, pending.nonce, signer⟩)
    (success : v.isOk = true ↔ ∃ receipt, .ok receipt = a ∧ receipt.success = true) :
    Attests signer c es v where
  calls := by rw [one]; exact Nat.le_refl 1
  waits := by rw [got]; exact Nat.le_refl 1
  transaction tx' := by simp [one, tx, eq_comm]
  success := by simp [got, success]

/-- What is sent and awaited at a price is attested by the verdict. -/
lemma Sends.attests (h : Sends p signer c price fs v) : Attests signer c fs v := by
  cases h with
  | refused =>
    exact attests_of_unsent (Nat.le_refl 1) (fun _ mem => by cases List.mem_singleton.1 mem) rfl rfl
  | unconfirmed => exact attests_of_sent rfl rfl rfl ⟨nofun, nofun⟩
  | reverted failure =>
    refine attests_of_sent rfl rfl rfl ⟨nofun, ?_⟩
    rintro ⟨_, ⟨⟩, success⟩
    cases failure.symm.trans success
  | confirmed success =>
    exact attests_of_sent rfl rfl rfl ⟨fun _ => ⟨_, rfl, success⟩, fun _ => rfl⟩

/-- A verdict attests to the same exchanges after some that send nothing. -/
lemma Attests.after_offChain (h : Attests signer c fs v) (before : OffChain es) :
    Attests signer c (es ++ fs) v := by
  obtain ⟨unsent, unawaited⟩ := before
  obtain ⟨calls, waits, transaction, success⟩ := h
  constructor <;> simpa [unsent, unawaited]

/-- Every submission is attested by its verdict. -/
lemma submit_attests (h : (submit p signer c).Ends es v) : Attests signer c es v := by
  obtain ⟨e, unpriced, rfl⟩ | ⟨price, es₁, es₂, rfl, priced, sends⟩ := submit_cases h
  · obtain ⟨unsent, unawaited⟩ := (gasPrice_course unpriced).offChain
    exact attests_of_unsent (by simp [unsent]) (by simp [unsent]) unawaited rfl
  · exact sends.attests.after_offChain (gasPrice_course priced).offChain

/-- **One fee, one call, one verdict.** Whatever the answers are, and whatever was asked before, a
submission asks for estimates until one comes or none will, then makes the one call at the price of
this estimate and waits for it once; and its verdict is a success just where a receipt of success
arrived, with the transaction that was sent, if one was. -/
theorem submit_priced_anew (p : Policy) (signer : String) (c : ContractCall) (w : World interface)
    (before : Trace) :
    let path := (submit p signer c).pathIn w before
    Submits p signer c path.1 path.2 ∧ Attests signer c path.1 path.2 := by
  have ends := ends_pathIn w before (submit p signer c)
  exact ⟨submit_submits ends, submit_attests ends⟩

end Payout.Settlement
