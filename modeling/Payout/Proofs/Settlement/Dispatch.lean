import Payout.Proofs.Settlement.Tenures

/-!
# Dispatches

How a transaction comes to be written to a row. While the row is in hand a price is asked for and
one call is made right after it, in the name of an address; hash, nonce and address are those that
are written (`RowShape.exists_call`). Nothing else that is done for the row has to do with sending a
transaction.
-/

namespace Payout

namespace Settlement
open Program
open CurrencyPayout (outcomeOf)

/-- Whether a request has to do with sending a transaction. -/
def Request.submits : Request → Bool
  | .estimate => true
  | .call _ _ => true
  | _ => false

/-- Exchanges that have nothing to do with sending a transaction. -/
def Aside (es : Trace) : Prop := ∀ e ∈ es, e.request.submits = false

/-- The transaction that a verdict is about. -/
def transaction? : Except SettlementError Confirmed → Option Submitted
  | .ok confirmed => some confirmed.submitted
  | .error e => e.submitted

/-- The calls that a settler may make for an order, each with the address that it takes for the
signer. -/
inductive Commissions (s : Settler) : (k : Kind) → k.Order → String → ContractCall → Prop where
  | asset {o : AssetOrder} {x a signer c} :
    s.assetPayout o.assetClass = some x →
    x.path a = .ok (signer, c) →
    Commissions s .asset o signer c
  | currency {o : CurrencyOrder} {x amount} :
    s.currencyPayout o.currencyClass = some x →
    Commissions s .currency o x.signer (x.callFor o.destination amount)

section Dispatches

variable {s : Settler} {p : Policy} {k : Kind} {o : k.Order} {es fs : Trace}
  {v : Except SettlementError Confirmed} {tx : Submitted} {signer : String} {c : ContractCall}

/-- The transaction that is written to a row is the one that its verdict is about. -/
lemma outcomeOf_eq (v : Except SettlementError Confirmed) :
    (outcomeOf v).txHash = (transaction? v).map (·.hash.text) ∧
      (outcomeOf v).nonce = (transaction? v).map (·.nonce) ∧
      (outcomeOf v).signer = (transaction? v).map (·.signer) := by
  cases v with
  | ok confirmed => exact ⟨rfl, rfl, rfl⟩
  | error e =>
    have outcome : outcomeOf (.error e) = e.outcome := rfl
    rw [outcome, e.outcome_eq]
    exact ⟨rfl, rfl, rfl⟩

/-- An empty trace has nothing to do with sending. -/
lemma aside_nil : Aside [] := fun _ he => absurd he List.not_mem_nil

/-- What has nothing to do with sending stays so one after another. -/
lemma Aside.append (h : Aside es) (h' : Aside fs) : Aside (es ++ fs) :=
  List.forall_mem_append.2 ⟨h, h'⟩

/-- A request to the ledger has nothing to do with sending. -/
lemma aside_ledger {r a} (h : Aside es) : Aside (⟨.ledger r, a⟩ :: es) :=
  List.forall_mem_cons.2 ⟨rfl, h⟩

/-- Reports have nothing to do with sending. -/
lemma Notes.aside (h : Notes es) : Aside es := by
  intro e he
  obtain ⟨m, note⟩ := h e he
  rw [note]
  rfl

/-- What follows the outcome of a row has nothing to do with sending. -/
lemma Trailing.aside (h : Trailing es) : Aside es := by
  intro e he
  obtain ⟨m, note⟩ | pause | ⟨c, n, release⟩ := h e he
  · rw [note]
    rfl
  · rw [pause]
    rfl
  · rw [release]
    rfl

/-- Turning an amount into units has nothing to do with sending. -/
lemma AmountCourse.aside {x : CurrencyPayout} {amount d r d'}
    (h : AmountCourse x amount d es r d') : Aside es := by
  cases h with
  | unscaled => exact aside_nil
  | known => exact aside_nil
  | unknown => exact List.forall_mem_singleton.2 rfl
  | learnt => exact List.forall_mem_singleton.2 rfl

/-- Where something was submitted, one call was made right after a price for it. -/
lemma SubmitCourse.exists_call (h : SubmitCourse p signer c es v)
    (sent : transaction? v = some tx) :
    ∃ priced price pending rest, es = priced ++ ⟨.call c price, .ok pending⟩ :: rest ∧
      PriceCourse p priced (.ok price) ∧ Aside rest ∧
        tx = ⟨pending.hash, pending.nonce, signer⟩ := by
  cases h with
  | unpriced => cases sent
  | refused => cases sent
  | unconfirmed priced =>
    cases sent
    exact ⟨_, _, _, _, rfl, priced, List.forall_mem_singleton.2 rfl, rfl⟩
  | reverted priced =>
    cases sent
    exact ⟨_, _, _, _, rfl, priced, List.forall_mem_singleton.2 rfl, rfl⟩
  | confirmed priced =>
    cases sent
    exact ⟨_, _, _, _, rfl, priced,
      List.forall_mem_cons.2 ⟨rfl, List.forall_mem_singleton.2 rfl⟩, rfl⟩

/-- A verdict about a transaction is that of a submission. -/
lemma Verdict.exists_submission (h : Verdict s k o es v) (sent : transaction? v = some tx) :
    ∃ looks fs signer c, es = looks ++ fs ∧ Aside looks ∧ Commissions s k o signer c ∧
      SubmitCourse s.policy signer c fs v := by
  cases h with
  | unset => cases sent
  | unloaded => cases sent
  | @handedOut o x a es _ set course =>
    cases course with
    | disowned course => cases course.submitted.symm.trans sent
    | untracked _ path => cases (submitted_of_path path).symm.trans sent
    | @submitted q signer c fs _ course path submission =>
      have looks : Aside [q] := by
        obtain ⟨_, asks⟩ | ⟨_, asks⟩ := course.asksUser <;>
          exact List.forall_mem_singleton.2 (by rw [asks]; rfl)
      exact ⟨[_, q], fs, signer, c, rfl, aside_ledger looks, .asset set path, submission⟩
  | unsetCurrency => cases sent
  | paid set course =>
    cases course with
    | unconverted amount => cases amount.submitted.symm.trans sent
    | submitted amount submission =>
      exact ⟨_, _, _, _, rfl, amount.aside, .currency set, submission⟩

/-- What is written to a row is the outcome of the verdict on it. -/
lemma RowShape.exists_verdict {row : Withdrawal k.Order} {r out a} (h : RowShape s k row es r)
    (written : ⟨.ledger (.update k row.id out), a⟩ ∈ es) :
    ∃ fs v ns rest, es = ⟨.ledger (.claim k row.id), .ok true⟩ ::
        (fs ++ ns ++ ⟨.ledger (.update k row.id out), a⟩ :: rest) ∧
      Verdict s k row.order fs v ∧ Notes ns ∧ Trailing rest ∧ out = outcomeOf v := by
  cases h with
  | unclaimed notes =>
    obtain ⟨⟨⟩⟩ | written := List.mem_cons.1 written
    cases notes.looks.row?_eq _ written
  | refused => cases List.mem_singleton.1 written
  | @settled fs v ns a' rest verdict notes trailing =>
    obtain ⟨⟨⟩⟩ | written := List.mem_cons.1 written
    obtain written | written := List.mem_append.1 written
    · cases (verdict.looks.append notes.looks).row?_eq _ written
    · obtain ⟨⟨⟩⟩ | written := List.mem_cons.1 written
      · exact ⟨fs, v, ns, rest, rfl, verdict, notes, trailing, rfl⟩
      · cases trailing.row?_eq _ written

/-- Where a transaction is written to a row, one call was made for the row, right after a price for
it, and the transaction is that of this call. -/
lemma RowShape.exists_call {row : Withdrawal k.Order} {r out a n} (h : RowShape s k row es r)
    (written : ⟨.ledger (.update k row.id out), a⟩ ∈ es) (nonce : out.nonce = some n) :
    ∃ pre priced price signer c pending post, es =
      pre ++ (priced ++ ⟨.call c price, .ok pending⟩ :: post) ∧
      Aside pre ∧ PriceCourse s.policy priced (.ok price) ∧ Aside post ∧
        Commissions s k row.order signer c ∧
      out.txHash = some pending.hash.text ∧ out.nonce = some pending.nonce ∧
        out.signer = some signer := by
  obtain ⟨fs, v, ns, rest, rfl, verdict, notes, trailing, rfl⟩ := h.exists_verdict written
  obtain ⟨hash_eq, nonce_eq, signer_eq⟩ := outcomeOf_eq v
  obtain ⟨tx, sent, -⟩ := Option.map_eq_some_iff.1 (nonce_eq.symm.trans nonce)
  rw [hash_eq, nonce_eq, signer_eq, sent]
  obtain ⟨looks, gs, signer, c, rfl, looking, commissioned, submission⟩ :=
    verdict.exists_submission sent
  obtain ⟨priced, price, pending, waits, rfl, course, waiting, rfl⟩ := submission.exists_call sent
  refine ⟨⟨.ledger (.claim k row.id), .ok true⟩ :: looks, priced, price, signer, c, pending,
    waits ++ ns ++ ⟨.ledger (.update k row.id (outcomeOf v)), a⟩ :: rest, by simp,
    aside_ledger looking, course, ?_, commissioned, rfl, rfl, rfl⟩
  exact (waiting.append notes.aside).append (aside_ledger trailing.aside)

end Dispatches

end Settlement

end Payout
