import Payout.Proofs.Program.Worlds
import Payout.Proofs.Settlement.Dispatch

/-!
# Precision

How a currency payout comes by its token's number of decimals. It is hidden state, shared by all
rows that are paid out one after another: asked for while it is not known, and never again once the
contract has reported it. A row for which it could not be had asks for it and does nothing else with
the chain; one that is refused or fails later takes nothing back (`Learning`). So all rows from the
first report on are converted by it, whatever the contract would report by then
(`decimals_fixed_once_reported`).
-/

namespace Payout.Settlement
open Program

/-- Whether a request is for a token's number of decimals. -/
def Request.isDecimals : Request → Bool
  | .decimals _ => true
  | _ => false

/-- How often a number of decimals was asked for. -/
def inquiries (es : Trace) : Nat := es.countP (·.request.isDecimals)

/-- A world in which the number of decimals is reported by how often it was asked for before. -/
def reporting (report : Nat → Except ChainError UInt8) (w : World interface) :
    World interface := fun before r =>
  match r with
  | .decimals _ => report (inquiries before)
  | r => w before r

/-- A row that a payout settled, with all that was asked for it and the verdict. -/
structure Dealing where
  row : Withdrawal CurrencyOrder
  trace : Trace
  verdict : Except SettlementError Confirmed

/-- Rows that a payout settles one after another, starting with what it knows of the number of
decimals. -/
def CurrencyPayout.dealings (x : CurrencyPayout) (p : Policy) (w : World interface) :
    Trace → Option UInt8 → List (Withdrawal CurrencyOrder) → List Dealing
  | _, _, [] => []
  | before, known, row :: rows =>
    let (es, v, known') := (x.withdraw p row known).pathIn w before
    ⟨row, es, v⟩ :: x.dealings p w (before ++ es) known' rows

/-- What follows once an amount is converted, or is not: it is submitted, or nothing is done. -/
inductive Continues (x : CurrencyPayout) (p : Policy) (order : CurrencyOrder) :
    Except SettlementError Nat → Trace → Except SettlementError Confirmed → Prop where
  | refused {e} :
    Continues x p order (.error e) [] (.error e)
  | submitted {units es v} :
    SubmitCourse p x.signer (x.callFor order.destination units) es v →
    Continues x p order (.ok units) es v

/-- The amount of a row was converted in one way, and nothing was sent but what follows from
that. -/
inductive PaidAt (x : CurrencyPayout) (p : Policy) (rescale : Option Rescale) : Dealing → Prop where
  | intro {row pre es post v a} :
    Aside pre →
    Continues x p row.order (row.order.amount.toChainUnits rescale) es v →
    Aside post →
    PaidAt x p rescale ⟨row, pre ++ (es ++ post), concluded v a⟩

/-- The number of decimals was asked for in vain, and nothing was sent. -/
structure Missed (e : ChainError) (d : Dealing) : Prop where
  inquiries : inquiries d.trace = 1
  aside : Aside d.trace
  verdict : d.verdict = .error (.chain e)

/-- Settling a row, by what is known of the number of decimals before and after. -/
inductive Takes (x : CurrencyPayout) (p : Policy) (row : Withdrawal CurrencyOrder) :
    Option UInt8 → Trace → Except SettlementError Confirmed → Option UInt8 → Prop where
  | unscaled {known es v} :
    x.scale = none →
    inquiries es = 0 →
    PaidAt x p none ⟨row, es, v⟩ →
    Takes x p row known es v known
  | known {scale d es v} :
    x.scale = some scale →
    inquiries es = 0 →
    PaidAt x p (some ⟨scale, d⟩) ⟨row, es, v⟩ →
    Takes x p row (some d) es v (some d)
  | unknown {scale e es} :
    x.scale = some scale →
    inquiries es = 0 →
    Aside es →
    Takes x p row none (⟨.decimals x.currencyClass, .error e⟩ :: es) (.error (.chain e)) none
  | learnt {scale d es v} :
    x.scale = some scale →
    inquiries es = 0 →
    PaidAt x p (some ⟨scale, d⟩) ⟨row, es, v⟩ →
    Takes x p row none (⟨.decimals x.currencyClass, .ok d⟩ :: es) v (some d)

/-- Rows settled one after another, once the number of decimals was asked for `n` times in vain. -/
inductive Learning (x : CurrencyPayout) (p : Policy) (scale : UInt64)
    (report : Nat → Except ChainError UInt8) :
    Nat → List Dealing → Prop where
  | nil {n} :
    Learning x p scale report n []
  | missed {n e d ds} :
    report n = .error e →
    Missed e d →
    Learning x p scale report (n + 1) ds →
    Learning x p scale report n (d :: ds)
  | learnt {n v d ds} :
    report n = .ok v →
    inquiries d.trace = 1 →
    PaidAt x p (some ⟨scale, v⟩) d →
    (∀ d ∈ ds, inquiries d.trace = 0 ∧ PaidAt x p (some ⟨scale, v⟩) d) →
    Learning x p scale report n (d :: ds)

section Rows

variable {x : CurrencyPayout} {p : Policy} {row : Withdrawal CurrencyOrder}
  {rescale : Option Rescale} {es fs : Trace}

/-- The inquiries of two traces add up. -/
@[simp] lemma inquiries_append : inquiries (es ++ fs) = inquiries es + inquiries fs :=
  List.countP_append

/-- Asking for the number of decimals is one inquiry more. -/
lemma inquiries_decimals {c a} : inquiries (⟨.decimals c, a⟩ :: es) = inquiries es + 1 :=
  List.countP_cons_of_pos rfl

/-- A request to the ledger is no inquiry. -/
lemma inquiries_ledger {q a} : inquiries (⟨.ledger q, a⟩ :: es) = inquiries es :=
  List.countP_cons_of_neg Bool.false_ne_true

/-- Reports are no inquiries. -/
lemma Notes.inquiries (h : Notes es) : inquiries es = 0 := by
  refine List.countP_eq_zero.2 fun e he => ?_
  obtain ⟨m, note⟩ := h e he
  rw [note]
  exact Bool.false_ne_true

/-- Asking for a gas price makes no inquiry. -/
lemma PriceCourse.inquiries {r} (h : PriceCourse p es r) : inquiries es = 0 := by
  refine List.countP_eq_zero.2 fun e he => ?_
  obtain estimate | pause := h.forall e he
  · rw [estimate]
    exact Bool.false_ne_true
  · rw [pause]
    exact Bool.false_ne_true

/-- A submission makes no inquiry. -/
lemma SubmitCourse.inquiries {signer c v} (h : SubmitCourse p signer c es v) :
    inquiries es = 0 := by
  cases h with
  | unpriced priced => exact priced.inquiries
  | refused priced => rw [inquiries_append, priced.inquiries]; rfl
  | unconfirmed priced => rw [inquiries_append, priced.inquiries]; rfl
  | reverted priced => rw [inquiries_append, priced.inquiries]; rfl
  | confirmed priced => rw [inquiries_append, priced.inquiries]; rfl

/-- What follows the conversion makes no inquiry. -/
lemma Continues.inquiries {order units v} (h : Continues x p order units es v) :
    inquiries es = 0 := by
  cases h with
  | refused => rfl
  | submitted submission => exact submission.inquiries

/-- Before the rest that is done for a row, something may be asked that has nothing to do with
sending. -/
lemma PaidAt.after {v} (h : PaidAt x p rescale ⟨row, es, v⟩) (aside : Aside fs) :
    PaidAt x p rescale ⟨row, fs ++ es, v⟩ := by
  cases h with
  | intro before continues after =>
    rw [← List.append_assoc]
    exact .intro (aside.append before) continues after

/-- A payment converts its amount, and goes on by what that came to. -/
lemma PaymentCourse.continues {order known v known'}
    (h : PaymentCourse x p order known es v known') :
    ∃ asks units fs, es = asks ++ fs ∧ AmountCourse x order.amount known asks units known' ∧
      Continues x p order units fs v := by
  cases h with
  | unconverted amount => exact ⟨es, _, [], (List.append_nil es).symm, amount, .refused⟩
  | submitted amount submission => exact ⟨_, _, _, rfl, amount, .submitted submission⟩

/-- Every path of settling a row is one of the ways that `Takes` lists. -/
lemma withdraw_takes {known r} (h : (x.withdraw p row known).Ends es r) :
    Takes x p row known es r.1 r.2 := by
  obtain ⟨_, v, notes, a, notes', rfl, payment, before, after, verdict⟩ := withdraw_course h
  obtain ⟨asks, units, fs, rfl, amount, continues⟩ := payment.continues
  rw [verdict, List.append_assoc, List.append_assoc]
  generalize written : notes ++ _ = post
  have aside : Aside post := written ▸ before.aside.append (aside_ledger after.aside)
  have silent : inquiries (fs ++ post) = 0 := by
    rw [inquiries_append, continues.inquiries, ← written, inquiries_append, before.inquiries,
      inquiries_ledger, after.inquiries]
  generalize r.2 = known' at amount ⊢
  cases amount with
  | unscaled scale => exact .unscaled scale silent (.intro aside_nil continues aside)
  | known scale => exact .known scale silent (.intro aside_nil continues aside)
  | unknown scale =>
    cases continues
    exact .unknown scale silent aside
  | learnt scale => exact .learnt scale silent (.intro aside_nil continues aside)

end Rows

section Runs

variable {x : CurrencyPayout} {p : Policy} {scale : UInt64} {report : Nat → Except ChainError UInt8}
  {w : World interface} {before : Trace} {known : Option UInt8}
  {rows : List (Withdrawal CurrencyOrder)} {ds : List Dealing}

/-- Every row is dealt with, in order. -/
lemma map_row_dealings : (x.dealings p w before known rows).map (·.row) = rows := by
  induction rows generalizing before known with
  | nil => rfl
  | cons row rows ih => exact congrArg (row :: ·) ih

/-- What holds of every row that leaves what is known as it is holds of all rows. -/
lemma dealings_forall {φ : Dealing → Prop}
    (once : ∀ {row es v known'}, Takes x p row known es v known' → known' = known ∧
      φ ⟨row, es, v⟩) :
    ∀ d ∈ x.dealings p w before known rows, φ d := by
  induction rows generalizing before with
  | nil => exact List.forall_mem_nil _
  | cons row rows ih =>
    obtain ⟨same, holds⟩ := once (withdraw_takes (ends_pathIn w before (x.withdraw p row known)))
    refine List.forall_mem_cons.2 ⟨holds, ?_⟩
    rw [same]
    exact ih

/-- Once the number of decimals is known, no row asks for it, and all are paid by it. -/
lemma dealings_of_known {d} (scaled : x.scale = some scale) :
    ∀ dl ∈ x.dealings p w before (some d) rows, inquiries dl.trace = 0 ∧
      PaidAt x p (some ⟨scale, d⟩) dl := by
  refine dealings_forall fun takes => ?_
  cases takes with
  | unscaled unscaled => cases scaled.symm.trans unscaled
  | known scaled' silent paid =>
    cases scaled.symm.trans scaled'
    exact ⟨rfl, silent, paid⟩

/-- A payout without a scale never asks for the number of decimals. -/
lemma dealings_of_unscaled (unscaled : x.scale = none) :
    ∀ dl ∈ x.dealings p w before known rows, inquiries dl.trace = 0 ∧ PaidAt x p none dl := by
  refine dealings_forall fun takes => ?_
  cases takes with
  | unscaled _ silent paid => exact ⟨rfl, silent, paid⟩
  | known scaled => cases unscaled.symm.trans scaled
  | unknown scaled => cases unscaled.symm.trans scaled
  | learnt scaled => cases unscaled.symm.trans scaled

/-- The rows of a payout with a scale learn the number of decimals from its reports. -/
lemma dealings_learning (scaled : x.scale = some scale) :
    Learning x p scale report (inquiries before)
      (x.dealings p (reporting report w) before none rows) := by
  induction rows generalizing before with
  | nil => exact .nil
  | cons row rows ih =>
    have takes := withdraw_takes (ends_pathIn (reporting report w) before (x.withdraw p row none))
    -- The row begins with its question, so the answer is what is reported just then.
    have answered {e es} (first : ((x.withdraw p row none).pathIn (reporting report w) before).1 =
        [] ++ e :: es) :=
      answer_pathIn first
    rw [List.append_nil] at answered
    unfold CurrencyPayout.dealings
    generalize (x.withdraw p row none).pathIn (reporting report w) before = path at takes answered ⊢
    obtain ⟨es, v, known'⟩ := path
    dsimp only at takes answered ⊢
    cases takes with
    | unscaled unscaled => cases scaled.symm.trans unscaled
    | @unknown scale' e es _ silent aside =>
      have reported : report (inquiries before) = .error e := (answered rfl).symm
      have once : inquiries (⟨.decimals x.currencyClass, .error e⟩ :: es) = 1 := by
        rw [inquiries_decimals, silent]
      refine .missed reported ⟨once, List.forall_mem_cons.2 ⟨rfl, aside⟩, rfl⟩ ?_
      rw [← once, ← inquiries_append]
      exact ih
    | @learnt scale' d es v scaled' silent paid =>
      cases scaled.symm.trans scaled'
      have reported : report (inquiries before) = .ok d := (answered rfl).symm
      refine .learnt reported ?_ ?_ (dealings_of_known scaled)
      · rw [inquiries_decimals, silent]
      · rw [← List.singleton_append]
        exact paid.after (List.forall_mem_singleton.2 rfl)

variable {n i k : Nat} {dl : Dealing} {d : UInt8}

/-- As long as nothing is reported, each row asks in vain. -/
lemma Learning.missed_of_unreported (h : Learning x p scale report n ds)
    (unreported : ∀ j ≤ i, ∃ e, report (n + j) = .error e) (at_ : ds[i]? = some dl) :
    ∃ e, report (n + i) = .error e ∧ Missed e dl := by
  induction h generalizing i with
  | nil => cases at_
  | @missed n e _ ds failed missed _ ih =>
    cases i with
    | zero =>
      cases at_
      exact ⟨e, failed, missed⟩
    | succ i =>
      rw [Nat.add_comm i, ← Nat.add_assoc]
      refine ih (fun j le => ?_) at_
      rw [Nat.add_assoc, Nat.add_comm 1]
      exact unreported (j + 1) (Nat.succ_le_succ le)
  | learnt reported =>
    obtain ⟨e, failed⟩ := unreported 0 (Nat.zero_le i)
    cases reported.symm.trans failed

/-- The first row to which the number of decimals is reported is the last that asks for it. -/
lemma Learning.paid_of_reported (h : Learning x p scale report n ds)
    (reported : report (n + k) = .ok d)
    (unreported : ∀ j < k, ∃ e, report (n + j) = .error e) (le : k ≤ i) (at_ : ds[i]? = some dl) :
    inquiries dl.trace = (if i = k then 1 else 0) ∧ PaidAt x p (some ⟨scale, d⟩) dl := by
  induction h generalizing i k with
  | nil => cases at_
  | @missed n e _ ds failed _ _ ih =>
    cases k with
    | zero => cases reported.symm.trans failed
    | succ k =>
      cases i with
      | zero => cases le
      | succ i =>
        rw [Nat.add_comm k, ← Nat.add_assoc] at reported
        simp only [Nat.add_right_cancel_iff]
        refine ih reported (fun j less => ?_) (Nat.le_of_succ_le_succ le) at_
        rw [Nat.add_assoc, Nat.add_comm 1]
        exact unreported (j + 1) (Nat.succ_lt_succ less)
  | @learnt n v _ ds reported' once paid others =>
    cases k with
    | zero =>
      cases reported.symm.trans reported'
      cases i with
      | zero =>
        cases at_
        exact ⟨once, paid⟩
      | succ i => exact others dl (List.mem_of_getElem? at_)
    | succ k =>
      obtain ⟨e, failed⟩ := unreported 0 (Nat.succ_pos k)
      cases reported'.symm.trans failed

end Runs

/-- **The number of decimals is asked for until it is reported, and fixed from then on.** Let a
payout settle any rows one after another, whatever its contract reports and whatever else is
answered. A payout without a scale never asks. One with a scale asks once for each row as long as
nothing was reported, and the row fails with what came of that before anything is sent; the row to
which the number is reported is the last that asks, and from it on every amount is converted by the
number that was reported then. -/
theorem decimals_fixed_once_reported (x : CurrencyPayout) (p : Policy)
    (report : Nat → Except ChainError UInt8)
    (w : World interface) (rows : List (Withdrawal CurrencyOrder)) :
    let ds := x.dealings p (reporting report w) [] none rows
    ds.map (·.row) = rows ∧
      (x.scale = none → ∀ d ∈ ds, inquiries d.trace = 0 ∧ PaidAt x p none d) ∧
      ∀ scale, x.scale = some scale →
        (∀ i d, (∀ j ≤ i, ∃ e, report j = .error e) → ds[i]? = some d →
          ∃ e, report i = .error e ∧ Missed e d) ∧
        ∀ k n, report k = .ok n → (∀ j < k, ∃ e, report j = .error e) → ∀ i d, k ≤ i →
          ds[i]? = some d →
          inquiries d.trace = (if i = k then 1 else 0) ∧ PaidAt x p (some ⟨scale, n⟩) d := by
  intro ds
  refine ⟨map_row_dealings, dealings_of_unscaled, fun scale scaled => ?_⟩
  have learning : Learning x p scale report (inquiries []) ds := dealings_learning scaled
  refine ⟨fun i d unreported at_ => ?_, fun k n reported unreported i d le at_ => ?_⟩
  · simpa [inquiries] using learning.missed_of_unreported
      (by simpa [inquiries] using unreported) at_
  · exact learning.paid_of_reported (by simpa [inquiries] using reported)
      (by simpa [inquiries] using unreported) le at_

end Payout.Settlement
