import Payout.Proofs.Settlement.Sharing
import Payout.Proofs.Settlement.Sweep

/-!
# Evidence

What the chain was asked for a row and what it answered, and that the row says just that once its
outcome is written. The calls and waits of a trace show one of four things (`Shows`): that nothing
was sent, that what was sent is lost from sight, that it was reverted, or that it is confirmed. The
outcome of a row that a pass has changed has all its fields from there (`outcome_of_evidence`).
-/

namespace Payout

section Messages

variable {a b : String}

/-- A text that begins with something is not empty. -/
lemma append_ne_empty_left (h : a ≠ "") : a ++ b ≠ "" :=
  fun empty => h (String.append_eq_empty_iff.1 empty).1

/-- A text that ends with something is not empty. -/
lemma append_ne_empty_right (h : b ≠ "") : a ++ b ≠ "" :=
  fun empty => h (String.append_eq_empty_iff.1 empty).2

/-- Every error of the chain says something. -/
lemma ChainError.message_ne_empty (e : ChainError) : e.message ≠ "" := by
  cases e with
  | confirmationTimeout hash secs =>
    exact append_ne_empty_left (append_ne_empty_right (by decide))
  | _ => exact append_ne_empty_left (by decide)

/-- Every error of the ledger says something. -/
lemma LedgerError.message_ne_empty (e : LedgerError) : e.message ≠ "" := by
  cases e with
  | invalidTransition id source target =>
    exact append_ne_empty_left (append_ne_empty_right (by decide))
  | _ => exact append_ne_empty_left (by decide)

/-- A failure always says something. -/
lemma SettlementError.message_ne_empty (e : SettlementError) : e.message ≠ "" := by
  cases e with
  | untrackedCustody asset location =>
    exact append_ne_empty_left (append_ne_empty_right (by decide))
  | reverted tx => exact append_ne_empty_right (by decide)
  | unconfirmed tx source => exact append_ne_empty_left (append_ne_empty_right (by decide))
  | chain source => exact source.message_ne_empty
  | ledger source => exact source.message_ne_empty
  | _ => exact append_ne_empty_left (by decide)

/-- What is written to the row of a failure, field by field. -/
lemma SettlementError.outcome_eq (e : SettlementError) :
    e.outcome = ⟨.error, some e.message, e.submitted.map (·.hash.text), e.submitted.map (·.nonce),
      e.submitted.map (·.signer), none⟩ := by
  cases submitted : e.submitted <;>
    simp [outcome, submitted, Outcome.failed, Outcome.withTransaction]

end Messages

namespace Settlement
open Program Ledger
open CurrencyPayout (outcomeOf)

/-- The calls of a trace with their answers. -/
def sent (es : Trace) : List (ContractCall × Except ChainError Pending) :=
  es.filterMap fun
    | ⟨.call c _, a⟩ => some (c, a)
    | _ => none

/-- The waits of a trace: for what, and with which answer. -/
def awaited (es : Trace) : List (Pending × Except ChainError Receipt) :=
  es.filterMap fun
    | ⟨.wait p _ _, a⟩ => some (p, a)
    | _ => none

/-- The address that is set to sign a call for an order, if an order of its kind may lead to such a
call. -/
def Settler.signer? (s : Settler) : (k : Kind) → k.Order → ContractCall → Option String
  | .asset, (o : AssetOrder), .transferFromVault .. =>
    (s.assetPayout o.assetClass).map (·.vaultSigner)
  | .asset, (o : AssetOrder), .mintAsset .. => (s.assetPayout o.assetClass).map (·.mintSigner)
  | .currency, (o : CurrencyOrder), .mintCurrency .. =>
    (s.currencyPayout o.currencyClass).map (·.signer)
  | .currency, (o : CurrencyOrder), .transferCurrency .. =>
    (s.currencyPayout o.currencyClass).map (·.signer)
  | _, _, _ => none

/-- What calls and waits show of an order, as the verdict on it. -/
inductive Shows (s : Settler) (k : Kind) (o : k.Order) :
    List (ContractCall × Except ChainError Pending) → List (Pending × Except ChainError Receipt) →
      Except SettlementError Confirmed → Prop where
  | unsent {calls e} :
    calls.length ≤ 1 →
    (∀ x ∈ calls, (s.signer? k o x.1).isSome) →
    (∀ c p, (c, .ok p) ∉ calls) →
    e.submitted = none →
    Shows s k o calls [] (.error e)
  | unconfirmed {c p e signer} :
    s.signer? k o c = some signer →
    Shows s k o [(c, .ok p)] [(p, .error e)] (.error (.unconfirmed ⟨p.hash, p.nonce, signer⟩ e))
  | reverted {c p receipt signer} :
    s.signer? k o c = some signer →
    receipt.success = false →
    Shows s k o [(c, .ok p)] [(p, .ok receipt)] (.error (.reverted ⟨p.hash, p.nonce, signer⟩))
  | confirmed {c p receipt signer} :
    s.signer? k o c = some signer →
    receipt.success = true →
    Shows s k o [(c, .ok p)] [(p, .ok receipt)] (.ok ⟨⟨p.hash, p.nonce, signer⟩, receipt⟩)

/-- Exchanges that send nothing and wait for nothing. -/
def OffChain (es : Trace) : Prop := sent es = [] ∧ awaited es = []

/-- Exchanges with the ledger, reports and pauses: nothing that the chain is asked. -/
def Apart (es : Trace) : Prop :=
  ∀ e ∈ es, (∃ q, e.request = .ledger q) ∨ (∃ m, e.request = .note m) ∨ e.request = .pause

section Courses

variable {s : Settler} {p : Policy} {es fs : Trace}

/-- The calls of two traces follow one another. -/
@[simp] lemma sent_append : sent (es ++ fs) = sent es ++ sent fs := List.filterMap_append

/-- The waits of two traces follow one another. -/
@[simp] lemma awaited_append : awaited (es ++ fs) = awaited es ++ awaited fs :=
  List.filterMap_append

/-- Traces that send nothing and wait for nothing do neither one after the other. -/
lemma OffChain.append (h : OffChain es) (h' : OffChain fs) : OffChain (es ++ fs) :=
  ⟨by rw [sent_append, h.1, h'.1]; rfl, by rw [awaited_append, h.2, h'.2]; rfl⟩

/-- A trace sends nothing and waits for nothing if no exchange of it does. -/
lemma offChain_of_forall (h : ∀ e ∈ es, OffChain [e]) : OffChain es := by
  induction es with
  | nil => exact ⟨rfl, rfl⟩
  | cons e es ih =>
    exact (h e List.mem_cons_self).append (ih fun e he => h e (List.mem_cons_of_mem _ he))

/-- An empty trace asks the chain nothing. -/
lemma apart_nil : Apart [] := fun _ he => absurd he List.not_mem_nil

/-- A request to the ledger asks the chain nothing. -/
lemma apart_ledger {q a} (h : Apart es) : Apart (⟨.ledger q, a⟩ :: es) :=
  List.forall_mem_cons.2 ⟨.inl ⟨q, rfl⟩, h⟩

/-- Traces that ask the chain nothing do so one after the other. -/
lemma Apart.append (h : Apart es) (h' : Apart fs) : Apart (es ++ fs) :=
  List.forall_mem_append.2 ⟨h, h'⟩

/-- A trace that asks the chain nothing sends nothing and waits for nothing. -/
lemma Apart.offChain (h : Apart es) : OffChain es := by
  refine offChain_of_forall fun e he => ?_
  obtain ⟨r, a⟩ := e
  obtain ⟨q, rfl⟩ | ⟨m, rfl⟩ | rfl := h _ he <;> exact ⟨rfl, rfl⟩

/-- Reports ask the chain nothing. -/
lemma Notes.apart (h : Notes es) : Apart es := fun e he => .inr (.inl (h e he))

/-- What follows the outcome of a row asks the chain nothing. -/
lemma Trailing.apart (h : Trailing es) : Apart es := by
  intro e he
  obtain note | pause | ⟨c, n, release⟩ := h e he
  · exact .inr (.inl note)
  · exact .inr (.inr pause)
  · exact .inl ⟨_, release⟩

/-- A question about users asks the chain nothing. -/
lemma AsksUser.apart {q : Exchange interface} (h : AsksUser q) : Apart [q] := by
  obtain ⟨r, a⟩ := q
  obtain ⟨_, rfl⟩ | ⟨_, rfl⟩ := h <;> exact apart_ledger apart_nil

/-- A claim that is refused asks the chain nothing. -/
lemma apart_of_refusals {k} (h : ∀ e ∈ es, IsRefusal k e) : Apart es := by
  intro e he
  obtain ⟨id, rfl⟩ := h e he
  exact .inl ⟨_, rfl⟩

/-- Asking for a gas price sends nothing. -/
lemma PriceCourse.offChain {r} (h : PriceCourse p es r) : OffChain es := by
  refine offChain_of_forall fun e he => ?_
  obtain ⟨r, a⟩ := e
  obtain rfl | rfl := h.forall _ he <;> exact ⟨rfl, rfl⟩

/-- Turning an amount into units sends nothing. -/
lemma AmountCourse.offChain {x : CurrencyPayout} {amount d r d'}
    (h : AmountCourse x amount d es r d') :
    OffChain es := by
  cases h <;> exact ⟨rfl, rfl⟩

/-- Before exchanges that show something, others may have been made elsewhere. -/
lemma OffChain.shows_append {k o v} (first : OffChain es)
    (h : Shows s k o (sent fs) (awaited fs) v) :
    Shows s k o (sent (es ++ fs)) (awaited (es ++ fs)) v := by
  rw [sent_append, awaited_append, first.1, first.2]
  exact h

/-- What a trace shows it still shows when something follows that sends nothing. -/
lemma Shows.append_offChain {k o v} (h : Shows s k o (sent es) (awaited es) v)
    (after : OffChain fs) :
    Shows s k o (sent (es ++ fs)) (awaited (es ++ fs)) v := by
  rw [sent_append, awaited_append, after.1, after.2, List.append_nil, List.append_nil]
  exact h

/-- A trace that sends nothing shows every error that names no submission. -/
lemma shows_of_offChain {k o} {e : SettlementError} (h : OffChain es)
    (unsent : e.submitted = none) :
    Shows s k o (sent es) (awaited es) (.error e) := by
  rw [h.1, h.2]
  exact .unsent (Nat.zero_le 1) (fun _ mem => absurd mem List.not_mem_nil)
    (fun _ _ => List.not_mem_nil) unsent

/-- A submission shows what it ends in. -/
lemma SubmitCourse.shows {signer c r k o} (h : SubmitCourse p signer c es r)
    (signs : s.signer? k o c = some signer) : Shows s k o (sent es) (awaited es) r := by
  cases h with
  | unpriced priced => exact shows_of_offChain priced.offChain rfl
  | refused priced =>
    refine priced.offChain.shows_append (.unsent le_rfl ?_ ?_ rfl)
    · intro x mem
      cases List.mem_singleton.1 mem
      simp [signs]
    · intro c' p' mem
      cases List.mem_singleton.1 mem
  | unconfirmed priced => exact priced.offChain.shows_append (.unconfirmed signs)
  | reverted priced failure => exact priced.offChain.shows_append (.reverted signs failure)
  | confirmed priced success => exact priced.offChain.shows_append (.confirmed signs success)

/-- The call that hands an asset out is signed by the address set for it. -/
lemma signer?_of_path {o : AssetOrder} {x : AssetPayout} {a signer c}
    (set : s.assetPayout o.assetClass = some x) (path : x.path a = .ok (signer, c)) :
    s.signer? .asset o c = some signer := by
  unfold AssetPayout.path at path
  split at path
  · cases path
    simp [Settler.signer?, set]
  · split at path <;> cases path
    simp [Settler.signer?, set]

/-- Handing an asset out shows what it ends in. -/
lemma HandOutCourse.shows {o : AssetOrder} {x a r} (h : HandOutCourse x p a es r)
    (set : s.assetPayout o.assetClass = some x) : Shows s .asset o (sent es) (awaited es) r := by
  cases h with
  | disowned course => exact shows_of_offChain course.asksUser.apart.offChain course.submitted
  | untracked course path =>
    exact shows_of_offChain course.asksUser.apart.offChain (submitted_of_path path)
  | submitted course path submission =>
    rw [← List.singleton_append]
    exact course.asksUser.apart.offChain.shows_append (submission.shows (signer?_of_path set path))

/-- An amount cannot be rescaled for a scale of zero, or because it is no valid amount. -/
lemma rescale_eq_error {amount : Decimal} {r e} (h : amount.rescale r = .error e) :
    r.scale = 0 ∧ e = .config "internal scale must be non-zero" ∨
      ∃ reason, e = .invalidAmount reason := by
  unfold Decimal.rescale at h
  split at h
  case isTrue zero =>
    cases h
    exact .inl ⟨zero, rfl⟩
  case isFalse =>
    split at h
    · cases h
      exact .inr ⟨_, rfl⟩
    · dsimp only at h
      split at h <;> cases h
      exact .inr ⟨_, rfl⟩

/-- Why an amount cannot be paid out. -/
lemma toChainUnits_eq_error {amount : Decimal} {r e} (h : amount.toChainUnits r = .error e) :
    (∃ x, r = some x ∧ amount.rescale x = .error e) ∨ ∃ reason, e = .invalidAmount reason := by
  unfold Decimal.toChainUnits at h
  by_cases positive : amount.isPositive
  · simp only [positive, Bool.not_true, Bool.false_eq_true, if_false] at h
    cases counted : amount.inUnits r with
    | error e' =>
      rw [counted] at h
      cases h
      cases r with
      | none => cases counted
      | some x => exact .inl ⟨x, rfl, counted⟩
    | ok units =>
      -- What could be counted is refused for itself only.
      simp only [counted, Bind.bind, Except.bind] at h
      split at h
      case isTrue =>
        cases h
        exact .inr ⟨_, rfl⟩
      case isFalse =>
        split at h <;> cases h
        exact .inr ⟨_, rfl⟩
  · simp only [positive, Bool.not_false, if_true] at h
    cases h
    exact .inr ⟨_, rfl⟩

/-- An amount that could not be converted was not submitted. -/
lemma submitted_of_toChainUnits {amount : Decimal} {r e} (h : amount.toChainUnits r = .error e) :
    e.submitted = none := by
  obtain ⟨x, -, failed⟩ | ⟨_, rfl⟩ := toChainUnits_eq_error h
  · obtain ⟨-, rfl⟩ | ⟨_, rfl⟩ := rescale_eq_error failed <;> rfl
  · rfl

/-- An amount that did not come to units was not submitted. -/
lemma AmountCourse.submitted {x : CurrencyPayout} {amount d e d'}
    (h : AmountCourse x amount d es (.error e) d') : e.submitted = none := by
  generalize failed : (Except.error e : Except SettlementError Nat) = r at h
  cases h with
  | unscaled => exact submitted_of_toChainUnits failed.symm
  | known => exact submitted_of_toChainUnits failed.symm
  | unknown =>
    cases failed
    rfl
  | learnt => exact submitted_of_toChainUnits failed.symm

/-- A call that pays an order out is signed by the signer of its currency. -/
lemma signer?_callFor {o : CurrencyOrder} {x : CurrencyPayout} {receiver amount}
    (set : s.currencyPayout o.currencyClass = some x) :
    s.signer? .currency o (x.callFor receiver amount) = some x.signer := by
  unfold CurrencyPayout.callFor
  cases x.call <;> simp [Settler.signer?, set]

/-- Paying an order out shows what it ends in. -/
lemma PaymentCourse.shows {o : CurrencyOrder} {x d r d'} (h : PaymentCourse x p o d es r d')
    (set : s.currencyPayout o.currencyClass = some x) :
    Shows s .currency o (sent es) (awaited es) r := by
  cases h with
  | unconverted amount => exact shows_of_offChain amount.offChain amount.submitted
  | submitted amount submission =>
    exact amount.offChain.shows_append (submission.shows (signer?_callFor set))

/-- The exchanges that lead to a verdict show it. -/
lemma Verdict.shows {k o v} (h : Verdict s k o es v) : Shows s k o (sent es) (awaited es) v := by
  cases h with
  | unset => exact shows_of_offChain ⟨rfl, rfl⟩ rfl
  | unloaded => exact shows_of_offChain ⟨rfl, rfl⟩ rfl
  | handedOut set course =>
    rw [← List.singleton_append]
    exact (apart_ledger apart_nil).offChain.shows_append (course.shows set)
  | unsetCurrency => exact shows_of_offChain ⟨rfl, rfl⟩ rfl
  | paid set course => exact course.shows set

/-- All that is done for a row that is settled shows its verdict. -/
lemma Settled.shows {t k} {w : Withdrawal k.Order} {v} (h : Settled s t k w es v) :
    Shows s k w.order (sent es) (awaited es) v := by
  cases h with
  | @written _ es v ns rest _ _ verdict notes trailing =>
    have written : Apart (⟨.ledger (.update k w.id (outcomeOf v)), .ok ()⟩ :: rest) :=
      apart_ledger trailing.apart
    have claimed : Apart [⟨.ledger (.claim k w.id), .ok true⟩] := apart_ledger apart_nil
    have shows :=
      (verdict.shows.append_offChain notes.apart.offChain).append_offChain written.offChain
    exact claimed.offChain.shows_append shows

end Courses

/-- An outcome that says what the calls and waits for a row show. -/
structure Agrees (s : Settler) (k : Kind) (o : k.Order)
    (calls : List (ContractCall × Except ChainError Pending))
    (waits : List (Pending × Except ChainError Receipt)) (outcome : Outcome) : Prop where
  /-- It is pending where one call was made, which was sent, and its wait brought a receipt of
  success. -/
  pending_iff : outcome.state = .pending ↔
    ∃ c p receipt, calls = [(c, .ok p)] ∧ waits = [(p, .ok receipt)] ∧ receipt.success = true
  settled : ∀ {c p receipt}, calls = [(c, .ok p)] → waits = [(p, .ok receipt)] →
    receipt.success = true → ∃ signer, s.signer? k o c = some signer ∧
      outcome = ⟨.pending, none, some p.hash.text, some p.nonce, some signer,
        receipt.raw.map Json.compactText⟩
  failed : outcome.state ≠ .pending →
    outcome.state = .error ∧ (∃ m, outcome.errorMessage = some m ∧ m ≠ "") ∧
      outcome.rawResponse = none
  ofSent : ∀ {c p}, (c, .ok p) ∈ calls →
    outcome.txHash = some p.hash.text ∧ outcome.nonce = some p.nonce ∧
      outcome.signer = s.signer? k o c ∧ (s.signer? k o c).isSome
  ofUnsent : (∀ c p, (c, .ok p) ∉ calls) →
    outcome.txHash = none ∧ outcome.nonce = none ∧ outcome.signer = none

/-- The outcome of an error agrees with what was sent if the error names the transaction that was
sent, and none other. -/
lemma agrees_of_error {s k o calls waits} {e : SettlementError}
    (notThrough : ¬ ∃ c p receipt, calls = [(c, .ok p)] ∧ waits = [(p, .ok receipt)] ∧
      receipt.success = true)
    (ofSent : ∀ {c p}, (c, .ok p) ∈ calls →
      ∃ signer, s.signer? k o c = some signer ∧ e.submitted = some ⟨p.hash, p.nonce, signer⟩)
    (ofUnsent : (∀ c p, (c, .ok p) ∉ calls) → e.submitted = none) :
    Agrees s k o calls waits (outcomeOf (.error e)) := by
  have fields : outcomeOf (.error e) = _ := e.outcome_eq
  rw [fields]
  refine ⟨⟨nofun, fun through => absurd through notThrough⟩, fun one got success =>
    absurd ⟨_, _, _, one, got, success⟩ notThrough, fun _ =>
      ⟨rfl, ⟨_, rfl, e.message_ne_empty⟩, rfl⟩, ?_, ?_⟩
  · intro c p mem
    obtain ⟨signer, signs, submitted⟩ := ofSent mem
    simp [submitted, signs]
  · intro none
    simp [ofUnsent none]

/-- The outcome of what calls and waits show agrees with them. -/
lemma Shows.agrees {s k o calls waits v} (h : Shows s k o calls waits v) :
    Agrees s k o calls waits (outcomeOf v) := by
  cases h with
  | unsent _ _ none submitted =>
    refine agrees_of_error ?_ (fun mem => absurd mem (none _ _)) fun _ => submitted
    rintro ⟨c, p, receipt, rfl, -, -⟩
    exact none c p List.mem_cons_self
  | @unconfirmed c p e signer signs =>
    refine agrees_of_error ?_ ?_ fun none => absurd List.mem_cons_self (none c p)
    · rintro ⟨_, _, _, -, got, -⟩
      cases got
    · intro c' p' mem
      cases List.mem_singleton.1 mem
      exact ⟨_, signs, rfl⟩
  | @reverted c p receipt signer signs failure =>
    refine agrees_of_error ?_ ?_ fun none => absurd List.mem_cons_self (none c p)
    · rintro ⟨_, _, _, -, got, success⟩
      cases got
      rw [failure] at success
      cases success
    · intro c' p' mem
      cases List.mem_singleton.1 mem
      exact ⟨_, signs, rfl⟩
  | @confirmed c p receipt signer signs success =>
    refine ⟨⟨fun _ => ⟨c, p, receipt, rfl, rfl, success⟩, fun _ => rfl⟩, ?_,
      fun other => absurd rfl other, ?_, fun none => absurd List.mem_cons_self (none _ _)⟩
    · rintro _ _ _ ⟨⟩ ⟨⟩ -
      exact ⟨signer, signs, rfl⟩
    · intro c' p' mem
      cases List.mem_singleton.1 mem
      exact ⟨rfl, rfl, signs.symm, by simp [signs]⟩

/-- **Rows say what the chain showed.** A row that a pass over tables in memory has changed was
granted once; its outcome agrees with the calls that were made for it and the waits for them,
and is that of a verdict which was come to by its order alone: nothing of what the row said
before is left. -/
theorem outcome_of_evidence {s : Settler} {b : Surroundings} {known : KnownDecimals}
    {t : Tables} {k : Kind} {i : Nat} {w w' : Withdrawal k.Order} (was : (t.rows k)[i]? = some w)
    (is : ((s.passOver b known t).tables.rows k)[i]? = some w') (changed : w' ≠ w) :
    let own := onBehalf k w.id (s.passOver b known t).trace
    Agrees s k w.order (sent own) (awaited own) w'.outcome ∧
      ∃ es v rest now, own = ⟨.ledger (.claim k w.id), .ok true⟩ :: (es ++ rest) ∧
        Verdict s k w.order es v ∧ w' = w.updated now (outcomeOf v) := by
  intro own
  obtain ⟨_, -, swept⟩ := passOver_swept s b known t
  by_cases waits : Waits [] (t.rows k) i w
  · obtain ⟨es, v, now, refusals, settled, written, all, refused⟩ := swept.settled_of_waits waits
    obtain rfl : w' = w.updated now (outcomeOf v) := Option.some.inj (is.symm.trans written)
    have shows := settled.shows.append_offChain (apart_of_refusals refused).offChain
    rw [← all] at shows
    refine ⟨shows.agrees, ?_⟩
    cases settled with
    | @written t' es v ns rest _ _ verdict =>
      refine ⟨es, v, ns ++ ⟨.ledger (.update k w.id (outcomeOf v)), .ok ()⟩ :: rest ++ refusals,
        now, all.trans ?_, verdict, rfl⟩
      simp
  · exact absurd (Option.some.inj (is.symm.trans (swept.kept_of_not_waits was waits))) changed

/-- Surroundings in which every call succeeds, always at the same time. -/
def atNoon : Surroundings := ⟨fun _ => obliging, fun _ => noon⟩

/-- A pass over one row mints the part, and the row says so. -/
theorem outcome_of_evidence_minted :
    let pass := partsOnly.passOver atNoon (fun _ => none) (rowsForOnePart ["w"])
    let own := onBehalf .asset "w" pass.trace
    let w : Withdrawal AssetOrder := .new "w" ⟨.part, 7⟩
    let w' : Withdrawal AssetOrder := w.updated noon (.settled "0x" 0 "0xm" none)
    (rowsForOnePart ["w"]).assetRows[0]? = some w ∧ pass.tables.assetRows[0]? = some w' ∧ w' ≠ w ∧
      Agrees partsOnly .asset w.order (sent own) (awaited own) w'.outcome := by
  intro pass own w w'
  have changed : w' ≠ w := by decide
  exact ⟨rfl, rfl, changed, (outcome_of_evidence (k := .asset) (i := 0) rfl rfl changed).1⟩

end Settlement

end Payout
