import Payout.Proofs.Program.Paths
import Payout.Settlement.Batch

/-!
# Courses of settlement

Every way in which a settlement program can go, from its first request to its end, as an inductive
predicate on its exchanges and its result: one constructor for each way. A lemma for each program
says that its paths are such courses; nothing about the programs is unfolded after that. Answers are
arbitrary, so the courses are those of any ledger and any chain.
-/

namespace Payout.Settlement
open Program

/-- The exchanges of a settlement program. -/
abbrev Trace := List (Exchange interface)

/-- A single request ends in its answer. -/
@[simp] lemma ends_ask {r : Request} {es : Trace} {a} : (ask r).Ends es a ↔ es = [⟨r, a⟩] :=
  ends_request

/-- A request to the ledger ends in its answer. -/
@[simp] lemma ends_ledger {r : Ledger.Request} {es : Trace} {a} :
    (ledger r).Ends es a ↔ es = [⟨.ledger r, a⟩] :=
  ends_request

/-- A report is made and tells nothing. -/
@[simp] lemma ends_note {n : Notice} {es : Trace} {a} :
    (note n).Ends es a ↔ es = [⟨.note n, ()⟩] :=
  ends_request

/-- Nothing but reports. -/
def Notes (es : Trace) : Prop := ∀ e ∈ es, ∃ n, e.request = .note n

/-- An empty trace is nothing but reports. -/
lemma notes_nil : Notes [] := fun _ he => absurd he List.not_mem_nil

/-- One report is nothing but reports. -/
lemma notes_singleton (n : Notice) : Notes [⟨.note n, ()⟩] := by
  intro e he
  cases List.mem_singleton.1 he
  exact ⟨n, rfl⟩

/-- Reports after reports are nothing but reports. -/
lemma Notes.append {es fs : Trace} (h : Notes es) (h' : Notes fs) : Notes (es ++ fs) := by
  intro e he
  rcases List.mem_append.1 he with he | he
  · exact h e he
  · exact h' e he

/-- Attempts one after another: each but the last failed in a way that may pass and was followed by
a pause, and after the last there may have been no time for a pause. -/
inductive Attempts {ε α} (isTransient : ε → Bool) (attempt : Step (Except ε α)) :
    Trace → Except ε α → Prop where
  | last {es r} :
    attempt.Ends es r →
    Attempts isTransient attempt es r
  | gaveUp {es e} :
    attempt.Ends es (.error e) →
    isTransient e = true →
    Attempts isTransient attempt (es ++ [⟨.pause, false⟩]) (.error e)
  | again {es e fs r} :
    attempt.Ends es (.error e) →
    isTransient e = true →
    Attempts isTransient attempt fs r →
    Attempts isTransient attempt (es ++ ⟨.pause, true⟩ :: fs) r

/-- Trying again, by its first attempt: that ends it, or it failed in a way that may pass and there
is a pause and the rest, or no time for one. -/
lemma retry_cases {ε α} {isTransient : ε → Bool} {attempt : Step (Except ε α)} {further es r}
    (h : (retry isTransient attempt (further + 1)).Ends es r) :
    (attempt.Ends es r ∧ ∀ e, r = .error e → isTransient e = false) ∨
      ∃ es₁ e, attempt.Ends es₁ (.error e) ∧ isTransient e = true ∧
        ((es = es₁ ++ [⟨.pause, false⟩] ∧ r = .error e) ∨
          ∃ fs, es = es₁ ++ ⟨.pause, true⟩ :: fs ∧
            (retry isTransient attempt further).Ends fs r) := by
  simp only [retry, ends_andThen] at h
  obtain ⟨es₁, first, es₂, rfl, h₁, h₂⟩ := h
  cases first with
  | ok a =>
    obtain ⟨rfl, rfl⟩ := ends_pure.1 h₂
    rw [List.append_nil]
    refine .inl ⟨h₁, ?_⟩
    rintro _ ⟨⟩
  | error e =>
    dsimp only at h₂
    split at h₂
    case isTrue transient =>
      obtain ⟨_, b, es₃, rfl, h₃, h₄⟩ := ends_andThen.1 h₂
      cases ends_ask.1 h₃
      cases b with
      | true => exact .inr ⟨es₁, e, h₁, transient, .inr ⟨es₃, rfl, h₄⟩⟩
      | false =>
        obtain ⟨rfl, rfl⟩ := ends_pure.1 h₄
        exact .inr ⟨es₁, e, h₁, transient, .inl ⟨rfl, rfl⟩⟩
    case isFalse permanent =>
      obtain ⟨rfl, rfl⟩ := ends_pure.1 h₂
      rw [List.append_nil]
      refine .inl ⟨h₁, ?_⟩
      rintro _ ⟨⟩
      simpa using permanent

/-- Trying again is a course of attempts. -/
lemma retry_course {ε α} {isTransient : ε → Bool} {attempt : Step (Except ε α)} {further es r}
    (h : (retry isTransient attempt further).Ends es r) : Attempts isTransient attempt es r := by
  induction further generalizing es with
  | zero => exact .last h
  | succ further ih =>
    obtain ⟨last, -⟩ | ⟨es₁, e, first, transient, ⟨rfl, rfl⟩ | ⟨fs, rfl, rest⟩⟩ := retry_cases h
    · exact .last last
    · exact .gaveUp first transient
    · exact .again first transient (ih rest)

/-- What holds of every exchange of an attempt and of a pause holds of all attempts. -/
lemma Attempts.forall {ε α} {isTransient : ε → Bool} {attempt : Step (Except ε α)} {es r}
    {φ : Exchange interface → Prop} (h : Attempts isTransient attempt es r)
    (once : ∀ {es r}, attempt.Ends es r → ∀ e ∈ es, φ e) (pause : ∀ b, φ ⟨.pause, b⟩) :
    ∀ e ∈ es, φ e := by
  induction h with
  | last h => exact once h
  | gaveUp h =>
    intro e he
    rcases List.mem_append.1 he with he | he
    · exact once h e he
    · cases List.mem_singleton.1 he
      exact pause _
  | again h _ _ ih =>
    intro e he
    rcases List.mem_append.1 he with he | he
    · exact once h e he
    · cases he with
      | head => exact pause _
      | tail _ he => exact ih e he

/-- The first attempt comes first. -/
lemma Attempts.first {ε α} {isTransient : ε → Bool} {attempt : Step (Except ε α)} {es r}
    (h : Attempts isTransient attempt es r) :
    ∃ es₁ r₁ es₂, es = es₁ ++ es₂ ∧ attempt.Ends es₁ r₁ := by
  cases h with
  | last h => exact ⟨_, _, [], by simp, h⟩
  | gaveUp h => exact ⟨_, _, _, rfl, h⟩
  | again h => exact ⟨_, _, _, rfl, h⟩

/-- A gas price: estimates until one comes or none can, with the percentage applied. -/
def PriceCourse (p : Policy) (es : Trace) (r : Except ChainError Nat) : Prop :=
  ∃ estimate, Attempts ChainError.isTransient (ask .estimate) es estimate ∧
    r = estimate.map (Fee.adjust p.feePercent)

/-- A price is made of the estimate that was got, if one was. -/
lemma gasPrice_cases {p es r} (h : (gasPrice p).Ends es r) :
    ∃ estimate, (retry ChainError.isTransient (ask .estimate)
      (furtherAttempts p.estimateWindowMs)).Ends es estimate ∧
      r = estimate.map (Fee.adjust p.feePercent) := by
  obtain ⟨es₁, estimate, es₂, rfl, h₁, h₂⟩ := ends_andThen.1 h
  obtain ⟨rfl, rfl⟩ := ends_pure.1 h₂
  rw [List.append_nil]
  exact ⟨estimate, h₁, rfl⟩

/-- Every path of asking for a gas price is a course of it. -/
lemma gasPrice_course {p es r} (h : (gasPrice p).Ends es r) : PriceCourse p es r := by
  obtain ⟨estimate, attempts, rfl⟩ := gasPrice_cases h
  exact ⟨estimate, retry_course attempts, rfl⟩

/-- The price is asked of the node only. -/
lemma PriceCourse.forall {p es r} (h : PriceCourse p es r) :
    ∀ e ∈ es, e.request = .estimate ∨ e.request = .pause := by
  obtain ⟨_, attempts, _⟩ := h
  refine attempts.forall ?_ (fun _ => .inr rfl)
  intro es r h e he
  cases ends_ask.1 h
  cases List.mem_singleton.1 he
  exact .inl rfl

/-- A submission: at most one call, then at most one wait. -/
inductive SubmitCourse (p : Policy) (signer : String) (c : ContractCall) :
    Trace → Except SettlementError Confirmed → Prop where
  | unpriced {es e} :
    PriceCourse p es (.error e) →
    SubmitCourse p signer c es (.error (.chain e))
  | refused {es price e} :
    PriceCourse p es (.ok price) →
    SubmitCourse p signer c (es ++ [⟨.call c price, .error e⟩]) (.error (.chain e))
  | unconfirmed {es price pending e} :
    PriceCourse p es (.ok price) →
    SubmitCourse p signer c
      (es ++ [⟨.call c price, .ok pending⟩, ⟨.wait pending p.confirmations p.timeoutMs, .error e⟩])
      (.error (.unconfirmed ⟨pending.hash, pending.nonce, signer⟩ e))
  | reverted {es price pending receipt} :
    PriceCourse p es (.ok price) →
    receipt.success = false →
    SubmitCourse p signer c
      (es ++
        [⟨.call c price, .ok pending⟩, ⟨.wait pending p.confirmations p.timeoutMs, .ok receipt⟩])
      (.error (.reverted ⟨pending.hash, pending.nonce, signer⟩))
  | confirmed {es price pending receipt} :
    PriceCourse p es (.ok price) →
    receipt.success = true →
    SubmitCourse p signer c
      (es ++
        [⟨.call c price, .ok pending⟩, ⟨.wait pending p.confirmations p.timeoutMs, .ok receipt⟩,
          ⟨.note (.confirmed pending.hash receipt.block), ()⟩])
      (.ok ⟨⟨pending.hash, pending.nonce, signer⟩, receipt⟩)

/-- What follows once there is a price: one call at it and, if that is sent, one wait. -/
inductive Sends (p : Policy) (signer : String) (c : ContractCall) (price : Nat) :
    Trace → Except SettlementError Confirmed → Prop where
  | refused {e} :
    Sends p signer c price [⟨.call c price, .error e⟩] (.error (.chain e))
  | unconfirmed {pending e} :
    Sends p signer c price
      [⟨.call c price, .ok pending⟩, ⟨.wait pending p.confirmations p.timeoutMs, .error e⟩]
      (.error (.unconfirmed ⟨pending.hash, pending.nonce, signer⟩ e))
  | reverted {pending receipt} :
    receipt.success = false →
    Sends p signer c price
      [⟨.call c price, .ok pending⟩, ⟨.wait pending p.confirmations p.timeoutMs, .ok receipt⟩]
      (.error (.reverted ⟨pending.hash, pending.nonce, signer⟩))
  | confirmed {pending receipt} :
    receipt.success = true →
    Sends p signer c price
      [⟨.call c price, .ok pending⟩, ⟨.wait pending p.confirmations p.timeoutMs, .ok receipt⟩,
        ⟨.note (.confirmed pending.hash receipt.block), ()⟩]
      (.ok ⟨⟨pending.hash, pending.nonce, signer⟩, receipt⟩)

/-- A submission, by the price it gets. -/
lemma submit_cases {p signer c es r} (h : (submit p signer c).Ends es r) :
    (∃ e, (gasPrice p).Ends es (.error e) ∧ r = .error (.chain e)) ∨
      ∃ price es₁ es₂, es = es₁ ++ es₂ ∧ (gasPrice p).Ends es₁ (.ok price) ∧
        Sends p signer c price es₂ r := by
  obtain ⟨es₁, price, es₂, rfl, h₁, h₂⟩ := ends_andThen.1 h
  cases price with
  | error e =>
    obtain ⟨rfl, rfl⟩ := ends_pure.1 h₂
    rw [List.append_nil]
    exact .inl ⟨e, h₁, rfl⟩
  | ok price =>
    refine .inr ⟨price, es₁, es₂, rfl, h₁, ?_⟩
    obtain ⟨_, sent, es₃, rfl, h₃, h₄⟩ := ends_andThen.1 h₂
    cases ends_ask.1 h₃
    cases sent with
    | error e =>
      obtain ⟨rfl, rfl⟩ := ends_pure.1 h₄
      exact .refused
    | ok pending =>
      obtain ⟨_, waited, es₅, rfl, h₅, h₆⟩ := ends_andThen.1 h₄
      cases ends_ask.1 h₅
      cases waited with
      | error e =>
        obtain ⟨rfl, rfl⟩ := ends_pure.1 h₆
        exact .unconfirmed
      | ok receipt =>
        dsimp only at h₆
        split at h₆
        case isTrue success =>
          obtain ⟨_, _, es₇, rfl, h₇, h₈⟩ := ends_andThen.1 h₆
          cases ends_note.1 h₇
          obtain ⟨rfl, rfl⟩ := ends_pure.1 h₈
          exact .confirmed success
        case isFalse failure =>
          obtain ⟨rfl, rfl⟩ := ends_pure.1 h₆
          exact .reverted (by simpa using failure)

/-- Every path of a submission is a course of it. -/
lemma submit_course {p signer c es r} (h : (submit p signer c).Ends es r) :
    SubmitCourse p signer c es r := by
  obtain ⟨e, unpriced, rfl⟩ | ⟨price, es₁, es₂, rfl, h₁, sends⟩ := submit_cases h
  · exact .unpriced (gasPrice_course unpriced)
  · have priced := gasPrice_course h₁
    cases sends with
    | refused => exact .refused priced
    | unconfirmed => exact .unconfirmed priced
    | reverted failure => exact .reverted priced failure
    | confirmed success => exact .confirmed priced success

/-- Attempts to put an asset back, with their reports. -/
def ReleaseCourse (c : AssetClass) (n : UInt64) (es : Trace) (r : Except LedgerError Unit) : Prop :=
  Attempts isTransient (releaseOnce c n) es r

/-- One attempt to put an asset back, by its result: a failure that may pass is reported. -/
def releaseAsks (c : AssetClass) (n : UInt64) (r : Except LedgerError Unit) : Trace :=
  ⟨.ledger (.release c n), r⟩ ::
    match r with
    | .error e => if isTransient e then [⟨.note (.releaseFailed c n e), ()⟩] else []
    | .ok _ => []

/-- One attempt to put an asset back makes the exchanges that its result tells. -/
lemma releaseOnce_eq {c n es r} (h : (releaseOnce c n).Ends es r) : es = releaseAsks c n r := by
  obtain ⟨_, a, es₂, rfl, h₁, h₂⟩ := ends_andThen.1 h
  cases ends_ledger.1 h₁
  cases a with
  | ok _ =>
    obtain ⟨rfl, rfl⟩ := ends_pure.1 h₂
    rfl
  | error e =>
    dsimp only at h₂
    split at h₂
    case isTrue transient =>
      obtain ⟨_, _, es₃, rfl, h₃, h₄⟩ := ends_andThen.1 h₂
      cases ends_note.1 h₃
      obtain ⟨rfl, rfl⟩ := ends_pure.1 h₄
      simp [releaseAsks, transient]
    case isFalse permanent =>
      obtain ⟨rfl, rfl⟩ := ends_pure.1 h₂
      simp [releaseAsks, permanent]

/-- One attempt asks for one release, and reports at most. -/
lemma releaseOnce_course {c n es r} (h : (releaseOnce c n).Ends es r) :
    ∃ rest, es = ⟨.ledger (.release c n), r⟩ :: rest ∧ Notes rest := by
  cases releaseOnce_eq h
  refine ⟨_, rfl, ?_⟩
  cases r with
  | ok _ => exact notes_nil
  | error e =>
    dsimp only
    split
    · exact notes_singleton _
    · exact notes_nil

/-- Every path of putting an asset back is a course of it. -/
lemma release_course {p c n es r} (h : (release p c n).Ends es r) : ReleaseCourse c n es r :=
  retry_course h

/-- A release asks the ledger for nothing else. -/
lemma ReleaseCourse.forall {c n es r} (h : ReleaseCourse c n es r) :
    ∀ e ∈ es, e.request = .ledger (.release c n) ∨ e.request = .pause ∨
      ∃ m, e.request = .note m := by
  refine Attempts.forall h ?_ (fun _ => .inr (.inl rfl))
  intro es r h e he
  obtain ⟨rest, rfl, notes⟩ := releaseOnce_course h
  cases he with
  | head => exact .inl rfl
  | tail _ he => exact .inr (.inr (notes e he))

/-- A release asks at once. -/
lemma ReleaseCourse.head {c n es r} (h : ReleaseCourse c n es r) :
    ∃ a rest, es = ⟨.ledger (.release c n), a⟩ :: rest := by
  obtain ⟨es₁, r₁, es₂, rfl, once⟩ := Attempts.first h
  obtain ⟨rest, rfl, _⟩ := releaseOnce_course once
  exact ⟨r₁, rest ++ es₂, rfl⟩

/-- A failure of an asset row: it is written down, and then the asset is put back if that was asked
for and the error allows it. -/
inductive FailureCourse (id : String) (c : AssetClass) (n : UInt64) (e : SettlementError)
    (compensate : Bool) : Trace → Prop where
  | kept {a notes} :
    (compensate && e.allowsCompensation) = false →
    Notes notes →
    FailureCourse id c n e compensate (⟨.ledger (.update .asset id e.outcome), a⟩ :: notes)
  | released {a notes es r m} :
    (compensate && e.allowsCompensation) = true →
    Notes notes →
    ReleaseCourse c n es r →
    FailureCourse id c n e compensate
      (⟨.ledger (.update .asset id e.outcome), a⟩ :: notes ++ es ++ [⟨.note m, ()⟩])

/-- What follows a failure that was written, after a report if it could not be written. -/
def compensation (p : Policy) (id : String) (c : AssetClass) (n : UInt64) (e : SettlementError)
    (compensate : Bool) : Step Unit := do
  if compensate then
    if e.allowsCompensation then
      match ← release p c n with
      | .ok _ => note (.returned id c n)
      | .error failure => note (.notReturned id c n failure)
    else note (.leftOutOfCustody id c n)

/-- Once a failure was written, what follows is the rest of its course. -/
lemma compensation_course {p id c n e compensate a notes es u} (reported : Notes notes)
    (h : (compensation p id c n e compensate).Ends es u) :
    FailureCourse id c n e compensate
      (⟨.ledger (.update .asset id e.outcome), a⟩ :: (notes ++ es)) := by
  unfold compensation at h
  split at h
  case isTrue asked =>
    split at h
    case isTrue allowed =>
      obtain ⟨es₃, released, es₄, rfl, h₃, h₄⟩ := ends_andThen.1 h
      have course := release_course h₃
      cases released with
      | ok _ =>
        cases ends_note.1 h₄
        simpa using FailureCourse.released (a := a) (by simp [asked, allowed]) reported course
      | error _ =>
        cases ends_note.1 h₄
        simpa using FailureCourse.released (a := a) (by simp [asked, allowed]) reported course
    case isFalse allowed =>
      cases ends_note.1 h
      exact .kept (by simp [allowed]) (reported.append (notes_singleton _))
  case isFalse asked =>
    obtain ⟨rfl, _⟩ := ends_pure.1 h
    rw [List.append_nil]
    exact .kept (by simp [asked]) reported

/-- Every path of recording a failure is a course of it. -/
lemma recordFailure_course {p id c n e compensate es u}
    (h : (recordFailure p id c n e compensate).Ends es u) :
    FailureCourse id c n e compensate es := by
  obtain ⟨_, a, es₂, rfl, h₁, h₂⟩ := ends_andThen.1 h
  cases ends_ledger.1 h₁
  cases a with
  | ok _ => exact compensation_course notes_nil h₂
  | error e =>
    obtain ⟨_, _, es₃, rfl, h₃, h₄⟩ := ends_andThen.1 h₂
    cases ends_note.1 h₃
    have course :=
      compensation_course (a := .error e) (notes_singleton (.errorNotRecorded .asset id e)) h₄
    exact course

/-- A question about users. -/
def AsksUser (e : Exchange interface) : Prop :=
  (∃ id, e.request = .ledger (.user id)) ∨ ∃ wallet, e.request = .ledger (.userByWallet wallet)

/-- What the answer about users means for an asset that is to go to its destination. -/
def ruling (a : Asset) (wallet : Option String) (owner : Option User) :
    Except SettlementError Unit :=
  match AssetPayout.mismatch? a wallet owner with
  | some reason => .error (.ownershipMismatch reason)
  | none => .ok ()

/-- The question about users for an asset, and what its answer means. -/
inductive OwnershipCourse (a : Asset) :
    Exchange interface → Except SettlementError Unit → Prop where
  | linkedUnknown {id e} :
    a.userId = some id →
    OwnershipCourse a ⟨.ledger (.user id), .error e⟩ (.error (.ledger e))
  | linked {id} {user : Option User} :
    a.userId = some id →
    OwnershipCourse a ⟨.ledger (.user id), .ok user⟩ (ruling a (user.bind User.wallet) none)
  | unlinkedUnknown {e} :
    a.userId = none →
    OwnershipCourse a ⟨.ledger (.userByWallet a.destination), .error e⟩ (.error (.ledger e))
  | unlinked {owner : Option User} :
    a.userId = none →
    OwnershipCourse a ⟨.ledger (.userByWallet a.destination), .ok owner⟩ (ruling a none owner)

/-- Every path of the check of ownership is one question about users. -/
lemma checkOwnership_course {a es r} (h : (AssetPayout.checkOwnership a).Ends es r) :
    ∃ q, es = [q] ∧ OwnershipCourse a q r := by
  unfold AssetPayout.checkOwnership at h
  dsimp only at h
  split at h
  case h_1 id link =>
    obtain ⟨_, answer, es₂, rfl, h₁, h₂⟩ := ends_andThen.1 h
    cases ends_ledger.1 h₁
    cases answer with
    | error e =>
      obtain ⟨rfl, rfl⟩ := ends_pure.1 h₂
      exact ⟨_, rfl, .linkedUnknown link⟩
    | ok user =>
      obtain ⟨rfl, rfl⟩ := ends_pure.1 h₂
      exact ⟨_, rfl, .linked link⟩
  case h_2 link =>
    obtain ⟨_, answer, es₂, rfl, h₁, h₂⟩ := ends_andThen.1 h
    cases ends_ledger.1 h₁
    cases answer with
    | error e =>
      obtain ⟨rfl, rfl⟩ := ends_pure.1 h₂
      exact ⟨_, rfl, .unlinkedUnknown link⟩
    | ok owner =>
      obtain ⟨rfl, rfl⟩ := ends_pure.1 h₂
      exact ⟨_, rfl, .unlinked link⟩

/-- What the check of ownership asks is a question about users. -/
lemma OwnershipCourse.asksUser {a q r} (h : OwnershipCourse a q r) : AsksUser q := by
  cases h with
  | linkedUnknown => exact .inl ⟨_, rfl⟩
  | linked => exact .inl ⟨_, rfl⟩
  | unlinkedUnknown => exact .inr ⟨_, rfl⟩
  | unlinked => exact .inr ⟨_, rfl⟩

/-- Only a mismatch of owners speaks against an asset. -/
lemma ruling_eq_error {a wallet owner e} (h : ruling a wallet owner = .error e) :
    ∃ reason, e = .ownershipMismatch reason := by
  unfold ruling at h
  split at h <;> cases h
  exact ⟨_, rfl⟩

/-- Why an asset may not go. -/
lemma OwnershipCourse.eq_of_error {a q e} (h : OwnershipCourse a q (.error e)) :
    (∃ failure, e = .ledger failure) ∨ ∃ reason, e = .ownershipMismatch reason := by
  generalize verdict : (Except.error e : Except SettlementError Unit) = r at h
  cases h with
  | linkedUnknown => cases verdict; exact .inl ⟨_, rfl⟩
  | linked => exact .inr (ruling_eq_error verdict.symm)
  | unlinkedUnknown => cases verdict; exact .inl ⟨_, rfl⟩
  | unlinked => exact .inr (ruling_eq_error verdict.symm)

/-- Nothing is sent for an asset that may not go. -/
lemma OwnershipCourse.submitted {a q e} (h : OwnershipCourse a q (.error e)) :
    e.submitted = none := by
  obtain ⟨_, rfl⟩ | ⟨_, rfl⟩ := h.eq_of_error <;> rfl

/-- There is no call only for an asset whose custody is not tracked. -/
lemma path_eq_error {x : AssetPayout} {a e} (h : x.path a = .error e) :
    ∃ asset location, e = .untrackedCustody asset location := by
  unfold AssetPayout.path at h
  split at h
  · cases h
  · split at h <;> cases h
    exact ⟨_, _, rfl⟩

/-- An asset without a call was not submitted. -/
lemma submitted_of_path {x : AssetPayout} {a e} (h : x.path a = .error e) : e.submitted = none := by
  obtain ⟨_, _, rfl⟩ := path_eq_error h
  rfl

/-- Handing an asset out: one question about users, and a submission unless the asset may not go or
is held elsewhere. -/
inductive HandOutCourse (x : AssetPayout) (p : Policy) (a : Asset) :
    Trace → Except SettlementError Confirmed → Prop where
  | disowned {q e} :
    OwnershipCourse a q (.error e) →
    HandOutCourse x p a [q] (.error e)
  | untracked {q e} :
    OwnershipCourse a q (.ok ()) →
    x.path a = .error e →
    HandOutCourse x p a [q] (.error e)
  | submitted {q signer c es r} :
    OwnershipCourse a q (.ok ()) →
    x.path a = .ok (signer, c) →
    SubmitCourse p signer c es r →
    HandOutCourse x p a (q :: es) r

/-- Every path of handing an asset out is a course of it. -/
lemma handOut_course {x : AssetPayout} {p a es r} (h : (x.settle p a).Ends es r) :
    HandOutCourse x p a es r := by
  obtain ⟨_, verdict, es₂, rfl, h₁, h₂⟩ := ends_andThen.1 h
  obtain ⟨q, rfl, course⟩ := checkOwnership_course h₁
  cases verdict with
  | error e =>
    obtain ⟨rfl, rfl⟩ := ends_pure.1 h₂
    exact .disowned course
  | ok _ =>
    dsimp only at h₂
    split at h₂
    case h_1 e path =>
      obtain ⟨rfl, rfl⟩ := ends_pure.1 h₂
      exact .untracked course path
    case h_2 signer c path => exact .submitted course path (submit_course h₂)

/-- Paying out an asset: it is handed out, and then the outcome is written to its row. -/
inductive PayOutCourse (x : AssetPayout) (p : Policy) (row : Withdrawal AssetOrder) (a : Asset) :
    Trace → Except SettlementError Confirmed → Prop where
  | failed {es e m fs} :
    HandOutCourse x p a es (.error e) →
    FailureCourse row.id x.assetClass row.order.tokenId e true fs →
    PayOutCourse x p row a (es ++ ⟨.note m, ()⟩ :: fs) (.error e)
  | unrecorded {es confirmed e m} :
    HandOutCourse x p a es (.ok confirmed) →
    PayOutCourse x p row a
      (es ++ [⟨.ledger (.update .asset row.id confirmed.outcome), .error e⟩, ⟨.note m, ()⟩])
      (.error (.ledger e))
  | recorded {es confirmed m} :
    HandOutCourse x p a es (.ok confirmed) →
    PayOutCourse x p row a
      (es ++ [⟨.ledger (.update .asset row.id confirmed.outcome), .ok ()⟩, ⟨.note m, ()⟩])
      (.ok confirmed)

/-- Every path of paying an asset out is a course of it. -/
lemma payOut_course {x : AssetPayout} {p row a es r} (h : (x.withdraw p row a).Ends es r) :
    PayOutCourse x p row a es r := by
  obtain ⟨es₁, result, es₂, rfl, h₁, h₂⟩ := ends_andThen.1 h
  have course := handOut_course h₁
  cases result with
  | error e =>
    obtain ⟨_, _, es₃, rfl, h₃, h₄⟩ := ends_andThen.1 h₂
    cases ends_note.1 h₃
    obtain ⟨es₅, _, es₆, rfl, h₅, h₆⟩ := ends_andThen.1 h₄
    obtain ⟨rfl, rfl⟩ := ends_pure.1 h₆
    rw [List.append_nil]
    exact .failed course (recordFailure_course h₅)
  | ok confirmed =>
    obtain ⟨_, written, es₃, rfl, h₃, h₄⟩ := ends_andThen.1 h₂
    cases ends_ledger.1 h₃
    cases written with
    | error e =>
      obtain ⟨_, _, es₅, rfl, h₅, h₆⟩ := ends_andThen.1 h₄
      cases ends_note.1 h₅
      obtain ⟨rfl, rfl⟩ := ends_pure.1 h₆
      exact .unrecorded course
    | ok _ =>
      obtain ⟨_, _, es₅, rfl, h₅, h₆⟩ := ends_andThen.1 h₄
      cases ends_note.1 h₅
      obtain ⟨rfl, rfl⟩ := ends_pure.1 h₆
      exact .recorded course

/-- Settling an asset row that was taken up. -/
inductive AssetCourse (s : Settler) (row : Withdrawal AssetOrder) : Trace → RowResult → Prop where
  | unconfigured {m fs} :
    s.assetPayout row.order.assetClass = none →
    FailureCourse row.id row.order.assetClass row.order.tokenId
      (.notConfigured row.order.assetClass.name) true fs →
    AssetCourse s row (⟨.note m, ()⟩ :: fs) .failed
  | unloaded {x e m fs} :
    s.assetPayout row.order.assetClass = some x →
    FailureCourse row.id row.order.assetClass row.order.tokenId (.ledger e) false fs →
    AssetCourse s row
      (⟨.ledger (.asset row.order.assetClass row.order.tokenId), .error e⟩ :: ⟨.note m, ()⟩ :: fs)
      .failed
  | paidOut {x a es r} :
    s.assetPayout row.order.assetClass = some x →
    PayOutCourse x s.policy row a es r →
    AssetCourse s row
      (⟨.ledger (.asset row.order.assetClass row.order.tokenId), .ok a⟩ :: es) (.ofResult r)

/-- Every path of settling an asset row is a course of it. -/
lemma settleAsset_course {s : Settler} {row es r} (h : (s.settleAsset row).Ends es r) :
    AssetCourse s row es r := by
  unfold Settler.settleAsset at h
  dsimp only at h
  split at h
  case h_1 unset =>
    obtain ⟨_, _, es₂, rfl, h₁, h₂⟩ := ends_andThen.1 h
    cases ends_note.1 h₁
    obtain ⟨es₃, _, es₄, rfl, h₃, h₄⟩ := ends_andThen.1 h₂
    obtain ⟨rfl, rfl⟩ := ends_pure.1 h₄
    rw [List.append_nil]
    exact .unconfigured unset (recordFailure_course h₃)
  case h_2 x set =>
    obtain ⟨_, loaded, es₂, rfl, h₁, h₂⟩ := ends_andThen.1 h
    cases ends_ledger.1 h₁
    cases loaded with
    | error e =>
      obtain ⟨_, _, es₃, rfl, h₃, h₄⟩ := ends_andThen.1 h₂
      cases ends_note.1 h₃
      obtain ⟨es₅, _, es₆, rfl, h₅, h₆⟩ := ends_andThen.1 h₄
      obtain ⟨rfl, rfl⟩ := ends_pure.1 h₆
      rw [List.append_nil]
      exact .unloaded set (recordFailure_course h₅)
    | ok a =>
      obtain ⟨es₃, result, es₄, rfl, h₃, h₄⟩ := ends_andThen.1 h₂
      obtain ⟨rfl, rfl⟩ := ends_pure.1 h₄
      rw [List.append_nil]
      exact .paidOut set (payOut_course h₃)

/-- Turning an amount into on-chain units: the number of decimals is asked for only where one is
needed and none is known. -/
inductive AmountCourse (x : CurrencyPayout) (amount : Decimal) :
    Option UInt8 → Trace → Except SettlementError Nat → Option UInt8 → Prop where
  | unscaled {d} :
    x.scale = none →
    AmountCourse x amount d [] (amount.toChainUnits none) d
  | known {scale d} :
    x.scale = some scale →
    AmountCourse x amount (some d) [] (amount.toChainUnits (some ⟨scale, d⟩)) (some d)
  | unknown {scale e} :
    x.scale = some scale →
    AmountCourse x amount none [⟨.decimals x.currencyClass, .error e⟩] (.error (.chain e)) none
  | learnt {scale d} :
    x.scale = some scale →
    AmountCourse x amount none [⟨.decimals x.currencyClass, .ok d⟩]
      (amount.toChainUnits (some ⟨scale, d⟩)) (some d)

/-- Every path of turning an amount into units is a course of it. -/
lemma chainAmount_course {x : CurrencyPayout} {amount d es r}
    (h : (x.chainAmount amount d).Ends es r) : AmountCourse x amount d es r.1 r.2 := by
  cases hscale : x.scale with
  | none =>
    simp only [CurrencyPayout.chainAmount, hscale] at h
    obtain ⟨rfl, rfl⟩ := ends_stateT_pure.1 h
    exact .unscaled hscale
  | some scale =>
    simp only [CurrencyPayout.chainAmount, hscale] at h
    obtain ⟨es₁, decimals, d', es₂, rfl, h₁, h₂⟩ := ends_stateT_bind.1 h
    unfold CurrencyPayout.decimals at h₁
    obtain ⟨es₃, _, _, es₄, rfl, h₃, h₄⟩ := ends_stateT_bind.1 h₁
    obtain ⟨rfl, e⟩ := ends_stateT_pure.1 h₃
    cases e
    cases d with
    | some d =>
      obtain ⟨rfl, e⟩ := ends_stateT_pure.1 h₄
      cases e
      obtain ⟨rfl, rfl⟩ := ends_stateT_pure.1 h₂
      exact .known hscale
    | none =>
      obtain ⟨_, answer, es₆, rfl, h₅, h₆⟩ := ends_stateT_lift_bind.1 h₄
      cases ends_ask.1 h₅
      cases answer with
      | error e =>
        obtain ⟨rfl, e⟩ := ends_stateT_pure.1 h₆
        cases e
        obtain ⟨rfl, rfl⟩ := ends_stateT_pure.1 h₂
        exact .unknown hscale
      | ok d =>
        obtain ⟨es₇, _, _, es₈, rfl, h₇, h₈⟩ := ends_stateT_bind.1 h₆
        obtain ⟨rfl, e⟩ := ends_done.1 h₇
        cases e
        obtain ⟨rfl, e⟩ := ends_stateT_pure.1 h₈
        cases e
        obtain ⟨rfl, rfl⟩ := ends_stateT_pure.1 h₂
        exact .learnt hscale

/-- Paying an order out: its amount is converted and submitted. -/
inductive PaymentCourse (x : CurrencyPayout) (p : Policy) (order : CurrencyOrder)
    (d : Option UInt8) : Trace → Except SettlementError Confirmed → Option UInt8 → Prop where
  | unconverted {es e d'} :
    AmountCourse x order.amount d es (.error e) d' →
    PaymentCourse x p order d es (.error e) d'
  | submitted {es units d' fs r} :
    AmountCourse x order.amount d es (.ok units) d' →
    SubmitCourse p x.signer (x.callFor order.destination units) fs r →
    PaymentCourse x p order d (es ++ fs) r d'

/-- Every path of paying an order out is a course of it. -/
lemma payment_course {x : CurrencyPayout} {p order d es r}
    (h : (x.settle p order d).Ends es r) : PaymentCourse x p order d es r.1 r.2 := by
  obtain ⟨es₁, units, d', es₂, rfl, h₁, h₂⟩ := ends_stateT_bind.1 h
  have amount := chainAmount_course h₁
  cases units with
  | error e =>
    obtain ⟨rfl, rfl⟩ := ends_stateT_pure.1 h₂
    rw [List.append_nil]
    exact .unconverted amount
  | ok units =>
    obtain ⟨h₂, hd⟩ := ends_stateT_lift.1 h₂
    rw [hd]
    exact .submitted amount (submit_course h₂)

/-- What a payment comes to, once it is known whether its outcome could be written. -/
def paid : Except SettlementError Confirmed → Except LedgerError Unit → RowResult
  | .ok _, .ok _ => .submitted
  | _, _ => .failed

/-- Settling a currency row that was taken up: whatever comes of it is written to the row. -/
inductive CurrencyCourse (s : Settler) (row : Withdrawal CurrencyOrder) (known : KnownDecimals) :
    Trace → RowResult → KnownDecimals → Prop where
  | unconfigured {m a notes} :
    s.currencyPayout row.order.currencyClass = none →
    Notes notes →
    CurrencyCourse s row known
      (⟨.note m, ()⟩ ::
        ⟨.ledger (.update .currency row.id
          (SettlementError.notConfigured row.order.currencyClass.symbol).outcome), a⟩ :: notes)
      .failed known
  | paidOut {x es r d' notes a notes'} :
    s.currencyPayout row.order.currencyClass = some x →
    PaymentCourse x s.policy row.order (known row.order.currencyClass) es r d' →
    Notes notes →
    Notes notes' →
    CurrencyCourse s row known
      (es ++ notes ++
        ⟨.ledger (.update .currency row.id (CurrencyPayout.outcomeOf r)), a⟩ :: notes')
      (paid r a) (fun c => if c = row.order.currencyClass then d' else known c)

/-- What a payment ends in, once it is known whether its outcome could be written. -/
def concluded : Except SettlementError Confirmed → Except LedgerError Unit →
    Except SettlementError Confirmed
  | .ok confirmed, .ok _ => .ok confirmed
  | .ok _, .error e => .error (.ledger e)
  | .error e, _ => .error e

/-- What is counted for a payment is what it ended in. -/
lemma ofResult_concluded (r : Except SettlementError Confirmed) (a : Except LedgerError Unit) :
    RowResult.ofResult (concluded r a) = paid r a := by
  cases r <;> cases a <;> rfl

/-- A payment is submitted, if it can be, and what came of that is written to its row. -/
lemma withdraw_course {x : CurrencyPayout} {p row d es r} (h : (x.withdraw p row d).Ends es r) :
    ∃ es₁ r₁ notes a notes',
      es = es₁ ++ notes ++
        ⟨.ledger (.update .currency row.id (CurrencyPayout.outcomeOf r₁)), a⟩ :: notes' ∧
      PaymentCourse x p row.order d es₁ r₁ r.2 ∧ Notes notes ∧ Notes notes' ∧
      r.1 = concluded r₁ a := by
  obtain ⟨es₁, r₁, d', es₂, rfl, h₁, h₂⟩ := ends_stateT_bind.1 h
  have payment := payment_course h₁
  cases r₁ with
  | error e =>
    obtain ⟨_, _, es₃, rfl, h₃, h₄⟩ := ends_stateT_lift_bind.1 h₂
    cases ends_note.1 h₃
    obtain ⟨_, a, es₅, rfl, h₅, h₆⟩ := ends_stateT_lift_bind.1 h₄
    cases ends_ledger.1 h₅
    cases a with
    | error e' =>
      obtain ⟨_, _, es₇, rfl, h₇, h₈⟩ := ends_stateT_lift_bind.1 h₆
      cases ends_note.1 h₇
      obtain ⟨rfl, rfl⟩ := ends_stateT_pure.1 h₈
      exact ⟨es₁, .error e, [⟨.note (.withdrawalFailed .currency e), ()⟩], .error e',
        [⟨.note (.currencyOutcomeNotRecorded e'), ()⟩], by simp, payment, notes_singleton _,
        notes_singleton _, rfl⟩
    | ok _ =>
      obtain ⟨rfl, rfl⟩ := ends_stateT_pure.1 h₆
      exact ⟨es₁, .error e, [⟨.note (.withdrawalFailed .currency e), ()⟩], .ok (), [],
        by simp, payment, notes_singleton _, notes_nil, rfl⟩
  | ok confirmed =>
    obtain ⟨_, a, es₅, rfl, h₅, h₆⟩ := ends_stateT_lift_bind.1 h₂
    cases ends_ledger.1 h₅
    cases a with
    | error e' =>
      obtain ⟨_, _, es₇, rfl, h₇, h₈⟩ := ends_stateT_lift_bind.1 h₆
      cases ends_note.1 h₇
      obtain ⟨rfl, rfl⟩ := ends_stateT_pure.1 h₈
      exact ⟨es₁, .ok confirmed, [], .error e', [⟨.note (.currencyOutcomeNotRecorded e'), ()⟩],
        by simp, payment, notes_nil, notes_singleton _, rfl⟩
    | ok _ =>
      obtain ⟨_, _, es₇, rfl, h₇, h₈⟩ := ends_stateT_lift_bind.1 h₆
      cases ends_note.1 h₇
      obtain ⟨rfl, rfl⟩ := ends_stateT_pure.1 h₈
      exact ⟨es₁, .ok confirmed, [], .ok (),
        [⟨.note (.settled .currency confirmed.submitted.hash confirmed.submitted.nonce), ()⟩],
        by simp, payment, notes_nil, notes_singleton _, rfl⟩

/-- Every path of settling a currency row is a course of it. -/
lemma settleCurrency_course {s : Settler} {row known es r}
    (h : (s.settleCurrency row known).Ends es r) : CurrencyCourse s row known es r.1 r.2 := by
  cases set : s.currencyPayout row.order.currencyClass with
  | none =>
    simp only [Settler.settleCurrency, set] at h
    obtain ⟨_, _, es₂, rfl, h₁, h₂⟩ := ends_stateT_lift_bind.1 h
    cases ends_note.1 h₁
    obtain ⟨_, a, es₄, rfl, h₃, h₄⟩ := ends_stateT_lift_bind.1 h₂
    cases ends_ledger.1 h₃
    cases a with
    | error e =>
      obtain ⟨_, _, es₆, rfl, h₅, h₆⟩ := ends_stateT_lift_bind.1 h₄
      cases ends_note.1 h₅
      obtain ⟨rfl, rfl⟩ := ends_stateT_pure.1 h₆
      exact .unconfigured set (notes_singleton _)
    | ok _ =>
      obtain ⟨rfl, rfl⟩ := ends_stateT_pure.1 h₄
      exact .unconfigured set notes_nil
  | some x =>
    simp only [Settler.settleCurrency, set] at h
    obtain ⟨es₁, _, _, es₂, rfl, h₁, h₂⟩ := ends_stateT_bind.1 h
    obtain ⟨rfl, e⟩ := ends_stateT_pure.1 h₁
    cases e
    obtain ⟨es₃, ⟨result, d⟩, es₄, rfl, h₃, h₄⟩ := ends_stateT_lift_bind.1 h₂
    obtain ⟨es₅, r₁, notes, a, notes', rfl, payment, hn, hn', hr⟩ := withdraw_course h₃
    obtain ⟨es₆, _, _, es₇, rfl, h₆, h₇⟩ := ends_stateT_bind.1 h₄
    obtain ⟨rfl, e⟩ := ends_done.1 h₆
    cases e
    obtain ⟨rfl, rfl⟩ := ends_stateT_pure.1 h₇
    dsimp only at hr ⊢
    rw [hr, ofResult_concluded]
    simpa using CurrencyCourse.paidOut set payment hn hn'

/-- Processing a row: it is settled only if the claim brings back true. -/
inductive RowCourse (s : Settler) : (k : Kind) → Withdrawal k.Order → KnownDecimals →
    Trace → RowResult → KnownDecimals → Prop where
  | unclaimed {k row known e m} :
    RowCourse s k row known [⟨.ledger (.claim k row.id), .error e⟩, ⟨.note m, ()⟩] .skipped known
  | refused {k row known} :
    RowCourse s k row known [⟨.ledger (.claim k row.id), .ok false⟩] .skipped known
  | asset {row known es r} :
    AssetCourse s row es r →
    RowCourse s .asset row known (⟨.ledger (.claim .asset row.id), .ok true⟩ :: es) r known
  | currency {row known es r known'} :
    CurrencyCourse s row known es r known' →
    RowCourse s .currency row known (⟨.ledger (.claim .currency row.id), .ok true⟩ :: es) r known'

/-- Every path of processing a row is a course of it. -/
lemma processRow_course {s : Settler} {k row known es r}
    (h : (s.processRow k row known).Ends es r) : RowCourse s k row known es r.1 r.2 := by
  obtain ⟨_, claimed, es₂, rfl, h₁, h₂⟩ := ends_stateT_lift_bind.1 h
  cases ends_ledger.1 h₁
  match claimed with
  | .error e =>
    obtain ⟨_, _, es₃, rfl, h₃, h₄⟩ := ends_stateT_lift_bind.1 h₂
    cases ends_note.1 h₃
    obtain ⟨rfl, rfl⟩ := ends_stateT_pure.1 h₄
    exact .unclaimed
  | .ok false =>
    obtain ⟨rfl, rfl⟩ := ends_stateT_pure.1 h₂
    exact .refused
  | .ok true =>
    cases k with
    | asset =>
      obtain ⟨h₂, hs⟩ := ends_stateT_lift.1 h₂
      rw [hs]
      exact .asset (settleAsset_course h₂)
    | currency => exact .currency (settleCurrency_course h₂)

/-- Processing rows in turn, with what came of each. -/
inductive RowsCourse (s : Settler) (k : Kind) : List (Withdrawal k.Order) → KnownDecimals →
    Trace → List RowResult → KnownDecimals → Prop where
  | nil {known} :
    RowsCourse s k [] known [] [] known
  | cons {row rows known es r known' fs rs known''} :
    RowCourse s k row known es r known' →
    RowsCourse s k rows known' fs rs known'' →
    RowsCourse s k (row :: rows) known (es ++ fs) (r :: rs) known''

/-- Every path of processing rows is a course of them, and its results are recorded in the
summary. -/
lemma processRows_course {s : Settler} {k summary rows known es r}
    (h : (s.processRows k summary rows known).Ends es r) :
    ∃ rs, RowsCourse s k rows known es rs r.2 ∧ r.1 = rs.foldl Summary.record summary := by
  induction rows generalizing summary known es with
  | nil =>
    obtain ⟨rfl, rfl⟩ := ends_stateT_pure.1 h
    exact ⟨[], .nil, rfl⟩
  | cons row rows ih =>
    obtain ⟨es₁, r₁, known₁, es₂, rfl, h₁, h₂⟩ := ends_stateT_bind.1 h
    obtain ⟨rs, course, hr⟩ := ih h₂
    exact ⟨r₁ :: rs, .cons (processRow_course h₁) course, hr⟩

/-- A pass over one table. -/
inductive TableCourse (s : Settler) (k : Kind) (summary : Summary) (known : KnownDecimals) :
    Trace → Except SettlementError Summary → KnownDecimals → Prop where
  | unlisted {e} :
    TableCourse s k summary known [⟨.ledger (.unprocessed k), .error e⟩] (.error (.ledger e)) known
  | listed {rows notes es rs known'} :
    Notes notes →
    RowsCourse s k rows known es rs known' →
    TableCourse s k summary known (⟨.ledger (.unprocessed k), .ok rows⟩ :: notes ++ es)
      (.ok (rs.foldl Summary.record summary)) known'

/-- Every path of a pass over one table is a course of it. -/
lemma pollTable_course {s : Settler} {k summary known es r}
    (h : (s.pollTable k summary known).Ends es r) : TableCourse s k summary known es r.1 r.2 := by
  obtain ⟨_, listed, es₂, rfl, h₁, h₂⟩ := ends_stateT_lift_bind.1 h
  cases ends_ledger.1 h₁
  cases listed with
  | error e =>
    obtain ⟨rfl, rfl⟩ := ends_stateT_pure.1 h₂
    exact .unlisted
  | ok rows =>
    dsimp only at h₂
    split at h₂
    · obtain ⟨_, _, es₃, rfl, h₃, h₄⟩ := ends_stateT_lift_bind.1 h₂
      cases ends_note.1 h₃
      obtain ⟨es₅, summary', known', es₆, rfl, h₅, h₆⟩ := ends_stateT_bind.1 h₄
      obtain ⟨rs, course, rfl⟩ := processRows_course h₅
      obtain ⟨rfl, rfl⟩ := ends_stateT_pure.1 h₆
      simpa using TableCourse.listed (notes_singleton _) course
    · obtain ⟨es₅, summary', known', es₆, rfl, h₅, h₆⟩ := ends_stateT_bind.1 h₂
      obtain ⟨rs, course, rfl⟩ := processRows_course h₅
      obtain ⟨rfl, rfl⟩ := ends_stateT_pure.1 h₆
      simpa using TableCourse.listed notes_nil course

/-- A pass: the currency rows are listed only if the asset rows were. -/
inductive PollCourse (s : Settler) (known : KnownDecimals) :
    Trace → Except SettlementError Summary → KnownDecimals → Prop where
  | stopped {es e known'} :
    TableCourse s .asset .zero known es (.error e) known' →
    PollCourse s known es (.error e) known'
  | passed {es summary known' fs r known''} :
    TableCourse s .asset .zero known es (.ok summary) known' →
    TableCourse s .currency summary known' fs r known'' →
    PollCourse s known (es ++ fs) r known''

/-- Every path of a pass is a course of it. -/
lemma poll_course {s : Settler} {known es r} (h : (s.poll known).Ends es r) :
    PollCourse s known es r.1 r.2 := by
  obtain ⟨es₁, first, known', es₂, rfl, h₁, h₂⟩ := ends_stateT_bind.1 h
  have table := pollTable_course h₁
  cases first with
  | error e =>
    obtain ⟨rfl, rfl⟩ := ends_stateT_pure.1 h₂
    rw [List.append_nil]
    exact .stopped table
  | ok summary => exact .passed table (pollTable_course h₂)

/-- Passes in turn. -/
inductive PollsCourse (s : Settler) : Nat → KnownDecimals → Trace → KnownDecimals → Prop where
  | zero {known} :
    PollsCourse s 0 known [] known
  | succ {n known es r known' fs known''} :
    PollCourse s known es r known' →
    PollsCourse s n known' fs known'' →
    PollsCourse s (n + 1) known (es ++ fs) known''

/-- Every path of passes in turn is a course of them. -/
lemma polls_course {s : Settler} {n known es r} (h : (s.polls n known).Ends es r) :
    PollsCourse s n known es r.2 := by
  induction n generalizing known es with
  | zero =>
    obtain ⟨rfl, rfl⟩ := ends_stateT_pure.1 h
    exact .zero
  | succ n ih =>
    obtain ⟨es₁, _, known', es₂, rfl, h₁, h₂⟩ := ends_stateT_bind.1 h
    exact .succ (poll_course h₁) (ih h₂)

end Payout.Settlement
