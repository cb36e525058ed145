import Payout.Proofs.Settlement.Sharing

/-!
# Compensation

When an asset is put back. `fate` tells from the exchanges so far what is known of the transaction
of a row; an asset is put back only where no transaction is pending, where it failed, or where the
wait for it ended in an error other than a timeout (`release_of_fate`). In the last case the
transaction may still be included, and the asset is put back all the same.
-/

namespace Payout

/-- Whether a wait ended because its time was up. -/
def ChainError.isTimeout : ChainError → Bool
  | .confirmationTimeout _ _ => true
  | _ => false

namespace Settlement
open Program Ledger

/-- What is known of the transaction of a row. -/
inductive Fate where
  /-- No call brought back a pending transaction. -/
  | unsent
  | pending
  /-- The wait for it ended in an error. -/
  | unknown (e : ChainError)
  | reverted
  | confirmed
deriving DecidableEq

namespace Fate

/-- What is known after one more exchange. -/
def next (f : Fate) (e : Exchange interface) : Fate :=
  match e with
  | ⟨.call _ _, .ok _⟩ => pending
  | ⟨.wait _ _ _, .error e⟩ => unknown e
  | ⟨.wait _ _ _, .ok receipt⟩ => if receipt.success then confirmed else reverted
  | _ => f

/-- What is known after exchanges. -/
def after (f : Fate) (es : Trace) : Fate := es.foldl next f

/-- Whether an asset is put back when its row fails. -/
def allowsRelease : Fate → Bool
  | unsent | reverted => true
  | unknown e => !e.isTimeout
  | pending | confirmed => false

/-- What is known when a submission is over. -/
def ofResult : Except SettlementError Confirmed → Fate
  | .ok _ => confirmed
  | .error (.reverted _) => reverted
  | .error (.unconfirmed _ e) => unknown e
  | .error _ => unsent

/-- Without exchanges no more is known. -/
@[simp] lemma after_nil (f : Fate) : f.after [] = f := rfl

/-- What the first exchange tells is known before the others. -/
@[simp] lemma after_cons (f : Fate) (e : Exchange interface) (es : Trace) :
    f.after (e :: es) = (f.next e).after es := rfl

/-- What is known after some exchanges is where the others go on from. -/
@[simp] lemma after_append (f : Fate) (es fs : Trace) :
    f.after (es ++ fs) = (f.after es).after fs :=
  List.foldl_append

/-- An error that names no submission leaves the row unsent. -/
lemma ofResult_of_submitted {e : SettlementError} (h : e.submitted = none) :
    ofResult (.error e) = unsent := by
  cases e <;> first | rfl | cases h

/-- An error allows compensation if and only if the fate that it tells of allows a release. -/
lemma allowsRelease_ofResult (e : SettlementError) :
    (ofResult (.error e)).allowsRelease = e.allowsCompensation := by
  cases e with
  | unconfirmed tx source => cases source <;> rfl
  | _ => rfl

end Fate

/-- What is known of the transaction after exchanges about one row. -/
def fate (es : Trace) : Fate := Fate.unsent.after es

/-- Every release in a trace is one of the asset, at a moment at which what is known allows it. -/
def Releases (c : AssetClass) (n : UInt64) (f : Fate) : Trace → Prop
  | [] => True
  | e :: es =>
    (e.request.isRelease = true →
      e.request = .ledger (.release c n) ∧ f.allowsRelease = true) ∧ Releases c n (f.next e) es

/-- Some exchange puts an asset back. -/
def HandsBack (es : Trace) : Prop := ∃ e ∈ es, e.request.isRelease = true

section Courses

variable {s : Settler} {p : Policy} {c : AssetClass} {n : UInt64} {f : Fate} {es fs : Trace}

/-- The releases of two traces are right if those of the first are, and those of the second with
what is known by then. -/
@[simp] lemma releases_append :
    Releases c n f (es ++ fs) ↔ Releases c n f es ∧ Releases c n (f.after es) fs := by
  induction es generalizing f with
  | nil => simp [Releases]
  | cons e es ih => simp [Releases, ih, and_assoc]

/-- A release is asked for at a moment that allows it. -/
lemma Releases.at {pre post : Trace} {e} (h : Releases c n f (pre ++ e :: post))
    (release : e.request.isRelease = true) :
    e.request = .ledger (.release c n) ∧ (f.after pre).allowsRelease = true :=
  (releases_append.1 h).2.1 release

/-- An asset is put back in one of two traces or in the other. -/
@[simp] lemma handsBack_append : HandsBack (es ++ fs) ↔ HandsBack es ∨ HandsBack fs := by
  simp [HandsBack, or_and_right, exists_or]

/-- Nothing is put back without an exchange. -/
@[simp] lemma not_handsBack_nil : ¬ HandsBack [] := fun ⟨_, he, _⟩ => List.not_mem_nil he

/-- An asset is put back by the first exchange or by one of the others. -/
@[simp] lemma handsBack_cons {e} :
    HandsBack (e :: es) ↔ e.request.isRelease = true ∨ HandsBack es := by
  simp [HandsBack]

/-- Where nothing is put back, every release is right. -/
lemma releases_of_not_handsBack (h : ¬ HandsBack es) : Releases c n f es := by
  induction es generalizing f with
  | nil => trivial
  | cons e es ih =>
    rw [handsBack_cons, not_or] at h
    exact ⟨fun release => absurd release h.1, ih h.2⟩

/-- Exchanges from which nothing is learnt about a transaction and that put nothing back. -/
def Idle (es : Trace) : Prop :=
  ∀ e ∈ es, (∀ f : Fate, f.next e = f) ∧ e.request.isRelease = false

/-- Idle exchanges teach nothing about a transaction. -/
lemma Idle.after (h : Idle es) : f.after es = f := by
  induction es with
  | nil => rfl
  | cons e es ih =>
    rw [Fate.after_cons, (h e List.mem_cons_self).1]
    exact ih fun e he => h e (List.mem_cons_of_mem _ he)

/-- Idle exchanges put nothing back. -/
lemma Idle.not_handsBack (h : Idle es) : ¬ HandsBack es := by
  rintro ⟨e, he, release⟩
  rw [(h e he).2] at release
  cases release

/-- Reports are idle. -/
lemma Notes.idle (h : Notes es) : Idle es := by
  intro e he
  obtain ⟨r, a⟩ := e
  obtain ⟨m, rfl⟩ := h _ he
  exact ⟨fun _ => rfl, rfl⟩

/-- Asking for a gas price is idle. -/
lemma PriceCourse.idle {r} (h : PriceCourse p es r) : Idle es := by
  intro e he
  obtain ⟨req, a⟩ := e
  rcases h.forall _ he with rfl | rfl <;> exact ⟨fun _ => rfl, rfl⟩

/-- A question about users is idle. -/
lemma AsksUser.idle {e : Exchange interface} (h : AsksUser e) : Idle [e] := by
  intro e' he
  cases List.mem_singleton.1 he
  obtain ⟨r, a⟩ := e
  obtain ⟨_, rfl⟩ | ⟨_, rfl⟩ := h <;> exact ⟨fun _ => rfl, rfl⟩

/-- A submission puts nothing back, and its result says what is known. -/
lemma SubmitCourse.fate {signer call r} (h : SubmitCourse p signer call es r) :
    ¬ HandsBack es ∧ fate es = .ofResult r := by
  unfold Settlement.fate
  cases h with
  | unpriced priced => exact ⟨priced.idle.not_handsBack, priced.idle.after⟩
  | refused priced =>
    rw [handsBack_append, Fate.after_append, priced.idle.after]
    exact ⟨by simp [priced.idle.not_handsBack, Request.isRelease], rfl⟩
  | unconfirmed priced =>
    rw [handsBack_append, Fate.after_append, priced.idle.after]
    exact ⟨by simp [priced.idle.not_handsBack, Request.isRelease], rfl⟩
  | reverted priced failure =>
    rw [handsBack_append, Fate.after_append, priced.idle.after]
    exact ⟨by simp [priced.idle.not_handsBack, Request.isRelease],
      by simp [Fate.next, Fate.ofResult, failure]⟩
  | confirmed priced success =>
    rw [handsBack_append, Fate.after_append, priced.idle.after]
    exact ⟨by simp [priced.idle.not_handsBack, Request.isRelease],
      by simp [Fate.next, Fate.ofResult, success]⟩

/-- Handing an asset out puts nothing back, and its result says what is known. -/
lemma HandOutCourse.fate {x : AssetPayout} {a r} (h : HandOutCourse x p a es r) :
    ¬ HandsBack es ∧ fate es = .ofResult r := by
  cases h with
  | disowned course =>
    have asks := course.asksUser
    refine ⟨asks.idle.not_handsBack, ?_⟩
    rw [Fate.ofResult_of_submitted course.submitted]
    exact asks.idle.after
  | untracked course path =>
    have asks := course.asksUser
    refine ⟨asks.idle.not_handsBack, ?_⟩
    rw [Fate.ofResult_of_submitted (submitted_of_path path)]
    exact asks.idle.after
  | @submitted q _ _ _ _ course _ submission =>
    have asks := course.asksUser
    obtain ⟨still, known⟩ := submission.fate
    have first : Fate.unsent.next q = .unsent := asks.idle.after
    refine ⟨?_, ?_⟩
    · rw [handsBack_cons]
      rintro (release | back)
      · exact asks.idle.not_handsBack ⟨q, List.mem_singleton_self q, release⟩
      · exact still back
    · rw [Settlement.fate, Fate.after_cons, first]
      exact known

/-- Attempts to put an asset back are releases of it, and nothing is learnt from them. -/
lemma ReleaseCourse.releases {r} (h : ReleaseCourse c n es r) (allowed : f.allowsRelease = true) :
    Releases c n f es ∧ f.after es = f := by
  have each : ∀ e ∈ es, f.next e = f ∧
      (e.request.isRelease = true → e.request = .ledger (.release c n)) := by
    intro e he
    obtain ⟨r, a⟩ := e
    rcases h.forall _ he with h | h | ⟨_, h⟩ <;> cases h
    · exact ⟨rfl, fun _ => rfl⟩
    · exact ⟨rfl, nofun⟩
    · exact ⟨rfl, nofun⟩
  -- The trace is gone through without the course, whose parts are no courses.
  clear h
  induction es with
  | nil => exact ⟨trivial, rfl⟩
  | cons e es ih =>
    obtain ⟨same, release⟩ := each e List.mem_cons_self
    obtain ⟨rest, known⟩ := ih fun e he => each e (List.mem_cons_of_mem _ he)
    rw [Fate.after_cons, same]
    refine ⟨⟨fun h => ⟨release h, allowed⟩, ?_⟩, known⟩
    rw [same]
    exact rest

/-- A failure puts the asset back exactly where that was asked for and its error allows it. -/
lemma FailureCourse.releases {id e compensate} (h : FailureCourse id c n e compensate es)
    (allowed : (compensate && e.allowsCompensation) = true → f.allowsRelease = true) :
    Releases c n f es ∧ f.after es = f ∧
      (HandsBack es ↔ (compensate && e.allowsCompensation) = true) := by
  cases h with
  | kept no notes =>
    rename_i a ns
    have still : ¬ HandsBack (⟨.ledger (.update .asset id e.outcome), a⟩ :: ns) := by
      simp [notes.idle.not_handsBack, Request.isRelease]
    refine ⟨releases_of_not_handsBack still, notes.idle.after, ?_⟩
    rw [no]
    exact ⟨fun back => absurd back still, fun yes => absurd yes Bool.false_ne_true⟩
  | released yes notes release =>
    rename_i a ns rs r m
    obtain ⟨allows, known⟩ := ReleaseCourse.releases release (allowed yes)
    obtain ⟨_, _, rfl⟩ := ReleaseCourse.head release
    have rest : f.after ns = f := notes.idle.after
    rw [List.cons_append, List.cons_append]
    refine ⟨⟨fun asked => absurd asked Bool.false_ne_true, ?_⟩, ?_, ?_⟩
    · change Releases c n f _
      rw [releases_append, releases_append, Fate.after_append, rest, known]
      exact ⟨⟨releases_of_not_handsBack notes.idle.not_handsBack, allows⟩,
        fun asked => absurd asked Bool.false_ne_true, trivial⟩
    · have first : f.next ⟨.ledger (.update .asset id e.outcome), a⟩ = f := rfl
      rw [Fate.after_cons, first, Fate.after_append, Fate.after_append, rest, known]
      rfl
    · simp [yes, Request.isRelease]

/-- What holds of a row's exchanges: releases only where the fate of the transaction allows them,
and one for sure where the wait for it ended in an error other than a timeout. -/
structure Cautious (c : AssetClass) (n : UInt64) (es : Trace) : Prop where
  releases : Releases c n .unsent es
  unknown : ∀ {e}, fate es = .unknown e → (HandsBack es ↔ e.isTimeout = false)

/-- Paying out an asset is cautious. -/
lemma PayOutCourse.cautious {x : AssetPayout} {row a r} (h : PayOutCourse x p row a es r)
    (ofClass : x.assetClass = row.order.assetClass) :
    Cautious row.order.assetClass row.order.tokenId es := by
  cases h with
  | @failed fs e m gs course failure =>
    rw [ofClass] at failure
    obtain ⟨still, known⟩ := course.fate
    -- What is known after the hand-out decides, and the failure adds nothing to it.
    obtain ⟨releases, after, back⟩ := failure.releases (f := .ofResult (.error e))
      (fun allowed => by rw [Fate.allowsRelease_ofResult]; simpa using allowed)
    have fate_eq : fate (fs ++ ⟨.note m, ()⟩ :: gs) = .ofResult (.error e) := by
      rw [fate, Fate.after_append, ← fate, known]
      exact after
    refine ⟨?_, ?_⟩
    · rw [releases_append, ← fate, known]
      exact ⟨releases_of_not_handsBack still, nofun, releases⟩
    · intro err h
      rw [fate_eq] at h
      have allows := Fate.allowsRelease_ofResult e
      rw [h] at allows
      rw [handsBack_append, handsBack_cons, back, Bool.true_and, ← allows]
      simp [still, Request.isRelease, Fate.allowsRelease]
  | @unrecorded fs confirmed e m course =>
    obtain ⟨still, known⟩ := course.fate
    refine ⟨releases_of_not_handsBack (by simp [still, Request.isRelease]), ?_⟩
    intro err h
    rw [fate, Fate.after_append, ← fate, known] at h
    cases h
  | @recorded fs confirmed m course =>
    obtain ⟨still, known⟩ := course.fate
    refine ⟨releases_of_not_handsBack (by simp [still, Request.isRelease]), ?_⟩
    intro err h
    rw [fate, Fate.after_append, ← fate, known] at h
    cases h

/-- Nothing is known of a transaction where nothing was learnt. -/
lemma Cautious.of_unsent {es : Trace} (releases : Releases c n .unsent es)
    (known : fate es = .unsent) :
    Cautious c n es := by
  refine ⟨releases, ?_⟩
  intro e h
  rw [known] at h
  cases h

/-- Settling an asset row that was taken up is cautious. -/
lemma AssetCourse.cautious {row r} (h : AssetCourse s row es r) :
    Cautious row.order.assetClass row.order.tokenId es := by
  cases h with
  | unconfigured _ failure =>
    obtain ⟨releases, known, _⟩ := failure.releases (f := .unsent) fun _ => rfl
    exact .of_unsent ⟨nofun, releases⟩ known
  | unloaded _ failure =>
    obtain ⟨releases, known, _⟩ := failure.releases (f := .unsent) nofun
    exact .of_unsent ⟨nofun, nofun, releases⟩ known
  | paidOut set course =>
    obtain ⟨releases, unknown⟩ := course.cautious (s.assetClass_eq set)
    refine ⟨⟨nofun, releases⟩, ?_⟩
    intro e h
    rw [← unknown h]
    simp [Request.isRelease]

/-- Processing an asset row is cautious, whether it was granted or not. -/
lemma RowCourse.cautious {row : Withdrawal AssetOrder} {known r known'}
    (h : RowCourse s .asset row known es r known') :
    Cautious row.order.assetClass row.order.tokenId es := by
  cases h with
  | unclaimed => exact .of_unsent ⟨nofun, nofun, trivial⟩ rfl
  | refused => exact .of_unsent ⟨nofun, trivial⟩ rfl
  | asset course =>
    obtain ⟨releases, unknown⟩ := course.cautious
    refine ⟨⟨nofun, releases⟩, ?_⟩
    intro e h
    rw [← unknown h]
    simp [Request.isRelease]

end Courses

/-- **Assets are put back by what is known.** Whatever the ledger and the chain answer, processing a
row puts no asset back but its own, and only while no transaction is pending, after one that failed,
or after a wait that ended in an error other than a timeout. After such a wait the asset is put
back, although its transaction may still be included; after a timeout it is not. -/
theorem release_of_fate {s : Settler} {row : Withdrawal AssetOrder} {known es r}
    (h : (s.processRow .asset row known).Ends es r) :
    (∀ pre e post, es = pre ++ e :: post → e.request.isRelease = true →
      e.request = .ledger (.release row.order.assetClass row.order.tokenId) ∧
        (fate pre = .unsent ∨ fate pre = .reverted ∨
          ∃ err, fate pre = .unknown err ∧ err.isTimeout = false)) ∧
      ∀ err, fate es = .unknown err → (HandsBack es ↔ err.isTimeout = false) := by
  obtain ⟨releases, unknown⟩ := (processRow_course h).cautious
  refine ⟨?_, fun err known => unknown known⟩
  rintro pre e post rfl release
  obtain ⟨same, allowed⟩ := releases.at release
  refine ⟨same, ?_⟩
  change (fate pre).allowsRelease = true at allowed
  cases known : fate pre with
  | unsent => exact .inl rfl
  | reverted => exact .inr (.inl rfl)
  | unknown err =>
    rw [known] at allowed
    exact .inr (.inr ⟨err, rfl, by simpa [Fate.allowsRelease] using allowed⟩)
  | pending =>
    rw [known] at allowed
    cases allowed
  | confirmed =>
    rw [known] at allowed
    cases allowed

/-- Surroundings in which every wait loses its connection. -/
def losing : (r : Request) → r.Answer
  | .wait _ _ _ => .error (.confirmation "connection lost")
  | .ledger (.claim _ _) => .ok true
  | .ledger (.asset c n) => .ok ⟨c, n, "0xa", none, none, .withdrawing, none⟩
  | .ledger (.userByWallet _) => .ok none
  | r => obliging r

/-- A wait that loses its connection has the asset put back. -/
theorem release_of_lost_connection :
    let row : Withdrawal AssetOrder := .new "w" ⟨.part, 7⟩
    let path := (partsOnly.processRow .asset row fun _ => none).path losing
    fate path.1 = .unknown (.confirmation "connection lost") ∧ HandsBack path.1 := by
  intro row path
  have known : fate path.1 = .unknown (.confirmation "connection lost") := by decide
  have ends := ends_path losing (partsOnly.processRow .asset row fun _ => none)
  have back := (release_of_fate ends).2 (.confirmation "connection lost") known
  exact ⟨known, back.2 rfl⟩

/-- One worker, whose wait for the transaction of the one row loses its connection. -/
def lostTrack : Journal Unit Tables × System Unit :=
  (System.start (fun _ => partsOnly) (fun _ => 1) (rowsForOnePart ["w"])).turns losing noon
    (List.replicate 20 ())

/-- The asset is back in play although nothing is known of its transaction. -/
theorem inCustody_of_lost_connection :
    (System.start (fun _ => partsOnly) (fun _ => 1) (rowsForOnePart ["w"])).Runs
        lostTrack.1 lostTrack.2 ∧
      fate (Journal.own () lostTrack.1) = .unknown (.confirmation "connection lost") ∧
      ((rowsForOnePart ["w"]).asset? .part 7).map Asset.state = some .withdrawing ∧
      (lostTrack.2.ledger.tables.asset? .part 7).map Asset.state = some .inCustody :=
  ⟨System.runs_turns rfl, by decide, by decide, by decide⟩

end Settlement

end Payout
