import Mathlib.Logic.Relation
import Payout.Proofs.Ledger.Answers

/-!
# Transitions of rows

How far a row may come under any requests. One exchange takes a row up that is unprocessed, or
writes an outcome to a row that is in progress, or leaves it as it is (`Changes`); a write to any
other row is refused. Where an outcome leads is not looked at: as long as every outcome that was
written is pending or an error, rows take the steps of `WithdrawalState.Step` and no others, and a
row is granted once (`transitions_of_run`). An outcome that says unprocessed is written too, and
sets the row free to be granted again (`granted_after_reset`).
-/

namespace Payout

/-- The steps that a withdrawal may take. -/
inductive WithdrawalState.Step : WithdrawalState → WithdrawalState → Prop where
  | taken :
    Step .unprocessed .inProgress
  | settled :
    Step .inProgress .pending
  | failed :
    Step .inProgress .error

/-- Nothing more is to happen to a withdrawal. -/
def WithdrawalState.IsFinal (x : WithdrawalState) : Prop := x = .pending ∨ x = .error

namespace WithdrawalState

variable {x y : WithdrawalState}

/-- From in progress a row may come to either final state. -/
lemma Step.of_isFinal (final : y.IsFinal) : Step .inProgress y := by
  obtain rfl | rfl := final
  · exact .settled
  · exact .failed

/-- A final state is not that of a free row. -/
lemma IsFinal.ne_unprocessed (final : x.IsFinal) : x ≠ .unprocessed := by
  rintro rfl
  obtain h | h := final <;> cases h

/-- A final state is not that of a row in progress. -/
lemma IsFinal.ne_inProgress (final : x.IsFinal) : x ≠ .inProgress := by
  rintro rfl
  obtain h | h := final <;> cases h

/-- No step leads back to the start. -/
lemma eq_of_steps_unprocessed (steps : Relation.ReflTransGen Step x .unprocessed) :
    x = .unprocessed := by
  cases steps with
  | refl => rfl
  | tail _ step => cases step

end WithdrawalState

namespace Ledger
open WithdrawalState

/-- What one exchange may make of a row. -/
inductive Changes {k : Kind} :
    Exchange interface → Withdrawal k.Order → Withdrawal k.Order → Prop where
  | kept {e w} :
    Changes e w w
  | taken {now w} :
    w.state = .unprocessed →
    Changes ⟨.claim k w.id, .ok true⟩ w (w.claimed now)
  | written {now o w} :
    w.state = .inProgress →
    Changes ⟨.update k w.id o, .ok ()⟩ w (w.updated now o)

/-- One exchange, and all that it may do to the rows. -/
structure Transition (t : Tables) (e : Exchange interface) (t' : Tables) : Prop where
  length_eq : ∀ k, (t'.rows k).length = (t.rows k).length
  rows : ∀ {k : Kind} {i : ℕ} {w : Withdrawal k.Order}, (t.rows k)[i]? = some w →
    ∃ w', (t'.rows k)[i]? = some w' ∧ Changes e w w'
  /-- A row that was taken up is not granted. -/
  denied : ∀ {k id} {a : Except LedgerError Bool} {row}, e = ⟨.claim k id, a⟩ →
    t.row? k id = some row → row.state ≠ .unprocessed → a = .ok false ∧ t' = t
  /-- To a row that is not in progress nothing is written. -/
  refused : ∀ {k id o} {a : Except LedgerError Unit} {row}, e = ⟨.update k id o, a⟩ →
    t.row? k id = some row → row.state ≠ .inProgress →
      a = .error (.invalidTransition id row.state o.state) ∧ t' = t
  /-- To a row that is in progress every outcome is written, whatever state it says. -/
  accepted : ∀ {k id o} {a : Except LedgerError Unit} {row}, e = ⟨.update k id o, a⟩ →
    t.row? k id = some row → row.state = .inProgress →
      a = .ok () ∧ ∃ now, t'.row? k id = some (row.updated now o)

section Steps

variable {t t' : Tables} {k k' : Kind} {id : String} {now : Instant} {i : ℕ}
  {w : Withdrawal k.Order}

/-- When a row is changed, each place holds the row it held, or the changed one where that is the
first of its id. -/
lemma row_of_modifyRow {f : Withdrawal k.Order → Withdrawal k.Order}
    (at_ : (t.rows k)[i]? = some w) :
    ((t.modifyRow k id f).rows k)[i]? = some w ∨
      t.row? k id = some w ∧ ((t.modifyRow k id f).rows k)[i]? = some (f w) := by
  unfold Tables.modifyRow
  rw [Tables.rows_setRows_self, getElem?_modifyFirst, at_]
  -- Only the first row of an id is looked up and modified.
  by_cases first : (t.rows k).findIdx (·.id = id) = i
  · right
    rw [Tables.row?, List.find?_eq_getElem?_findIdx, first]
    exact ⟨at_, by simp⟩
  · left
    simp [first]

/-- A change in one table leaves the rows of the other. -/
lemma rows_modifyRow_of_ne {f : Withdrawal k'.Order → Withdrawal k'.Order} (other : k ≠ k') :
    (t.modifyRow k' id f).rows k = t.rows k :=
  Tables.rows_setRows_of_ne other _

/-- A change of a row keeps the length of every table. -/
lemma length_modifyRow {f : Withdrawal k'.Order → Withdrawal k'.Order} :
    ((t.modifyRow k' id f).rows k).length = (t.rows k).length := by
  by_cases same : k = k'
  · subst same
    rw [Tables.modifyRow, Tables.rows_setRows_self, length_modifyFirst]
  · rw [rows_modifyRow_of_ne same]

/-- If an exchange modifies the first row of an id, that row is all that changes. -/
lemma changes_of_modifyRow {e} {f : Withdrawal k'.Order → Withdrawal k'.Order}
    (changes : ∀ row, t.row? k' id = some row → Changes e row (f row))
    (at_ : (t.rows k)[i]? = some w) :
    ∃ w', ((t.modifyRow k' id f).rows k)[i]? = some w' ∧ Changes e w w' := by
  by_cases same : k = k'
  · subst same
    obtain at_' | ⟨first, at_'⟩ := row_of_modifyRow at_
    · exact ⟨w, at_', .kept⟩
    · exact ⟨f w, at_', changes w first⟩
  · rw [rows_modifyRow_of_ne same]
    exact ⟨w, at_, .kept⟩

/-- What an exchange makes of the tables makes of each row one of the changes that `Changes`
lists. -/
lemma changes_of_turn {e} (turn : t.Turn now e t') (at_ : (t.rows k)[i]? = some w) :
    ∃ w', (t'.rows k)[i]? = some w' ∧ Changes e w w' := by
  cases turn with
  | kept => exact ⟨w, at_, .kept⟩
  | claimed first free =>
    refine changes_of_modifyRow (fun row row_ => ?_) at_
    cases first.symm.trans row_
    cases Tables.row?_eq_some_id first
    exact .taken free
  | updated first open_ =>
    refine changes_of_modifyRow (fun row row_ => ?_) at_
    cases first.symm.trans row_
    cases Tables.row?_eq_some_id first
    exact .written open_
  | released _ => cases k <;> exact ⟨w, at_, .kept⟩

/-- An exchange keeps the length of every table. -/
lemma length_of_turn {e} (turn : t.Turn now e t') : (t'.rows k).length = (t.rows k).length := by
  cases turn with
  | kept => rfl
  | claimed => exact length_modifyRow
  | updated => exact length_modifyRow
  | released => cases k <;> rfl

/-- What a request may do to the rows of the tables that answer it. -/
lemma transition_of_reply {r a} (reply : t.reply now r = (a, t')) : Transition t ⟨r, a⟩ t' where
  length_eq _ := length_of_turn (Tables.turn_of_reply reply)
  rows := changes_of_turn (Tables.turn_of_reply reply)
  denied := by
    rintro k id a row ⟨⟩ first taken
    cases reply.symm.trans (Tables.reply_claim_of_taken first taken)
    exact ⟨rfl, rfl⟩
  refused := by
    rintro k id o a row ⟨⟩ first closed
    cases reply.symm.trans (Tables.reply_update_of_closed first closed)
    exact ⟨rfl, rfl⟩
  accepted := by
    rintro k id o a row ⟨⟩ first open_
    cases reply.symm.trans (Tables.reply_update first open_)
    refine ⟨rfl, now, ?_⟩
    rw [Tables.row?_modifyRow_self (f := (·.updated now o)) (fun _ => rfl), first]
    rfl

end Steps

/-- An exchange that writes no outcome, or one of a withdrawal to which nothing more is to
happen. -/
def Closing (e : Exchange interface) : Prop :=
  ∀ k id o, e = ⟨.update k id o, .ok ()⟩ → o.state.IsFinal

section Runs

variable {t t' : Tables} {es : List (Exchange interface)} {k : Kind} {i : ℕ}

/-- If only final outcomes are written, one exchange takes a row along the steps that are
allowed. -/
lemma Changes.steps {e} {w w' : Withdrawal k.Order} (h : Changes e w w') (closing : Closing e) :
    Relation.ReflTransGen Step w.state w'.state := by
  cases h with
  | kept => exact .refl
  | taken free =>
    rw [free]
    exact .single .taken
  | written open_ =>
    rw [open_]
    exact .single (.of_isFinal (closing _ _ _ rfl))

/-- Whatever is asked, a row stays at its place and comes on by steps. -/
lemma Alone.steps (run : Alone t es t') (closing : ∀ e ∈ es, Closing e) {w : Withdrawal k.Order}
    (at_ : (t.rows k)[i]? = some w) :
    ∃ w', (t'.rows k)[i]? = some w' ∧ Relation.ReflTransGen Step w.state w'.state := by
  induction run with
  | nil => exact ⟨w, at_, .refl⟩
  | snoc _ reply ih =>
    obtain ⟨w₁, at₁, before⟩ := ih fun e he => closing e (List.mem_append_left _ he)
    obtain ⟨w₂, at₂, change⟩ := (transition_of_reply reply).rows at₁
    exact ⟨w₂, at₂, before.trans
      (change.steps (closing _ (List.mem_append_right _ List.mem_cons_self)))⟩

/-- A row at its end is neither taken up nor written to. -/
lemma Alone.kept_of_isFinal (run : Alone t es t') {w : Withdrawal k.Order} (final : w.state.IsFinal)
    (at_ : (t.rows k)[i]? = some w) : (t'.rows k)[i]? = some w := by
  induction run with
  | nil => exact at_
  | snoc _ reply ih =>
    obtain ⟨w', at', change⟩ := (transition_of_reply reply).rows ih
    cases change with
    | kept => exact at'
    | taken free => exact absurd free final.ne_unprocessed
    | written open_ => exact absurd open_ final.ne_inProgress

/-- Each exchange of a run is one transition between the tables before and after it. -/
lemma Alone.transition {pre post : List (Exchange interface)} {e}
    (run : Alone t (pre ++ e :: post) t') :
    ∃ t₁ t₂, Alone t pre t₁ ∧ Alone t₂ post t' ∧ Transition t₁ e t₂ := by
  rw [List.append_cons] at run
  obtain ⟨t₂, upTo, after⟩ := alone_append.1 run
  obtain ⟨t₁, now, before, reply⟩ := alone_snoc upTo
  exact ⟨t₁, t₂, before, after, transition_of_reply reply⟩

end Runs

/-- **Transitions of rows.** A ledger is asked anything in any order. By each exchange a row is
taken up that was unprocessed, or a row that is in progress gets the outcome that was sent, or the
rows stay as they are: a row that was taken up is not granted, and an outcome for a row that is not
in progress is refused as an invalid transition. A row that is pending or an error stays what it is.
If all outcomes that were written are of this kind, rows come on by the steps that a withdrawal may
take and none is unprocessed again; and if none of them says unprocessed, a row is granted once. -/
theorem transitions_of_run {t t' : Tables} {es : List (Exchange interface)} (run : Alone t es t') :
    (∀ pre e post, es = pre ++ e :: post →
      ∃ t₁ t₂, Alone t pre t₁ ∧ Alone t₂ post t' ∧ Transition t₁ e t₂) ∧
    (∀ (k : Kind) (i : ℕ) (w : Withdrawal k.Order), (t.rows k)[i]? = some w → w.state.IsFinal →
      (t'.rows k)[i]? = some w) ∧
    ((∀ e ∈ es, Closing e) →
      ∀ (k : Kind) (i : ℕ) (w : Withdrawal k.Order), (t.rows k)[i]? = some w →
        ∃ w', (t'.rows k)[i]? = some w' ∧ Relation.ReflTransGen Step w.state w'.state ∧
          (w'.state = .unprocessed → w.state = .unprocessed)) ∧
    ((∀ e ∈ es, e.answer.isOk = true → e.request.Settles) →
      ∀ k id, es.countP (isGranted k id) ≤ 1) := by
  refine ⟨?_, fun k i w at_ final => run.kept_of_isFinal final at_, fun closing k i w at_ => ?_,
    fun settles k id => (run.granted_le_one settles).1⟩
  · rintro pre e post rfl
    exact run.transition
  · obtain ⟨w', at', steps⟩ := run.steps closing at_
    refine ⟨w', at', steps, fun free => ?_⟩
    rw [free] at steps
    exact eq_of_steps_unprocessed steps

/-- The row is taken up. -/
def takenUp : Tables := (oneRow.reply midnight (.claim .asset "w")).2

/-- What a row was taken up for has failed, which is the end of it. -/
def failedOnce : List (Exchange interface) :=
  [⟨.claim .asset "w", .ok true⟩, ⟨.update .asset "w" (.failed "reverted"), .ok ()⟩,
    ⟨.claim .asset "w", .ok false⟩]

/-- The outcome that is written to the row says that it is unprocessed. -/
def setFree : Tables := (takenUp.reply midnight (.update .asset "w" .fresh)).2

/-- A row is taken up, set free by an outcome, and taken up again. -/
def grantedTwice : List (Exchange interface) :=
  [⟨.claim .asset "w", .ok true⟩, ⟨.update .asset "w" .fresh, .ok ()⟩,
    ⟨.claim .asset "w", .ok true⟩]

/-- A run goes on with one more request whose answer is known. -/
lemma Alone.asked {t t' : Tables} {es : List (Exchange interface)} {r a}
    (run : Alone t es t') (now : Instant)
    (answered : (t'.reply now r).1 = a) : Alone t (es ++ [⟨r, a⟩]) (t'.reply now r).2 := by
  subst answered
  exact run.snoc rfl

/-- The claim that comes first is granted. -/
lemma alone_takenUp : Alone oneRow (grantedTwice.take 1) takenUp := .asked .nil midnight rfl

/-- These exchanges are those of a ledger that starts with one row. -/
lemma alone_failedOnce : ∃ t, Alone oneRow failedOnce t := by
  have failed : Alone oneRow (failedOnce.take 2) _ := alone_takenUp.asked midnight rfl
  exact ⟨_, failed.asked midnight rfl⟩

/-- The only outcome among them is final. -/
lemma closing_failedOnce : ∀ e ∈ failedOnce, Closing e := by
  simp only [failedOnce, List.forall_mem_cons]
  refine ⟨?_, ?_, ?_, List.forall_mem_nil _⟩ <;> rintro k id o ⟨⟩
  exact .inr rfl

/-- None of them sets a row free. -/
lemma settles_failedOnce : ∀ e ∈ failedOnce, e.answer.isOk = true → e.request.Settles := by
  simp only [failedOnce, List.forall_mem_cons]
  exact ⟨fun _ => trivial, fun _ => nofun, fun _ => trivial, List.forall_mem_nil _⟩

/-- The row comes to an error by allowed steps, and was granted once. -/
theorem transitions_of_run_failedOnce :
    ∃ t, Alone oneRow failedOnce t ∧
      (∃ w, (t.rows .asset)[0]? = some w ∧ Relation.ReflTransGen Step .unprocessed w.state) ∧
      failedOnce.countP (isGranted .asset "w") ≤ 1 := by
  obtain ⟨t, run⟩ := alone_failedOnce
  obtain ⟨-, -, steps, once⟩ := transitions_of_run run
  obtain ⟨w, at_, came, -⟩ := steps closing_failedOnce .asset 0 _ rfl
  exact ⟨t, run, ⟨w, at_, came⟩, once settles_failedOnce .asset "w"⟩

/-- A row that was taken up is unprocessed again, and is granted a second time, once an outcome is
written to it that says so. -/
theorem granted_after_reset :
    Alone oneRow (grantedTwice.take 1) takenUp ∧ Alone oneRow (grantedTwice.take 2) setFree ∧
      (∃ t, Alone oneRow grantedTwice t) ∧
      (takenUp.row? .asset "w").map (·.state) = some .inProgress ∧
      (setFree.row? .asset "w").map (·.state) = some .unprocessed ∧
      grantedTwice.countP (isGranted .asset "w") = 2 := by
  have reset : Alone oneRow (grantedTwice.take 2) setFree := alone_takenUp.asked midnight rfl
  exact ⟨alone_takenUp, reset, ⟨_, reset.asked midnight rfl⟩, rfl, rfl, by decide⟩

end Ledger

end Payout
