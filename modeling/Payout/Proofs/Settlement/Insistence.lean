import Payout.Proofs.Settlement.Courses

/-!
# Insistence

Trying again, exchange by exchange. Attempts that fail in a way that may pass are followed by a
pause each, and the first attempt that succeeds or fails for good is the last one; so is one that
fails in a way that may pass, if there is no time for a pause or no further attempt is left
(`Insists`). Every run of `retry` is of this kind (`retry_insists`), whatever the answers are.
-/

namespace Payout.Settlement
open Program

variable {ε α : Type}

/-- Failed attempts with the pause after each. What is asked in an attempt is given by its
result. -/
def retried (asks : Except ε α → Trace) (failures : List ε) : Trace :=
  failures.flatMap fun e => asks (.error e) ++ [⟨.pause, true⟩]

/-- All that is asked until an attempt is the last one, of which at most `further` follow the
first. -/
inductive Insists (isTransient : ε → Bool) (further : Nat) (asks : Except ε α → Trace) :
    Trace → Except ε α → Prop where
  /-- The last attempt succeeded, or it failed for good. -/
  | settled {failures r} :
    (∀ e ∈ failures, isTransient e = true) →
    failures.length ≤ further →
    (∀ e, r = .error e → isTransient e = false) →
    Insists isTransient further asks (retried asks failures ++ asks r) r
  /-- No further attempt was left. -/
  | exhausted {failures e} :
    (∀ e' ∈ failures, isTransient e' = true) →
    failures.length = further →
    isTransient e = true →
    Insists isTransient further asks (retried asks failures ++ asks (.error e)) (.error e)
  /-- There was no time for a pause. -/
  | gaveUp {failures e} :
    (∀ e' ∈ failures, isTransient e' = true) →
    failures.length < further →
    isTransient e = true →
    Insists isTransient further asks
      (retried asks failures ++ (asks (.error e) ++ [⟨.pause, false⟩])) (.error e)

variable {isTransient : ε → Bool} {further : Nat} {asks : Except ε α → Trace}
  {attempt : Step (Except ε α)} {es : Trace} {r : Except ε α} {e : ε}

/-- The first failure is asked and paused for before the others. -/
lemma retried_cons (failures : List ε) (rest : Trace) :
    retried asks (e :: failures) ++ rest =
      asks (.error e) ++ ⟨.pause, true⟩ :: (retried asks failures ++ rest) := by
  simp [retried]

/-- One more failed attempt before the others. -/
lemma Insists.again (h : Insists isTransient further asks es r) (transient : isTransient e = true) :
    Insists isTransient (further + 1) asks (asks (.error e) ++ ⟨.pause, true⟩ :: es) r := by
  cases h with
  | settled failed within settled =>
    rw [← retried_cons]
    exact .settled (List.forall_mem_cons.2 ⟨transient, failed⟩) (Nat.succ_le_succ within) settled
  | exhausted failed all last =>
    rw [← retried_cons]
    exact .exhausted (List.forall_mem_cons.2 ⟨transient, failed⟩) (congrArg Nat.succ all) last
  | gaveUp failed within last =>
    rw [← retried_cons]
    exact .gaveUp (List.forall_mem_cons.2 ⟨transient, failed⟩) (Nat.succ_lt_succ within) last

/-- Trying again goes this way, if an attempt asks what is given by its result. -/
lemma retry_insists (once : ∀ {es r}, attempt.Ends es r → es = asks r)
    (h : (retry isTransient attempt further).Ends es r) :
    Insists isTransient further asks es r := by
  induction further generalizing es with
  | zero =>
    cases once h
    show Insists isTransient 0 asks (retried asks [] ++ asks r) r
    by_cases passing : ∃ e, r = .error e ∧ isTransient e = true
    · obtain ⟨e, rfl, transient⟩ := passing
      exact .exhausted (List.forall_mem_nil _) rfl transient
    · refine .settled (List.forall_mem_nil _) (Nat.le_refl 0) fun e failed => ?_
      simpa using fun transient => passing ⟨e, failed, transient⟩
  | succ further ih =>
    obtain ⟨last, settled⟩ | ⟨es₁, e, first, transient, ⟨rfl, rfl⟩ | ⟨fs, rfl, rest⟩⟩ :=
      retry_cases h
    · cases once last
      show Insists isTransient (further + 1) asks (retried asks [] ++ asks r) r
      exact .settled (List.forall_mem_nil _) (Nat.zero_le _) settled
    · cases once first
      show Insists isTransient (further + 1) asks
        (retried asks [] ++ (asks (.error e) ++ [⟨.pause, false⟩])) (.error e)
      exact .gaveUp (List.forall_mem_nil _) (Nat.succ_pos further) transient
    · cases once first
      exact (ih rest).again transient

end Payout.Settlement
