import Payout.Proofs.Schedule.Shutdown

/-!
# The pace of the schedule

Between the end of a pass and the next start lies one interval, unless a value on the shutdown
channel ended the rest (`pace_of_runs`). Such a value need not ask for shutdown: one that does not
makes the schedule go on at once (`started_early`).
-/

namespace Payout.Settlement.Schedule
open Rehearsal (Channel)

namespace Trace

variable {c : Channel} {hs : Trace}

/-- A value that was unread ended a rest. -/
def Roused (c : Channel) (hs : Trace) : Prop :=
  ∃ before t after, hs = before ++ (t, .woken .signalled) :: after ∧
    (channel c before).unread = true

/-- A rest that was ended stays so whatever happens later. -/
lemma Roused.append {hs' : Trace} (roused : Roused c hs) : Roused c (hs ++ hs') := by
  obtain ⟨before, t, after, rfl, unread⟩ := roused
  exact ⟨before, t, after ++ hs', by simp, unread⟩

/-- Where no value but the wish to stop is ever sent, an unread value is that wish. -/
lemma value_of_unread (asks : c.unread = true → c.value = true) (only : ∀ t, (t, .sent false) ∉ hs)
    (unread : (channel c hs).unread = true) : (channel c hs).value = true := by
  induction hs generalizing c with
  | nil => exact asks unread
  | cons h hs ih =>
    refine ih ?_ (fun t mem => only t (List.mem_cons_of_mem _ mem)) unread
    obtain ⟨t, h⟩ := h
    cases h with
    | sent value =>
      cases value with
      | true => exact fun _ => rfl
      | false => exact absurd List.mem_cons_self (only t)
    | woken w =>
      cases w with
      | signalled => exact nofun
      | _ => exact asks
    | _ => exact asks

end Trace

namespace Place

variable {ms t₁ clock left : Nat} {c : Channel} {P Q : Place} {hs : Trace}

/-- What is known of the time, until the next start, since a pass came to its end. -/
def Paced (ms t₁ : Nat) (c : Channel) (hs : Trace) (P : Place) : Prop :=
  match P.point with
  | .settling _ => t₁ ≤ P.clock
  | .resting _ deadline => t₁ + ms ≤ deadline
  | .head _ | .due _ => t₁ + ms ≤ P.clock ∨ Trace.Roused c hs
  | .passing _ => 0 < Trace.starts hs
  | .ended _ => True

/-- A new cycle is paced if the interval is over or a rest was ended. -/
lemma paced_cycle {n : Nat} (late : t₁ + ms ≤ clock ∨ Trace.Roused c hs) {c' : Channel} :
    Paced ms t₁ c hs ⟨clock, c', .cycle n⟩ := by
  cases n with
  | zero => exact trivial
  | succ n => exact late

/-- Time and what is done outside do no harm. -/
lemma Paced.later {hs' : Trace} {c' c'' : Channel} {p : Point} {clock' : Nat}
    (after : clock ≤ clock')
    (paced : Paced ms t₁ c hs ⟨clock, c', p⟩) : Paced ms t₁ c (hs ++ hs') ⟨clock', c'', p⟩ := by
  cases p with
  | settling => exact Nat.le_trans paced after
  | resting => exact paced
  | head =>
    obtain late | roused := paced
    · exact .inl (Nat.le_trans late after)
    · exact .inr roused.append
  | due =>
    obtain late | roused := paced
    · exact .inl (Nat.le_trans late after)
    · exact .inr roused.append
  | passing =>
    dsimp only [Paced] at paced ⊢
    rw [Trace.starts_append]
    omega
  | ended => exact trivial

/-- On the way to the next start every place is paced. -/
lemma Tour.paced (start : Paced ms t₁ P.channel [] P) (tour : Tour ms P hs Q)
    (still : Trace.starts hs = 0) :
    Paced ms t₁ P.channel hs Q := by
  induction tour with
  | refl => exact start
  | @step hs Q _ _ tour step ih =>
    rw [Trace.starts_append] at still
    have paced := ih (by omega)
    cases step with
    | later _ after => exact paced.later after
    | sent => exact paced.later (Nat.le_refl _)
    | abandoned => exact paced.later (Nat.le_refl _)
    | stopped => exact trivial
    | deserted => exact trivial
    | @looked clock c left =>
      have kept : Paced ms t₁ P.channel (hs ++ [(clock, .looked false)]) ⟨clock, c, .head left⟩ :=
        paced.later (Nat.le_refl _)
      exact kept
    | started => simp at still
    | finished =>
      dsimp only [Paced] at paced
      omega
    | rested =>
      dsimp only [Paced] at paced ⊢
      omega
    | timeUp up =>
      dsimp only [Paced] at paced
      exact paced_cycle (.inl (Nat.le_trans paced up))
    | signalled _ unread =>
      have state := tour.channel_eq
      dsimp only at state
      rw [state] at unread
      exact paced_cycle (.inr ⟨hs, _, [], rfl, unread⟩)

end Place

/-- **An interval between passes.** From the end of a pass to the next start there is an interval,
or a value that was unread ended the rest and did not ask for shutdown. So where nothing but the
wish to stop is sent, there is an interval between any two passes. -/
theorem pace_of_runs {ms limit clock : Nat} {c : Channel} {hs : Trace} {S : Situation}
    (positive : 0 < ms)
    (run : (Situation.start ms limit clock c).Runs hs S) {before t₁ result between t₂ after}
    (split : hs = before ++ (t₁, .finished result) :: (between ++ (t₂, .started) :: after))
    (next : Trace.starts between = 0) :
    (t₁ + ms ≤ t₂ ∨
      Trace.Roused (Trace.channel c (before ++ [(t₁, .finished result)])) between ∧
        (Trace.channel c (before ++ [(t₁, .finished result)] ++ between)).value = false) ∧
      ((c.unread = true → c.value = true) → (∀ t, (t, .sent false) ∉ hs) → t₁ + ms ≤ t₂) := by
  obtain ⟨p, -, tour⟩ := tour_of_runs positive run
  obtain ⟨R, F, first, finish, rest⟩ := tour.split split
  obtain ⟨D, D', pause, start, -⟩ := rest.split rfl
  have state : F.channel = Trace.channel c (before ++ [(t₁, .finished result)]) :=
    (first.step finish).channel_eq
  have cleared : D.Cleared := pause.cleared finish.cleared
  have paced : D.Paced ms t₁ F.channel between := by
    refine pause.paced ?_ next
    cases finish with
    | finished => exact Nat.le_refl _
  have value : (Trace.channel c (before ++ [(t₁, .finished result)] ++ between)).value = false := by
    rw [Trace.channel_append, ← state, ← pause.channel_eq]
    cases start with
    | started => exact cleared _ rfl
  rw [state] at paced
  have late : t₁ + ms ≤ t₂ ∨
      Trace.Roused (Trace.channel c (before ++ [(t₁, .finished result)])) between := by
    cases start with
    | started => exact paced
  refine ⟨late.imp_right fun roused => ⟨roused, value⟩, fun asks only => ?_⟩
  obtain late | ⟨during, t, tail, rfl, unread⟩ := late
  · exact late
  -- The value that ended the rest asked for shutdown, and no other came before the look.
  · have whole : hs = (before ++ [(t₁, .finished result)] ++ during) ++
        ((t, .woken .signalled) :: tail ++ (t₂, .started) :: after) := by
      rw [split]
      simp
    rw [← Trace.channel_append] at unread
    have asked := Trace.value_of_unread asks
      (fun t mem => only t (whole ▸ List.mem_append_left _ mem)) unread
    have other : ∀ t', (t', .sent false) ∉ (t, Happening.woken .signalled) :: tail :=
      fun t mem => only t (whole ▸ List.mem_append_right _ (List.mem_append_left _ mem))
    rw [← List.append_assoc, Trace.channel_append, Trace.value_of_not_mem asked other] at value
    cases value

/-- Two passes, of which the second starts when the rest is over. -/
def quiet : Trace :=
  [(0, .looked false), (0, .started), (2, .finished (.ok ⟨0, 0, 0⟩)), (12, .woken .timeUp),
    (12, .looked false), (12, .started)]

/-- A schedule whose second pass starts ten milliseconds after the first came to its end. -/
theorem pace_of_quiet :
    ∃ S, 0 < 10 ∧ (Situation.start 10 2 0 ⟨false, false, true⟩).Runs quiet S ∧
      Trace.starts [(12, .woken .timeUp), (12, .looked false)] = 0 ∧ 2 + 10 ≤ 12 := by
  obtain ⟨S, follows⟩ : ∃ S, (Situation.start 10 2 0 ⟨false, false, true⟩).follow?
      [.act, .act, .act, .later 2, .finish (.ok ⟨0, 0, 0⟩), .act, .later 12,
        .wake .timeUp, .act, .act] =
      some (quiet, S) := ⟨_, rfl⟩
  have run := Situation.runs_of_follow? follows
  have split : quiet = [(0, .looked false), (0, .started)] ++ (2, .finished (.ok ⟨0, 0, 0⟩)) ::
      ([(12, .woken .timeUp), (12, .looked false)] ++ (12, .started) :: []) := rfl
  exact ⟨S, by decide, run, rfl, (pace_of_runs (by decide) run split rfl).2 nofun (by simp [quiet])⟩

/-- Two passes, of which the second starts as soon as a value is sent that does not ask for
shutdown. -/
def roused : Trace :=
  [(0, .looked false), (0, .started), (0, .finished (.ok ⟨0, 0, 0⟩)), (300, .sent false),
    (300, .woken .signalled), (300, .looked false), (300, .started)]

/-- There need not be an interval between passes. -/
theorem started_early :
    ¬ ∀ (ms limit clock : Nat) (c : Channel) (hs : Trace) (S : Situation), 0 < ms →
      (Situation.start ms limit clock c).Runs hs S →
      ∀ before t₁ result between t₂ after,
        hs = before ++ (t₁, .finished result) :: (between ++ (t₂, .started) :: after) →
        Trace.starts between = 0 → t₁ + ms ≤ t₂ := by
  intro all
  obtain ⟨S, follows⟩ : ∃ S, (Situation.start 1000 2 0 ⟨false, false, true⟩).follow?
      [.act, .act, .act, .finish (.ok ⟨0, 0, 0⟩), .act, .later 300, .sent false,
        .wake .signalled, .act, .act] =
      some (roused, S) := ⟨_, rfl⟩
  have split : roused = [(0, .looked false), (0, .started)] ++ (0, .finished (.ok ⟨0, 0, 0⟩)) ::
      ([(300, .sent false), (300, .woken .signalled), (300, .looked false)] ++
        (300, .started) :: []) := rfl
  have late :=
    all 1000 2 0 _ _ S (by decide) (Situation.runs_of_follow? follows) _ _ _ _ _ _ split rfl
  exact absurd late (by decide)

end Payout.Settlement.Schedule
