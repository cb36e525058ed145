import Payout.Proofs.Schedule.Surroundings

/-!
# Shutdown

The wish to stop is seen between passes and nowhere else (`mindful_of_runs`). No pass starts while
the shutdown channel says to stop, a pass that has started comes to its end, and once nobody can ask
for shutdown any more two passes start at most. Nothing else ends a schedule, whatever its passes
come to.
-/

namespace Payout.Settlement.Schedule
open Rehearsal (Channel)

namespace Trace

variable {c : Channel} {hs : Trace} {h : Nat × Happening}

/-- A pass came to its end before the schedule did anything else. -/
def Completes (hs : Trace) : Prop :=
  ∃ during t result after, hs = during ++ (t, .finished result) :: after ∧
    ∀ h ∈ during, h.2.isOutside = true

/-- A pass that came to its end has done so whatever happens later. -/
lemma Completes.append {hs' : Trace} (completes : Completes hs) : Completes (hs ++ hs') := by
  obtain ⟨during, t, result, after, rfl, outside⟩ := completes
  exact ⟨during, t, result, after ++ hs', by simp, outside⟩

/-- The last thing that the schedule did was to see the wish to stop, or to find that nobody can ask
for it any more. -/
inductive Stops (c : Channel) : Trace → Prop where
  | asked {before t after} :
    (channel c before).value = true →
    (∀ h ∈ after, h.2.isOutside = true) →
    Stops c (before ++ (t, .looked true) :: after)
  | deserted {before t after} :
    (channel c before).hasSender = false →
    (channel c before).unread = false →
    (∀ h ∈ after, h.2.isOutside = true) →
    Stops c (before ++ (t, .woken .abandoned) :: after)

/-- A schedule that was stopped stays so while only its surroundings act. -/
lemma Stops.append {hs' : Trace} (stops : Stops c hs) (outside : ∀ h ∈ hs', h.2.isOutside = true) :
    Stops c (hs ++ hs') := by
  cases stops with
  | asked value all =>
    rw [List.append_assoc]
    exact .asked value (List.forall_mem_append.2 ⟨all, outside⟩)
  | deserted gone read all =>
    rw [List.append_assoc]
    exact .deserted gone read (List.forall_mem_append.2 ⟨all, outside⟩)

/-- A value stays as it is as long as no other is sent. -/
lemma value_of_not_mem (value : c.value = true) (other : ∀ t, (t, .sent false) ∉ hs) :
    (channel c hs).value = true := by
  induction hs generalizing c with
  | nil => exact value
  | cons h hs ih =>
    refine ih ?_ fun t mem => other t (List.mem_cons_of_mem _ mem)
    obtain ⟨t, h⟩ := h
    cases h with
    | sent value =>
      cases value with
      | true => rfl
      | false => exact absurd List.mem_cons_self (other t)
    | woken w => cases w <;> exact value
    | _ => exact value

/-- If any pass was started, one start is among what happened. -/
lemma exists_start (pos : 0 < starts hs) :
    ∃ before t after, hs = before ++ (t, .started) :: after := by
  obtain ⟨⟨t, h⟩, mem, isStart⟩ := List.countP_pos_iff.1 pos
  obtain ⟨before, after, split⟩ := List.append_of_mem mem
  cases h with
  | started => exact ⟨before, t, after, split⟩
  | _ => cases isStart

end Trace

namespace Point

/-- How many passes may yet start when nobody can send a value any more. -/
def more (unread : Bool) : Point → Nat
  | head _ | due _ | resting _ _ => 1 + unread.toNat
  | passing _ | settling _ => unread.toNat
  | ended _ => 0

/-- How many passes are left to make. -/
def left : Point → Nat
  | head left | due left => left + 1
  | passing left | settling left | resting left _ => left
  | ended _ => 0

/-- At no point more than one pass may start, and one more for a value that is unread. -/
lemma more_le (unread : Bool) (p : Point) : p.more unread ≤ 1 + unread.toNat := by
  cases p <;> simp [more]

/-- As many passes are left as the cycle is to make. -/
lemma left_cycle (n : Nat) : (cycle n).left = n := by
  cases n <;> rfl

/-- A cycle never begins at a schedule that was stopped. -/
lemma cycle_ne_ended (n : Nat) : cycle n ≠ ended true := by
  cases n <;> nofun

variable {p : Point} {n : Nat}

/-- Between passes an unread value allows for one start. -/
lemma Pauses.unread_le_more {unread} (pauses : p.Pauses n) : unread.toNat ≤ p.more unread := by
  obtain rfl | ⟨_, rfl⟩ := pauses <;> simp [more]

/-- Between passes as many are left as the pause says. -/
lemma Pauses.left_eq (pauses : p.Pauses n) : p.left = n := by
  obtain rfl | ⟨_, rfl⟩ := pauses <;> rfl

/-- Between passes none is under way. -/
lemma Pauses.not_passing (pauses : p.Pauses n) (m : Nat) : p ≠ passing m := by
  obtain rfl | ⟨_, rfl⟩ := pauses <;> nofun

/-- Between passes the schedule is not over. -/
lemma Pauses.not_ended (pauses : p.Pauses n) (stopped : Bool) : p ≠ ended stopped := by
  obtain rfl | ⟨_, rfl⟩ := pauses <;> nofun

end Point

namespace Place

variable {ms : Nat} {P Q R : Place} {hs : Trace}

/-- A step leads to the shutdown channel that what happened makes of it. -/
lemma Steps.channel_eq (step : Steps ms P hs Q) : Q.channel = Trace.channel P.channel hs := by
  cases step <;> rfl

/-- The shutdown channel at the end of a tour is what all that happened makes of it. -/
lemma Tour.channel_eq (tour : Tour ms P hs Q) : Q.channel = Trace.channel P.channel hs := by
  induction tour with
  | refl => rfl
  | step _ step ih => rw [Trace.channel_append, ← ih, step.channel_eq]

/-- Where a pass is due no wish to stop was seen. -/
def Cleared (P : Place) : Prop := ∀ left, P.point = .due left → P.channel.value = false

/-- Where a cycle begins no pass is due yet. -/
lemma cleared_cycle {clock c limit} : Cleared ⟨clock, c, .cycle limit⟩ := by
  intro left due
  cases limit <;> cases due

/-- A step leads to a pass that is due only if no wish to stop was seen. -/
lemma Steps.cleared (step : Steps ms P hs Q) : Q.Cleared := by
  intro left due
  cases step with
  | looked value => exact value
  | later isOpen => cases due; cases isOpen
  | sent isOpen => cases due; cases isOpen
  | abandoned isOpen => cases due; cases isOpen
  | @timeUp _ _ n => cases n <;> cases due
  | @signalled _ _ _ n => cases n <;> cases due
  | _ => cases due

/-- At the end of a tour a pass is due only if no wish to stop was seen, if it was so at the
start. -/
lemma Tour.cleared (cleared : P.Cleared) (tour : Tour ms P hs Q) : Q.Cleared := by
  cases tour with
  | refl => exact cleared
  | step _ step => exact step.cleared

/-- A start is made where a pass is due and no wish to stop was seen. -/
lemma Tour.value_of_started {before t after} (cleared : P.Cleared) (tour : Tour ms P hs Q)
    (split : hs = before ++ (t, .started) :: after) :
    (Trace.channel P.channel before).value = false := by
  obtain ⟨R, R', first, here, -⟩ := tour.split split
  rw [← first.channel_eq]
  cases here with
  | started => exact first.cleared cleared _ rfl

/-- From a pass on, it has come to its end, or it is still under way and the schedule has done
nothing else. -/
lemma Tour.completes {left} (passing : P.point = .passing left) (tour : Tour ms P hs Q) :
    Trace.Completes hs ∨ (∀ h ∈ hs, h.2.isOutside = true) ∧ Q.point = .passing left := by
  induction tour with
  | refl => exact .inr ⟨nofun, passing⟩
  | step _ step ih =>
    obtain completes | ⟨outside, under⟩ := ih
    · exact .inl completes.append
    · cases step with
      | later => exact .inr ⟨List.forall_mem_append.2 ⟨outside, nofun⟩, under⟩
      | sent =>
        exact .inr ⟨List.forall_mem_append.2 ⟨outside, List.forall_mem_singleton.2 rfl⟩, under⟩
      | abandoned =>
        exact .inr ⟨List.forall_mem_append.2 ⟨outside, List.forall_mem_singleton.2 rfl⟩, under⟩
      | finished => exact .inl ⟨_, _, _, [], rfl, outside⟩
      | signalled pauses => exact absurd under (pauses.not_passing _)
      | deserted pauses => exact absurd under (pauses.not_passing _)
      | _ => cases under

/-- Without a sender every start is one of those that may yet be made, and no value arrives. -/
lemma Steps.starts_le (gone : P.channel.hasSender = false) (step : Steps ms P hs Q) :
    Q.channel.hasSender = false ∧
      Trace.starts hs + Q.point.more Q.channel.unread ≤ P.point.more P.channel.unread := by
  cases step with
  | sent _ sender => cases sender.symm.trans gone
  | abandoned _ sender => cases sender.symm.trans gone
  | rested _ sender => cases sender.symm.trans gone
  | later => exact ⟨gone, by simp⟩
  | stopped => exact ⟨gone, by simp [Point.more]⟩
  | looked => exact ⟨gone, by simp [Point.more]⟩
  | started => exact ⟨gone, by simp [Point.more]⟩
  | finished => exact ⟨gone, by simp [Point.more]⟩
  | @timeUp _ c n =>
    refine ⟨gone, ?_⟩
    have next := Point.more_le c.unread (.cycle n)
    simpa [Point.more] using next
  | @signalled _ c p n pauses unread =>
    refine ⟨gone, ?_⟩
    have cycle := Point.more_le false (.cycle n)
    have rest : c.unread.toNat ≤ p.more c.unread := pauses.unread_le_more
    simp [Happening.on, unread] at cycle rest ⊢
    omega
  | deserted => exact ⟨gone, by simp [Point.more]⟩

/-- Once the sender is gone a tour starts no more passes than its first point allows for. -/
lemma Tour.starts_le (gone : P.channel.hasSender = false) (tour : Tour ms P hs Q) :
    Q.channel.hasSender = false ∧
      Trace.starts hs + Q.point.more Q.channel.unread ≤ P.point.more P.channel.unread := by
  induction tour with
  | refl => exact ⟨gone, by simp⟩
  | step _ step ih =>
    obtain ⟨gone', first⟩ := ih
    obtain ⟨gone'', second⟩ := step.starts_le gone'
    refine ⟨gone'', ?_⟩
    rw [Trace.starts_append]
    omega

/-- From where the sender is gone one pass may start, and one more if a value is unread. -/
lemma Tour.starts_after {before after} (tour : Tour ms P hs Q) (split : hs = before ++ after)
    (gone : (Trace.channel P.channel before).hasSender = false) :
    Trace.starts after ≤ 1 + (Trace.channel P.channel before).unread.toNat := by
  cases after with
  | nil => exact Nat.zero_le _
  | cons h after =>
    obtain ⟨R, R', first, here, second⟩ := tour.split split
    rw [← first.channel_eq] at gone ⊢
    obtain ⟨gone', now⟩ := here.starts_le gone
    obtain ⟨-, later⟩ := second.starts_le gone'
    have parts : Trace.starts ([h] ++ after) = Trace.starts [h] + Trace.starts after :=
      Trace.starts_append
    rw [List.singleton_append] at parts
    have most := Point.more_le R.channel.unread R.point
    omega

/-- Passes that are made are no longer left, unless the schedule was stopped. -/
lemma Steps.starts_add_left (step : Steps ms P hs Q) (going : Q.point ≠ .ended true) :
    P.point ≠ .ended true ∧ Trace.starts hs + Q.point.left = P.point.left := by
  cases step with
  | later => exact ⟨going, by simp⟩
  | sent => exact ⟨going, by simp⟩
  | abandoned => exact ⟨going, by simp⟩
  | stopped => exact absurd rfl going
  | deserted => exact absurd rfl going
  | signalled pauses =>
    exact ⟨pauses.not_ended true, by simp [Point.left_cycle, pauses.left_eq]⟩
  | @timeUp _ _ n _ => exact ⟨nofun, (Nat.zero_add _).trans (Point.left_cycle n)⟩
  | _ => exact ⟨nofun, by simp [Point.left, Nat.add_comm]⟩

/-- As long as it is not stopped, the passes made on a tour and those left are as many as were left
at first. -/
lemma Tour.starts_add_left (tour : Tour ms P hs Q) (going : Q.point ≠ .ended true) :
    Trace.starts hs + Q.point.left = P.point.left := by
  induction tour with
  | refl => simp [Trace.starts]
  | step _ step ih =>
    obtain ⟨going', last⟩ := step.starts_add_left going
    have earlier := ih going'
    rw [Trace.starts_append]
    omega

/-- A schedule that was stopped saw the wish, or found that nobody can ask. -/
lemma Tour.stops (going : P.point ≠ .ended true) (tour : Tour ms P hs Q)
    (stopped : Q.point = .ended true) :
    Trace.Stops P.channel hs := by
  induction tour with
  | refl => exact absurd stopped going
  | step tour step ih =>
    cases step with
    | later => exact (ih stopped).append nofun
    | sent => exact (ih stopped).append (List.forall_mem_singleton.2 rfl)
    | abandoned => exact (ih stopped).append (List.forall_mem_singleton.2 rfl)
    | stopped value => exact .asked (tour.channel_eq ▸ value) nofun
    | deserted _ read gone =>
      exact .deserted (tour.channel_eq ▸ gone) (tour.channel_eq ▸ read) nofun
    | @timeUp _ _ n => exact absurd stopped (Point.cycle_ne_ended n)
    | @signalled _ _ _ n => exact absurd stopped (Point.cycle_ne_ended n)
    | _ => cases stopped

end Place

/-- What a schedule keeps to that has come to some activity, with the shutdown channel as it was at
the start. -/
structure Mindful (limit : Nat) (c : Channel) (hs : Trace) (activity : Activity) : Prop where
  /-- A pass comes to its end before the schedule does anything else, so no two passes are under way
  at a time. -/
  completes : ∀ before t after, hs = before ++ (t, .started) :: after →
    Trace.Completes after ∨ (∀ h ∈ after, h.2.isOutside = true) ∧ ∃ next, activity = .passing next
  /-- No pass starts while the channel says to stop. -/
  heeds : ∀ before t after, hs = before ++ (t, .started) :: after →
    (Trace.channel c before).value = false
  /-- Once the channel says to stop, and no other value is sent, no pass starts. -/
  stays : ∀ before after, hs = before ++ after → (Trace.channel c before).value = true →
    (∀ t, (t, .sent false) ∉ after) → Trace.starts after = 0
  /-- Once the sender is gone one pass may start, and one more if a value is unread. -/
  few : ∀ before after, hs = before ++ after → (Trace.channel c before).hasSender = false →
    Trace.starts after ≤ if (Trace.channel c before).unread then 2 else 1
  /-- The schedule is over if it was stopped, or if it was to make no more passes. -/
  ends : ∀ stopped, activity = .acting (.done stopped) →
    if stopped then Trace.Stops c hs else Trace.starts hs = limit

section Runs

variable {ms limit clock : Nat} {c : Channel} {hs : Trace} {p : Point}
  {activity : Activity} {S : Situation}

/-- Where a pass is under way the schedule is passing. -/
lemma Point.Doing.passing_of {left} (doing : (Point.passing left).Doing ms activity) :
    ∃ next, activity = .passing next := by
  cases doing
  exact ⟨_, rfl⟩

/-- A schedule that is done is at its end. -/
lemma Point.Doing.ended_of {stopped} (doing : p.Doing ms (.acting (.done stopped))) :
    p = .ended stopped := by
  cases doing
  rfl

/-- **Shutdown is seen between passes.** In any surroundings that send values, drop the sender, make
passes last and end as they like and end rests in any way that is possible, a schedule with an
interval that is not zero is mindful. -/
theorem mindful_of_runs (positive : 0 < ms) (run : (Situation.start ms limit clock c).Runs hs S) :
    Mindful limit c hs S.activity := by
  obtain ⟨p, doing, tour⟩ := tour_of_runs positive run
  have heeds : ∀ before t after, hs = before ++ (t, .started) :: after →
      (Trace.channel c before).value = false :=
    fun before t after split => tour.value_of_started Place.cleared_cycle split
  have going : Point.cycle limit ≠ .ended true := Point.cycle_ne_ended limit
  constructor
  case completes =>
    intro before t after split
    obtain ⟨R, R', -, here, second⟩ := tour.split split
    cases here with
    | started =>
      obtain completes | ⟨outside, passing⟩ := second.completes rfl
      · exact .inl completes
      · dsimp only at passing
        subst passing
        exact .inr ⟨outside, doing.passing_of⟩
  case heeds => exact heeds
  case stays =>
    rintro before after rfl value other
    -- Had a pass started all the same, its look would have seen the wish to stop.
    refine Nat.eq_zero_of_not_pos fun some => ?_
    obtain ⟨during, t, rest, rfl⟩ := Trace.exists_start some
    have kept := Trace.value_of_not_mem value fun t mem => other t (List.mem_append_left _ mem)
    have seen := heeds (before ++ during) t rest (List.append_assoc ..).symm
    rw [Trace.channel_append, kept] at seen
    cases seen
  case few =>
    intro before after split gone
    have most := tour.starts_after split gone
    dsimp only at most
    split
    case isTrue unread =>
      rw [unread] at most
      exact most
    case isFalse read =>
      rw [eq_false_of_ne_true read] at most
      exact most
  case ends =>
    intro stopped ended
    rw [ended] at doing
    cases doing.ended_of
    cases stopped with
    | true => exact tour.stops going rfl
    | false =>
      have count := tour.starts_add_left nofun
      rw [Point.left_cycle] at count
      exact count

end Runs

/-- The sender goes away just as an interval is over and a value is unread: two more passes
start. -/
def desertion : Trace :=
  [(0, .looked false), (0, .started), (2, .finished (.ok ⟨0, 0, 0⟩)), (12, .sent false),
    (12, .abandoned), (12, .woken .timeUp), (12, .looked false), (12, .started),
    (15, .finished (.error (.ledger (.backend "disk full")))), (15, .woken .signalled),
    (15, .looked false), (15, .started), (16, .finished (.ok ⟨0, 0, 0⟩)), (16, .woken .abandoned)]

/-- The run in which the sender goes away, with all that a schedule keeps to in it. -/
theorem mindful_of_desertion :
    ∃ S, 0 < 10 ∧ (Situation.start 10 5 0 ⟨false, false, true⟩).Runs desertion S ∧
      S.activity = .acting (.done true) ∧ Mindful 5 ⟨false, false, true⟩ desertion S.activity := by
  have follows : (Situation.start 10 5 0 ⟨false, false, true⟩).follow?
      [.act, .act, .act, .later 2, .finish (.ok ⟨0, 0, 0⟩), .act, .later 12, .sent false,
        .abandoned, .wake .timeUp, .act, .act, .later 15,
        .finish (.error (.ledger (.backend "disk full"))), .act, .wake .signalled, .act, .act,
        .later 16, .finish (.ok ⟨0, 0, 0⟩), .wake .abandoned, .act] =
      some (desertion, ⟨16, ⟨false, false, false⟩, .acting (.done true)⟩) := rfl
  have run := Situation.runs_of_follow? follows
  exact ⟨_, by decide, run, rfl, mindful_of_runs (by decide) run⟩

end Payout.Settlement.Schedule
