import Mathlib.Tactic.Lemma
import Payout.Rehearsal.World
import Payout.Settlement.Schedule

/-!
# The schedule in its surroundings

While a schedule runs time passes, values are sent on the shutdown channel and its sender may go
away, at any moment but one: the look at the channel and the start of a pass are one step. Passes
take any time and end in anything, and a rest that could end in more than one way ends in either
(`Situation.Runs`).

What a schedule can be at and what leads on from there is said once, by `Steps`, and every run of
the schedule is a tour of such steps (`tour_of_runs`).
-/

namespace Payout.Settlement.Schedule
open Rehearsal (Channel)

/-- What happens while a schedule runs. -/
inductive Happening where
  /-- A value is sent on the shutdown channel. -/
  | sent (value : Bool)
  /-- The shutdown channel loses its sender. -/
  | abandoned
  /-- The value last sent is looked at. -/
  | looked (value : Bool)
  /-- A pass starts. -/
  | started
  /-- The pass ends. -/
  | finished (result : Except SettlementError Summary)
  /-- A rest ends. -/
  | woken (w : Waking)

namespace Happening

/-- It is done by the surroundings. -/
def isOutside : Happening → Bool
  | sent _ => true
  | abandoned => true
  | _ => false

def isStart : Happening → Bool
  | started => true
  | _ => false

attribute [simp] isOutside isStart

/-- The shutdown channel after something happened. A value is read by the rest that it ends. -/
def on (c : Channel) : Happening → Channel
  | sent value => { c with value := value, unread := true }
  | abandoned => { c with hasSender := false }
  | woken .signalled => { c with unread := false }
  | _ => c

end Happening

/-- What happened so far, each with its time. -/
abbrev Trace := List (Nat × Happening)

namespace Trace

/-- The shutdown channel after all that happened. -/
def channel (c : Channel) (hs : Trace) : Channel := hs.foldl (fun c h => h.2.on c) c

/-- The number of passes that were started. -/
def starts (hs : Trace) : Nat := hs.countP (·.2.isStart)

variable {c : Channel} {hs hs' : Trace} {h : Nat × Happening}

/-- What happens later acts on the channel that came of what happened before. -/
lemma channel_append : channel c (hs ++ hs') = channel (channel c hs) hs' := List.foldl_append

/-- Where nothing happened nothing was started. -/
@[simp] lemma starts_nil : starts [] = 0 := rfl

/-- One thing that happened counts if it is a start. -/
@[simp] lemma starts_singleton : starts [h] = h.2.isStart.toNat := by
  obtain ⟨t, h⟩ := h
  cases h <;> rfl

/-- The starts of two traces add up. -/
lemma starts_append : starts (hs ++ hs') = starts hs + starts hs' := List.countP_append

/-- A trace is cut at its last happening or before it. -/
lemma snoc_eq_append_cons {before after : Trace} {h' : Nat × Happening}
    (split : hs ++ [h] = before ++ h' :: after) :
    (before = hs ∧ h' = h ∧ after = []) ∨ ∃ rest, after = rest ++ [h] ∧
      hs = before ++ h' :: rest := by
  obtain rfl | ⟨rest, last, rfl⟩ := List.eq_nil_or_concat after
  · obtain ⟨rfl, lasts⟩ := List.append_inj' split rfl
    cases lasts
    exact .inl ⟨rfl, rfl, rfl⟩
  · rw [List.concat_eq_append, ← List.cons_append, ← List.append_assoc] at split
    obtain ⟨same, lasts⟩ := List.append_inj' split rfl
    cases lasts
    exact .inr ⟨rest, List.concat_eq_append, same⟩

end Trace

/-- What a schedule is doing. -/
inductive Activity where
  /-- It goes on without a pause. -/
  | acting (p : Program interface Bool)
  | passing (next : Except SettlementError Summary → Program interface Bool)
  /-- It rests until a time, or until something arrives on the shutdown channel. -/
  | resting (deadline : Nat) (next : Waking → Program interface Bool)

/-- Something may happen outside. Between the look at the shutdown channel and the start of a pass
nothing may. -/
def Activity.isOpen : Activity → Bool
  | .acting (.ask .pass _) => false
  | _ => true

/-- The time, the shutdown channel, and what the schedule is doing. -/
structure Situation where
  clock : Nat
  channel : Channel
  activity : Activity

/-- What can end a rest at some time. -/
inductive Ready (clock : Nat) (c : Channel) (deadline : Nat) : Waking → Prop where
  | timeUp :
    deadline ≤ clock →
    Ready clock c deadline .timeUp
  | signalled :
    c.unread = true →
    Ready clock c deadline .signalled
  | abandoned :
    c.unread = false →
    c.hasSender = false →
    Ready clock c deadline .abandoned

namespace Situation

/-- A schedule that is about to begin. -/
def start (intervalMs limit clock : Nat) (c : Channel) : Situation :=
  ⟨clock, c, .acting (run intervalMs limit)⟩

/-- One step of the schedule or of its surroundings, and what happens by it. -/
inductive Moves : Situation → Trace → Situation → Prop where
  | later {S clock} :
    S.activity.isOpen = true →
    S.clock ≤ clock →
    Moves S [] { S with clock := clock }
  | sent {S value} :
    S.activity.isOpen = true →
    S.channel.hasSender = true →
    Moves S [(S.clock, .sent value)] { S with channel := (Happening.sent value).on S.channel }
  | abandoned {S} :
    S.activity.isOpen = true →
    S.channel.hasSender = true →
    Moves S [(S.clock, .abandoned)] { S with channel := Happening.abandoned.on S.channel }
  | noted {clock c n next} :
    Moves ⟨clock, c, .acting (.ask (.note n) next)⟩ [] ⟨clock, c, .acting (next ())⟩
  | looked {clock c next} :
    Moves ⟨clock, c, .acting (.ask .shutdown next)⟩ [(clock, .looked c.value)]
      ⟨clock, c, .acting (next c.value)⟩
  | started {clock c next} :
    Moves ⟨clock, c, .acting (.ask .pass next)⟩ [(clock, .started)] ⟨clock, c, .passing next⟩
  | finished {clock c next result} :
    Moves ⟨clock, c, .passing next⟩ [(clock, .finished result)] ⟨clock, c, .acting (next result)⟩
  | rested {clock c ms next} :
    (∀ w, ¬ Ready clock c (clock + ms) w) →
    Moves ⟨clock, c, .acting (.ask (.rest ms) next)⟩ [] ⟨clock, c, .resting (clock + ms) next⟩
  | unrested {clock c ms next w} :
    Ready clock c (clock + ms) w →
    Moves ⟨clock, c, .acting (.ask (.rest ms) next)⟩ [(clock, .woken w)]
      ⟨clock, (Happening.woken w).on c, .acting (next w)⟩
  | woken {clock c deadline next w} :
    Ready clock c deadline w →
    Moves ⟨clock, c, .resting deadline next⟩ [(clock, .woken w)]
      ⟨clock, (Happening.woken w).on c, .acting (next w)⟩

/-- Any number of steps, with all that happens in order. -/
inductive Runs (S : Situation) : Trace → Situation → Prop where
  | refl :
    Runs S [] S
  | step {hs S' hs' S''} :
    Runs S hs S' →
    Moves S' hs' S'' →
    Runs S (hs ++ hs') S''

end Situation

section Continuations

/-- What follows a rest when some passes are left. -/
def afterRest (ms left : Nat) : Waking → Program interface Bool
  | .abandoned => .done true
  | _ => cycles ms left

/-- What follows a pass. -/
def afterPass (ms left : Nat) (result : Except SettlementError Summary) : Program interface Bool :=
  match notice? result with
  | none => .ask (.rest ms) (afterRest ms left)
  | some n => .ask (.note n) fun _ => .ask (.rest ms) (afterRest ms left)

/-- What follows a look at the shutdown channel. -/
def afterLook (ms left : Nat) : Bool → Program interface Bool
  | true => .done true
  | false => .ask .pass (afterPass ms left)

/-- What follows the last cycle. -/
def closing (stopped : Bool) : Program interface Bool :=
  if stopped then .ask (.note .scheduleStopped) fun _ => .done true else .done false

/-- Cycles begin with a look at the shutdown channel. -/
lemma cycles_succ (ms left : Nat) : cycles ms (left + 1) = .ask .shutdown (afterLook ms left) := by
  refine congrArg (Program.ask (I := interface) Request.shutdown) (funext fun b => ?_)
  cases b with
  | true => rfl
  | false =>
    refine congrArg (Program.ask (I := interface) Request.pass) (funext fun result => ?_)
    unfold afterPass
    dsimp only [Program.bind]
    cases notice? result with
    | none =>
      refine congrArg (Program.ask (I := interface) (Request.rest ms)) (funext fun w => ?_)
      cases w <;> rfl
    | some n =>
      refine congrArg (Program.ask (I := interface) (Request.note n)) (funext fun _ => ?_)
      refine congrArg (Program.ask (I := interface) (Request.rest ms)) (funext fun w => ?_)
      cases w <;> rfl

/-- A schedule notes that it has started, makes its cycles and closes. -/
lemma run_eq (ms limit : Nat) :
    run ms limit = .ask (.note (.scheduleStarted ms)) fun _ => (cycles ms limit).bind closing := by
  refine congrArg (Program.ask (I := interface) (Request.note _)) (funext fun _ => ?_)
  refine congrArg ((cycles ms limit).bind) (funext fun b => ?_)
  cases b <;> rfl

end Continuations

/-- Where a schedule is. -/
inductive Point where
  /-- Before the look at the shutdown channel, with one pass more to make than are left. -/
  | head (left : Nat)
  /-- Between the look and the pass. -/
  | due (left : Nat)
  | passing (left : Nat)
  /-- Between the pass and the rest. -/
  | settling (left : Nat)
  | resting (left deadline : Nat)
  | ended (stopped : Bool)

namespace Point

/-- Where the next cycle begins. -/
def cycle : Nat → Point
  | 0 => ended false
  | left + 1 => head left

/-- Something may happen outside. -/
def isOpen : Point → Bool
  | due _ => false
  | _ => true

/-- The schedule can be woken. -/
def Pauses (left : Nat) (p : Point) : Prop :=
  p = settling left ∨ ∃ deadline, p = resting left deadline

/-- What a schedule is doing that is at a point. -/
inductive Doing (ms : Nat) : Point → Activity → Prop where
  | opening {left n} :
    Doing ms (head left) (.acting
      (.ask (.note n) fun _ => .ask .shutdown fun b => (afterLook ms left b).bind closing))
  | head {left} :
    Doing ms (head left) (.acting (.ask .shutdown fun b => (afterLook ms left b).bind closing))
  | due {left} :
    Doing ms (due left) (.acting (.ask .pass fun r => (afterPass ms left r).bind closing))
  | passing {left} :
    Doing ms (passing left) (.passing fun r => (afterPass ms left r).bind closing)
  | reporting {left n} :
    Doing ms (settling left)
      (.acting (.ask (.note n) fun _ => .ask (.rest ms) fun w =>
        (afterRest ms left w).bind closing))
  | settling {left} :
    Doing ms (settling left) (.acting (.ask (.rest ms) fun w => (afterRest ms left w).bind closing))
  | resting {left deadline} :
    Doing ms (resting left deadline) (.resting deadline fun w => (afterRest ms left w).bind closing)
  | closing {stopped n} :
    Doing ms (ended stopped) (.acting (.ask (.note n) fun _ => .done stopped))
  | ended {stopped} :
    Doing ms (ended stopped) (.acting (.done stopped))

variable {ms left : Nat} {p : Point} {activity : Activity}

/-- A schedule that begins is where its first cycle begins. -/
lemma doing_start {limit} : Doing ms (cycle limit) (.acting (run ms limit)) := by
  rw [run_eq]
  cases limit with
  | zero => exact .closing
  | succ left =>
    rw [cycles_succ]
    exact .opening

/-- Cycles that are to be made are where the next one begins. -/
lemma doing_cycle : Doing ms (cycle left) (.acting ((cycles ms left).bind Schedule.closing)) := by
  cases left with
  | zero => exact .ended
  | succ left =>
    rw [cycles_succ]
    exact .head

/-- What follows a pass is done between the pass and the rest. -/
lemma doing_settling {result} :
    Doing ms (settling left) (.acting ((afterPass ms left result).bind Schedule.closing)) := by
  unfold afterPass
  cases notice? result with
  | none => exact .settling
  | some n => exact .reporting

/-- Where the surroundings may break in on what a schedule does, they may at the point it is at. -/
lemma Doing.isOpen (doing : Doing ms p activity) (isOpen : activity.isOpen = true) :
    p.isOpen = true := by
  cases doing with
  | due => cases isOpen
  | _ => rfl

end Point

/-- The time, the shutdown channel, and where the schedule is. -/
structure Place where
  clock : Nat
  channel : Channel
  point : Point

namespace Place

/-- What leads on from a place, and what happens by it. -/
inductive Steps (ms : Nat) : Place → Trace → Place → Prop where
  | later {clock c p clock'} :
    p.isOpen = true →
    clock ≤ clock' →
    Steps ms ⟨clock, c, p⟩ [] ⟨clock', c, p⟩
  | sent {clock c p value} :
    p.isOpen = true →
    c.hasSender = true →
    Steps ms ⟨clock, c, p⟩ [(clock, .sent value)] ⟨clock, (Happening.sent value).on c, p⟩
  | abandoned {clock c p} :
    p.isOpen = true →
    c.hasSender = true →
    Steps ms ⟨clock, c, p⟩ [(clock, .abandoned)] ⟨clock, Happening.abandoned.on c, p⟩
  | stopped {clock c left} :
    c.value = true →
    Steps ms ⟨clock, c, .head left⟩ [(clock, .looked true)] ⟨clock, c, .ended true⟩
  | looked {clock c left} :
    c.value = false →
    Steps ms ⟨clock, c, .head left⟩ [(clock, .looked false)] ⟨clock, c, .due left⟩
  | started {clock c left} :
    Steps ms ⟨clock, c, .due left⟩ [(clock, .started)] ⟨clock, c, .passing left⟩
  | finished {clock c left result} :
    Steps ms ⟨clock, c, .passing left⟩ [(clock, .finished result)] ⟨clock, c, .settling left⟩
  | rested {clock c left} :
    c.unread = false →
    c.hasSender = true →
    Steps ms ⟨clock, c, .settling left⟩ [] ⟨clock, c, .resting left (clock + ms)⟩
  | timeUp {clock c left deadline} :
    deadline ≤ clock →
    Steps ms ⟨clock, c, .resting left deadline⟩ [(clock, .woken .timeUp)] ⟨clock, c, .cycle left⟩
  | signalled {clock c p left} :
    p.Pauses left →
    c.unread = true →
    Steps ms ⟨clock, c, p⟩ [(clock, .woken .signalled)]
      ⟨clock, (Happening.woken .signalled).on c, .cycle left⟩
  | deserted {clock c p left} :
    p.Pauses left →
    c.unread = false →
    c.hasSender = false →
    Steps ms ⟨clock, c, p⟩ [(clock, .woken .abandoned)] ⟨clock, c, .ended true⟩

/-- The way from one place to another. -/
inductive Tour (ms : Nat) (P : Place) : Trace → Place → Prop where
  | refl :
    Tour ms P [] P
  | step {hs Q hs' R} :
    Tour ms P hs Q →
    Steps ms Q hs' R →
    Tour ms P (hs ++ hs') R

variable {ms : Nat} {P Q : Place} {hs : Trace}

/-- One thing happens by a step at most. -/
lemma Steps.eq_nil_or_singleton (step : Steps ms P hs Q) : hs = [] ∨ ∃ h, hs = [h] := by
  cases step with
  | later => exact .inl rfl
  | rested => exact .inl rfl
  | _ => exact .inr ⟨_, rfl⟩

/-- A tour can be cut where something happens. -/
lemma Tour.split {before after h} (tour : Tour ms P hs Q) (split : hs = before ++ h :: after) :
    ∃ R R', Tour ms P before R ∧ Steps ms R [h] R' ∧ Tour ms R' after Q := by
  induction tour generalizing after with
  | refl => simp at split
  | step tour step ih =>
    obtain rfl | ⟨h', rfl⟩ := step.eq_nil_or_singleton
    · rw [List.append_nil] at split
      obtain ⟨R, R', first, here, second⟩ := ih split
      have second := second.step step
      rw [List.append_nil] at second
      exact ⟨R, R', first, here, second⟩
    · obtain ⟨rfl, rfl, rfl⟩ | ⟨rest, rfl, earlier⟩ := Trace.snoc_eq_append_cons split
      · exact ⟨_, _, tour, step, .refl⟩
      · obtain ⟨R, R', first, here, second⟩ := ih earlier
        exact ⟨R, R', first, here, second.step step⟩

end Place

section Runs

variable {ms limit clock : Nat} {c : Channel} {hs σ : Trace} {p : Point} {S S' : Situation}

/-- A rest that is ended leads to the next cycle, or to the end. The time is only up where there was
a rest. -/
lemma exists_step_of_ready {left deadline w} (pauses : p.Pauses left)
    (rests : deadline ≤ clock → p = .resting left deadline) (ready : Ready clock c deadline w) :
    ∃ p', Point.Doing ms p' (.acting ((afterRest ms left w).bind closing)) ∧
      Place.Steps ms ⟨clock, c, p⟩ [(clock, .woken w)] ⟨clock, (Happening.woken w).on c, p'⟩ := by
  cases ready with
  | timeUp up =>
    cases rests up
    exact ⟨_, Point.doing_cycle, .timeUp up⟩
  | signalled unread => exact ⟨_, Point.doing_cycle, .signalled pauses unread⟩
  | abandoned read gone => exact ⟨_, .closing, .deserted pauses read gone⟩

/-- What a schedule does leads on from where it is. -/
lemma exists_step_of_moves (positive : 0 < ms) (doing : p.Doing ms S.activity)
    (move : S.Moves σ S') :
    ∃ p', p'.Doing ms S'.activity ∧
      Place.Steps ms ⟨S.clock, S.channel, p⟩ σ ⟨S'.clock, S'.channel, p'⟩ := by
  cases move with
  | later isOpen after => exact ⟨p, doing, .later (doing.isOpen isOpen) after⟩
  | sent isOpen sender => exact ⟨p, doing, .sent (doing.isOpen isOpen) sender⟩
  | abandoned isOpen sender => exact ⟨p, doing, .abandoned (doing.isOpen isOpen) sender⟩
  | noted =>
    cases doing with
    | opening => exact ⟨_, .head, .later rfl (Nat.le_refl _)⟩
    | reporting => exact ⟨_, .settling, .later rfl (Nat.le_refl _)⟩
    | closing => exact ⟨_, .ended, .later rfl (Nat.le_refl _)⟩
  | @looked clock c =>
    cases doing with
    | head =>
      cases value : c.value with
      | true => exact ⟨_, .closing, .stopped value⟩
      | false => exact ⟨_, .due, .looked value⟩
  | started =>
    cases doing with
    | due => exact ⟨_, .passing, .started⟩
  | finished =>
    cases doing with
    | passing => exact ⟨_, Point.doing_settling, .finished⟩
  | @rested clock c _ _ quiet =>
    cases doing with
    | settling =>
      -- The schedule comes to rest only where nothing is there to wake it.
      have read : c.unread = false := by
        cases unread : c.unread with
        | true => exact absurd (.signalled unread) (quiet _)
        | false => rfl
      have sender : c.hasSender = true := by
        cases sender : c.hasSender with
        | true => rfl
        | false => exact absurd (.abandoned read sender) (quiet _)
      exact ⟨_, .resting, .rested read sender⟩
  | unrested ready =>
    cases doing with
    | settling => exact exists_step_of_ready (.inl rfl) (fun up => by dsimp only at up; omega) ready
  | woken ready =>
    cases doing with
    | resting => exact exists_step_of_ready (.inr ⟨_, rfl⟩) (fun _ => rfl) ready

/-- Every run of the schedule is a tour. -/
theorem tour_of_runs (positive : 0 < ms) (run : (Situation.start ms limit clock c).Runs hs S) :
    ∃ p, p.Doing ms S.activity ∧
      Place.Tour ms ⟨clock, c, .cycle limit⟩ hs ⟨S.clock, S.channel, p⟩ := by
  induction run with
  | refl => exact ⟨_, Point.doing_start, .refl⟩
  | step _ move ih =>
    obtain ⟨p, doing, tour⟩ := ih
    obtain ⟨p', doing', step⟩ := exists_step_of_moves positive doing move
    exact ⟨p', doing', tour.step step⟩

end Runs

section Cues

/-- What is to happen next in a run. -/
inductive Cue where
  | later (clock : Nat)
  | sent (value : Bool)
  | abandoned
  /-- The schedule goes on by itself. -/
  | act
  | finish (result : Except SettlementError Summary)
  | wake (w : Waking)

instance (clock : Nat) (c : Channel) (deadline : Nat) :
    (w : Waking) → Decidable (Ready clock c deadline w)
  | .timeUp => decidable_of_iff (deadline ≤ clock) ⟨.timeUp, fun | .timeUp up => up⟩
  | .signalled => decidable_of_iff (c.unread = true) ⟨.signalled, fun | .signalled unread => unread⟩
  | .abandoned =>
    decidable_of_iff (c.unread = false ∧ c.hasSender = false)
      ⟨fun ⟨read, gone⟩ => .abandoned read gone, fun | .abandoned read gone => ⟨read, gone⟩⟩

namespace Situation

/-- The step that a cue asks for, if it is possible. -/
def step? : Cue → Situation → Option (Trace × Situation)
  | .later clock, S =>
    if S.activity.isOpen = true ∧ S.clock ≤ clock
      then some ([], { S with clock := clock }) else none
  | .sent value, S =>
    if S.activity.isOpen = true ∧ S.channel.hasSender = true then
      some ([(S.clock, .sent value)], { S with channel := (Happening.sent value).on S.channel })
    else none
  | .abandoned, S =>
    if S.activity.isOpen = true ∧ S.channel.hasSender = true then
      some ([(S.clock, .abandoned)], { S with channel := Happening.abandoned.on S.channel })
    else none
  | .act, ⟨clock, c, .acting (.ask (.note _) next)⟩ => some ([], ⟨clock, c, .acting (next ())⟩)
  | .act, ⟨clock, c, .acting (.ask .shutdown next)⟩ =>
    some ([(clock, .looked c.value)], ⟨clock, c, .acting (next c.value)⟩)
  | .act, ⟨clock, c, .acting (.ask .pass next)⟩ =>
    some ([(clock, .started)], ⟨clock, c, .passing next⟩)
  | .act, ⟨clock, c, .acting (.ask (.rest ms) next)⟩ =>
    if Ready clock c (clock + ms) .timeUp ∨ Ready clock c (clock + ms) .signalled ∨
      Ready clock c (clock + ms) .abandoned then none
    else some ([], ⟨clock, c, .resting (clock + ms) next⟩)
  | .finish result, ⟨clock, c, .passing next⟩ =>
    some ([(clock, .finished result)], ⟨clock, c, .acting (next result)⟩)
  | .wake w, ⟨clock, c, .acting (.ask (.rest ms) next)⟩ =>
    if Ready clock c (clock + ms) w then
      some ([(clock, .woken w)], ⟨clock, (Happening.woken w).on c, .acting (next w)⟩)
    else none
  | .wake w, ⟨clock, c, .resting deadline next⟩ =>
    if Ready clock c deadline w then
      some ([(clock, .woken w)], ⟨clock, (Happening.woken w).on c, .acting (next w)⟩)
    else none
  | _, _ => none

/-- The steps that cues ask for one after another. -/
def follow? : List Cue → Situation → Option (Trace × Situation)
  | [], S => some ([], S)
  | cue :: cues, S => do
    let (hs, S') ← S.step? cue
    let (hs', S'') ← S'.follow? cues
    some (hs ++ hs', S'')

variable {S S' S₀ : Situation} {hs hs' : Trace}

/-- A step that a cue asks for is a step of the schedule or its surroundings. -/
lemma moves_of_step? {cue} (step : S.step? cue = some (hs, S')) : S.Moves hs S' := by
  unfold step? at step
  split at step
  case h_1 =>
    split at step
    case isTrue holds =>
      cases step
      exact .later holds.1 holds.2
    case isFalse => cases step
  case h_2 =>
    split at step
    case isTrue holds =>
      cases step
      exact .sent holds.1 holds.2
    case isFalse => cases step
  case h_3 =>
    split at step
    case isTrue holds =>
      cases step
      exact .abandoned holds.1 holds.2
    case isFalse => cases step
  case h_4 =>
    cases step
    exact .noted
  case h_5 =>
    cases step
    exact .looked
  case h_6 =>
    cases step
    exact .started
  case h_7 =>
    split at step
    case isTrue => cases step
    case isFalse quiet =>
      cases step
      simp only [not_or] at quiet
      obtain ⟨early, read, sender⟩ := quiet
      refine .rested fun w => ?_
      cases w <;> assumption
  case h_8 =>
    cases step
    exact .finished
  case h_9 =>
    split at step
    case isTrue ready =>
      cases step
      exact .unrested ready
    case isFalse => cases step
  case h_10 =>
    split at step
    case isTrue ready =>
      cases step
      exact .woken ready
    case isFalse => cases step
  case h_11 => cases step

/-- A run goes on with the steps that cues ask for. -/
lemma Runs.follow {cues} (run : S₀.Runs hs S) (follows : S.follow? cues = some (hs', S')) :
    S₀.Runs (hs ++ hs') S' := by
  induction cues generalizing S hs hs' with
  | nil =>
    cases follows
    rw [List.append_nil]
    exact run
  | cons cue cues ih =>
    obtain ⟨⟨hs₁, S₁⟩, first, rest⟩ := Option.bind_eq_some_iff.1 follows
    obtain ⟨⟨hs₂, S₂⟩, second, same⟩ := Option.bind_eq_some_iff.1 rest
    cases same
    rw [← List.append_assoc]
    exact ih (run.step (moves_of_step? first)) second

/-- The steps that cues ask for are a run. -/
lemma runs_of_follow? {cues} (follows : S.follow? cues = some (hs, S')) : S.Runs hs S' := by
  have run : S.Runs ([] ++ hs) S' := Runs.refl.follow follows
  exact run

end Situation

end Cues

end Payout.Settlement.Schedule
