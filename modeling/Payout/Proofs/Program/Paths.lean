import Mathlib.Tactic.Lemma
import Payout.Program

/-!
# Paths of a program

What a program has asked and was answered so far is a list of exchanges. `p.Reaches es q` says that
`p` goes on as `q` after the exchanges `es`, and `p.Ends es a` that it ends in `a`. Nothing is said
about the answers: a path is possible in some surroundings, and surroundings are put in by
conditions on the exchanges, or by running the program in them (`exists_serves`).

A path through `bind` is a path of the first program followed by one of the second (`ends_bind`),
and every path can be driven to its end by surroundings that always answer (`Reaches.extend`). A law
that a prefix inherits is therefore proved of whole paths only.
-/

namespace Payout

/-- A request and the answer it got. -/
structure Exchange (I : Interface) where
  request : I.Request
  answer : I.Answer request

namespace Program

variable {I : Interface} {α β : Type}

/-- After the exchanges `es` the program goes on as another. -/
inductive Reaches : Program I α → List (Exchange I) → Program I α → Prop where
  | here {p} :
    Reaches p [] p
  | step {r a next es q} :
    Reaches (next a) es q →
    Reaches (ask r next) (⟨r, a⟩ :: es) q

/-- The program ends in a value after the exchanges `es`. -/
def Ends (p : Program I α) (es : List (Exchange I)) (a : α) : Prop :=
  p.Reaches es (done a)

/-- A program that is done asks nothing. -/
lemma ends_done {a b : α} {es} : (done a : Program I α).Ends es b ↔ es = [] ∧ a = b := by
  constructor
  · intro h
    cases h
    exact ⟨rfl, rfl⟩
  · rintro ⟨rfl, rfl⟩
    exact .here

/-- A program that asks goes on with some answer. -/
lemma ends_ask {r} {next : I.Answer r → Program I α} {es b} :
    (ask r next).Ends es b ↔ ∃ a rest, es = ⟨r, a⟩ :: rest ∧ (next a).Ends rest b := by
  constructor
  · intro h
    cases h with
    | step h => exact ⟨_, _, rfl, h⟩
  · rintro ⟨a, rest, rfl, h⟩
    exact .step h

/-- A path through two programs in turn is a path of each. -/
lemma ends_bind {p : Program I α} {f : α → Program I β} {es b} :
    (p.bind f).Ends es b ↔ ∃ es₁ a es₂, es = es₁ ++ es₂ ∧ p.Ends es₁ a ∧ (f a).Ends es₂ b := by
  induction p generalizing es with
  | done a =>
    simp only [bind, ends_done]
    constructor
    · exact fun h => ⟨[], a, es, rfl, ⟨rfl, rfl⟩, h⟩
    · rintro ⟨_, _, _, rfl, ⟨rfl, rfl⟩, h⟩
      exact h
  | ask r next ih =>
    simp only [bind, ends_ask]
    constructor
    · rintro ⟨a, rest, rfl, h⟩
      obtain ⟨es₁, c, es₂, rfl, h₁, h₂⟩ := (ih a).1 h
      exact ⟨⟨r, a⟩ :: es₁, c, es₂, rfl, ⟨a, es₁, rfl, h₁⟩, h₂⟩
    · rintro ⟨_, c, es₂, rfl, ⟨a, es₁, rfl, h₁⟩, h₂⟩
      exact ⟨a, es₁ ++ es₂, rfl, (ih a).2 ⟨es₁, c, es₂, rfl, h₁, h₂⟩⟩

/-- The same, for programs in `do` notation. -/
@[simp] lemma ends_andThen {p : Program I α} {f : α → Program I β} {es b} :
    (p >>= f).Ends es b ↔ ∃ es₁ a es₂, es = es₁ ++ es₂ ∧ p.Ends es₁ a ∧ (f a).Ends es₂ b :=
  ends_bind

/-- A program that asks nothing ends at once in its value. -/
@[simp] lemma ends_pure {a b : α} {es} :
    (pure a : Program I α).Ends es b ↔ es = [] ∧ a = b :=
  ends_done

/-- A single request ends in the answer that it got. -/
@[simp] lemma ends_request {r : I.Request} {es} {a : I.Answer r} :
    (request r).Ends es a ↔ es = [⟨r, a⟩] := by
  simp only [request, ends_ask, ends_done]
  constructor
  · rintro ⟨_, _, rfl, rfl, rfl⟩
    rfl
  · rintro rfl
    exact ⟨a, [], rfl, rfl, rfl⟩

section State

variable {σ : Type} {s : σ}

/-- A program with a state: the second part starts in the state that the first leaves. -/
lemma ends_stateT_bind {p : StateT σ (Program I) α} {f : α → StateT σ (Program I) β} {es r} :
    ((p >>= f) s).Ends es r ↔
      ∃ es₁ a s' es₂, es = es₁ ++ es₂ ∧ (p s).Ends es₁ (a, s') ∧ (f a s').Ends es₂ r := by
  refine ends_bind.trans ?_
  constructor
  · rintro ⟨es₁, ⟨a, s'⟩, es₂, rfl, h₁, h₂⟩
    exact ⟨es₁, a, s', es₂, rfl, h₁, h₂⟩
  · rintro ⟨es₁, a, s', es₂, rfl, h₁, h₂⟩
    exact ⟨es₁, (a, s'), es₂, rfl, h₁, h₂⟩

/-- With a state a program that asks nothing ends at once in its value and the state. -/
lemma ends_stateT_pure {a : α} {es r} :
    ((pure a : StateT σ (Program I) α) s).Ends es r ↔ es = [] ∧ (a, s) = r :=
  ends_done

/-- A program without a state leaves the state as it is. -/
lemma ends_stateT_lift {p : Program I α} {es r} :
    ((liftM p : StateT σ (Program I) α) s).Ends es r ↔ p.Ends es r.1 ∧ r.2 = s := by
  refine ends_bind.trans ?_
  constructor
  · rintro ⟨es₁, a, es₂, rfl, h₁, h₂⟩
    obtain ⟨rfl, rfl⟩ := ends_done.1 h₂
    rw [List.append_nil]
    exact ⟨h₁, rfl⟩
  · rintro ⟨h, hs⟩
    exact ⟨es, r.1, [], by simp, h, ends_done.2 ⟨rfl, Prod.ext rfl hs.symm⟩⟩

/-- The same as the first part of a program with a state. -/
lemma ends_stateT_lift_bind {p : Program I α} {f : α → StateT σ (Program I) β} {es r} :
    (((liftM p : StateT σ (Program I) α) >>= f) s).Ends es r ↔
      ∃ es₁ a es₂, es = es₁ ++ es₂ ∧ p.Ends es₁ a ∧ (f a s).Ends es₂ r := by
  rw [ends_stateT_bind]
  constructor
  · rintro ⟨es₁, a, s', es₂, rfl, h₁, h₂⟩
    obtain ⟨first, hs⟩ := ends_stateT_lift.1 h₁
    dsimp only at hs
    subst hs
    exact ⟨es₁, a, es₂, rfl, first, h₂⟩
  · rintro ⟨es₁, a, es₂, rfl, h₁, h₂⟩
    exact ⟨es₁, a, s, es₂, rfl, ends_stateT_lift.2 ⟨h₁, rfl⟩, h₂⟩

end State

/-- Paths can be put one after the other. -/
lemma Reaches.append {p q r : Program I α} {es fs} (h : p.Reaches es q) (h' : q.Reaches fs r) :
    p.Reaches (es ++ fs) r := by
  induction h with
  | here => exact h'
  | step _ ih => exact .step (ih h')

/-- What a program goes on as goes on as the rest of it. -/
lemma Reaches.bind {p q : Program I α} {es} (h : p.Reaches es q) (f : α → Program I β) :
    (p.bind f).Reaches es (q.bind f) := by
  induction h with
  | here => exact .here
  | step _ ih => exact .step ih

/-- One more exchange at the end of a path. -/
lemma Reaches.snoc {p : Program I α} {es r next} (h : p.Reaches es (ask r next))
    (a : I.Answer r) : p.Reaches (es ++ [⟨r, a⟩]) (next a) :=
  h.append (.step .here)

section Surroundings

variable {σ : Type}

/-- Exchanges with surroundings that keep a state, from one state to another. -/
inductive Serves (answer : (r : I.Request) → StateM σ (I.Answer r)) :
    σ → List (Exchange I) → σ → Prop where
  | nil {s} :
    Serves answer s [] s
  | cons {s r a s' es s''} :
    answer r s = (a, s') →
    Serves answer s' es s'' →
    Serves answer s (⟨r, a⟩ :: es) s''

variable {answer : (r : I.Request) → StateM σ (I.Answer r)} {s s' : σ}

/-- A program that is run goes on from the state in which a part of its path leaves the
surroundings. -/
lemma Serves.run_eq {p q : Program I α} {es} (serves : Serves answer s es s') (h : p.Reaches es q) :
    p.run answer s = q.run answer s' := by
  induction h generalizing s with
  | here =>
    cases serves
    rfl
  | @step r a next es q _ ih =>
    cases serves with
    | cons answered rest =>
      rw [← ih rest]
      change (let (a, s) := answer r s; (next a).run answer s) = _
      rw [answered]

/-- Surroundings serve exchanges one after another through the state between them. -/
lemma serves_append {es fs} {s'' : σ} :
    Serves answer s (es ++ fs) s'' ↔ ∃ s', Serves answer s es s' ∧ Serves answer s' fs s'' := by
  constructor
  · intro h
    induction es generalizing s with
    | nil => exact ⟨s, .nil, h⟩
    | cons e es ih =>
      cases h with
      | cons answered rest =>
        obtain ⟨s', first, second⟩ := ih rest
        exact ⟨s', .cons answered first, second⟩
  · rintro ⟨s', first, second⟩
    induction first with
    | nil => exact second
    | cons answered _ ih => exact .cons answered (ih second)

/-- To run a program is to go along one of its paths to the end. -/
lemma exists_serves (answer : (r : I.Request) → StateM σ (I.Answer r)) (p : Program I α) (s : σ) :
    ∃ es, p.Ends es (p.run answer s).1 ∧ Serves answer s es (p.run answer s).2 := by
  induction p generalizing s with
  | done a => exact ⟨[], .here, .nil⟩
  | ask r next ih =>
    obtain ⟨es, ends, serves⟩ := ih (answer r s).1 (answer r s).2
    exact ⟨_, .step ends, .cons rfl serves⟩

end Surroundings

/-- The path of a program in surroundings that answer every request, and its end. -/
def path (answer : (r : I.Request) → I.Answer r) : Program I α → List (Exchange I) × α
  | done a => ([], a)
  | ask r next =>
    let (es, a) := path answer (next (answer r))
    (⟨r, answer r⟩ :: es, a)

/-- A program ends on the path that its surroundings give it. -/
lemma ends_path (answer : (r : I.Request) → I.Answer r) (p : Program I α) :
    p.Ends (p.path answer).1 (p.path answer).2 := by
  induction p with
  | done a => exact .here
  | ask r next ih => exact .step (ih (answer r))

/-- On that path every request has the answer of the surroundings. -/
lemma answered_path (answer : (r : I.Request) → I.Answer r) (p : Program I α) :
    ∀ e ∈ (p.path answer).1, e = ⟨e.request, answer e.request⟩ := by
  induction p with
  | done a => exact fun e he => absurd he List.not_mem_nil
  | ask r next ih =>
    intro e he
    cases he with
    | head => rfl
    | tail _ he => exact ih _ e he

/-- A path can be driven to an end by any surroundings that answer every request. -/
lemma Reaches.extend {p q : Program I α} {es} (h : p.Reaches es q)
    (answer : (r : I.Request) → I.Answer r) :
    ∃ fs a, p.Ends (es ++ fs) a ∧ ∀ e ∈ fs, e = ⟨e.request, answer e.request⟩ :=
  ⟨_, _, h.append (ends_path answer q), answered_path answer q⟩

end Program

end Payout
