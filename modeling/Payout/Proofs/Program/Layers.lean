import Payout.Proofs.Program.Paths

/-!
# Layers

A program whose requests are answered by programs. A path of the whole is a path of the upper
program, each exchange of which is carried out by a path of the program that answers it
(`carried_of_ends`).
-/

namespace Payout

namespace Program

variable {I J : Interface} {α σ : Type}

section State

/-- Exchanges of one program are carried out by those of the programs that answer it, from one state
of these to another. -/
inductive Carried (answer : (r : I.Request) → StateT σ (Program J) (I.Answer r)) :
    σ → List (Exchange I) → List (Exchange J) → σ → Prop where
  | nil {s} :
    Carried answer s [] [] s
  | cons {s r hs a s' es hs' s''} :
    (answer r s).Ends hs (a, s') →
    Carried answer s' es hs' s'' →
    Carried answer s (⟨r, a⟩ :: es) (hs ++ hs') s''

variable {answer : (r : I.Request) → StateT σ (Program J) (I.Answer r)} {s s' : σ}
  {es fs : List (Exchange I)} {hs : List (Exchange J)}

/-- What a program comes to that is answered by others is what it comes to on a path that these
carry out. -/
lemma carried_of_ends {p : Program I α} {r} (h : (p.run answer s).Ends hs r) :
    ∃ es, p.Ends es r.1 ∧ Carried answer s es hs r.2 := by
  induction p generalizing s hs with
  | done a =>
    obtain ⟨rfl, rfl⟩ := ends_stateT_pure.1 h
    exact ⟨[], .here, .nil⟩
  | ask request next ih =>
    obtain ⟨hs₁, a, s', hs₂, rfl, answered, h⟩ := ends_stateT_bind.1 h
    obtain ⟨es, ends, carried⟩ := ih a h
    exact ⟨_, .step ends, .cons answered carried⟩

/-- Exchanges one after another are carried out by what carries out the first and then the
others. -/
lemma carried_append {s'' : σ} : Carried answer s (es ++ fs) hs s'' ↔
    ∃ hs₁ s' hs₂, hs = hs₁ ++ hs₂ ∧ Carried answer s es hs₁ s' ∧ Carried answer s' fs hs₂ s'' := by
  constructor
  · intro h
    induction es generalizing s hs with
    | nil => exact ⟨[], s, hs, rfl, .nil, h⟩
    | cons e es ih =>
      cases h with
      | @cons _ _ hs₁ _ _ _ _ _ answered rest =>
        obtain ⟨hs₂, s', hs₃, rfl, first, second⟩ := ih rest
        exact ⟨hs₁ ++ hs₂, s', hs₃, (List.append_assoc ..).symm, .cons answered first, second⟩
  · rintro ⟨hs₁, s', hs₂, rfl, first, second⟩
    induction first with
    | nil => exact second
    | cons answered _ ih =>
      rw [List.append_assoc]
      exact .cons answered (ih second)

/-- What holds of every exchange by which the requests are answered one by one holds of all of
them. -/
lemma Carried.forall {φ : Exchange J → Prop} (h : Carried answer s es hs s')
    (once : ∀ e ∈ es, ∀ {s hs x}, (answer e.request s).Ends hs x → ∀ d ∈ hs, φ d) :
    ∀ d ∈ hs, φ d := by
  induction h with
  | nil => exact fun _ hd => absurd hd List.not_mem_nil
  | cons answered _ ih =>
    obtain ⟨first, rest⟩ := List.forall_mem_cons.1 once
    exact List.forall_mem_append.2 ⟨first answered, ih rest⟩

end State

/-- What holds of every exchange by which requests are answered holds of all of a program that is
run so. -/
lemma forall_of_ends_run {answer : (r : I.Request) → Program J (I.Answer r)} {φ : Exchange J → Prop}
    {p : Program I α} {hs a} (h : (p.run answer).Ends hs a)
    (once : ∀ {r hs a}, (answer r).Ends hs a → ∀ e ∈ hs, φ e) : ∀ e ∈ hs, φ e := by
  induction p generalizing hs with
  | done a =>
    obtain ⟨rfl, -⟩ := ends_pure.1 h
    exact fun _ he => absurd he List.not_mem_nil
  | ask r next ih =>
    obtain ⟨hs₁, a, hs₂, rfl, answered, h⟩ := ends_andThen.1 h
    exact List.forall_mem_append.2 ⟨once answered, ih a h⟩

end Program

end Payout
