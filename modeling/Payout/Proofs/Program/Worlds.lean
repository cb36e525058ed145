import Payout.Proofs.Program.Paths

/-!
# Worlds

Surroundings in which every answer may depend on all that was asked before, and on nothing else. In
a world a program goes along one path to an end (`ends_pathIn`), and is answered on it as the world
answers (`answer_pathIn`). What is shown for every world holds whatever the answers are, in whatever
order they come.
-/

namespace Payout

/-- An answer to every request, by all that was asked and answered before. -/
abbrev World (I : Interface) := List (Exchange I) → (r : I.Request) → I.Answer r

namespace Program

variable {I : Interface} {α : Type} {w : World I}

/-- The path of a program in a world in which `before` was asked already, and its end. -/
def pathIn (w : World I) (before : List (Exchange I)) : Program I α → List (Exchange I) × α
  | done a => ([], a)
  | ask r next =>
    let e : Exchange I := ⟨r, w before r⟩
    let (es, a) := pathIn w (before ++ [e]) (next e.answer)
    (e :: es, a)

/-- A program ends on the path that a world gives it. -/
lemma ends_pathIn (w : World I) (before : List (Exchange I)) (p : Program I α) :
    p.Ends (p.pathIn w before).1 (p.pathIn w before).2 := by
  induction p generalizing before with
  | done a => exact .here
  | ask r next ih => exact .step (ih _ _)

/-- Every answer on the path is that of the world. -/
lemma answer_pathIn {before pre post : List (Exchange I)} {e : Exchange I} {p : Program I α}
    (split : (p.pathIn w before).1 = pre ++ e :: post) :
    e.answer = w (before ++ pre) e.request := by
  induction p generalizing before pre with
  | done a => cases List.append_ne_nil_of_right_ne_nil pre (List.cons_ne_nil e post) split.symm
  | ask r next ih =>
    cases pre with
    | nil =>
      cases split
      rw [List.append_nil]
    | cons first pre =>
      obtain ⟨rfl, rest⟩ := List.cons.inj split
      rw [List.append_cons]
      exact ih _ rest

end Program

end Payout
