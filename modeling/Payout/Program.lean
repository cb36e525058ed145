/-!
# Programs that ask

A program is a tree of requests to its surroundings: it is done with a value, or it asks and goes on
with the answer. What the surroundings are is left open, so one program can be run in a simulation,
by real services, step by step beside others, or be cut off after any step.
-/

namespace Payout

/-- The requests that a program may make, and the type of the answer to each. -/
structure Interface where
  Request : Type
  Answer : Request → Type

/-- A program over an interface, ending in a value. -/
inductive Program (I : Interface) (α : Type) where
  | done (value : α)
  | ask (request : I.Request) (next : I.Answer request → Program I α)

namespace Program

variable {I : Interface} {α β : Type}

/-- Goes on with the value in which a program ends. -/
def bind : Program I α → (α → Program I β) → Program I β
  | done a, f => f a
  | ask r k, f => ask r fun answer => bind (k answer) f

instance : Monad (Program I) where
  pure := done
  bind := bind

/-- The program that makes one request and ends in its answer. -/
def request (r : I.Request) : Program I (I.Answer r) := ask r done

/-- Runs a program in surroundings that answer each request in a monad. -/
def run {m : Type → Type} [Monad m] (answer : (r : I.Request) → m (I.Answer r)) :
    Program I α → m α
  | done a => pure a
  | ask r k => do
    let a ← answer r
    run answer (k a)

end Program

end Payout
