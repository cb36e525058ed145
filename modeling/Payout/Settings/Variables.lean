import Payout.Settings.Basic

/-!
# Variables in settings

A document may refer to variables of the environment as `${NAME}`. The references are found in the
document as it is written; then, one after another, every copy of a reference is replaced in what
the document has become by then.
-/

namespace Payout

/-- The variables that a program is given. -/
structure Environment where
  bindings : List (String × String)

namespace Environment

def empty : Environment := ⟨[]⟩

/-- The value of a variable; names with an equals sign or a NUL have none. -/
def value? (env : Environment) (name : String) : Option String :=
  if name.contains '=' ∨ name.contains '\x00' then none else env.bindings.lookup name

end Environment

namespace Settings

/-- The names between `${` and the next `}`, in order. A name is not empty; the text of a reference
is not looked at again. -/
def references : List Char → List (List Char)
  | [] => []
  | c :: rest =>
    let name := (rest.drop 1).takeWhile (· ≠ '}')
    if c = '$' ∧ rest.head? = some '{' ∧ name ≠ [] ∧ name.length + 1 < rest.length then
      name :: references (rest.drop (name.length + 2))
    else references rest
termination_by text => text.length
decreasing_by all_goals simp only [List.length_cons, List.length_drop]; omega

def reference (name : List Char) : List Char := '$' :: '{' :: name ++ ['}']

/-- Replaces every copy of a text that is not empty, from the left. -/
def replaceAll (old new : List Char) : List Char → List Char
  | [] => []
  | c :: rest =>
    if old.isPrefixOf (c :: rest) then new ++ replaceAll old new (rest.drop (old.length - 1))
    else c :: replaceAll old new rest
termination_by text => text.length
decreasing_by all_goals simp; try omega

/-- Replaces references one after another; the first variable without a value is an error. -/
def replaceReferences (env : Environment) :
    List (List Char) → List Char → Except SettingsError (List Char)
  | [], text => .ok text
  | name :: rest, text =>
    match env.value? (String.ofList name) with
    | none => .error (.variableNotFound (String.ofList name))
    | some value => replaceReferences env rest (replaceAll (reference name) value.toList text)

/-- The document with its references replaced. -/
def substitute (env : Environment) (document : String) : Except SettingsError String :=
  (replaceReferences env (references document.toList) document.toList).map String.ofList

end Settings

end Payout
