import Payout.Json.Reader
import Payout.Record

/-!
# Records in JSON

A record is an object, whose members may come in any order among others that are skipped, or an
array of its fields in their order. A known name may not come twice. A field may be required,
nullable or optional; the last two differ only in the array form, which has to hold every nullable
field.
-/

namespace Payout.Json

abbrev Field := Payout.Field Json

namespace Field

variable {α : Type}

def orNull (read : Json → Option α) : Json → Option (Option α)
  | .null => some none
  | v => some <$> read v

/-- A field that may be null or, in an object, missing. -/
def nullable (read : Json → Option α) : Field → Option (Option α) :=
  Payout.Field.omittable none (orNull read)

/-- A field that may be null or missing in either form. -/
def optional (read : Json → Option α) : Field → Option (Option α) :=
  Payout.Field.withDefault none (orNull read)

end Field

/-- The fields of a record, one for each name. -/
def fields? (names : List String) : Json → Option (List Field)
  | .object members =>
    if names.any fun name => 1 < (members.filter (·.1 = name)).length then none
    else some (Payout.Field.ofMembers names members)
  | .array items =>
    if names.length < items.length then none else some (Payout.Field.ofItems names items)
  | _ => none

def string? : Json → Option String
  | .string s => some s
  | _ => none

/-- Reads a truth value. -/
def bool? : Json → Option Bool
  | .bool b => some b
  | _ => none

/-- Reads a whole number from zero below a bound. -/
def nat? (bound : Nat) : Json → Option Nat
  | .integer n => if 0 ≤ n ∧ n < bound then some n.toNat else none
  | _ => none

/-- Reads an unsigned 64-bit number. -/
def uint64? (v : Json) : Option UInt64 := UInt64.ofNat <$> nat? (2 ^ 64) v

/-- Reads an unsigned 8-bit number. -/
def uint8? (v : Json) : Option UInt8 := UInt8.ofNat <$> nat? (2 ^ 8) v

/-- Reads an array, item by item. -/
def list? {α : Type} (read : Json → Option α) : Json → Option (List α)
  | .array items => items.mapM read
  | _ => none

/-- Reads one of several names, as text or as an object that has null under it. -/
def name? {α : Type} (ofName? : String → Option α) : Json → Option α
  | .string s => ofName? s
  | .object [(s, .null)] => ofName? s
  | _ => none

/-- Reads a free value inside `enclosing` other brackets; all together may be 127. -/
def freeWithin? (enclosing : Nat) (v : Json) : Option Json :=
  if v.depth + enclosing ≤ 127 then v.free? else none

/-- A value or null. -/
def ofOption {α : Type} (write : α → Json) : Option α → Json
  | some a => write a
  | none => .null

/-- An unsigned 64-bit number. -/
def ofUInt64 (n : UInt64) : Json := .integer n.toNat

end Payout.Json
