import Payout.Record
import Payout.Toml.Reader

/-!
# Records in TOML

A record is a table, whose other members are skipped, or an array of its fields in their order,
whose further items are not looked at. A moment counts as a table without any of the fields.
-/

namespace Payout.Toml

abbrev Field := Payout.Field Toml

/-- The fields of a record, one for each name. -/
def fields? (names : List String) : Toml → Option (List Field)
  | .table members =>
    if (members.filter fun m => !names.contains m.1).all (·.2.isSkippable) then
      some (Payout.Field.ofMembers names members)
    else none
  | .array items => some (Payout.Field.ofItems names items)
  | .moment _ => some (Payout.Field.ofMembers names [])
  | _ => none

def string? : Toml → Option String
  | .string s => some s
  | _ => none

/-- Reads an unsigned 64-bit number. -/
def uint64? : Toml → Option UInt64
  | .integer n => if 0 ≤ n ∧ n < 2 ^ 64 then some (UInt64.ofNat n.toNat) else none
  | _ => none

/-- Reads one of several names, as text or as a table that has an empty table or array under it. -/
def name? {α : Type} (ofName? : String → Option α) : Toml → Option α
  | .string s => ofName? s
  | .table [(s, .table [])] => ofName? s
  | .table [(s, .array [])] => ofName? s
  | _ => none

/-- Reads a value that is kept as it is. -/
def kept? (v : Toml) : Option Toml := if v.isKeepable then some v else none

end Payout.Toml
