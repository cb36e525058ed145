/-!
# Records

The fields of a record that is written down either as named members in any order or as a list of
values in the order of its fields.
-/

namespace Payout

/-- How a field of a record is present. -/
inductive Field (V : Type) where
  | given (value : V)
  /-- No member has the field's name. -/
  | omitted
  /-- The list of values ends before the field. -/
  | cutOff

namespace Field

variable {V α : Type}

/-- The fields of a record with named members; of equal names the first counts. -/
def ofMembers (names : List String) (members : List (String × V)) : List (Field V) :=
  names.map fun name => (members.lookup name).elim omitted given

/-- The fields of a record in order, as many as there are names. -/
def ofItems (names : List String) (items : List V) : List (Field V) :=
  (items.take names.length).map given ++ List.replicate (names.length - items.length) cutOff

/-- A field that has to be there. -/
def required (read : V → Option α) : Field V → Option α
  | given v => read v
  | _ => none

/-- A field whose member may be missing; a list of values has to hold it. -/
def omittable (default : α) (read : V → Option α) : Field V → Option α
  | given v => read v
  | omitted => some default
  | cutOff => none

/-- A field that has a value of its own when it is missing. -/
def withDefault (default : α) (read : V → Option α) : Field V → Option α
  | given v => read v
  | _ => some default

end Field

end Payout
