/-!
# Values of a TOML document

A document is a table of keys and values. For settings only the values matter and not how they were
written, so a date is merely known to be one, and a float only to be in range or not.

An integer has any size here. Whoever reads it into a field decides whether it fits; `isReadable`
states the one limit that holds for every integer and float of a document, also under keys that
nobody asks for: an integer has at most 128 bits, and a float must not overflow a double.
-/

namespace ChatHub.Toml

/-- A value. -/
inductive Value where
  | text (s : String)
  | integer (n : Int)
  /-- A float, and whether a double can hold it. -/
  | float (fits : Bool)
  | flag (b : Bool)
  /-- A date, a time or both. -/
  | moment
  | list (items : List Value)
  | table (fields : List (String × Value))
deriving Repr

namespace Value

mutual

/-- Whether every number in a value is within the limits: a number has 128 bits, with a sign or
without. -/
def isReadable : Value → Bool
  | .integer n => -(Nat.pow 2 127 : Int) ≤ n && n < (Nat.pow 2 128 : Int)
  | .float fits => fits
  | .list items => allReadable items
  | .table fields => fieldsReadable fields
  | _ => true

/-- Whether all values of a list are readable. -/
def allReadable : List Value → Bool
  | [] => true
  | v :: vs => isReadable v && allReadable vs

/-- Whether all values of a table are readable. -/
def fieldsReadable : List (String × Value) → Bool
  | [] => true
  | (_, v) :: rest => isReadable v && fieldsReadable rest

end

end Value

/-- The fields of a table. -/
abbrev Fields := List (String × Value)

end ChatHub.Toml
