import Rulebook.Text.Decimal

/-!
# Plain data

Data without identity or behaviour: what options hold, what a script writes out literally, and
what a value looks like from outside.
-/

namespace Rulebook

/-- A plain datum. A record keeps its fields in order. -/
inductive Datum
  | null
  | bool (value : Bool)
  | int (value : Int)
  | decimal (value : Text.Decimal)
  | text (value : String)
  | list (items : List Datum)
  | record (fields : List (String × Datum))
deriving Repr, Inhabited

end Rulebook
