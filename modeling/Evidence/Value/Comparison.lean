import Evidence.Number.Reading
import Evidence.Value.Text

namespace Evidence.Value

variable {α : Type} [Scalar α]

/-- The number that a value counts as: one for true, none for null and false, and otherwise what its
text writes. -/
def amount : Value α → Quantity α
  | .absent => .nan
  | .null => .finite 0
  | .bool b => .finite (if b then 1 else 0)
  | .number x => x
  | v => .ofText v.plainText

def comparedText? : Value α → Option String
  | .absent | .null | .bool _ | .number _ | .integer _ => none
  | v => some v.plainText

def isBelow (v w : Value α) : Bool :=
  match v.comparedText?, w.comparedText? with
  | some s, some t => Text.precedes s t
  | _, _ => v.amount.below w.amount

end Evidence.Value
