import Evidence.Cbor.Ability
import Evidence.Cbor.Store

namespace Evidence.Cbor

variable {α : Type} [Scalar α]

namespace Datum

def quantityOf (n : Int) : Quantity α :=
  .finite (if n < 0 then 0 - (n.natAbs : α) else (n.natAbs : α))

def plainValue : Datum → Value α
  | .absent => .absent
  | .null => .null
  | .bool b => .bool b
  | .integer n => .number (quantityOf n)
  | .wide n => .integer n
  | .float word => .number (Scalar.ofBits word)
  | .text s => .text s
  | .object _ => .object []

end Datum

def Node.toValue (n : Node) (part : Datum → Value α) : Value α :=
  match n.form with
  | .list items => .list (items.map part)
  | .map entries => .map (entries.map fun p => (part p.1, part p.2))
  | .set members => .set (members.map part)
  | .date _ => .date
  | .reader _ => .callable
  | form =>
      let own := n.own.map fun p => (p.1, part p.2)
      match form with
      | .bytes _ => .object (own ++ Ability.fields.filter fun p => !n.has p.1)
      | _ => .object own

namespace Store

def toValue (s : Store) : (depth : Nat) → Datum → Value α
  | 0, d =>
      match s.node? d with
      | some n => Node.toValue ⟨n.form, []⟩ fun _ => .absent
      | none => d.plainValue
  | depth + 1, d =>
      match s.node? d with
      | some n => n.toValue (s.toValue depth)
      | none => d.plainValue

/-- No schema looks deeper into a document. -/
def documentDepth : Nat := 4

end Store

end Evidence.Cbor
