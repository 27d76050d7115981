import Evidence.Cbor.Datum
import Evidence.Record
import Evidence.Text.Units

namespace Evidence.Cbor

/-- What an object is, apart from its fields. A `labelled` one stands for an item under a tag that
means nothing, a `boxed` one is a plain datum made an object, and a `reader` is what reads records,
by keys that are settled or by those of the object that it belongs to. A settled key can have a
datum of its own instead of one that is read. -/
inductive Form where
  | plain
  | list (items : List Datum)
  | map (entries : List (Datum × Datum))
  | set (members : List Datum)
  | labelled
  | date (moment : Option Int)
  | complaint (message : Option Datum)
  | pattern (source flags : String)
  | bytes (s : Span)
  | view (v : View)
  | boxed (content : Datum)
  | reader (settled : Option (List (String × Option Datum)))

structure Node where
  form : Form
  fields : Record Datum

namespace Datum

def unitTexts (s : String) : List Datum :=
  s.toList.flatMap fun c => (Text.unitsOf c).map fun _ => .text (String.singleton c)

def positions (items : List Datum) : Record Datum :=
  items.mapIdx fun i item => (toString i, item)

end Datum

namespace Form

def isList : Form → Bool
  | .list _ => true
  | _ => false

def items : Form → List Datum
  | .list items => items
  | .bytes s => s.bytes.map fun b => .integer b.toNat
  | .view v => v.words.map (.ofElement v.element)
  | .boxed (.text s) => Datum.unitTexts s
  | _ => []

def lengthName : String := "length"

def measure (f : Form) (name : String) : Datum :=
  match f with
  | .list _ | .boxed (.text _) =>
      if name = lengthName then .integer f.items.length else .absent
  | .bytes s =>
      if name = lengthName ∨ name = "byteLength" then .integer s.size
      else if name = "byteOffset" then .integer s.offset
      else .absent
  | .view v =>
      if name = lengthName then .integer v.count
      else if name = "byteLength" then .integer v.span.size
      else if name = "byteOffset" then .integer v.span.offset
      else .absent
  | _ => .absent

end Form

namespace Node

def has (n : Node) (name : String) : Bool := n.fields.any (·.1 = name)

def own (n : Node) : Record Datum :=
  match n.form.items with
  | [] => n.fields
  | items => Record.arrange (Datum.positions items ++ n.fields)

def get (n : Node) (name : String) : Datum :=
  match (Record.index? name).bind fun i => n.form.items[i]? with
  | some d => d
  | none => (Record.get? name n.fields).getD (n.form.measure name)

def isList (n : Node) : Bool := n.form.isList

end Node

/-- The objects, each under its place, so that one which stands in several places is one, and one
that contains itself is finite. -/
structure Store where
  nodes : Array Node

namespace Store

def stop : Datum := .object 0

def initial : Store := ⟨#[⟨.plain, []⟩]⟩

def node? (s : Store) : Datum → Option Node
  | .object id => s.nodes[id]?
  | _ => none

def form? (s : Store) (d : Datum) : Option Form := (s.node? d).map (·.form)

def add (s : Store) (n : Node) : Datum × Store := (.object s.nodes.size, ⟨s.nodes.push n⟩)

def set (s : Store) (id : Nat) (n : Node) : Store := ⟨s.nodes.setIfInBounds id n⟩

def get? (s : Store) (name : String) (d : Datum) : Option Datum :=
  match d with
  | .absent | .null => none
  | .text t => some ((Node.mk (.boxed (.text t)) []).get name)
  | d => some (((s.node? d).map (·.get name)).getD .absent)

def own (s : Store) : Datum → Record Datum
  | .text t => Datum.positions (Datum.unitTexts t)
  | d => ((s.node? d).map Node.own).getD []

def list? (s : Store) (d : Datum) : Option (List Datum) :=
  match s.node? d with
  | some ⟨.list items, _⟩ => some items
  | _ => none

end Store

end Evidence.Cbor
