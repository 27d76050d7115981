import Evidence.MassFunction.Basic
import Evidence.Misuse

namespace Evidence

/-- An unchecked value. `absent` stands for a value that was not given, and `integer` for a whole
number kept exactly, which is not a number that masses are counted in. A `map` has keys that need
not be texts, and a `set` has its members without an order that matters. A `callable` can only be
called. -/
inductive Value (α : Type) where
  | absent
  | null
  | bool (b : Bool)
  | number (x : Quantity α)
  | integer (n : Int)
  | text (s : String)
  | list (items : List (Value α))
  | object (fields : List (String × Value α))
  | map (entries : List (Value α × Value α))
  | set (members : List (Value α))
  | date
  | callable
  | frame (f : Frame)
  | event (e : Event)
  | mass (m : MassFunction α)

namespace Value

variable {α : Type}

def finite (x : α) : Value α := .number (.finite x)

def ofNat [NatCast α] (n : Nat) : Value α := finite (n : α)

def ofFields (fields : List (String × Value α)) : Value α := .object (Record.ofPairs fields)

def items : Value α → List (Value α)
  | .list items => items
  | .text s => s.toList.map fun c => .text (String.singleton c)
  | _ => []

def isAbsent : Value α → Bool
  | .absent => true
  | _ => false

def nothing? : Value α → Option Nothing
  | .absent => some .absent
  | .null => some .null
  | _ => none

def isNothing (v : Value α) : Bool := v.nothing?.isSome

def orElse (v fallback : Value α) : Value α := if v.isNothing then fallback else v

def broadKind : Value α → String
  | .absent => "undefined"
  | .bool _ => "boolean"
  | .number _ => "number"
  | .integer _ => "bigint"
  | .text _ => "string"
  | .callable => "function"
  | _ => "object"

/-- The kind of a value, as schemas name it. An object whose fields `then` and `catch` can be called
is a promise to them and refused; that kind is left out here, and such an object passes for one. -/
def kind : Value α → String
  | .null => "null"
  | .number .nan => "nan"
  | .list _ => "array"
  | .map _ => "map"
  | .set _ => "set"
  | .date => "date"
  | other => other.broadKind

end Value

variable {α : Type} [NatCast α]

def Hypothesis.toValue : Hypothesis → Value α
  | .number n => .ofNat n
  | .name s => .text s

def Frame.toValues (f : Frame) : List (Value α) := f.elements.map Hypothesis.toValue

namespace Value

def parts : Value α → List (String × Value α)
  | .frame f => [
      ("elements", .list f.toValues),
      ("positions", .map (f.elements.mapIdx fun i h => (.text h.text, .ofNat i))),
      ("fullMask", .integer f.full.toInt)]
  | .event e => [("frame", .frame e.frame), ("mask", .integer e.mask.toInt)]
  | .mass m => [
      ("frame", .frame m.frame),
      ("masses", .map (m.masses.map fun p => (.integer p.1.toInt, .finite p.2))),
      ("epsilon", .finite m.epsilon)]
  | _ => []

def record? (v : Value α) : Option (Record (Value α)) :=
  match v with
  | .object fields => some fields
  | .frame _ | .event _ | .mass _ => some v.parts
  | _ => none

def fields (v : Value α) : Record (Value α) :=
  v.record?.getD (v.items.mapIdx fun i item => (toString i, item))

def field (key : String) (v : Value α) : Value α := (Record.get? key v.fields).getD .absent

end Value

end Evidence
