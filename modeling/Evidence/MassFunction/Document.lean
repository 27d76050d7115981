import Evidence.MassFunction.Construction
import Evidence.Schema.Document

namespace Evidence.MassFunction

variable {α : Type} [Scalar α]

def toRecord (m : MassFunction α) : Except (Fault α) (Record (Value α)) := do
  let entries ← m.entries
  let pairs := entries.map fun (e, x) => (e.label, Value.finite x)
  .ok (Record.ofPairs (Record.erase Record.unkeptKey pairs))

def toDocument (m : MassFunction α) : Except (Fault α) (Value α) := do
  let record ← m.toRecord
  .ok <| .object [
    ("@type", .text typeTag),
    ("frame", .list m.frame.toValues),
    ("masses", .object record),
    ("epsilon", .finite m.epsilon)]

def json (m : MassFunction α) : Except (Fault α) String := m.toDocument.map Value.json

def recordOf : Value α → Record (Value α)
  | .object fields => fields
  | _ => []

def frameOf : Value α → Option (FrameChoice α)
  | .list values => some (.elements (.list values))
  | _ => none

def ofDocument (v : Value α) : Except (Failure α) (MassFunction α) := do
  let checked ← (Schema.massDocument.validate v).mapError .rejected
  ofRecord (recordOf (checked.field "masses"))
    ⟨frameOf (checked.field "frame"), checked.field "epsilon"⟩

end Evidence.MassFunction
