import Evidence.Event.Algebra
import Evidence.Event.Naming
import Evidence.Untyped.Property

namespace Evidence

variable {α : Type} [Scalar α]

namespace Frame

def agrees (others : Value α) : Nat → List Hypothesis → Except Misuse Bool
  | _, [] => .ok true
  | i, h :: rest => do
      let other ← others.ask (toString i)
      if Hypothesis.ofValue? other = some h then agrees others (i + 1) rest else .ok false

def equals (f : Frame) (other : Value α) : Except Misuse Bool :=
  match other with
  | .frame g => .ok (f = g)
  | other => do
      if (← other.ask "size").count? = some f.size then
        agrees (other.property "elements") 0 f.elements
      else .ok false

def parse (f : Frame) (label : Value α) : Except (Failure α) Event :=
  match label with
  | .text s => Failure.ofFault (Event.ofLabel f s)
  | v => .error (.misuse (v.cannotCall "label" "trim"))

end Frame

namespace Event

def equals (d : Event) (other : Value α) : Except Misuse Bool :=
  match other with
  | .event e => .ok (d = e)
  | other => do
      match ← other.ask "mask" with
      | .integer n =>
          if n = d.mask.toInt then d.frame.equals (other.property "frame") else .ok false
      | _ => .ok false

def withValue {β : Type} (op : Event → Event → Except (Fault α) β) (d : Event) (other : Value α) :
    Except (Failure α) β :=
  match other with
  | .event e => Failure.ofFault (op d e)
  | other => do
      let frame ← Failure.ofMisuse (other.ask "frame")
      if ← Failure.ofMisuse (d.frame.equals frame) then
        match other.property "mask" with
        | .integer n => Failure.ofFault (op d ⟨d.frame, .ofInt n⟩)
        | mask => do
            Failure.ofMisuse mask.checkText
            .error (.misuse .mixedNumbers)
      else do
        let text ← Failure.ofMisuse (frame.askText "other.frame")
        .error (.fault (.stated .frameMismatch (Fault.eventsText d.frame.text text) []))

end Event

def Value.equals (v : Value α) (name : String) (other : Value α) : Except Misuse Bool :=
  match v with
  | .frame f => f.equals other
  | .event e => e.equals other
  | v => .error (v.cannotCall name "equals")

def Value.has? (v hypothesis : Value α) : Option (Except Misuse Bool) :=
  match v with
  | .frame f => some (f.has hypothesis)
  | .event e => some (.ok ((Hypothesis.ofValue? hypothesis).any e.contains))
  | .map entries => some (.ok (entries.any (·.1.isSameKey hypothesis)))
  | _ => none

/-- The event of hypotheses in a frame, as far as a value can be asked for it. A map takes them for
a key and is handed back. -/
def Value.set? (v hypotheses : Value α) : Option (Except (Failure α) (Value α)) :=
  match v with
  | .frame f => some ((Event.ofValue f hypotheses).map .event)
  | .map entries => some (.ok (.map (Value.putNothing hypotheses entries)))
  | _ => none

def Designation.findIn (frame : Value α) (d : Designation α) : Except (Failure α) (Value α) :=
  match frame with
  | .frame f => (d.find f).map .event
  | frame => do
      if let .event e := d then
        if ← Failure.ofMisuse (e.frame.equals frame) then return .event e
      (frame.set? (.list d.items)).getD (.error (.misuse (frame.cannotCall "frame" "set")))

/-- The event of a mask in a frame that may be anything. Only an empty event can be named where
there is no frame. -/
def Event.ofParts (frame : Value α) (mask : Mask) : Except Misuse (Value α) :=
  match frame with
  | .frame f => .ok (.event ⟨f, mask⟩)
  | frame =>
      if mask = .empty then .ok (.object [("frame", frame), ("mask", .integer 0)])
      else .error (frame.cannotCall "this.frame" "full")

end Evidence
