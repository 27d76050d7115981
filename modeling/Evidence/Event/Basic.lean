import Evidence.Frame.Basic

namespace Evidence

/-- A set of hypotheses of a frame, as a mask over its positions. Nothing keeps the mask inside the
frame but the functions that build events. -/
structure Event where
  frame : Frame
  mask : Mask
  deriving DecidableEq

namespace Event

def elements (e : Event) : List Hypothesis :=
  (e.frame.elements.zipIdx.filter fun p => e.mask.has p.2).map (·.1)

def size (e : Event) : Nat := e.mask.card

def isEmpty (e : Event) : Bool := e.mask == .empty

def isFull (e : Event) : Bool := e.mask == e.frame.full

def contains (e : Event) (h : Hypothesis) : Bool := e.elements.contains h

def label (e : Event) : String :=
  if e.isEmpty then Label.empty
  else if e.isFull then Label.ignorance
  else Text.join (String.singleton Label.separator) (e.elements.map (·.text))

def text (e : Event) : String := "\x7b" ++ e.label ++ "\x7d"

def full (f : Frame) : Event := ⟨f, f.full⟩

def empty (f : Frame) : Event := ⟨f, .empty⟩

end Event

end Evidence
