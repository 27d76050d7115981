import Evidence.Tally
import Evidence.Record
import Evidence.Event.Basic
import Evidence.Text.Bracketed

namespace Evidence

def defaultEpsilon {α : Type} [Scalar α] : α := 1e-6

/-- Masses on the focal events of a frame, in the order in which they were given, and the tolerance
that their total was checked with. -/
structure MassFunction (α : Type) where
  frame : Frame
  masses : Tally Mask α
  epsilon : α

namespace MassFunction

variable {α : Type} [Scalar α]

structure Valid (m : MassFunction α) : Prop where
  inside : ∀ e ∈ m.masses, e.1 ≠ .empty ∧ e.1.within m.frame.size
  distinct : m.masses.keys.Nodup
  positive : ∀ e ∈ m.masses, 0 < e.2 ∧ e.2 ≤ 1
  tolerance : 0 < m.epsilon ∧ m.epsilon < 0.1
  normalized : distance m.masses.total 1 ≤ m.epsilon

def size (m : MassFunction α) : Nat := m.masses.length

def total (m : MassFunction α) : α := m.masses.total

def ignorance (m : MassFunction α) : α := m.masses.amount m.frame.full

def isVacuous (m : MassFunction α) : Bool := m.size == 1 && 0 < m.ignorance

def ranked (m : MassFunction α) : Tally Mask α :=
  m.masses.mergeSort fun d e => d.1.toInt ≤ e.1.toInt

/-- The focal events in the order of their masks, with their masses to four places. The masks are
taken as they are, be they inside the frame or not. -/
def plainText (m : MassFunction α) : String :=
  let items := m.ranked.map fun (mask, x) =>
    (Event.mk m.frame mask).text ++ ": " ++ (Quantity.finite x).word.fixed 4
  "BeliefMass(" ++ Text.join ", " items ++ ")"

def typeTag : String := "BeliefMass"

def plainJson (m : MassFunction α) : String :=
  let labels := m.masses.map fun (mask, x) =>
    ((Event.mk m.frame mask).label, (Quantity.finite x).json)
  Text.fielded [
    ("@type", Text.quote typeTag),
    ("frame", Text.listed (m.frame.elements.map Hypothesis.json)),
    ("masses", Text.fielded (Record.ofPairs (Record.erase Record.unkeptKey labels))),
    ("epsilon", (Quantity.finite m.epsilon).json)]

end MassFunction

end Evidence
