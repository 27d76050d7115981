import Evidence.Event.Naming

namespace Evidence.MassFunction

variable {α : Type} [Scalar α]

def massOf (m : MassFunction α) (target : Mask) : α := m.masses.amount target

def beliefOf (m : MassFunction α) (target : Mask) : α :=
  m.masses.totalOf fun mask => mask.diff target == .empty

def plausibilityOf (m : MassFunction α) (target : Mask) : α :=
  m.masses.totalOf fun mask => mask.inter target != .empty

def ask (m : MassFunction α) (d : Designation α) {β : Type} (answer : Mask → β) :
    Except (Failure α) β :=
  (d.find m.frame).map fun e => answer e.mask

def mass (m : MassFunction α) (d : Designation α) : Except (Failure α) α := m.ask d m.massOf

def belief (m : MassFunction α) (d : Designation α) : Except (Failure α) α := m.ask d m.beliefOf

def plausibility (m : MassFunction α) (d : Designation α) : Except (Failure α) α :=
  m.ask d m.plausibilityOf

def interval (m : MassFunction α) (d : Designation α) : Except (Failure α) (α × α) :=
  m.ask d fun target => (m.beliefOf target, m.plausibilityOf target)

def approximates (m n : MassFunction α) (tolerance : Quantity α) : Bool :=
  m.frame = n.frame && (m.masses.keys ++ n.masses.keys).all fun mask =>
    !tolerance.below (.finite (distance (m.massOf mask) (n.massOf mask)))

/-- The same within a tolerance that a caller may leave out, and then within the first one's own.
The tolerance is not looked at unless the frames are equal. -/
def resembles (m n : MassFunction α) (tolerance : Value α) : Except Misuse Bool := do
  if m.frame = n.frame then tolerance.checkText
  .ok (m.approximates n (if tolerance.isAbsent then .finite m.epsilon else tolerance.amount))

end Evidence.MassFunction
