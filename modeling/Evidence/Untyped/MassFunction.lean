import Evidence.MassFunction.Construction
import Evidence.MassFunction.Belief
import Evidence.Untyped.Event

namespace Evidence.MassFunction

variable {α : Type} [Scalar α]

def leading : List (Value α) → Except Misuse (List (Designation α))
  | [] => .ok []
  | entry :: rest => do
      match Designation.ofValue (← entry.pair).1 with
      | .event e => .ok [.event e]
      | d => .ok (d :: (← leading rest))

def frameOfEntries (entries : Value α) : Except (Failure α) Frame :=
  match entries with
  | .list items => do
      let designations ← Failure.ofMisuse (leading items)
      Failure.ofFault (inferFrame designations)
  | v => .error (.misuse (v.cannotCall "entries" "find"))

def pairOfEntry (entry : Value α) : Except Misuse (Designation α × Value α) := do
  let (set, mass) ← entry.pair
  let d := Designation.ofValue set
  d.checkName
  .ok (d, mass)

def ofEntriesValue (entries : Value α) (options : MassOptions α) :
    Except (Failure α) (MassFunction α) := do
  let epsilon ← resolveEpsilon options.epsilon
  let length ← Failure.ofMisuse (entries.ask "length")
  if length.count? = some 0 ∧ options.frame.isNone then .error (.fault (.noEntries epsilon))
  let frame ← match options.frame with
    | some choice => choice.resolve
    | none => frameOfEntries entries
  match entries with
  | .list items =>
      ofEntries (← Failure.ofMisuse (items.mapM pairOfEntry)) ⟨some (.frame frame), options.epsilon⟩
  | v => .error (.misuse (v.cannotCall "entries" "map"))

def faultWithoutFrame (frame : Value α) (mask : Mask) (mass : Value α) :
    Except Misuse (Fault α) :=
  match Inspection.inRange? mass with
  | some _ => .error (frame.cannotCall "frame" "fromMask")
  | none => do
      mass.checkText
      .ok (.massOutOfRange ("mask " ++ mask.text) mass)

/-- A mass function from unchecked masses under masks, in a frame that may be anything. Where there
is no frame no mass counts, so that the total is always too far from one. -/
def ofMasksValue (frame : Value α) (masses : Tally Mask (Value α)) (epsilon : Value α) :
    Except (Failure α) (MassFunction α) :=
  match frame with
  | .frame f => ofMasks f masses epsilon
  | v => do
      let epsilon ← checkEpsilon epsilon
      let faults ← Failure.ofMisuse (masses.mapM fun p => faultWithoutFrame v p.1 p.2)
      let text ← Failure.ofMisuse (v.askText "frame")
      let unnormalized : Fault α := .stated .unnormalizedMass (Fault.totalText 0 epsilon text)
        [("total", .finite 0), ("epsilon", .finite epsilon)]
      .error (.fault (faults.headD unnormalized))

def amountUnder (entries : List (Value α × Value α)) (mask : Mask) : Quantity α :=
  let found := entries.findSome? fun
    | (.integer n, x) => if n = mask.toInt then some x.amount else none
    | _ => none
  found.getD (.finite 0)

def nears (m : MassFunction α) (entries : List (Value α × Value α)) (tolerance : Quantity α) :
    Bool :=
  m.masses.all (fun p => !tolerance.below ((amountUnder entries p.1).distanceFrom p.2)) &&
    entries.all fun
      | (.integer n, x) => !tolerance.below (x.amount.distanceFrom (m.massOf (.ofInt n)))
      | (_, x) => !tolerance.below (x.amount.distanceFrom 0)

def resemblesValue (m : MassFunction α) (other tolerance : Value α) : Except Misuse Bool :=
  match other with
  | .mass n => m.resembles n tolerance
  | other => do
      if ← m.frame.equals (← other.ask "frame") then
        match other.property "masses" with
        | .map entries => do
            tolerance.checkText
            .ok (m.nears entries
              (if tolerance.isAbsent then .finite m.epsilon else tolerance.amount))
        | .list _ | .set _ => .error (.notCallable "other.masses.get")
        | masses => .error (masses.cannotYield "other.masses" "keys")
      else .ok false

def expectWeighed (v : Value α) : Except (Failure α) (MassFunction α) :=
  match v with
  | .mass m => .ok m
  | v => do
      let frame ← Failure.ofMisuse (v.ask "frame")
      match ← Failure.ofMisuse (frame.ask "elements") with
      | .list _ => v.expectYield "mass" "entries"
      | elements => .error (.misuse (elements.cannotCall "mass.frame.elements" "map"))

end Evidence.MassFunction
