import Evidence.MassFunction.Inspection

namespace Evidence

inductive FrameChoice (α : Type) where
  | frame (f : Frame)
  | elements (v : Value α)

variable {α : Type} [Scalar α]

namespace FrameChoice

def ofValue : Value α → FrameChoice α
  | .frame f => .frame f
  | v => .elements v

def ofOptional (v : Value α) : Option (FrameChoice α) :=
  if v.isAbsent then none else some (ofValue v)

def resolve : FrameChoice α → Except (Failure α) Frame
  | frame f => .ok f
  | elements v => Frame.ofValue v

end FrameChoice

structure MassOptions (α : Type) where
  frame : Option (FrameChoice α)
  epsilon : Value α

namespace MassFunction

def checkEpsilon (v : Value α) : Except (Failure α) α :=
  match v with
  | .number (.finite x) => if 0 < x ∧ x < 0.1 then .ok x else .error (.epsilonOutOfRange v)
  | _ => do
      Failure.ofMisuse v.checkText
      .error (.epsilonOutOfRange v)

def resolveEpsilon (v : Value α) : Except (Failure α) α :=
  checkEpsilon (v.orElse (.finite defaultEpsilon))

def inferFrame (designations : List (Designation α)) : Except (Fault α) Frame :=
  match designations.findSome? fun | .event e => some e.frame | _ => none with
  | some f => .ok f
  | none => Frame.ofValues (designations.flatMap Designation.items)

def ofEntries (pairs : List (Designation α × Value α)) (options : MassOptions α) :
    Except (Failure α) (MassFunction α) := do
  let epsilon ← resolveEpsilon options.epsilon
  if pairs.isEmpty ∧ options.frame.isNone then .error (.fault (.noEntries epsilon))
  let frame ← match options.frame with
    | some choice => choice.resolve
    | none => Failure.ofFault (inferFrame (pairs.map (·.1)))
  Failure.ofMisuse (pairs.forM fun p => p.1.checkName)
  ofInspected frame epsilon <| pairs.map fun (d, mass) =>
    ⟨d.resolve frame, d.misuse? frame, mass, d.name⟩

def labelTokens (labels : List String) : Except (Fault α) (List String) := do
  let tokens ← labels.mapM fun label =>
    let trimmed := Text.trim label
    if trimmed = Label.empty ∨ trimmed = "" then .ok []
    else if trimmed = Label.ignorance then .error .ignoranceWithoutFrame
    else .ok (Event.tokens label)
  .ok tokens.flatten

def labelFrame (labels : List String) : Except (Fault α) Frame := do
  let tokens ← labelTokens labels
  Frame.ofValues (tokens.map (.text · : String → Value α))

def recordFrame (record : Record (Value α)) (choice : Option (FrameChoice α)) :
    Except (Failure α) Frame :=
  match choice with
  | some choice => choice.resolve
  | none => Failure.ofFault (labelFrame (Record.keys record))

def recordEntries (f : Frame) (record : Record (Value α)) : List (Entry α) :=
  record.map fun (label, mass) => ⟨Event.ofLabel f label, none, mass, "'" ++ label ++ "'"⟩

def ofRecord (record : Record (Value α)) (options : MassOptions α) :
    Except (Failure α) (MassFunction α) := do
  let epsilon ← resolveEpsilon options.epsilon
  let frame ← recordFrame record options.frame
  ofInspected frame epsilon (recordEntries frame record)

def recordFaults (record : Record (Value α)) (options : MassOptions α) :
    Except (Failure α) (List (Fault α)) := do
  let epsilon ← resolveEpsilon options.epsilon
  match recordFrame record options.frame with
  | .error (.fault fault) => .ok [fault]
  | .error failure => .error failure
  | .ok frame => (Inspection.attempt frame epsilon (recordEntries frame record)).map (·.faults)

def vacuous (choice : FrameChoice α) (epsilon : Value α) : Except (Failure α) (MassFunction α) := do
  let frame ← choice.resolve
  let epsilon ← checkEpsilon (if epsilon.isAbsent then .finite defaultEpsilon else epsilon)
  .ok ⟨frame, [(frame.full, 1)], epsilon⟩

def ofMasks (frame : Frame) (masses : Tally Mask (Value α)) (epsilon : Value α) :
    Except (Failure α) (MassFunction α) := do
  let epsilon ← checkEpsilon epsilon
  ofInspected frame epsilon <| masses.map fun (mask, mass) =>
    ⟨Event.ofMask frame mask, none, mass, "mask " ++ mask.text⟩

def ofMasses (frame : Frame) (masses : Tally Mask α) (epsilon : Value α) :
    Except (Failure α) (MassFunction α) :=
  ofMasks frame (masses.map fun (mask, x) => (mask, .finite x)) epsilon

end MassFunction

end Evidence
