import Evidence.Frame.Building

namespace Evidence

variable {α : Type} [Scalar α]

namespace Frame

/-- The position of the hypothesis that a value writes, matched exactly: a number is not the name
with the same text. -/
def positionOf? (f : Frame) (v : Value α) : Option Nat := (Hypothesis.ofValue? v).bind f.position?

def has (f : Frame) (v : Value α) : Except Misuse Bool := do
  v.checkText
  .ok (f.positionOf? v).isSome

end Frame

namespace Event

def ofValues (f : Frame) (values : List (Value α)) : Except (Fault α) Event := do
  let mask ← values.foldlM (fun mask v =>
    match f.positionOf? v with
    | some i => .ok (Mask.union mask (Mask.singleton i))
    | none => .error (Fault.outsideFrame v f)) Mask.empty
  .ok ⟨f, mask⟩

/-- Why the values cannot even be looked up. They are looked up by their texts, up to the first
that is not in the frame, which is then shown as JSON. -/
def misuse? (f : Frame) : List (Value α) → Option Misuse
  | [] => none
  | v :: rest =>
      if !v.hasText then some .noText
      else if (f.positionOf? v).isSome then misuse? f rest
      else if v.hasJson then none
      else some .noJson

def find (f : Frame) (values : List (Value α)) : Except (Failure α) Event :=
  match misuse? f values with
  | some m => .error (.misuse m)
  | none => Failure.ofFault (ofValues f values)

def ofValue (f : Frame) (v : Value α) : Except (Failure α) Event := do
  let values ← Failure.ofMisuse (v.iterate "hypotheses")
  find f values

def tokens (label : String) : List String :=
  (Text.split Label.separator (Text.trim label)).map Text.trim

def ofLabel (f : Frame) (label : String) : Except (Fault α) Event :=
  let trimmed := Text.trim label
  if trimmed = Label.ignorance then .ok (full f)
  else if trimmed = Label.empty ∨ trimmed = "" then .ok (empty f)
  else do
    let mask ← (tokens label).foldlM (fun mask token =>
      match f.positionOfText? token with
      | some i => .ok (Mask.union mask (Mask.singleton i))
      | none => .error (Fault.unknownToken label token f)) Mask.empty
    .ok ⟨f, mask⟩

def ofMask (f : Frame) (mask : Mask) : Except (Fault α) Event :=
  if mask.within f.size then .ok ⟨f, mask⟩ else .error (.maskOutside mask f)

def nonempty (f : Frame) : Except (Failure α) (List Event) :=
  if Failure.enumerable < f.size then .error (.tooManyEvents f.size)
  else .ok ((List.range' 1 (1 <<< f.size - 1)).map fun (m : Nat) => ⟨f, .finite m⟩)

end Event

inductive Designation (α : Type) where
  | event (e : Event)
  | list (items : List (Value α))
  | single (v : Value α)

namespace Designation

def ofValue : Value α → Designation α
  | .event e => .event e
  | .list items => .list items
  | v => .single v

def items : Designation α → List (Value α)
  | event e => e.elements.map Hypothesis.toValue
  | list items => items
  | single v => [v]

def resolve (f : Frame) (d : Designation α) : Except (Fault α) Event :=
  match d with
  | event e => if e.frame = f then .ok e else Event.ofValues f d.items
  | _ => Event.ofValues f d.items

def misuse? (f : Frame) (d : Designation α) : Option Misuse :=
  match d with
  | event _ => none
  | _ => Event.misuse? f d.items

def find (f : Frame) (d : Designation α) : Except (Failure α) Event :=
  match d.misuse? f with
  | some m => .error (.misuse m)
  | none => Failure.ofFault (d.resolve f)

def name (d : Designation α) : String :=
  "\x7b" ++ Text.join (String.singleton Label.separator) (d.items.map Value.plainText) ++ "\x7d"

def checkName (d : Designation α) : Except Misuse Unit := d.items.forM Value.checkText

end Designation

end Evidence
