import Evidence.MassFunction.Average
import Evidence.MassFunction.Pignistic
import Evidence.Source
import Evidence.Untyped.MassFunction

namespace Evidence

variable {α : Type} [Scalar α]

namespace Value

/-- The items under the positions from one up to a length, each with its position. Further than one
position after the last field nothing can be found, so no length leads there. -/
def following (v : Value α) (length : Quantity α) : List (Value α × Nat) :=
  let positions := (List.range' 1 (v.fields.length + 1)).filter fun (i : Nat) =>
    (Quantity.finite (i : α)).below length
  positions.map fun i => (v.property (toString i), i)

/-- Lets a source share a frame with the first one. It is the source's frame that is asked. -/
def checkShared (name : String) (first frame : Value α) (index : Option Nat) :
    Except (Failure α) Unit := do
  let name := name ++ ".frame"
  if !(← Failure.ofMisuse (frame.equals name first)) then
    let firstText ← Failure.ofMisuse (first.askText "frame")
    let text ← Failure.ofMisuse (frame.askText name)
    .error (.fault (.stated .frameMismatch (Fault.sourcesText firstText text)
      (index.toList.map fun i => ("index", .ofNat i))))

def sharedFrame (sources length : Value α) : Except (Failure α) (Value α) := do
  let first ← Failure.ofMisuse ((sources.property "0").ask "frame")
  Failure.ofMisuse length.checkText
  (sources.following length.amount).forM fun (source, i) => do
    let frame ← Failure.ofMisuse (source.ask "frame")
    checkShared "sources[i]" first frame (some i)
  .ok first

def expectMasses (sources frame : Value α) : Except (Failure α) (List (MassFunction α)) :=
  match frame with
  | .frame _ => do
      let values ← Failure.ofMisuse (sources.iterate "sources")
      values.mapM fun v => v.expectMass "source" "maskEntries"
  | frame => .error (.misuse (frame.cannotCall "frame" "full"))

end Value

/-- Combines sources that may be anything. Whatever has a length can stand for a list of sources
until they are gone through, and a single source is handed back without a look at it. -/
def Combination.ofValue (sources : Value α) (rule : RuleChoice α) (options : DriftOptions α) :
    Except (Failure α) (Combination α (Value α)) := do
  let length ← Failure.ofMisuse (sources.ask "length")
  match length.count? with
  | some 0 => .error (.fault .noSources)
  | some 1 => .ok ⟨sources.property "0", 0⟩
  | _ => do
      let frame ← sources.sharedFrame length
      let _ ← options.resolve
      let c ← ofSources (← sources.expectMasses frame) rule options
      .ok ⟨.mass c.mass, c.conflict⟩

def Policy.combineValue (p : Policy α) (sources : Value α) (rule : RuleChoice α) :
    Reported α (Fusion α (Value α)) :=
  match Combination.ofValue sources rule (.ofTolerances p.tolerances) with
  | .error failure => .ofOutcome (.error failure)
  | .ok c => p.conclude c rule ((sources.property "length").count?.getD 0)

def Fusion.ofValue (sources : Value α) (rule : RuleChoice α) (options : Value α) :
    Reported α (Fusion α (Value α)) :=
  match Policy.ofOptions options with
  | .error failure => .ofOutcome (.error failure)
  | .ok p => p.combineValue sources rule

def Source.combineValue (sources rule options : Value α) : Reported α (Fusion α) :=
  match sources with
  | .list values => combineAll (values.map ofValue) rule options
  | v =>
      match prepare [] rule options with
      | .error failure => .ofOutcome (.error failure)
      | .ok _ => .ofOutcome (.error (.misuse (v.cannotCall "inputs" "map")))

namespace MassFunction

def conflictOf (a b : Value α) : Except (Failure α) α := do
  let sources : Value α := .list [a, b]
  let frame ← sources.sharedFrame (.ofNat 2)
  match ← sources.expectMasses frame with
  | [m, n] => Failure.ofFault (m.conflict n)
  | _ => .error (.fault .noSources)

def expectAveraged (first : Value α) (sources : List (Value α)) :
    Except (Failure α) (List (MassFunction α)) := do
  let shared ← Failure.ofMisuse (first.ask "frame")
  sources.mapM fun v => do
    let frame ← Failure.ofMisuse (v.ask "frame")
    Value.checkShared "m" shared frame none
    v.expectYield "m" "maskEntries"

def averageOf (sources : Value α) : Except (Failure α) (Value α) :=
  match sources.iterate "sources" with
  | .error _ => .error (.misuse .notSpreadable)
  | .ok [] => .error (.fault .noSources)
  | .ok [single] => .ok single
  | .ok (first :: rest) => do
      .ok (.mass (← average (← expectAveraged first (first :: rest))))

end MassFunction

end Evidence
