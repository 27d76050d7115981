import Evidence.MassFunction.Belief
import Evidence.MassFunction.Document
import Evidence.Policy

namespace Evidence

inductive Source (α : Type) where
  | mass (m : MassFunction α)
  | plain (v : Value α)

variable {α : Type} [Scalar α]

def MassFunction.ofPlain (record options : Value α) : Except (Failure α) (MassFunction α) := do
  let checkedRecord ← (Schema.massRecord.validate record).mapError .rejected
  let given := if options.isAbsent then .object [] else options
  let checkedOptions ← (Schema.massOptions.validate given).mapError .rejected
  ofRecord (recordOf checkedRecord)
    ⟨frameOf (checkedOptions.field "frame"), checkedOptions.field "epsilon"⟩

namespace Source

def ofValue : Value α → Source α
  | .mass m => .mass m
  | v => .plain v

def toMass (frame : Value α) : Source α → Except (Failure α) (MassFunction α)
  | mass m => .ok m
  | plain v => MassFunction.ofPlain v (.object [("frame", frame)])

def checkRule (rule : Value α) : Except (Failure α) (RuleChoice α) :=
  if rule.isAbsent then .ok (.rule .dempster)
  else ((Schema.rule.validate rule).mapError .rejected).map RuleChoice.ofValue

def prepare (sources : List (Source α)) (rule options : Value α) :
    Except (Failure α) (RuleChoice α × List (MassFunction α)) := do
  Failure.ofMisuse (options.checkTaking "options" "frame")
  let checked ← checkRule rule
  let masses ← sources.mapM (toMass (options.field "frame"))
  .ok (checked, masses)

def combine (a b : Source α) (rule options : Value α) : Reported α (Fusion α) :=
  match prepare [a, b] rule options with
  | .error failure => .ofOutcome (.error failure)
  | .ok (checked, masses) => Fusion.ofSources masses checked options

def fusingEntry (rule : RuleChoice α) (count : Nat) : Log.Entry α where
  level := .debug
  message := "Fusing evidence sources"
  context := [("rule", rule.toValue), ("sources", .ofNat count)]

def combineAll (sources : List (Source α)) (rule options : Value α) : Reported α (Fusion α) :=
  match prepare sources rule options with
  | .error failure => .ofOutcome (.error failure)
  | .ok (checked, masses) =>
      let fused := Fusion.ofSources masses checked options
      { fused with notices := .log (fusingEntry checked masses.length) :: fused.notices }

def conflict (a b : Source α) (frame : Value α) : Except (Failure α) α := do
  let m ← a.toMass frame
  let n ← b.toMass frame
  Failure.ofFault (m.conflict n)

end Source

end Evidence
