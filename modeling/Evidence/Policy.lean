import Evidence.Advisory
import Evidence.Fusion.Combination
import Evidence.Schema.Document

namespace Evidence

def defaultConflictThreshold {α : Type} [Scalar α] : α := 0.9

structure Fusion (α : Type) (μ : Type := MassFunction α) where
  mass : μ
  conflict : α
  rule : RuleChoice α
  sources : Nat
  advisories : List (Advisory α)

structure Policy (α : Type) where
  threshold : α
  tolerances : Tolerances α
  logs : Bool
  listener : Value α

variable {α : Type} [Scalar α]

namespace Policy

/-- The option that holds the listener. It is not checked. -/
def listenerField : String := "onAdvisory"

def ofChecked (v listener : Value α) : Except (Failure α) (Policy α) := do
  let tolerances ← (DriftOptions.ofValue v).resolve
  .ok {
    threshold := match v.field "conflictThreshold" with
      | .number (.finite x) => x
      | _ => defaultConflictThreshold
    tolerances := tolerances
    logs := match v.field "log" with
      | .bool b => b
      | _ => true
    listener := listener }

def ofOptions (options : Value α) : Except (Failure α) (Policy α) := do
  Failure.ofMisuse (options.checkTaking "options" listenerField)
  let checked ← (Schema.fusionOptions.validate (.object options.fields)).mapError .rejected
  ofChecked checked (options.field listenerField)

def toValue (p : Policy α) : Value α := .object [
  ("threshold", .finite p.threshold),
  ("epsilon", p.tolerances.epsilon),
  ("hardDriftThreshold", p.tolerances.hardDriftThreshold),
  ("log", .bool p.logs),
  (listenerField, p.listener)]

def assess (p : Policy α) (conflict : Quantity α) (rule : RuleChoice α) : List (Advisory α) :=
  if conflict.below (.finite p.threshold) then [] else [⟨rule, conflict, p.threshold⟩]

def assessValue (p : Policy α) (conflict : Value α) (rule : RuleChoice α) :
    Except Misuse (List (Advisory α)) :=
  match conflict with
  | .number x => .ok (p.assess x rule)
  | v => do
      v.checkText
      if v.amount.below (.finite p.threshold) then .ok []
      else .error (v.cannotCall "conflict" "toFixed")

def report (p : Policy α) (a : Advisory α) : Reported α Unit :=
  let logged : List (Notice α) := if p.logs then [.log a.entry] else []
  match p.listener with
  | .absent | .null => ⟨logged, .ok ()⟩
  | .callable => ⟨logged ++ [.advisory a], .ok ()⟩
  | _ => ⟨logged, .error (.misuse (.notCallable "this.onAdvisory"))⟩

def conclude {μ : Type} (p : Policy α) (c : Combination α μ) (rule : RuleChoice α) (count : Nat) :
    Reported α (Fusion α μ) :=
  let advisories := p.assess (.finite c.conflict) rule
  (Reported.each p.report advisories).map fun _ => ⟨c.mass, c.conflict, rule, count, advisories⟩

def combineAll (p : Policy α) (sources : List (MassFunction α)) (rule : RuleChoice α) :
    Reported α (Fusion α) :=
  match Combination.ofSources sources rule (.ofTolerances p.tolerances) with
  | .error failure => .ofOutcome (.error failure)
  | .ok c => p.conclude c rule sources.length

def combine (p : Policy α) (a b : MassFunction α) (rule : RuleChoice α) : Reported α (Fusion α) :=
  p.combineAll [a, b] rule

end Policy

def Fusion.ofSources (sources : List (MassFunction α)) (rule : RuleChoice α) (options : Value α) :
    Reported α (Fusion α) :=
  match Policy.ofOptions options with
  | .error failure => .ofOutcome (.error failure)
  | .ok p => p.combineAll sources rule

end Evidence
