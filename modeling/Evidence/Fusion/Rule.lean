import Evidence.Value.Basic

namespace Evidence

/-- Dempster's rule drops contradictory products and rescales the rest. Yager's rule moves them to
the whole frame. The rule of Dubois and Prade moves each to the union of its events. -/
inductive Rule where
  | dempster
  | yager
  | duboisPrade
  deriving DecidableEq

namespace Rule

def all : List Rule := [dempster, yager, duboisPrade]

def name : Rule → String
  | dempster => "dempster"
  | yager => "yager"
  | duboisPrade => "dubois_prade"

end Rule

inductive RuleChoice (α : Type) where
  | rule (r : Rule)
  | unknown (got : Value α)

namespace RuleChoice

variable {α : Type}

def ofValue (v : Value α) : RuleChoice α :=
  match v with
  | .text s =>
      match Rule.all.find? (·.name = s) with
      | some r => .rule r
      | none => .unknown v
  | _ => .unknown v

def ofOptional (v : Value α) : RuleChoice α :=
  if v.isAbsent then .rule .dempster else ofValue v

def toValue : RuleChoice α → Value α
  | rule r => .text r.name
  | unknown got => got

end RuleChoice

end Evidence
