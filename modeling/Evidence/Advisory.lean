import Evidence.Failure
import Evidence.Fusion.Rule
import Evidence.Log

namespace Evidence

structure Advisory (α : Type) where
  rule : RuleChoice α
  conflict : Quantity α
  threshold : α

inductive Notice (α : Type) where
  | log (e : Log.Entry α)
  | advisory (a : Advisory α)

structure Reported (α β : Type) where
  notices : List (Notice α)
  outcome : Except (Failure α) β

namespace Reported

variable {α β : Type}

def ofOutcome (outcome : Except (Failure α) β) : Reported α β := ⟨[], outcome⟩

def map {γ : Type} (f : β → γ) (r : Reported α β) : Reported α γ := ⟨r.notices, r.outcome.map f⟩

def each (step : β → Reported α Unit) : List β → Reported α Unit
  | [] => ofOutcome (.ok ())
  | x :: rest =>
      let first := step x
      match first.outcome with
      | .error failure => ⟨first.notices, .error failure⟩
      | .ok () =>
          let others := each step rest
          ⟨first.notices ++ others.notices, others.outcome⟩

def lines (lowest : Log.Level) (r : Reported α β) : List (Log.Line α) :=
  r.notices.filterMap fun
    | .log e => e.line? lowest
    | .advisory _ => none

def advised (r : Reported α β) : List (Advisory α) :=
  r.notices.filterMap fun
    | .log _ => none
    | .advisory a => some a

end Reported

variable {α : Type} [Scalar α]

namespace Advisory

def kind : String := "HighConflict"

def message (a : Advisory α) : String :=
  "High conflict (K=" ++ a.conflict.word.fixed 4 ++ "). Result may be unreliable; " ++
    "examine the sources or use an alternative fusion rule."

def entry (a : Advisory α) : Log.Entry α where
  level := .warn
  message := a.message
  context := [
    ("rule", a.rule.toValue),
    ("conflict", .number a.conflict),
    ("threshold", .finite a.threshold)]

end Advisory

end Evidence
