import Evidence.MassFunction.Construction

namespace Evidence.MassFunction

variable {α : Type} [Scalar α]

def average (sources : List (MassFunction α)) : Except (Failure α) (MassFunction α) :=
  match sources with
  | [] => .error (.fault .noSources)
  | [m] => .ok m
  | first :: _ =>
      match sources.find? fun m => m.frame ≠ first.frame with
      | some m => .error (.fault (.sourcesOfFrames first.frame m.frame none))
      | none =>
          let sums := Tally.collect (sources.flatMap (·.masses))
          let count : α := (sources.length : Nat)
          ofMasses first.frame (sums.map fun p => (p.1, p.2 / count))
            (.finite first.epsilon)

end Evidence.MassFunction
