import Evidence.Fusion.Rule
import Evidence.Fusion.Tolerances
import Evidence.Fusion.Conjunction
import Evidence.MassFunction.Construction

namespace Evidence

structure Combination (α : Type) (μ : Type := MassFunction α) where
  mass : μ
  conflict : α

namespace Combination

variable {α : Type} [Scalar α]

def commonFrame (first : MassFunction α) (rest : List (MassFunction α)) :
    Except (Fault α) Frame :=
  match rest.zipIdx.find? fun p => p.1.frame ≠ first.frame with
  | none => .ok first.frame
  | some (m, i) => .error (.sourcesOfFrames first.frame m.frame (some (i + 1)))

def assign (r : Rule) (f : Frame) (c : Conjunction α) : Tally Mask α :=
  match r with
  | .dempster =>
      let kept := c.filter fun p => p.1.1 ≠ .empty
      Tally.collect (kept.map fun p => (p.1.1, p.2 / (1 - c.conflict)))
  | .yager => Tally.collect (c.map fun p => (if p.1.1 = .empty then f.full else p.1.1, p.2))
  | .duboisPrade => Tally.collect (c.map fun p => (if p.1.1 = .empty then p.1.2 else p.1.1, p.2))

/-- Brings the total back to one when it has drifted, or when rounding has pushed a mass past one.
Drift beyond the hard threshold is not rounding and is reported. -/
def settle (t : Tolerances α) (masses : Tally Mask α) : Except (Fault α) (Tally Mask α) :=
  let total := masses.total
  let drift := distance total 1
  if t.refuses drift then .error (.normalizationDrift (.finite total) t.hardDriftThreshold)
  else if t.ignores drift ∧ ¬ masses.any (fun p => 1 < p.2) then .ok masses
  else .ok (masses.map fun p => (p.1, p.2 / total))

def underRule (r : Rule) (t : Tolerances α) (f : Frame) (sources : List (MassFunction α)) :
    Except (Failure α) (Combination α) := do
  let c := Conjunction.ofSources (r = .duboisPrade) f sources
  if r = .dempster ∧ t.isTotal c.conflict then
    .error (.fault (.totalConflict (.finite c.conflict)))
  let settled ← Failure.ofFault (settle t (assign r f c))
  let mass ← MassFunction.ofMasses f settled t.epsilon
  .ok ⟨mass, c.conflict⟩

def ofSources (sources : List (MassFunction α)) (rule : RuleChoice α) (options : DriftOptions α) :
    Except (Failure α) (Combination α) :=
  match sources with
  | [] => .error (.fault .noSources)
  | [m] => .ok ⟨m, 0⟩
  | first :: rest => do
      let frame ← Failure.ofFault (commonFrame first rest)
      let tolerances ← options.resolve
      match rule with
      | .rule r => underRule r tolerances frame sources
      | .unknown got => .error (.ofUnknownRule got)

end Combination

def MassFunction.conflict {α : Type} [Scalar α] (m n : MassFunction α) : Except (Fault α) α := do
  let frame ← Combination.commonFrame m [n]
  .ok (Conjunction.ofSources false frame [m, n]).conflict

end Evidence
