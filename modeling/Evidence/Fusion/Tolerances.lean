import Evidence.Failure

namespace Evidence

def defaultHardDriftThreshold {α : Type} [Scalar α] : α := 1e-3

/-- A drift up to `epsilon` is left alone, one up to the hard threshold is rescaled, and beyond that
a fusion fails. Both are kept as they were given, and count as numbers where something is measured
against them. -/
structure Tolerances (α : Type) where
  epsilon : Value α
  hardDriftThreshold : Value α

namespace Tolerances

variable {α : Type} [Scalar α]

def ignores (t : Tolerances α) (drift : α) : Bool := (Quantity.finite drift).atMost t.epsilon.amount

def refuses (t : Tolerances α) (drift : α) : Bool :=
  t.hardDriftThreshold.amount.below (.finite drift)

def isTotal (t : Tolerances α) (conflict : α) : Bool :=
  t.epsilon.amount.rest.atMost (.finite conflict)

end Tolerances

/-- The tolerances that a caller asks for, where null asks for the default. In the place of both,
null asks for nothing that there is. -/
inductive DriftOptions (α : Type) where
  | fields (epsilon hardDriftThreshold : Value α)
  | null

namespace DriftOptions

variable {α : Type} [Scalar α]

def ofValue : Value α → DriftOptions α
  | .null => .null
  | v => .fields (v.field "epsilon") (v.field "hardDriftThreshold")

def ofTolerances (t : Tolerances α) : DriftOptions α := .fields t.epsilon t.hardDriftThreshold

def thresholdFor : Quantity α → Quantity α
  | .finite epsilon => .finite (greater defaultHardDriftThreshold (((10 : Nat) : α) * epsilon))
  | .infinite true => .finite defaultHardDriftThreshold
  | other => other

def resolve : DriftOptions α → Except (Failure α) (Tolerances α)
  | null => .error (.misuse (.noFields .null "epsilon"))
  | fields epsilon threshold => do
      let epsilon := epsilon.orElse (.finite defaultEpsilon)
      Failure.ofMisuse epsilon.checkText
      let threshold := threshold.orElse (.number (thresholdFor epsilon.amount))
      Failure.ofMisuse threshold.checkText
      if (Value.finite 0).isBelow epsilon ∧ epsilon.isBelow threshold then
        .ok ⟨epsilon, threshold⟩
      else .error (.tolerancesOutOfOrder epsilon threshold)

end DriftOptions

end Evidence
