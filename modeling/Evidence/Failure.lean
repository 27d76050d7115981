import Evidence.Fault
import Evidence.Schema.Issue
import Evidence.Value.Use

namespace Evidence

inductive Failure (α : Type) where
  | fault (f : Fault α)
  | epsilonOutOfRange (got : Value α)
  | tolerancesOutOfOrder (epsilon hardDriftThreshold : Value α)
  | tooManyEvents (size : Nat)
  | unknownRule (got : Value α)
  | rejected (issues : List Issue)
  | misuse (m : Misuse)

namespace Failure

def enumerable : Nat := 20

def ofFault {α β : Type} (outcome : Except (Fault α) β) : Except (Failure α) β :=
  outcome.mapError .fault

def ofMisuse {α β : Type} (outcome : Except Misuse β) : Except (Failure α) β :=
  outcome.mapError .misuse

def ofUnknownRule {α : Type} (got : Value α) : Failure α :=
  if got.hasText then .unknownRule got else .misuse .noText

variable {α : Type} [Scalar α]

def message : Failure α → String
  | fault f => f.message
  | epsilonOutOfRange got => "epsilon must be in (0, 0.1), got: " ++ got.plainText
  | tolerancesOutOfOrder epsilon hardDriftThreshold =>
      "Need 0 < epsilon < hardDriftThreshold, got epsilon=" ++ epsilon.plainText ++
        ", hardDriftThreshold=" ++ hardDriftThreshold.plainText
  | tooManyEvents size =>
      "Refusing to enumerate 2^" ++ toString size ++ " subsets; frames up to " ++
        toString enumerable ++ " elements are enumerable"
  | unknownRule got => "Unknown fusion rule: " ++ got.plainText
  | misuse m => m.message
  | rejected issues => Text.join "; " (issues.map (·.cause.message))

end Failure

end Evidence
