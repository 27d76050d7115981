import Evidence.Schema.Basic
import Evidence.Fusion.Rule
import Evidence.MassFunction.Basic

namespace Evidence.Schema

variable {α : Type} [Scalar α]

def above (bound : α) (text : String) : Requirement α where
  holds x := (Quantity.finite bound).below x
  cause := .tooSmall text

def below (bound : α) (text : String) : Requirement α where
  holds x := x.below (.finite bound)
  cause := .tooBig text

def positive : Requirement α := above 0 "Number must be greater than 0"

def nonnegative : Requirement α where
  holds x := !x.below (.finite 0)
  cause := .tooSmall "Number must be greater than or equal to 0"

def atMostOne : Requirement α where
  holds x := !(Quantity.finite 1).below x
  cause := .tooBig "Number must be less than or equal to 1"

def whole : Requirement α where
  holds := Quantity.isInteger
  cause := .notInteger

def hypothesis : Schema α := either nonemptyText (number [whole, nonnegative])

def epsilon : Schema α := number [positive, below 0.1 "Number must be less than 0.1"]

def massRecord : Schema α := record (number [])

def massDocument : Schema α := object [
  ("@type", literal MassFunction.typeTag),
  ("frame", nonemptyList hypothesis),
  ("masses", massRecord),
  ("epsilon", optional epsilon)]

def massOptions : Schema α := object [
  ("frame", optional (nonemptyList hypothesis)),
  ("epsilon", optional epsilon)]

def rule : Schema α := choice (Rule.all.map Rule.name)

def thresholdExceedsEpsilon (v : Value α) : Bool :=
  match v.field "hardDriftThreshold" with
  | .number threshold =>
      match v.field "epsilon" with
      | .number epsilon => epsilon.below threshold
      | _ => (Quantity.finite defaultEpsilon).below threshold
  | _ => true

def fusionOptions : Schema α :=
  refine
    (object [
      ("epsilon", optional epsilon),
      ("hardDriftThreshold",
        optional (number [positive, below 1 "Number must be less than 1"])),
      ("conflictThreshold", optional (number [positive, atMostOne])),
      ("log", optional bool)])
    thresholdExceedsEpsilon
    ⟨[.field "hardDriftThreshold"], .refused "hardDriftThreshold must be greater than epsilon"⟩

end Evidence.Schema
