import Evidence.Text.Separated

namespace Evidence

namespace Issue

inductive Step where
  | field (key : String)
  | item (index : Nat)

inductive Cause where
  | missing
  | wrongKind (expected received : String)
  | notInteger
  | tooSmall (requirement : String)
  | tooBig (requirement : String)
  | notLiteral (expected : String)
  | notChoice (choices : List String) (received : String)
  | noneFits
  | refused (message : String)

def Cause.code : Cause → String
  | missing | wrongKind .. | notInteger => "invalid_type"
  | tooSmall _ => "too_small"
  | tooBig _ => "too_big"
  | notLiteral _ => "invalid_literal"
  | notChoice .. => "invalid_enum_value"
  | noneFits => "invalid_union"
  | refused _ => "custom"

def choicesText (choices : List String) : String :=
  Text.join " | " (choices.map fun c => "'" ++ c ++ "'")

def Cause.message : Cause → String
  | missing => "Required"
  | wrongKind expected received => "Expected " ++ expected ++ ", received " ++ received
  | notInteger => "Expected integer, received float"
  | tooSmall requirement | tooBig requirement => requirement
  | notLiteral expected => "Invalid literal value, expected \"" ++ expected ++ "\""
  | notChoice choices received =>
      "Invalid enum value. Expected " ++ choicesText choices ++ ", received '" ++ received ++ "'"
  | noneFits => "Invalid input"
  | refused message => message

end Issue

structure Issue where
  path : List Issue.Step
  cause : Issue.Cause

namespace Issue

def here (cause : Cause) : Issue := ⟨[], cause⟩

def below (step : Step) (i : Issue) : Issue := ⟨step :: i.path, i.cause⟩

end Issue

end Evidence
