import Evidence.Fault
import Evidence.Value.Use

namespace Evidence.Fault

variable {α : Type} [Scalar α]

def ofConflict : Value α → Except Misuse (Fault α)
  | .number conflict => .ok (.totalConflict conflict)
  | v => .error (v.cannotCall "conflict" "toFixed")

def ofDrift (total threshold : Value α) : Except Misuse (Fault α) := do
  total.checkText
  threshold.checkText
  .ok (.normalizationDrift total threshold)

def ofStatement (code : Code) (message : Value α) (details : List (String × Value α)) :
    Except Misuse (Fault α) := do
  message.checkText
  .ok (.stated code (if message.isAbsent then "" else message.plainText) details)

end Evidence.Fault
