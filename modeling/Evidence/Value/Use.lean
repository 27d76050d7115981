import Evidence.Value.Text

namespace Evidence

variable {α : Type}

namespace Value

def textField : String := "toString"

mutual

def hasText : Value α → Bool
  | .list items => allHaveText items
  | .object fields => !fields.any (·.1 = textField)
  | _ => true

def allHaveText : List (Value α) → Bool
  | [] => true
  | v :: rest => hasText v && allHaveText rest

end

mutual

def hasJson : Value α → Bool
  | .integer _ | .frame _ | .event _ => false
  | .list items => allHaveJson items
  | .object fields => allFieldsHaveJson fields
  | _ => true

def allHaveJson : List (Value α) → Bool
  | [] => true
  | v :: rest => hasJson v && allHaveJson rest

def allFieldsHaveJson : List (String × Value α) → Bool
  | [] => true
  | (_, v) :: rest => hasJson v && allFieldsHaveJson rest

end

def checkText (v : Value α) : Except Misuse Unit :=
  if v.hasText then .ok () else .error .noText

def iterate (name : String) : Value α → Except Misuse (List (Value α))
  | .list items => .ok items
  | .text s => .ok (Value.text s).items
  | .map entries => .ok (entries.map fun p => .list [p.1, p.2])
  | .set members => .ok members
  | _ => .error (.notIterable name)

def description [Scalar α] (v : Value α) : String :=
  match v with
  | .null => "object null"
  | .bool _ | .number _ => v.broadKind ++ " " ++ v.plainText
  | v => v.broadKind

def pair [Scalar α] (v : Value α) : Except Misuse (Value α × Value α) :=
  match v.iterate v.description with
  | .ok items => .ok ((items[0]?).getD .absent, (items[1]?).getD .absent)
  | .error _ => .error (.notPaired v.description)

/-- Lets a field be taken out of an argument. Null has none; an argument that was not given is one
without fields. -/
def checkTaking (v : Value α) (argument field : String) : Except Misuse Unit :=
  match v with
  | .null => .error (.notTakenApart argument field)
  | _ => .ok ()

def cannotCall (v : Value α) (name function : String) : Misuse :=
  match v.nothing? with
  | some owner => .noFields owner function
  | none => .notCallable (name ++ "." ++ function)

def cannotYield (v : Value α) (name function : String) : Misuse :=
  match v.nothing? with
  | some owner => .noFields owner function
  | none => .notYielding (name ++ "." ++ function)

end Value

end Evidence
