import Evidence.Failure

namespace Evidence

namespace Text

def unitTextsOf (c : Char) : List String :=
  match unitsOf c with
  | [_] => [String.singleton c]
  | halves => halves.map fun _ => ""

def unitTexts (s : String) : List String := s.toList.flatMap unitTextsOf

end Text

namespace Value

variable {α : Type} [Scalar α]

def listProperty (name : String) (items : List (Value α)) : Value α :=
  if name = "length" then .ofNat items.length
  else ((Record.index? name).bind (items[·]?)).getD .absent

def property (name : String) (v : Value α) : Value α :=
  match v, name with
  | .frame f, "size" => .ofNat f.size
  | .event e, "size" => .ofNat e.size
  | .event e, "elements" => .list (e.elements.map Hypothesis.toValue)
  | .mass m, "size" => .ofNat m.size
  | .map entries, "size" => .ofNat entries.length
  | .set members, "size" => .ofNat members.length
  | .list items, name => listProperty name items
  | .text s, name => listProperty name ((Text.unitTexts s).map .text)
  | v, name => v.field name

def ask (name : String) (v : Value α) : Except Misuse (Value α) :=
  match v.nothing? with
  | some owner => .error (.noFields owner name)
  | none => .ok (v.property name)

/-- Whether a value is the same key as another. A value with parts is no other than itself, so that
two of them are never the same. -/
def isSameKey : Value α → Value α → Bool
  | .absent, .absent | .null, .null => true
  | .bool b, .bool c => b = c
  | .number x, .number y => x.text = y.text
  | .integer m, .integer n => m = n
  | .text s, .text t => s = t
  | _, _ => false

def putNothing (key : Value α) (entries : List (Value α × Value α)) :
    List (Value α × Value α) :=
  if entries.any (·.1.isSameKey key) then
    entries.map fun p => if p.1.isSameKey key then (p.1, .absent) else p
  else entries ++ [(key, .absent)]

def count? : Value α → Option Nat
  | .number x => x.toNat?
  | _ => none

def askText (name : String) (v : Value α) : Except Misuse String :=
  match v with
  | .absent | .null | .object _ =>
      if v.hasText ∧ ¬ v.isNothing then .ok v.plainText
      else .error (v.cannotCall name textField)
  | v => do
      v.checkText
      .ok v.plainText

def askJson (v : Value α) : Except Misuse (Value α) :=
  match v with
  | .absent | .callable => .ok .absent
  | v => if v.hasJson then .ok (.text v.json) else .error .noJson

def expectMass (v : Value α) (name function : String) : Except (Failure α) (MassFunction α) :=
  match v with
  | .mass m => .ok m
  | v => .error (.misuse (v.cannotCall name function))

def expectYield (v : Value α) (name function : String) : Except (Failure α) (MassFunction α) :=
  match v with
  | .mass m => .ok m
  | v => .error (.misuse (v.cannotYield name function))

end Value

end Evidence
