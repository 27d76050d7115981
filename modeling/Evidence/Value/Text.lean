import Evidence.Value.Basic

namespace Evidence

variable {α : Type} [Scalar α]

mutual

def Value.plainText : Value α → String
  | .absent => "undefined"
  | .null => "null"
  | .bool b => if b then "true" else "false"
  | .number x => x.text
  | .integer n => toString n
  | .text s => s
  | .list items => Text.join "," (Value.itemTexts items)
  | .object _ | .date => "[object Object]"
  | .map _ => "[object Map]"
  | .set _ => "[object Set]"
  | .callable => "function"
  | .frame f => f.text
  | .event e => e.text
  | .mass m => m.plainText

def Value.itemTexts : List (Value α) → List String
  | [] => []
  | .absent :: rest => "" :: Value.itemTexts rest
  | .null :: rest => "" :: Value.itemTexts rest
  | v :: rest => Value.plainText v :: Value.itemTexts rest

end

mutual

/-- The JSON text of a value. A map or a set is written as an object without fields. -/
def Value.json : Value α → String
  | .absent | .callable => "undefined"
  | .null | .date => "null"
  | .bool b => if b then "true" else "false"
  | .number x => x.json
  | .integer n => toString n
  | .text s => Text.quote s
  | .list items => Text.listed (Value.itemsJson items)
  | .object fields => Text.fielded (Value.fieldsJson fields)
  | .map _ | .set _ => Text.fielded []
  | .frame _ | .event _ => "null"
  | .mass m => m.plainJson

def Value.itemsJson : List (Value α) → List String
  | [] => []
  | .absent :: rest => "null" :: Value.itemsJson rest
  | .callable :: rest => "null" :: Value.itemsJson rest
  | v :: rest => Value.json v :: Value.itemsJson rest

def Value.fieldsJson : List (String × Value α) → List (String × String)
  | [] => []
  | (_, .absent) :: rest => Value.fieldsJson rest
  | (_, .callable) :: rest => Value.fieldsJson rest
  | (key, v) :: rest => (key, Value.json v) :: Value.fieldsJson rest

end

end Evidence
