import Evidence.Cbor.Reading

namespace Evidence.Cbor

namespace Form

def fixedNames : Form → List String
  | .map _ | .set _ => ["size"]
  | .bytes _ => ["length", "byteLength", "byteOffset", "buffer", "parent", "offset"]
  | .view _ => ["length", "byteLength", "byteOffset", "buffer"]
  | .boxed (.text _) => ["length"]
  | .pattern .. =>
      ["source", "flags", "dotAll", "global", "hasIndices", "ignoreCase", "multiline", "sticky",
        "unicode", "unicodeSets"]
  | _ => []

def isNumeral (name : String) : Bool :=
  name = "-0" || (Binary64.ofBits (Datum.readFloat name).toBits).text = name

def placed (items : List Datum) (i : Nat) (d : Datum) : List Datum :=
  if i < items.length then items.set i d
  else items ++ List.replicate (i - items.length) .absent ++ [d]

end Form

namespace Node

def putField (n : Node) (name : String) (d : Datum) : Node :=
  { n with fields := Record.arrange (Record.put name d n.fields) }

def putElement? (store : Store) (n : Node) (v : View) (name : String) (d : Datum) :
    Option Node := do
  let word ← store.wordOf? v.element d
  match Record.index? name with
  | some i => return if i < v.count then { n with form := .view (v.put i word) } else n
  | none => return n

/-- The object with a field under a name, if it takes one. Items of a list become items and elements
of a view become numbers; what an object tells of itself cannot be changed. -/
def put? (store : Store) (n : Node) (name : String) (d : Datum) : Option Node :=
  if n.form.fixedNames.contains name then none
  else
    match n.form, Record.index? name with
    | .list items, some i => some { n with form := .list (Form.placed items i d) }
    | .list items, none =>
        if name = Form.lengthName then do
          let size ← Datum.wholeFloat? (← store.float? d)
          if size < 0 ∨ 4294967295 < size then none
          let kept := items.take size.toNat
          return { n with
            form := .list (kept ++ List.replicate (size.toNat - kept.length) .absent) }
        else some (n.putField name d)
    | .boxed (.text s), some i =>
        if i < (Datum.unitTexts s).length then none else some (n.putField name d)
    | .view v, _ => if Form.isNumeral name then n.putElement? store v name d else n.putField name d
    | .bytes b, _ =>
        if Form.isNumeral name then do
          let filled ← n.putElement? store ⟨.natural 1, b⟩ name d
          match filled.form with
          | .view v => return { filled with form := .bytes v.span }
          | _ => return filled
        else n.putField name d
    | .complaint (some _), _ =>
        if name = "message" then some { n with form := .complaint (some d) }
        else some (n.putField name d)
    | _, _ => some (n.putField name d)

end Node

namespace Reader

def put (target : Datum) (name : String) (d : Datum) : Reader Unit := do
  match target with
  | .object id =>
      let store := (← get).store
      let n ← ((← node target).put? store name d).getM
      modify fun s => { s with store := s.store.set id n }
  | _ => failure

def fill (target source : Datum) : Reader Unit := do
  (← get).store.own source |>.forM fun field => put target field.1 field.2

def made (d : Datum) : Reader Datum :=
  match d with
  | .absent | .null => make .plain []
  | .object _ => return d
  | d => make (.boxed d) []

end Reader

end Evidence.Cbor
