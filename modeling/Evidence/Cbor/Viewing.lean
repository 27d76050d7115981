import Evidence.Cbor.Filling

namespace Evidence.Cbor.Reader

def yielded (d : Datum) : Reader (Option (List Datum)) := do
  match d with
  | .text s => return some (s.toList.map fun c => .text (String.singleton c))
  | d =>
      match (← get).store.form? d with
      | some (.list items) => return some items
      | some (.set members) => return some members
      | some (.map entries) => return some (← entries.mapM fun p => makeList [p.1, p.2])
      | some (.boxed (.text s)) => return some (s.toList.map fun c => .text (String.singleton c))
      | some (.bytes s) => return some (Form.bytes s).items
      | some (.view v) => return some (Form.view v).items
      | _ => return none

def greatestSize : Nat := 17179869184

def greatestKept : Nat := 65536

def counted (e : Element) (d : Datum) : Reader Nat := do
  let x ← ask fun store => store.float? d
  if x.isInf then failure
  let n := wholePart x
  if n < 0 ∨ (greatestSize : Int) < n * e.width then failure
  return min n.toNat greatestKept

def countedItems (e : Element) (d : Datum) : Reader (List Datum) := do
  let x ← ask fun store => do store.float? (← store.get? Form.lengthName d)
  if x ≤ 0 then return []
  let n ← counted e (.ofFloat x)
  (List.range n).mapM fun i => item i d

/-- The elements that a datum is turned into. A plain one only says how many there are. Exact
elements are made of exact ones only. -/
def elements (e : Element) (source : Datum) : Reader View := do
  let convert (items : List Datum) : Reader View :=
    View.ofWords e <$> items.mapM fun d => ask fun store => store.wordOf? e d
  match source with
  | .object _ =>
      match (← node source).form with
      | .bytes _ => if e.isExact then failure
      | .view v => if e.isExact != v.element.isExact then failure
      | _ => pure ()
      match ← yielded source with
      | some items => convert items
      | none => convert (← countedItems e source)
  | d => return .ofWords e (List.replicate (← counted e d) 0)

def checkPlace (e : Element) (d : Datum) : Reader Unit := do
  if e.width ≠ 1 then
    let x ← ask fun store => do store.float? (← store.get? "byteOffset" d)
    if wrapped 4 (wholePart x) % e.width ≠ 0 then failure

def claimed (e : Element) (d : Datum) : Reader View := do
  checkPlace e d
  let source ← part "buffer" d
  let _ ← ask fun store => do store.float? (← store.get? "byteLength" d)
  elements e source

/-- A view of a datum. Byte strings and the bytes of views are seen in place. Anything else may have
a field for its bytes, and what stands there is turned into elements one by one. -/
def viewed (e : Element) (order : ByteOrder) (d : Datum) : Reader Datum := do
  if d.isMissing then failure
  let view ← match order, (← get).store.form? d with
    | .low, some (.bytes s) => (View.low? e s).getM
    | .low, some (.view v) => (View.low? e v.span).getM
    | .low, _ => claimed e d
    | .high, some (.bytes s) => pure (View.high e s.bytes s.size)
    | .high, some (.view v) => pure (View.high e v.span.bytes v.count)
    | .high, _ => failure
  make (.view view) []

end Evidence.Cbor.Reader
