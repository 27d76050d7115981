import Evidence.Cbor.Viewing
import Evidence.Moment.Reading
import Evidence.Number.Exponential

namespace Evidence.Cbor

def rounded (x : Float) : Float :=
  let below := x.floor
  if x - below < 0.5 then below else below + 1

def momentAt (x : Float) : Option Int :=
  if x.abs ≤ Float.ofInt Moment.greatest then some (wholePart x) else none

def distinct (items : List Datum) : List Datum :=
  items.foldl (fun members d => if members.any d.same then members else members ++ [d]) []

def refusedNames : List String := [
  "valueOf", "hasOwnProperty", "propertyIsEnumerable", "toLocaleString", "__defineGetter__",
  "__defineSetter__", "__lookupGetter__", "__lookupSetter__", "__proto__"]

namespace Reader

def dated (d : Datum) : Reader Datum := do
  let store := (← get).store
  match store.form? d with
  | some (.date moment) => make (.date moment) []
  | _ =>
      match ← (store.operand? d).getM with
      | .text s => make (.date (Moment.ofText? s)) []
      | p => make (.date (momentAt (← p.plainFloat?.getM))) []

def datedBySeconds (d : Datum) : Reader Datum := do
  let x ← ask fun store => store.float? d
  make (.date (momentAt (rounded (x * 1000)))) []

def magnitudeFrom (d size : Datum) : (steps : Nat) → (i : Nat) → (n : Int) → Reader Int
  | 0, _, _ => failure
  | steps + 1, i, n => do
      if ← ask fun store => store.exceeds? size i then
        let p ← item i d
        magnitudeFrom d size steps (i + 1) (256 * n + (← ask fun store => store.whole? p))
      else return n

/-- The whole number that the bytes of a datum write. What has no bytes writes zero; what claims to
have more of them than it has parts writes none. -/
def magnitude (d : Datum) : Reader Int := do
  match (← get).store.form? d with
  | some (.bytes s) => return highFirst s.bytes
  | _ =>
      let size ← part "byteLength" d
      magnitudeFrom d size (((← get).store.own d).length + 1) 0 0

def decimalFraction (d : Datum) : Reader Datum := do
  let mantissa ← item 1 d
  let exponent ← item 0 d
  let text ← ask fun store => do store.sum? (← store.sum? mantissa (.text "e")) exponent
  return .ofFloat (← ask fun store => store.float? text)

def binaryFraction (d : Datum) : Reader Datum := do
  let mantissa ← item 1 d
  let exponent ← item 0 d
  let x ← ask fun store => store.float? mantissa
  let y ← ask fun store => store.float? exponent
  return .ofFloat (x * Exponential.exp (y * Exponential.logOfTwo))

def textOr (default : String) (d : Datum) : Reader String :=
  match d with
  | .absent => return default
  | d => ask fun store => store.text? d

def pattern (source flags : Datum) : Reader Datum := do
  match (← get).store.form? source, flags with
  | some (.pattern ..), .absent => return source
  | form, flags =>
      let sourceText ← match form with
        | some (.pattern p _) => pure p
        | _ => textOr "" source
      let flagsText ← textOr "" flags
      if Pattern.isValid sourceText flagsText then make (.pattern sourceText flagsText) []
      else failure

def complaint (message : Datum) : Reader Datum := do
  match message with
  | .absent => make (.complaint none) []
  | d => make (.complaint (some (.text (← ask fun store => store.text? d)))) []

def ofSort (d : Datum) : Reader Datum := do
  let given ← item 0 d
  let name ← ask fun store => store.text? given
  let first ← item 1 d
  let second ← item 2 d
  if name = "constructor" then made first
  else if name = Node.textField then return .text "[object Undefined]"
  else if name = "isPrototypeOf" then if first.isObject then failure else return .bool false
  else if refusedNames.contains name then failure
  else if name = "RegExp" then pattern first second
  else complaint first

def setOf (d : Datum) : Reader Datum := do
  if d.isMissing then make (.set []) []
  else make (.set (distinct (← (← yielded d).getM))) []

def selfDescription : Nat := 55799

def meant (tag : Nat) (d : Datum) : Reader Datum := do
  if tag = selfDescription ∧ d ≠ .absent then return d
  match tag, viewOf? tag with
  | 0, _ => dated d
  | 1, _ => datedBySeconds d
  | 2, _ => return .wide (← magnitude d)
  | 3, _ => return .wide (-1 - (← magnitude d))
  | 4, _ => decimalFraction d
  | 5, _ => binaryFraction d
  | 27, _ => ofSort d
  | 258, _ => setOf d
  | _, some (e, order) => viewed e order d
  | _, none => makeLabelled tag d

end Reader

end Evidence.Cbor
