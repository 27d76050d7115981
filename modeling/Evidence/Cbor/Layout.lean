import Evidence.Cbor.Filling
import Evidence.Cbor.Key

namespace Evidence.Cbor

def leastLayoutTag : Nat := 57337

def firstLayout : Nat := 57344

def layoutCount : Nat := 8192

def singleUses : Nat := 2

def greatestRecord : Nat := 65536

namespace Layout

def usesField : String := "slowReads"

def readerField : String := "read"

def settledField : String := "compiledReader"

def countField : String := "propertyCount"

def nextField : String := "next"

end Layout

namespace Reader

def prepare (keys : Datum) : Reader Unit := do
  put keys Layout.usesField (.integer 0)
  put keys Layout.readerField (← make (.reader none) [])

def define (id keys : Datum) : Reader Unit := do
  let place ← ask fun store => (store.float? id).map (· - Float.ofNat firstLayout)
  prepare keys
  match Datum.wholeFloat? place with
  | some n => if 0 ≤ n then modify fun s => { s with layouts := (n.toNat, keys) :: s.layouts }
  | none => return

def key (keys : Datum) (i : Nat) : Reader String := do (← item i keys).keyText?.getM

def fields (read : Reader Datum) (keys : Datum) :
    (count first : Nat) → Reader (List (String × Datum))
  | 0, _ => return []
  | n + 1, i => do
      let k ← key keys i
      let d ← read
      return (k, d) :: (← fields read keys n (i + 1))

def settledFields (read : Reader Datum) (keys : List (String × Option Datum)) :
    Reader (List (String × Datum)) :=
  keys.mapM fun p => do
    match p.2 with
    | some d => return (p.1, d)
    | none => return (p.1, ← read)

def settledKeys? (count : Nat) :
    (steps : Nat) → Datum → Reader (Option (List (String × Option Datum)))
  | 0, _ => failure
  | steps + 1, reader => do
      if !reader.isTruthy then return none
      if (← part Layout.countField reader).same (.integer count) then
        match (← node reader).form with
        | .reader (some keys) => return some keys
        | _ => failure
      else settledKeys? count steps (← part Layout.nextField reader)

/-- The keys of the first fields, settled. Only a list settles them all. Elements of a view come out
as numbers: floats as ones that are none, which then is their key, while other elements make no
keys. -/
def settle (keys : Datum) (count : Nat) : Reader (List (String × Option Datum)) := do
  let n ← node keys
  if n.has "map" || (n.has "slice" && n.form.items.length != count) then failure
  match n.form with
  | .list items =>
      (items.take count).mapM fun d => return (← ask fun store => store.settledKey? d, none)
  | .bytes _ | .view _ =>
      if n.form.items.length = 0 ∨ count = 0 then return []
      match n.form with
      | .view ⟨.float _, _⟩ => return [("NaN", some (.ofFloat Datum.notNumber))]
      | _ => failure
  | _ => failure

def countUse (keys : Datum) : Reader Bool := do
  let uses ← part Layout.usesField keys
  match ← ask fun store => store.plain? uses with
  | .wide n =>
      put keys Layout.usesField (.wide (n + 1))
      return (singleUses : Int) ≤ n
  | uses =>
      let x ← uses.plainFloat?.getM
      put keys Layout.usesField (.ofFloat (x + 1))
      return Float.ofNat singleUses ≤ x

/-- An object that leaves its keys out. They are given once, as a layout under a number, and the
object that holds them also keeps how often they were used and the readers for which they are
settled. -/
def record (read : Reader Datum) (keys : Datum) : Reader Datum := do
  let reader ← part Layout.readerField keys
  if !reader.isTruthy then prepare keys
  else
    match (← node reader).form with
    | .reader none => pure ()
    | _ => failure
  let info := (← byte).toNat % 32
  let n ← if info < 24 then pure info else if info < 27 then word (1 <<< (info - 24)) else failure
  let former ← part Layout.settledField keys
  match ← settledKeys? n ((← get).store.nodes.size + 1) former with
  | some settled => makeObject (← settledFields read settled)
  | none =>
      if ← countUse keys then
        let settled ← settle keys n
        let next := if former.isTruthy then [(Layout.nextField, former)] else []
        let fields := next ++ [(Layout.countField, Datum.integer n)]
        put keys Layout.settledField (← make (.reader (some settled)) fields)
        makeObject (← settledFields read settled)
      else makeObject (← fields read keys n 0)

def inlineRecord (read : Reader Datum) : Reader Datum := do
  let n ← count
  let id ← read
  let keys ← read
  define id keys
  makeObject (← fields read keys (n - 2) 0)

def layouts (read : Reader Datum) : (count : Nat) → (id : Datum) → Reader Unit
  | 0, _ => return
  | n + 1, id => do
      let x ← ask fun store => store.float? id
      define id (← read)
      layouts read n (.ofFloat (x + 1))

def withLayouts (read : Reader Datum) : Reader Datum := do
  let n ← count
  let id ← read
  layouts read (n - 2) id
  read

def listedFields (d size keys : Datum) :
    (steps : Nat) → (i : Nat) → Reader (List (String × Datum))
  | 0, _ => failure
  | steps + 1, i => do
      if ← ask fun store => store.exceeds? size (i + 2) then
        let k ← key keys i
        let value ← item (i + 2) d
        return (k, value) :: (← listedFields d size keys steps (i + 1))
      else return []

def listedRecord (d : Datum) : Reader Datum := do
  let size ← part Form.lengthName d
  let keys ← item 1 d
  define (← item 0 d) keys
  makeObject (← listedFields d size keys greatestRecord 0)

def kept (d : Datum) : Reader Datum := do
  let s ← get
  let size := (s.layouts.filter (·.1 < layoutCount)).foldl (fun n p => max n (p.1 + 1)) 0
  let layouts ← makeList <| (List.range size).map fun i => (s.layouts.lookup i).getD .absent
  makeObject [("packedValues", s.table.getD .null), ("structures", layouts), ("version", d)]

end Reader

end Evidence.Cbor
