import Evidence.Cbor.Filling

namespace Evidence.Cbor

def packedTag : Nat := 6

def headRanges : List (Nat × Nat × Nat) :=
  [(225, 255, 224), (28704, 32767, 28672), (1879052288, 2147483647, 1879048192)]

def tailRanges : List (Nat × Nat × Nat) :=
  [(216, 223, 216), (27647, 28671, 27639), (1811940352, 1879048191, 1811939328)]

def positionIn? (ranges : List (Nat × Nat × Nat)) (tag : Nat) : Option Nat :=
  (ranges.find? fun (least, greatest, _) => least ≤ tag ∧ tag ≤ greatest).map fun (_, _, start) =>
    tag - start

namespace Reader

def headsField : String := "prefixes"

def tailsField : String := "suffixes"

def table : Reader Datum := do (← get).table.getM

/-- The item after a table for it. The table hides an earlier one as far as it reaches, and stays in
use; one inside its heads or tails takes its place before those are known. -/
def withTable (read : Reader Datum) : Reader Datum := do
  if (← byte) != 0x84 then failure
  let given ← read
  let values ← ask fun store => store.list? given
  if values.isEmpty then failure
  let current ← match (← get).table with
    | none => pure given
    | some former => do
        let others ← ask fun store => store.list? former
        makeList (values ++ others.drop values.length)
  modify fun s => { s with table := some current }
  put current headsField (← read)
  let current ← table
  put current tailsField (← read)
  read

def simple (n : Nat) : Reader Datum := do
  match ← item n (← table) with
  | .absent => failure
  | d => return d

/-- The value that a number refers to: the first sixteen have simple items of their own, and the
others are counted forwards and backwards in turn. -/
def packed (d : Datum) : Reader Datum := do
  match (← get).table with
  | none => makeLabelled packedTag d
  | some values =>
      let x ← d.number?.getM
      let place := if 0 ≤ x then 16 + 2 * x else 16 + (-2 * x - 1)
      part (Datum.ofFloat place).plainText values

def joined (head tail : Datum) : Reader Datum := do
  match head with
  | .text _ => ask fun store => store.sum? head tail
  | _ =>
      let store := (← get).store
      match store.list? head with
      | some items => makeList (items ++ (store.list? tail).getD [tail])
      | none => makeObject (store.own head ++ store.own tail)

def headed (place : Nat) (d : Datum) : Reader Datum := do
  joined (← item place (← part headsField (← table))) d

def tailed (place : Nat) (d : Datum) : Reader Datum := do
  joined d (← item place (← part tailsField (← table)))

end Reader

end Evidence.Cbor
