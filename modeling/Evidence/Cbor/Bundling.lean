import Evidence.Cbor.Reading

namespace Evidence.Cbor

namespace Strand

def between (start stop : Nat) : List Char → List Char
  | [] => []
  | c :: cs =>
      let width := (Text.unitsOf c).length
      let others := between (start - width) (stop - width) cs
      if start = 0 ∧ 0 < stop then c :: others else others

def placed (count : Nat) (x : Float) : Nat :=
  if x.isNaN then 0
  else if x.isInf then if x < 0 then 0 else count
  else
    let place := wholePart x
    if place < 0 then (count + place).toNat else min count place.toNat

def taken (s : Strand) (first last : Float) : String :=
  let count := (Text.units s.text).length
  String.ofList (between (placed count first) (placed count last) s.text)

end Strand

namespace Reader

/-- The byte at a place. Between two bytes and before the first one there is none, which is the
same as zero; from the end of the input on nothing can be read. -/
def byteAt? (input : List UInt8) (place : Float) : Option UInt8 :=
  if place < Float.ofNat input.length then
    match Datum.wholeFloat? place with
    | some i => some (if i < 0 then 0 else input.getD i.toNat 0)
    | none => some 0
  else none

def sizeAt? (input : List UInt8) (place : Float) : Option (Nat × Float) := do
  let info := (← byteAt? input place).toNat % 32
  let width := if 24 ≤ info ∧ info < 27 then 1 <<< (info - 24) else 0
  let bytes ← (List.range width).mapM fun i => byteAt? input (place + Float.ofNat (i + 1))
  return (if width = 0 then info else highFirst bytes, place + Float.ofNat (width + 1))

def strandAt (place : Float) : Reader (Strand × Float) := do
  let input := (← get).input
  let (size, start) ← (sizeAt? input place).getM
  let bytes := (input.drop ((Datum.wholeFloat? start).getD 0).toNat).take size
  return (⟨(textOf size bytes).toList, .integer 0⟩, start + Float.ofNat size)

def withBundle (read : Reader Datum) : Reader Datum := do
  let n ← count
  let start := (← get).position
  let distance ← read
  let place ← ask fun store => do store.float? (← store.sum? (.integer start) distance)
  let _ ← many (do take (← count)) (n - 2)
  let (first, between) ← strandAt place
  let (second, stop) ← strandAt between
  modify fun s => { s with bundle := some ⟨first, second, stop⟩ }
  read

/-- The next text of a strand of the bundle, by its length. The length is added to the place where
the text before it ended. -/
def bundled (tag : Nat) (fromSecond : Bool) (d : Datum) : Reader Datum := do
  match (← get).bundle with
  | none => makeLabelled tag d
  | some b =>
      let s := if fromSecond then b.second else b.first
      let place ← ask fun store => store.sum? s.place d
      let first ← ask fun store => store.float? s.place
      let last ← ask fun store => store.float? place
      let left : Strand := { s with place := place }
      let bundle := if fromSecond then { b with second := left } else { b with first := left }
      modify fun r => { r with bundle := some bundle }
      return .text (s.taken first last)

end Reader

end Evidence.Cbor
