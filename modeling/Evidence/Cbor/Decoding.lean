import Evidence.Cbor.Bundling
import Evidence.Cbor.Layout
import Evidence.Cbor.Meaning
import Evidence.Cbor.Packing
import Evidence.Cbor.Sharing

namespace Evidence.Cbor

namespace Reader

def ends (d : Datum) : Bool := d = Store.stop || d = .text objectText

def unlessEnd (isOpen : Bool) (read : Reader Datum) : Reader (Option Datum) := do
  let d ← read
  return if isOpen && ends d then none else some d

def Argument.isOpen : Argument → Bool
  | .unbounded => true
  | .given .. => false

def pair {κ : Type} (isOpen : Bool) (key? : Datum → Option κ) (read : Reader Datum) :
    Reader (Option (κ × Datum)) := do
  match ← unlessEnd isOpen read with
  | none => return none
  | some d =>
      let key ← (key? d).getM
      return some (key, ← read)

def announce : Argument → Reader Unit
  | .unbounded => return
  | .given n _ => do
      let s ← get
      if s.size < s.announced + n then failure
      set { s with announced := s.announced + n }

def list (read : Reader Datum) (a : Argument) : Reader Datum := do
  announce a
  makeList (← all (unlessEnd (Argument.isOpen a) read) a)

def entries (pairs : List (Datum × Datum)) : List (Datum × Datum) :=
  pairs.foldl (fun known p =>
    if known.any fun q => q.1.same p.1 then
      known.map fun q => if q.1.same p.1 then (q.1, p.2) else q
    else known ++ [p]) []

def map (read : Reader Datum) (a : Argument) : Reader Datum := do
  let isOpen := Argument.isOpen a
  if (← get).keepsKeys then
    modify fun s => { s with keepsKeys := false }
    make (.map (entries (← all (pair isOpen some read) a))) []
  else makeObject (← all (pair isOpen Datum.keyText? read) a)

/-- The item whose first map keeps its keys. Within an item that still waits for its first map this
asks for nothing new. -/
def keepingKeys (read : Reader Datum) : Reader Datum := do
  if (← get).keepsKeys then read
  else
    modify fun s => { s with keepsKeys := true }
    let d ← read
    modify fun s => { s with keepsKeys := false }
    return d

def float (width n : Nat) : Reader Datum := do
  return .float (← (binary? width n).getM).toBits

def simpleItem : Nat → Reader Datum
  | 20 => return .bool false
  | 21 => return .bool true
  | 22 => return .null
  | 23 => return .absent
  | n => simple n

def underTag (read : Reader Datum) (tag : Nat) : Reader Datum := do
  match tag with
  | 28 => shared read
  | 51 => withTable read
  | 259 => keepingKeys read
  | 57337 => withBundle read
  | 57342 => withLayouts read
  | 57343 => inlineRecord read
  | _ =>
      let d ← read
      match tag with
      | 6 => packed d
      | 14 => bundled tag false d
      | 15 => bundled tag true d
      | 29 => reference d
      | 105 => listedRecord d
      | 1399353956 => kept d
      | _ =>
          match positionIn? headRanges tag, positionIn? tailRanges tag with
          | some place, _ => headed place d
          | _, some place => tailed place d
          | none, none => meant tag d

def tagged (read : Reader Datum) (tag : Nat) : Reader Datum := do
  match (← get).layouts.lookup (tag % layoutCount) with
  | some keys => if leastLayoutTag ≤ tag then record read keys else underTag read tag
  | none => underTag read tag

def anyItem : (depth : Nat) → Reader Datum
  | 0 => failure
  | depth + 1 => do
      let opening := (← byte).toNat
      let a ← argument (opening % 32)
      match opening / 32, a with
      | 0, .given n width => return .ofNat width n
      | 1, .given n width => return .ofComplement width n
      | 2, .given n _ => make (.bytes (← span n)) []
      | 3, .given n _ => .text <$> text n
      | 4, a => list (anyItem depth) a
      | 5, a => map (anyItem depth) a
      | 6, .given tag _ => if tag < 1 <<< 32 then tagged (anyItem depth) tag else failure
      | 7, .given n width => if width ≤ 1 then simpleItem n else float width n
      | 7, .unbounded => return Store.stop
      | _, _ => failure

end Reader

def Reading.isAtEnd (s : Reading) : Bool :=
  match s.bundle with
  | none => s.rest.isEmpty
  | some b => Float.ofNat s.position < b.stop && b.stop == Float.ofNat s.size

def greatestDepth : Nat := 6000

def decode (input : List UInt8) : Option (Datum × Store) := do
  let (d, s) ← (Reader.anyItem greatestDepth).run (.ofBytes input)
  if s.isAtEnd then some (d, s.store) else none

end Evidence.Cbor
