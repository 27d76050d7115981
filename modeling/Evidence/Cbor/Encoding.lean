import Evidence.Text.Utf8
import Evidence.Value.Basic

namespace Evidence.Cbor

def bigEndian : Nat → Nat → List UInt8
  | 0, _ => []
  | width + 1, n => bigEndian width (n / 256) ++ [UInt8.ofNat n]

def opening (major info : Nat) : UInt8 := UInt8.ofNat (32 * major + info)

def longHeader (major n : Nat) : List UInt8 :=
  if n < 65536 then opening major 25 :: bigEndian 2 n
  else if n < 4294967296 then opening major 26 :: bigEndian 4 n
  else opening major 27 :: bigEndian 8 n

def header (major n : Nat) : List UInt8 :=
  if n < 24 then [opening major n]
  else if n < 256 then [opening major 24, UInt8.ofNat n]
  else longHeader major n

def wideHeader (major n : Nat) : List UInt8 := opening major 27 :: bigEndian 8 n

def encodeInteger (n : Int) : List UInt8 :=
  if n < 0 then wideHeader 1 (-1 - n).toNat else wideHeader 0 n.toNat

def encodeText (s : String) : List UInt8 := header 3 (Utf8.encode s).length ++ Utf8.encode s

variable {α : Type} [Scalar α]

def encodeFloat (word : UInt64) : List UInt8 := opening 7 27 :: bigEndian 8 word.toNat

def encodeQuantity (x : Quantity α) : List UInt8 :=
  match x with
  | .finite y =>
      match Scalar.toNat? y with
      | some n => if n < 4294967296 then header 0 n else encodeFloat (Scalar.bits y)
      | none => encodeFloat (Scalar.bits y)
  | _ => encodeFloat x.word.toBits

mutual

/-- The bytes of a value. Headers are as short as they can be, except that an object always counts
its fields in two bytes, or more where two are too few. What is not plain is written as null. -/
def encode : Value α → List UInt8
  | .absent => [opening 7 23]
  | .bool b => [opening 7 (if b then 21 else 20)]
  | .number x => encodeQuantity x
  | .integer n => encodeInteger n
  | .text s => encodeText s
  | .list items => header 4 items.length ++ encodeItems items
  | .object fields => longHeader 5 fields.length ++ encodeFields fields
  | _ => [opening 7 22]

def encodeItems : List (Value α) → List UInt8
  | [] => []
  | v :: rest => encode v ++ encodeItems rest

def encodeFields : List (String × Value α) → List UInt8
  | [] => []
  | (key, v) :: rest => encodeText key ++ encode v ++ encodeFields rest

end

end Evidence.Cbor
