import Evidence.Cbor.View

namespace Evidence.Cbor

/-- What an item stands for. Integers of eight bytes are told apart from narrower ones, and a float
keeps its binary64 word whatever its width was. -/
inductive Datum where
  | absent
  | null
  | bool (b : Bool)
  | integer (n : Int)
  | wide (n : Int)
  | float (word : UInt64)
  | text (s : String)
  | object (id : Nat)
  deriving DecidableEq

namespace Datum

def ofNat (width n : Nat) : Datum := if width = 8 then .wide n else .integer n

def ofComplement (width n : Nat) : Datum := if width = 8 then .wide (-1 - n) else .integer (-1 - n)

def ofFloat (x : Float) : Datum := .float x.toBits

def ofElement (e : Element) (word : Nat) : Datum :=
  match e with
  | .natural width => ofNat width word
  | .clamped => .integer word
  | .integer width => if width = 8 then .wide (signed width word) else .integer (signed width word)
  | .float width => .float (((binary? width word).getD .nan).toBits)

def isObject : Datum → Bool
  | .object _ => true
  | _ => false

def isMissing : Datum → Bool
  | .absent | .null => true
  | _ => false

def number? : Datum → Option Float
  | .integer n => some (Float.ofInt n)
  | .float word => some (Float.ofBits word)
  | _ => none

def isTruthy : Datum → Bool
  | .absent | .null => false
  | .bool b => b
  | .integer n | .wide n => n != 0
  | .float word => Float.ofBits word != 0 && !(Float.ofBits word).isNaN
  | .text s => s != ""
  | .object _ => true

/-- Whether two data are the same. Numbers are when they are equal, however they were written, and
what is no number is the same as itself. -/
def same (a b : Datum) : Bool :=
  match a.number?, b.number? with
  | some x, some y => x == y || (x.isNaN && y.isNaN)
  | _, _ => a = b

def plainText : Datum → String
  | .absent => "undefined"
  | .null => "null"
  | .bool b => if b then "true" else "false"
  | .integer n | .wide n => toString n
  | .float word => (Binary64.ofBits word).text
  | .text s => s
  | .object _ => ""

def safeKey (key : String) : String := if key = "__proto__" then "__proto_" else key

def keyText? : Datum → Option String
  | .object _ => none
  | d => some (safeKey d.plainText)

end Datum

end Evidence.Cbor
