import Evidence.Number.Text

namespace Evidence

inductive Quantity (α : Type) where
  | finite (x : α)
  | infinite (negative : Bool)
  | nan

/-- Arithmetic with an order, and a binary64 word for each number, which decides its text. What is
defined over it runs on binary64 floats and is reasoned about over the rationals. -/
class Scalar (α : Type) extends
    Zero α, One α, Add α, Sub α, Mul α, Div α, LE α, LT α, NatCast α, OfScientific α where
  decidableLE : DecidableLE α
  decidableLT : DecidableLT α
  toNat? : α → Option Nat
  bits : α → UInt64
  ofBits : UInt64 → Quantity α

attribute [reducible, instance] Scalar.decidableLE Scalar.decidableLT

variable {α : Type} [Scalar α]

def distance (a b : α) : α := if a < b then b - a else a - b

def greater (a b : α) : α := if a < b then b else a

def lesser (a b : α) : α := if b < a then b else a

def sum (xs : List α) : α := xs.foldl (· + ·) 0

namespace Quantity

def word : Quantity α → Binary64
  | .finite x => .ofBits (Scalar.bits x)
  | .infinite negative => .infinite negative
  | .nan => .nan

def isFinite (q : Quantity α) : Bool :=
  match q.word with
  | .finite .. => true
  | _ => false

def text (q : Quantity α) : String := q.word.text

def json (q : Quantity α) : String := if q.isFinite then q.text else "null"

/-- A number that is not one is below nothing, and nothing is below it. -/
def below : Quantity α → Quantity α → Bool
  | .finite x, .finite y => x < y
  | .finite _, .infinite negative => !negative
  | .infinite negative, .finite _ => negative
  | .infinite m, .infinite n => m && !n
  | _, _ => false

def atMost : Quantity α → Quantity α → Bool
  | .finite x, .finite y => x ≤ y
  | .finite _, .infinite negative => !negative
  | .infinite negative, .finite _ => negative
  | .infinite m, .infinite n => m || !n
  | _, _ => false

def rest : Quantity α → Quantity α
  | .finite x => .finite (1 - x)
  | .infinite negative => .infinite !negative
  | .nan => .nan

def toNat? : Quantity α → Option Nat
  | .finite x => Scalar.toNat? x
  | _ => none

def isInteger : Quantity α → Bool
  | .finite x => (Scalar.toNat? x).isSome || (Scalar.toNat? (0 - x)).isSome
  | _ => false

def distanceFrom (q : Quantity α) (x : α) : Quantity α :=
  match q with
  | .finite y => .finite (distance y x)
  | .infinite _ => .infinite false
  | .nan => .nan

end Quantity

def Quantity.ofFloatBits (word : UInt64) : Quantity Float :=
  match Binary64.ofBits word with
  | .finite .. => .finite (Float.ofBits word)
  | .infinite negative => .infinite negative
  | .nan => .nan

instance : Scalar Float where
  zero := 0
  one := 1
  natCast := Float.ofNat
  decidableLE := inferInstance
  decidableLT := inferInstance
  toNat? x := (Binary64.ofBits x.toBits).toNat?
  bits := Float.toBits
  ofBits := Quantity.ofFloatBits

end Evidence
