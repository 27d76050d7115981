import Evidence.Text.Hex

namespace Evidence.Digits

def isDecimal (c : Char) : Bool := '0'.toNat ≤ c.toNat && c.toNat ≤ '9'.toNat

def isDigit (base : Nat) (c : Char) : Bool := (Hex.value? c).any (· < base)

def read (base : Nat) (cs : List Char) : Nat :=
  cs.foldl (fun n c => base * n + (Hex.value? c).getD 0) 0

end Evidence.Digits
