import Evidence.Number.Shortest

namespace Evidence

namespace Decimal

def zeros (n : Nat) : List Char := List.replicate n '0'

def withExponent (digits : List Char) (exponent : Int) : List Char :=
  let mantissa := match digits with
    | d :: e :: rest => d :: '.' :: e :: rest
    | short => short
  mantissa ++ ['e', if exponent < 0 then '-' else '+'] ++ Nat.toDigits 10 exponent.natAbs

def plain (d : Decimal) : List Char :=
  let n : Int := d.digits.length
  if n ≤ d.point ∧ d.point ≤ 21 then d.digits ++ zeros (d.point - n).toNat
  else if 0 < d.point ∧ d.point ≤ 21 then
    d.digits.take d.point.toNat ++ '.' :: d.digits.drop d.point.toNat
  else if -6 < d.point ∧ d.point ≤ 0 then '0' :: '.' :: (zeros (-d.point).toNat ++ d.digits)
  else withExponent d.digits (d.point - 1)

def roundHalfUp (num den : Nat) : Nat := (2 * num + den) / (2 * den)

def fixed (places num den : Nat) : List Char :=
  let digits := Nat.toDigits 10 (roundHalfUp (num * Nat.pow 10 places) den)
  let digits := zeros (places + 1 - digits.length) ++ digits
  digits.take (digits.length - places) ++ '.' :: digits.drop (digits.length - places)

def scientific (places num den : Nat) : List Char :=
  if num = 0 then withExponent (zeros (places + 1)) 0
  else
    let e := magnitude num den - 1
    let (up, down) := scale 10 (e - places)
    let n := roundHalfUp (num * down) (den * up)
    if n < Nat.pow 10 (places + 1) then withExponent (Nat.toDigits 10 n) e
    else withExponent (Nat.toDigits 10 (n / 10)) (e + 1)

end Decimal

namespace Binary64

def infinityText (negative : Bool) : String := if negative then "-Infinity" else "Infinity"

def signed (negative : Bool) (digits : List Char) : String :=
  String.ofList (if negative then '-' :: digits else digits)

def text : Binary64 → String
  | .nan => "NaN"
  | .infinite negative => infinityText negative
  | .finite negative significand exponent =>
      if significand = 0 then "0"
      else signed negative (Decimal.shortest significand exponent).plain

/-- The text with `places` decimal places; `1e21` and above are written by `text`. A negative
number keeps its sign when it rounds to zero, but zero itself has none. -/
def fixed (places : Nat) : Binary64 → String
  | .finite negative significand exponent =>
      let (up, down) := Decimal.scale 2 exponent
      let num := significand * up
      if Nat.pow 10 21 * down ≤ num then text (.finite negative significand exponent)
      else signed (negative && significand != 0) (Decimal.fixed places num down)
  | other => text other

def scientific (places : Nat) : Binary64 → String
  | .finite negative significand exponent =>
      let (up, down) := Decimal.scale 2 exponent
      signed (negative && significand != 0) (Decimal.scientific places (significand * up) down)
  | other => text other

end Binary64

end Evidence
