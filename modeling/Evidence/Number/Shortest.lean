import Evidence.Number.Binary64

namespace Evidence

/-- `digits` with the decimal point after the first `point` of them, which may lie outside. -/
structure Decimal where
  digits : List Char
  point : Int

namespace Decimal

def width (n : Nat) : Nat := (Nat.toDigits 10 n).length

/-- The `k` with `10 ^ (k - 1) ≤ num / den < 10 ^ k`. -/
def magnitude (num den : Nat) : Int :=
  if den ≤ num then width (num / den) else 1 - width ((den + num - 1) / num - 1)

def scale (base : Nat) (e : Int) : Nat × Nat := (base.pow e.toNat, base.pow (-e).toNat)

/-- The numbers that round to `significand * 2 ^ exponent`, in quarters of `2 ^ exponent`. -/
structure Interval where
  low : Nat
  value : Nat
  high : Nat
  closed : Bool

/-- Half a step to each side, but a quarter below a power of two, where the steps get shorter.
The ends belong to it when the significand is even. -/
def Interval.around (significand : Nat) (exponent : Int) : Interval where
  low := 4 * significand - (if significand = Binary64.hiddenBit ∧ -1074 < exponent then 1 else 2)
  value := 4 * significand
  high := 4 * significand + 2
  closed := significand % 2 = 0

def Interval.mem (i : Interval) (num den x : Nat) : Bool :=
  if i.closed then i.low * num ≤ x * den && x * den ≤ i.high * num
  else i.low * num < x * den && x * den < i.high * num

def onGrid (i : Interval) (exponent step : Int) : Option Nat :=
  let (up2, down2) := scale 2 (exponent - 2)
  let (up10, down10) := scale 10 step
  let num := up2 * down10
  let den := down2 * up10
  let below := i.value * num / den
  let above := below + 1
  match i.mem num den below, i.mem num den above with
  | false, false => none
  | true, false => some below
  | false, true => some above
  | true, true =>
      let toBelow := i.value * num - below * den
      let toAbove := above * den - i.value * num
      if toBelow < toAbove || (toBelow == toAbove && below % 2 == 0) then some below
      else some above

def trimZeros (digits : List Char) : List Char := (digits.reverse.dropWhile (· == '0')).reverse

/-- The shortest decimal that reads back as `significand * 2 ^ exponent`, for a positive
significand of a binary64 word. Seventeen digits always suffice. -/
def shortest (significand : Nat) (exponent : Int) : Decimal :=
  let (up, down) := scale 2 exponent
  let k := magnitude (significand * up) down
  let i := Interval.around significand exponent
  let found := (List.range' 1 17).findSome? fun (n : Nat) =>
    (onGrid i exponent (k - n)).map fun d => (d, k - n)
  match found with
  | none => ⟨[], 0⟩
  | some (d, step) =>
      let digits := Nat.toDigits 10 d
      ⟨trimZeros digits, digits.length + step⟩

end Decimal

end Evidence
