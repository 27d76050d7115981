import Evidence.Number.Digits
import Evidence.Number.Scalar
import Evidence.Text.Blank

namespace Evidence

namespace Decimal

def exponent? : List Char → Option Int
  | [] => some 0
  | e :: cs =>
      let (sign, digits) : Int × List Char := match cs with
        | '-' :: ds => (-1, ds)
        | '+' :: ds => (1, ds)
        | ds => (1, ds)
      if (e = 'e' ∨ e = 'E') ∧ digits ≠ [] ∧ digits.all Digits.isDecimal then
        some (sign * Digits.read 10 digits)
      else none

def literal? (cs : List Char) : Option (Nat × Int) :=
  let whole := cs.takeWhile Digits.isDecimal
  let (fraction, rest) := match cs.dropWhile Digits.isDecimal with
    | '.' :: rest => (rest.takeWhile Digits.isDecimal, rest.dropWhile Digits.isDecimal)
    | rest => ([], rest)
  if whole ++ fraction = [] then none
  else (exponent? rest).map fun e => (Digits.read 10 (whole ++ fraction), e - fraction.length)

def base? (c : Char) : Option Nat :=
  if c = 'x' ∨ c = 'X' then some 16
  else if c = 'o' ∨ c = 'O' then some 8
  else if c = 'b' ∨ c = 'B' then some 2
  else none

/-- The whole number that a text writes, if it writes one: in base ten with a sign, in another base
without one, and as nothing for zero. -/
def whole? (s : String) : Option Int :=
  match Text.trimChars s.toList with
  | [] => some 0
  | '0' :: c :: cs =>
      match base? c with
      | some base =>
          if cs ≠ [] ∧ cs.all (Digits.isDigit base) then some (Digits.read base cs) else none
      | none => if (c :: cs).all Digits.isDecimal then some (Digits.read 10 (c :: cs)) else none
  | c :: cs =>
      let digits := if c = '-' ∨ c = '+' then cs else c :: cs
      let sign : Int := if c = '-' then -1 else 1
      if digits ≠ [] ∧ digits.all Digits.isDecimal then some (sign * Digits.read 10 digits)
      else none

end Decimal

namespace Quantity

variable {α : Type} [Scalar α]

def ofDecimal (m : Nat) (e : Int) : Quantity α :=
  let point := (Nat.toDigits 10 m).length + e
  if m = 0 ∨ point < -330 then .finite 0
  else if 310 < point then .infinite false
  else .finite (OfScientific.ofScientific m (e < 0) e.natAbs)

def negate : Quantity α → Quantity α
  | .finite x => .finite (0 - x)
  | .infinite negative => .infinite !negative
  | .nan => .nan

def ofUnsigned (cs : List Char) : Quantity α :=
  if cs = "Infinity".toList then .infinite false
  else
    match Decimal.literal? cs with
    | some (m, e) => ofDecimal m e
    | none => .nan

def ofBase (base : Nat) (cs : List Char) : Quantity α :=
  if cs ≠ [] ∧ cs.all (Digits.isDigit base) then
    .finite (Digits.read base cs : Nat)
  else .nan

/-- The number that a text counts as: a decimal literal with blanks and a sign around it, a whole
number in another base, or nothing for zero. Any other text is no number. -/
def ofText (s : String) : Quantity α :=
  match Text.trimChars s.toList with
  | [] => .finite 0
  | '-' :: cs => (ofUnsigned cs).negate
  | '+' :: cs => ofUnsigned cs
  | '0' :: c :: cs =>
      match Decimal.base? c with
      | some base => ofBase base cs
      | none => ofUnsigned ('0' :: c :: cs)
  | cs => ofUnsigned cs

end Quantity

end Evidence
