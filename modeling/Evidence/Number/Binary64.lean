namespace Evidence

/-- What a binary64 word stands for. A finite word is `± significand * 2 ^ exponent`. -/
inductive Binary64 where
  | finite (negative : Bool) (significand : Nat) (exponent : Int)
  | infinite (negative : Bool)
  | nan
  deriving DecidableEq

namespace Binary64

/-- Reads a word with the given numbers of exponent and fraction bits. Binary64 is `11` and `52`;
the narrower interchange widths are read by the same rule. -/
def ofFields (exponentBits fractionBits : Nat) (word : Nat) : Binary64 :=
  let fields := 1 <<< exponentBits
  let hidden := 1 <<< fractionBits
  let negative := fields * hidden ≤ word
  let field := word / hidden % fields
  let fraction := word % hidden
  let bias : Nat := 1 <<< (exponentBits - 1)
  let lowest : Int := 2 - bias - fractionBits
  if field = fields - 1 then
    if fraction = 0 then .infinite negative else .nan
  else if field = 0 then .finite negative fraction lowest
  else .finite negative (hidden + fraction) (lowest + (field - 1))

def ofBits (word : UInt64) : Binary64 := ofFields 11 52 word.toNat

def hiddenBit : Nat := 1 <<< 52

def signBit (negative : Bool) : Nat := if negative then 1 <<< 63 else 0

def toBits : Binary64 → UInt64
  | .nan => UInt64.ofNat (2047 * hiddenBit + 1 <<< 51)
  | .infinite negative => UInt64.ofNat (signBit negative + 2047 * hiddenBit)
  | .finite negative significand exponent =>
      if significand = 0 then UInt64.ofNat (signBit negative)
      else
        let shift := 52 - significand.log2
        let field := exponent - shift + 1075
        if field ≤ 0 then
          UInt64.ofNat (signBit negative + significand <<< (exponent + 1074).toNat)
        else
          UInt64.ofNat
            (signBit negative + field.toNat * hiddenBit + (significand <<< shift - hiddenBit))

def toNat? : Binary64 → Option Nat
  | .finite negative significand exponent =>
      if significand = 0 then some 0
      else if negative then none
      else if 0 ≤ exponent then some (significand <<< exponent.toNat)
      else
        let scale := 1 <<< (-exponent).toNat
        if significand % scale = 0 then some (significand / scale) else none
  | _ => none

end Binary64

end Evidence
