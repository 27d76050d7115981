namespace Evidence.Hex

def digit (n : Nat) : Char := Nat.digitChar (n % 16)

def value? (c : Char) : Option Nat :=
  let n := c.toNat
  if '0'.toNat ≤ n ∧ n ≤ '9'.toNat then some (n - '0'.toNat)
  else if 'a'.toNat ≤ n ∧ n ≤ 'f'.toNat then some (n - 'a'.toNat + 10)
  else if 'A'.toNat ≤ n ∧ n ≤ 'F'.toNat then some (n - 'A'.toNat + 10)
  else none

def encode (bytes : List UInt8) : String :=
  String.ofList (bytes.flatMap fun b => [digit (b.toNat / 16), digit b.toNat])

def decodeChars : List Char → List UInt8
  | h :: l :: rest =>
      match value? h, value? l with
      | some high, some low => UInt8.ofNat (16 * high + low) :: decodeChars rest
      | _, _ => []
  | _ => []

def decode (s : String) : List UInt8 := decodeChars s.toList

end Evidence.Hex
