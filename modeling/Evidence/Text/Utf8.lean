namespace Evidence.Utf8

def encodeChar (c : Char) : List UInt8 :=
  let n := c.toNat
  let tail (shift : Nat) : UInt8 := UInt8.ofNat (0x80 + n >>> shift % 64)
  if n < 0x80 then [UInt8.ofNat n]
  else if n < 0x800 then [UInt8.ofNat (0xC0 + n / 64), tail 0]
  else if n < 0x10000 then [UInt8.ofNat (0xE0 + n / 4096), tail 6, tail 0]
  else [UInt8.ofNat (0xF0 + n / 262144), tail 12, tail 6, tail 0]

def encode (s : String) : List UInt8 := s.toList.flatMap encodeChar

structure Pending where
  bits : Nat
  missing : Nat
  low : Nat
  high : Nat

inductive Lead where
  | whole (c : Char)
  | more (p : Pending)
  | stray

/-- The bounds of the second byte keep out longer forms than needed, surrogates, and all beyond
U+10FFFF. -/
def lead (b : Nat) : Lead :=
  if b < 0x80 then .whole (Char.ofNat b)
  else if b < 0xC2 then .stray
  else if b < 0xE0 then .more ⟨b - 0xC0, 1, 0x80, 0xBF⟩
  else if b < 0xF0 then
    .more ⟨b - 0xE0, 2, if b = 0xE0 then 0xA0 else 0x80, if b = 0xED then 0x9F else 0xBF⟩
  else if b < 0xF5 then
    .more ⟨b - 0xF0, 3, if b = 0xF0 then 0x90 else 0x80, if b = 0xF4 then 0x8F else 0xBF⟩
  else .stray

def replacement : Char := Char.ofNat 0xFFFD

/-- A character that breaks off is replaced as a whole, and the byte that broke it off is read
afresh. -/
def decodeFrom : Option Pending → List UInt8 → List Char
  | none, [] => []
  | some _, [] => [replacement]
  | none, b :: bytes =>
      match lead b.toNat with
      | .whole c => c :: decodeFrom none bytes
      | .more p => decodeFrom (some p) bytes
      | .stray => replacement :: decodeFrom none bytes
  | some p, b :: bytes =>
      if p.low ≤ b.toNat ∧ b.toNat ≤ p.high then
        let bits := p.bits * 64 + b.toNat % 64
        if p.missing ≤ 1 then Char.ofNat bits :: decodeFrom none bytes
        else decodeFrom (some ⟨bits, p.missing - 1, 0x80, 0xBF⟩) bytes
      else
        replacement :: match lead b.toNat with
          | .whole c => c :: decodeFrom none bytes
          | .more q => decodeFrom (some q) bytes
          | .stray => replacement :: decodeFrom none bytes

def decode (bytes : List UInt8) : String := String.ofList (decodeFrom none bytes)

end Evidence.Utf8
