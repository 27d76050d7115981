import Evidence.Number.Text

namespace Evidence.Cbor

/-- The numbers of a view, with their width in bytes. Those that are `clamped` are single bytes, and
a number outside their range becomes the nearest one inside it. -/
inductive Element where
  | natural (width : Nat)
  | clamped
  | integer (width : Nat)
  | float (width : Nat)

namespace Element

def width : Element → Nat
  | natural width | integer width | float width => width
  | clamped => 1

def isExact : Element → Bool
  | natural width | integer width => width = 8
  | _ => false

end Element

def lowFirst (bs : List UInt8) : Nat := bs.foldr (fun b n => b.toNat + 256 * n) 0

def highFirst (bs : List UInt8) : Nat := bs.foldl (fun n b => 256 * n + b.toNat) 0

def lowBytes : (width : Nat) → Nat → List UInt8
  | 0, _ => []
  | width + 1, n => UInt8.ofNat n :: lowBytes width (n / 256)

def wordCount (width : Nat) : Nat := 1 <<< (8 * width)

def signed (width n : Nat) : Int :=
  if 2 * n < wordCount width then n else (n : Int) - (wordCount width : Nat)

def wrapped (width : Nat) (n : Int) : Nat := (n % (wordCount width : Nat)).toNat

def binary? (width n : Nat) : Option Binary64 :=
  match width with
  | 2 => some (.ofFields 5 10 n)
  | 4 => some (.ofFields 8 23 n)
  | 8 => some (.ofFields 11 52 n)
  | _ => none

def wholePart (x : Float) : Int :=
  match Binary64.ofBits x.toBits with
  | .finite isNegative significand exponent =>
      let n : Nat :=
        if 0 ≤ exponent then significand <<< exponent.toNat else significand >>> (-exponent).toNat
      if isNegative then -(n : Int) else n
  | _ => 0

def nearestByte (x : Float) : Nat :=
  let below := x.floor
  let n := (wholePart below).toNat
  if !(0 < x) then 0
  else if 255 ≤ x then 255
  else if x - below < 0.5 then n
  else if 0.5 < x - below then n + 1
  else n + n % 2

def Element.wordOf (e : Element) (x : Float) : Nat :=
  match e with
  | .natural width | .integer width => wrapped width (wholePart x)
  | .clamped => nearestByte x
  | .float width => if width = 4 then x.toFloat32.toBits.toNat else x.toBits.toNat

structure Span where
  offset : Nat
  bytes : List UInt8

def Span.size (s : Span) : Nat := s.bytes.length

structure View where
  element : Element
  span : Span

namespace View

def ofWords (e : Element) (words : List Nat) : View := ⟨e, 0, words.flatMap (lowBytes e.width)⟩

def count (v : View) : Nat := v.span.size / v.element.width

def wordsOf (width : Nat) : (count : Nat) → List UInt8 → List Nat
  | 0, _ => []
  | count + 1, bs => lowFirst (bs.take width) :: wordsOf width count (bs.drop width)

def words (v : View) : List Nat := wordsOf v.element.width v.count v.span.bytes

def put (v : View) (i word : Nat) : View :=
  let start := i * v.element.width
  let bytes := v.span.bytes.take start ++ lowBytes v.element.width word ++
    v.span.bytes.drop (start + v.element.width)
  ⟨v.element, v.span.offset, bytes⟩

end View

inductive ByteOrder where
  | low
  | high
  deriving DecidableEq

/-- What a tag announces, if it is one of a view. No view holds floats of two or of sixteen bytes,
and single bytes have no order of their own. -/
def viewOf? (tag : Nat) : Option (Element × ByteOrder) :=
  let k := tag - 64
  let order : ByteOrder := if k / 4 % 2 = 1 ∨ k % 4 = 0 then .low else .high
  if tag < 64 ∨ 87 < tag ∨ tag = 76 then none
  else if tag = 68 then some (.clamped, order)
  else if k < 8 then some (.natural (1 <<< (k % 4)), order)
  else if k < 16 then some (.integer (1 <<< (k % 4)), order)
  else if k % 4 = 1 ∨ k % 4 = 2 then some (.float (2 <<< (k % 4)), order)
  else none

/-- The view of a byte string whose low bytes come first. It is seen in place where its offset is a
multiple of the width, and then bytes that are too few for an element are left out; elsewhere there
must be none. -/
def View.low? (e : Element) (s : Span) : Option View :=
  let used := s.bytes.take (s.size / e.width * e.width)
  if s.offset % e.width = 0 then some ⟨e, s.offset, used⟩
  else if used.length = s.size then some ⟨e, 0, used⟩
  else none

def turn (width : Nat) : (count : Nat) → List UInt8 → List UInt8
  | 0, _ => []
  | count + 1, bs => (bs.take width).reverse ++ turn width count (bs.drop width)

def View.high (e : Element) (bytes : List UInt8) (length : Nat) : View :=
  ⟨e, 0, turn e.width (length / e.width) bytes⟩

end Evidence.Cbor
