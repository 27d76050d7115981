import Evidence.Cbor.Conversion

namespace Evidence.Cbor

structure Share where
  datum : Datum
  isReferred : Bool

structure Strand where
  text : List Char
  place : Datum

/-- Two strands with the characters of many texts, each of which is told by its length alone, and
where the bytes that hold them end. -/
structure Bundle where
  first : Strand
  second : Strand
  stop : Float

/-- What has been read so far: the whole input with its size, the position up to which it has been
read, what is left of it, how many items the lists have announced, whether the next map keeps its
keys as they are, the objects, and what later items can refer to. -/
structure Reading where
  input : List UInt8
  size : Nat
  position : Nat
  rest : List UInt8
  announced : Nat
  keepsKeys : Bool
  store : Store
  shares : List Share
  layouts : List (Nat × Datum)
  table : Option Datum
  bundle : Option Bundle

def Reading.ofBytes (input : List UInt8) : Reading :=
  ⟨input, input.length, 0, input, 0, false, .initial, [], [], none, none⟩

abbrev Reader (β : Type) := StateT Reading Option β

inductive Argument where
  | given (n width : Nat)
  | unbounded

namespace Reader

def byte : Reader UInt8 := do
  match (← get).rest with
  | [] => failure
  | b :: rest =>
      modify fun s => { s with position := s.position + 1, rest := rest }
      return b

def take (n : Nat) : Reader (List UInt8) := do
  let rest := (← get).rest
  let taken := rest.take n
  if taken.length = n then
    modify fun s => { s with position := s.position + n, rest := rest.drop n }
    return taken
  else failure

def word (width : Nat) : Reader Nat := highFirst <$> take width

def goTo (position : Nat) : Reader Unit :=
  modify fun s => { s with position := position, rest := s.input.drop position }

def span (n : Nat) : Reader Span := do
  let position := (← get).position
  return ⟨position, ← take n⟩

def byteOrderMark : List UInt8 := [0xEF, 0xBB, 0xBF]

def greatestShort : Nat := 64

/-- The text of so many bytes, of which all may be there or only the first ones. In a short text the
others are zero. A long one ends with the bytes, and a mark in front of it is left out. -/
def textOf (size : Nat) (bytes : List UInt8) : String :=
  if size ≤ greatestShort then Utf8.decode (bytes ++ List.replicate (size - bytes.length) 0)
  else if byteOrderMark.isPrefixOf bytes then Utf8.decode (bytes.drop byteOrderMark.length)
  else Utf8.decode bytes

def text (n : Nat) : Reader String := textOf n <$> take n

def argument (info : Nat) : Reader Argument :=
  if info < 24 then return .given info 0
  else if info < 28 then do
    let width := 1 <<< (info - 24)
    return .given (← word width) width
  else if info = 31 then return .unbounded
  else failure

def count : Reader Nat := do
  let info := (← byte).toNat % 32
  if 24 ≤ info ∧ info < 27 then word (1 <<< (info - 24)) else return info

def many {β : Type} (read : Reader β) : Nat → Reader (List β)
  | 0 => return []
  | n + 1 => return (← read) :: (← many read n)

def untilNone {β : Type} (read : Reader (Option β)) : (steps : Nat) → Reader (List β)
  | 0 => failure
  | steps + 1 => do
      match ← read with
      | none => return []
      | some x => return x :: (← untilNone read steps)

def all {β : Type} (read : Reader (Option β)) : Argument → Reader (List β)
  | .given n _ => many (do (← read).getM) n
  | .unbounded => do
      let s ← get
      untilNone read (s.size - s.position + 1)

def make (form : Form) (fields : Record Datum) : Reader Datum :=
  modifyGet fun s =>
    let (d, store) := s.store.add ⟨form, fields⟩
    (d, { s with store := store })

def ask {β : Type} (question : Store → Option β) : Reader β := do (question (← get).store).getM

def part (name : String) (d : Datum) : Reader Datum := ask fun store => store.get? name d

def item (i : Nat) (d : Datum) : Reader Datum := part (toString i) d

def node (d : Datum) : Reader Node := ask fun store => store.node? d

def makeList (items : List Datum) : Reader Datum := make (.list items) []

def makeObject (fields : List (String × Datum)) : Reader Datum :=
  make .plain (Record.ofPairs fields)

def makeLabelled (tag : Nat) (d : Datum) : Reader Datum :=
  make .labelled [("value", d), ("tag", .integer tag)]

end Reader

end Evidence.Cbor
