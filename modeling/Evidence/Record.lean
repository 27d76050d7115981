import Evidence.Number.Digits

namespace Evidence

/-- Fields under distinct keys. Canonical decimal indices come first, from the least to the
greatest; the other keys follow in the order in which they were first given. A key given again keeps
its place and takes the new value. -/
abbrev Record (β : Type) := List (String × β)

namespace Record

variable {β : Type}

/-- The index that a key writes, up to `2 ^ 32 - 2`: digits only, without leading zeros. -/
def index? (key : String) : Option Nat :=
  let n := Digits.read 10 key.toList
  if key.toList.all Digits.isDecimal ∧ Nat.toDigits 10 n = key.toList ∧ n ≤ 4294967294 then some n
  else none

def get? (key : String) (r : Record β) : Option β := (r.find? (·.1 = key)).map (·.2)

def keys (r : Record β) : List String := r.map (·.1)

def put (key : String) (value : β) : Record β → Record β
  | [] => [(key, value)]
  | field :: rest =>
      if field.1 = key then (key, value) :: rest else field :: put key value rest

def collect (pairs : List (String × β)) : Record β := pairs.foldl (fun r p => put p.1 p.2 r) []

def arrange (r : Record β) : Record β :=
  let indexed := r.filter fun p => (index? p.1).isSome
  let named := r.filter fun p => (index? p.1).isNone
  indexed.mergeSort (fun p q => (index? p.1).getD 0 ≤ (index? q.1).getD 0) ++ named

def ofPairs (pairs : List (String × β)) : Record β := arrange (collect pairs)

/-- The one key that a record does not keep when it is checked or written. -/
def unkeptKey : String := "__proto__"

def erase (key : String) (r : Record β) : Record β := r.filter (·.1 ≠ key)

end Record

end Evidence
