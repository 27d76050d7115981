import Evidence.Number.Scalar

namespace Evidence

/-- Amounts under distinct keys, in the order in which the keys first came up. -/
abbrev Tally (κ α : Type) := List (κ × α)

namespace Tally

variable {κ α : Type} [DecidableEq κ]

def keys (t : Tally κ α) : List κ := t.map (·.1)

def values (t : Tally κ α) : List α := t.map (·.2)

def get? (k : κ) (t : Tally κ α) : Option α := (t.find? (·.1 = k)).map (·.2)

def has (k : κ) (t : Tally κ α) : Bool := t.any (·.1 = k)

def put (k : κ) (x : α) : Tally κ α → Tally κ α
  | [] => [(k, x)]
  | (l, y) :: rest => if l = k then (l, x) :: rest else (l, y) :: put k x rest

def ofPairs (pairs : List (κ × α)) : Tally κ α := pairs.foldl (fun t p => put p.1 p.2 t) []

variable [Scalar α]

def add (k : κ) (x : α) : Tally κ α → Tally κ α
  | [] => [(k, x)]
  | (l, y) :: rest => if l = k then (l, y + x) :: rest else (l, y) :: add k x rest

def collect (pairs : List (κ × α)) : Tally κ α := pairs.foldl (fun t p => add p.1 p.2 t) []

def amount (k : κ) (t : Tally κ α) : α := (t.get? k).getD 0

def total (t : Tally κ α) : α := sum t.values

def totalOf (p : κ → Bool) (t : Tally κ α) : α := sum ((t.filter fun e => p e.1).map (·.2))

end Tally

end Evidence
