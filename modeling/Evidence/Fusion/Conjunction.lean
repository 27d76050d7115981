import Evidence.MassFunction.Basic

namespace Evidence

/-- Products of masses under the intersection and the union of the events that they come from. Those
with the same key are merged with every source that is taken in. The union is left empty where
nobody asks for it. -/
abbrev Conjunction (α : Type) := Tally (Mask × Mask) α

namespace Conjunction

variable {α : Type} [Scalar α]

def start (f : Frame) : Conjunction α := [((f.full, .empty), 1)]

def extend (withUnion : Bool) (c : Conjunction α) (source : Tally Mask α) : Conjunction α :=
  Tally.collect <| c.flatMap fun ((inter, union), x) =>
    source.map fun (mask, y) =>
      ((inter.inter mask, if withUnion then union.union mask else .empty), x * y)

def ofSources (withUnion : Bool) (f : Frame) (sources : List (MassFunction α)) : Conjunction α :=
  sources.foldl (fun c m => extend withUnion c m.masses) (start f)

def conflict (c : Conjunction α) : α := lesser (c.totalOf fun key => key.1 == .empty) 1

end Conjunction

end Evidence
