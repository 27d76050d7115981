import Evidence.MassFunction.Entries

namespace Evidence

structure Decision (α : Type) where
  hypothesis : Hypothesis
  probability : α

namespace MassFunction

variable {α : Type} [Scalar α]

def sharesAt (entries : List (Event × α)) (position : Nat) : List α :=
  (entries.filter fun p => p.1.mask.has position).map fun p => p.2 / (p.1.size : α)

def pignistic (m : MassFunction α) : Except (Fault α) (List (Hypothesis × α)) := do
  let entries ← m.entries
  .ok (m.frame.elements.mapIdx fun i h => (h, sum (sharesAt entries i)))

def likeliest (best : Decision α) : List (Hypothesis × α) → Decision α
  | [] => best
  | (h, p) :: rest => likeliest (if best.probability < p then ⟨h, p⟩ else best) rest

def decide (m : MassFunction α) : Except (Fault α) (Decision α) := do
  let probabilities ← m.pignistic
  match probabilities with
  | [] => .error .noHypotheses
  | (h, p) :: rest => .ok (likeliest ⟨h, p⟩ rest)

end MassFunction

end Evidence
