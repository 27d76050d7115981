import Evidence.Hypothesis
import Evidence.Mask
import Evidence.Text.Separated

namespace Evidence

/-- A finite set of valid hypotheses in canonical order, no two of which have the same text. -/
structure Roster where
  elements : List Hypothesis
  sorted : elements.Pairwise (· < ·)
  valid : ∀ h ∈ elements, h.Valid
  distinct : ∀ h ∈ elements, ∀ k ∈ elements, h.text = k.text → h = k

/-- A frame of discernment. Its canonical order makes subsets masks over positions, so that frames
of the same hypotheses agree on every mask. -/
structure Frame extends Roster where
  nonempty : elements ≠ []

namespace Frame

theorem ext {f g : Frame} (h : f.elements = g.elements) : f = g := by
  obtain ⟨⟨_, _, _, _⟩, _⟩ := f
  obtain ⟨⟨_, _, _, _⟩, _⟩ := g
  subst h
  rfl

instance : DecidableEq Frame := fun f g =>
  if h : f.elements = g.elements then isTrue (ext h) else isFalse fun e => h (e ▸ rfl)

def size (f : Frame) : Nat := f.elements.length

def full (f : Frame) : Mask := Mask.full f.size

def position? (f : Frame) (h : Hypothesis) : Option Nat := f.elements.idxOf? h

def positionOfText? (f : Frame) (s : String) : Option Nat := f.elements.findIdx? (·.text = s)

def text (f : Frame) : String := "\x7b" ++ Text.join ", " (f.elements.map (·.text)) ++ "\x7d"

end Frame

end Evidence
