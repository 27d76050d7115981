import Evidence.Text.Blank
import Evidence.Text.Quoted
import Evidence.Text.Units

namespace Evidence

namespace Label

def ignorance : String := "Θ"

def empty : String := "∅"

def separator : Char := ','

end Label

/-- One of the mutually exclusive possibilities of a frame. A name is made of whole characters: a
string of UTF-16 units with an unpaired surrogate is no text, and so there is no hypothesis of that
name. -/
inductive Hypothesis where
  | number (n : Nat)
  | name (s : String)
  deriving DecidableEq

namespace Hypothesis

/-- The greatest number up to which binary64 tells all whole numbers apart. -/
def greatest : Nat := 9007199254740991

def text : Hypothesis → String
  | .number n => toString n
  | .name s => s

def json : Hypothesis → String
  | .number n => toString n
  | .name s => Text.quote s

def IsTight (s : String) : Prop := s ≠ "" ∧ Text.trim s = s

instance (s : String) : Decidable (IsTight s) := inferInstanceAs (Decidable (_ ∧ _))

def IsReserved (s : String) : Prop :=
  Label.separator ∈ s.toList ∨ s = Label.ignorance ∨ s = Label.empty

instance (s : String) : Decidable (IsReserved s) := inferInstanceAs (Decidable (_ ∨ _))

def Valid : Hypothesis → Prop
  | .number n => n ≤ greatest
  | .name s => IsTight s ∧ ¬ IsReserved s

instance : DecidablePred Valid
  | .number n => inferInstanceAs (Decidable (n ≤ greatest))
  | .name s => inferInstanceAs (Decidable (IsTight s ∧ ¬ IsReserved s))

protected def lt : Hypothesis → Hypothesis → Prop
  | .number m, .number n => m < n
  | .number _, .name _ => True
  | .name _, .number _ => False
  | .name s, .name t => Text.precedes s t

instance : LT Hypothesis := ⟨Hypothesis.lt⟩

instance : DecidableLT Hypothesis
  | .number m, .number n => inferInstanceAs (Decidable (m < n))
  | .number _, .name _ => inferInstanceAs (Decidable True)
  | .name _, .number _ => inferInstanceAs (Decidable False)
  | .name s, .name t => inferInstanceAs (Decidable (Text.precedes s t))

theorem lt_irrefl (h : Hypothesis) : ¬ h < h := by
  cases h with
  | number n => exact Nat.lt_irrefl n
  | name s => exact Text.precedes_irrefl s

theorem lt_trans : ∀ {h k l : Hypothesis}, h < k → k < l → h < l
  | .number _, .number _, .number _, hk, kl => Nat.lt_trans hk kl
  | .number _, _, .name _, _, _ => trivial
  | _, .name _, .number _, _, kl => False.elim kl
  | .name _, .number _, _, hk, _ => False.elim hk
  | .name _, .name _, .name _, hk, kl => Text.precedes_trans hk kl

theorem eq_of_not_lt {h k : Hypothesis} (hk : ¬ h < k) (kh : ¬ k < h) : h = k := by
  cases h <;> cases k
  · exact congrArg number (Nat.le_antisymm (Nat.not_lt.1 kh) (Nat.not_lt.1 hk))
  · exact absurd trivial hk
  · exact absurd trivial kh
  · exact congrArg name (Text.eq_of_not_precedes hk kh)

end Hypothesis

end Evidence
