import Mathlib
import Evidence.Proofs.Naming
import Evidence.Proofs.TallyIntegral
import Evidence.Proofs.Views

namespace Evidence.MassFunction

def betShare (f : Frame) (h : Hypothesis) (A : Mask) : ℚ :=
  if A.has (f.index h) then 1 / (A.card : ℚ) else 0

def betOf (m : MassFunction ℚ) (h : Hypothesis) : ℚ := m.masses.integral (betShare m.frame h)

theorem sum_sharesAt (f : Frame) (t : Tally Mask ℚ) (h : Hypothesis) :
    sum (sharesAt (t.map fun e => (Event.mk f e.1, e.2)) (f.index h)) = t.integral (betShare f h) := by
  rw [sum_eq]
  induction t with
  | nil => rfl
  | cons e t ih =>
      rw [Tally.integral_cons, ← ih, betShare]
      cases hhas : e.1.has (f.index h) with
      | false => simp [sharesAt, hhas]
      | true => simp [sharesAt, hhas, Event.size, div_eq_inv_mul]

theorem Valid.pignistic_eq {m : MassFunction ℚ} (hm : m.Valid) :
    m.pignistic = .ok (m.frame.elements.map fun h => (h, m.betOf h)) := by
  unfold pignistic
  rw [hm.entries_eq]
  refine congrArg Except.ok (Frame.mapIdx_elements.trans (List.map_congr_left fun h _ => ?_))
  exact congrArg (Prod.mk h) (sum_sharesAt m.frame m.masses h)

end Evidence.MassFunction
