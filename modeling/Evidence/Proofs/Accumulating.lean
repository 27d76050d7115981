import Mathlib
import Evidence.Proofs.Adding
import Evidence.Proofs.Capacity

namespace Evidence

variable {α : Type} [Scalar α] [Scalar.Accumulating α]

namespace Tally

variable {κ : Type} {t : Tally κ α} {p q : κ → Bool}

open Scalar.Accumulating

/-- Sums that start in order stay in order as long as one takes in whatever the other does. -/
theorem foldl_filter_le (ht : ∀ e ∈ t, 0 ≤ e.2) (hpq : ∀ k ∈ t.keys, p k = true → q k = true)
    {a b : α} (ha : 0 ≤ a) (hab : a ≤ b) :
    ((t.filter fun e => p e.1).map (·.2)).foldl (· + ·) a ≤
      ((t.filter fun e => q e.1).map (·.2)).foldl (· + ·) b := by
  induction t generalizing a b with
  | nil => exact hab
  | cons e t ih =>
      obtain ⟨he, ht⟩ := List.forall_mem_cons.1 ht
      obtain ⟨hpqe, hpq⟩ := List.forall_mem_cons.1 hpq
      have hb : 0 ≤ b := le_trans ha hab
      have hmore : b ≤ b + e.2 := le_add_right hb he
      cases hp : p e.1 with
      | true =>
          have hq : q e.1 = true := hpqe hp
          simp only [List.filter_cons, hp, hq, if_true, List.map_cons, List.foldl_cons]
          exact ih ht hpq (le_trans ha (le_add_right ha he)) (add_le_add_right ha hab he)
      | false =>
          cases hq : q e.1 with
          | true =>
              simp only [List.filter_cons, hp, hq, if_true, Bool.false_eq_true, if_false,
                List.map_cons, List.foldl_cons]
              exact ih ht hpq ha (le_trans hab hmore)
          | false =>
              simp only [List.filter_cons, hp, hq, Bool.false_eq_true, if_false]
              exact ih ht hpq ha hab

theorem totalOf_le (ht : ∀ e ∈ t, 0 ≤ e.2) (hpq : ∀ k ∈ t.keys, p k = true → q k = true) :
    t.totalOf p ≤ t.totalOf q :=
  foldl_filter_le ht hpq le_zero le_zero

end Tally

namespace MassFunction

section Rounded

variable {m : MassFunction α} (h : m.Valid)
include h

theorem Valid.nonneg : ∀ e ∈ m.masses, 0 ≤ e.2 := fun e he =>
  Scalar.Accumulating.le_of_lt (h.positive e he).1

theorem Valid.beliefIn_le_plausibilityIn (S : Finset Hypothesis) :
    m.beliefIn S ≤ m.plausibilityIn S := by
  refine Tally.totalOf_le h.nonneg fun A hA hin => decide_eq_true ?_
  rw [Finset.inter_eq_left.2 (of_decide_eq_true hin)]
  exact h.members_nonempty hA

theorem Valid.beliefIn_mono {S T : Finset Hypothesis} (hST : S ⊆ T) :
    m.beliefIn S ≤ m.beliefIn T :=
  Tally.totalOf_le h.nonneg fun _ _ hin => decide_eq_true ((of_decide_eq_true hin).trans hST)

theorem Valid.plausibilityIn_mono {S T : Finset Hypothesis} (hST : S ⊆ T) :
    m.plausibilityIn S ≤ m.plausibilityIn T :=
  Tally.totalOf_le h.nonneg fun _ _ hmeet =>
    decide_eq_true ((of_decide_eq_true hmeet).mono (Finset.inter_subset_inter_left hST))

/-- Whatever is named is believed no more than it is plausible, and a greater set is neither
believed less nor less plausible. Everything is believed, and plausible, to the amount of the total.
None of this depends on how sums are rounded as long as rounding keeps the order. -/
theorem Valid.belief_ordered :
    (∀ (d : Designation α) S, d.Names m.frame S → m.belief d = .ok (m.beliefIn S) ∧
      m.plausibility d = .ok (m.plausibilityIn S) ∧
      m.interval d = .ok (m.beliefIn S, m.plausibilityIn S)) ∧
    (∀ S, m.beliefIn S ≤ m.plausibilityIn S) ∧
    (∀ S T, S ⊆ T → m.beliefIn S ≤ m.beliefIn T ∧ m.plausibilityIn S ≤ m.plausibilityIn T) ∧
    m.beliefIn m.frame.elements.toFinset = m.total ∧
    m.plausibilityIn m.frame.elements.toFinset = m.total :=
  ⟨fun _ _ hd => h.answers hd, h.beliefIn_le_plausibilityIn,
    fun _ _ hST => ⟨h.beliefIn_mono hST, h.plausibilityIn_mono hST⟩, m.beliefIn_frame,
    h.plausibilityIn_frame⟩

end Rounded

/-- Floats whose sum is one, but not when they are added up in this order. -/
def tilted : MassFunction Float :=
  ⟨.binary, [(.finite 3, 0.7), (.finite 1, 0.2), (.finite 2, 0.1)], defaultEpsilon⟩

theorem Valid.belief_ordered_tilted : tilted.Valid ∧ tilted.total < 1 ∧
    tilted.belief (.list [.ofNat 1, .ofNat 0]) = .ok tilted.total ∧
    tilted.belief (.single (.ofNat 0)) = .ok (tilted.beliefIn {.number 0}) ∧
    tilted.beliefIn {.number 0} ≤ tilted.plausibilityIn {.number 0} ∧
    tilted.plausibilityIn {.number 0} ≤ tilted.plausibilityIn {.number 0, .number 1} := by
  have hvalid : tilted.Valid := ⟨by decide, by decide, by decide, by decide, by decide⟩
  have hfirst : (Designation.single (.ofNat 0) : Designation Float).Names tilted.frame
      {.number 0} := ⟨.finite 1, rfl, by decide⟩
  have hboth : (Designation.list [.ofNat 1, .ofNat 0] : Designation Float).Names tilted.frame
      tilted.frame.elements.toFinset := ⟨.finite 3, rfl, rfl⟩
  obtain ⟨hanswers, hle, hmono, hwhole, -⟩ := hvalid.belief_ordered
  exact ⟨hvalid, by decide, hwhole ▸ (hanswers _ _ hboth).1, (hanswers _ _ hfirst).1, hle _,
    (hmono _ _ (by decide)).2⟩

end MassFunction

end Evidence
