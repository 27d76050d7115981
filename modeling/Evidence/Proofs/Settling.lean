import Mathlib
import Evidence.Fusion.Combination
import Evidence.Proofs.Inspecting

namespace Evidence

namespace Tally

variable {κ : Type}

theorem le_total {t : Tally κ ℚ} (ht : ∀ e ∈ t, 0 ≤ e.2) {e : κ × ℚ} (he : e ∈ t) :
    e.2 ≤ t.total := by
  rw [total, sum_eq]
  exact List.single_le_sum (List.forall_mem_map.2 ht) e.2 (List.mem_map_of_mem he)

theorem total_pos {t : Tally κ ℚ} (ht : ∀ e ∈ t, 0 < e.2) (hne : t ≠ []) : 0 < t.total := by
  rw [total_eq_integral]
  exact integral_pos ht hne

theorem total_eq_zero_iff {t : Tally κ ℚ} (ht : ∀ e ∈ t, 0 < e.2) : t.total = 0 ↔ t = [] := by
  constructor
  · intro hzero
    by_contra hne
    exact (total_pos ht hne).ne' hzero
  · rintro rfl
    rfl

theorem total_map_div (t : Tally κ ℚ) (c : ℚ) :
    total (t.map fun e => (e.1, e.2 / c)) = t.total / c := by
  rw [total_eq_integral, integral_map_div, ← total_eq_integral]

theorem le_one_iff [DecidableEq κ] {t : Tally κ ℚ} (ht : t.keys.Nodup) :
    (∀ e ∈ t, e.2 ≤ 1) ↔ ∀ k, t.amount k ≤ 1 := by
  constructor
  · intro h k
    by_cases hk : k ∈ t.keys
    · obtain ⟨e, he, rfl⟩ := List.mem_map.1 hk
      rw [amount_of_mem ht he]
      exact h e he
    · rw [amount_eq_zero hk]
      exact zero_le_one
  · intro h e he
    rw [← amount_of_mem ht he]
    exact h e.1

end Tally

theorem Tolerances.refuses_finite {ε : Value ℚ} {δ x : ℚ} :
    (⟨ε, .finite δ⟩ : Tolerances ℚ).refuses x = true ↔ δ < x :=
  decide_eq_true_iff

namespace Combination

def settled (t : Tolerances ℚ) (a : Tally Mask ℚ) : Tally Mask ℚ :=
  if t.ignores |a.total - 1| ∧ ∀ e ∈ a, e.2 ≤ 1 then a else a.map fun e => (e.1, e.2 / a.total)

theorem settle_eq (t : Tolerances ℚ) (a : Tally Mask ℚ) :
    settle t a = if t.refuses |a.total - 1| then
      .error (.normalizationDrift (.finite a.total) t.hardDriftThreshold) else .ok (settled t a) := by
  have hany : (¬ (a.any fun p => decide ((1 : ℚ) < p.2)) = true) ↔ ∀ e ∈ a, e.2 ≤ 1 := by
    rw [List.any_eq_true]
    simp only [decide_eq_true_eq, not_exists, not_and, not_lt]
  simp only [settle, settled]
  rw [distance_eq]
  split_ifs with hr h₁ h₂ h₂
  · rfl
  · rfl
  · exact absurd ⟨h₁.1, hany.1 h₁.2⟩ h₂
  · exact absurd ⟨h₂.1, hany.2 h₂.2⟩ h₁
  · rfl

theorem integral_settled (t : Tolerances ℚ) (a : Tally Mask ℚ) (g : Mask → ℚ) :
    (settled t a).integral g = if t.ignores |a.total - 1| ∧ ∀ e ∈ a, e.2 ≤ 1 then a.integral g
      else a.integral g / a.total := by
  unfold settled
  split_ifs with h
  · rfl
  · rw [Tally.integral_map_div]

section Positive

variable {a : Tally Mask ℚ} (ha : ∀ e ∈ a, 0 < e.2) (t : Tolerances ℚ)
include ha

theorem settled_le_one : ∀ e ∈ settled t a, e.2 ≤ 1 := by
  unfold settled
  split_ifs with h
  · exact h.2
  · rw [List.forall_mem_map]
    intro e he
    have htotal := Tally.total_pos ha (List.ne_nil_of_mem he)
    exact (div_le_one htotal).2 (Tally.le_total (fun d hd => (ha d hd).le) he)

theorem total_settled (hne : a ≠ []) {ε : ℚ} (hε : t.epsilon = .finite ε) (h0 : 0 < ε) :
    |(settled t a).total - 1| ≤ ε := by
  unfold settled
  split_ifs with h
  · have hdrift := h.1
    rw [Tolerances.ignores, hε] at hdrift
    exact of_decide_eq_true hdrift
  · rw [Tally.total_map_div, div_self (Tally.total_pos ha hne).ne', sub_self, abs_zero]
    exact h0.le

theorem exists_factor (hne : a ≠ []) :
    ∃ c, 0 < c ∧ settled t a = a.map fun e => (e.1, c * e.2) := by
  unfold settled
  split_ifs with h
  · refine ⟨1, one_pos, ?_⟩
    simp only [one_mul, Prod.mk.eta, List.map_id']
  · refine ⟨a.total⁻¹, inv_pos.2 (Tally.total_pos ha hne), ?_⟩
    simp only [div_eq_inv_mul]

end Positive

section Supported

variable {f : Frame} {a : Tally Mask ℚ} (ha : a.Supported f) (t : Tolerances ℚ)
include ha

theorem supported_settled : (settled t a).Supported f := by
  by_cases hne : a = []
  · subst hne
    unfold settled
    split_ifs <;> exact ha
  · unfold settled
    split_ifs with h
    · exact ha
    · exact ha.map_div (Tally.total_pos ha.pos hne)

section Carried

variable {g : Frame} {b : Tally Mask ℚ} (hb : b.Supported g) {φ : Mask → Mask}
  (hab : Tally.Carried φ a b) (hφ : ∀ j ∈ a.keys, ∀ k ∈ a.keys, φ j = φ k → j = k)
include hb hab hφ

theorem le_one_iff_carried : (∀ e ∈ b, e.2 ≤ 1) ↔ ∀ e ∈ a, e.2 ≤ 1 := by
  have hamount {k : Mask} (hk : k ∈ a.keys) : b.amount (φ k) = a.amount k :=
    hab.amount ha.distinct hb.distinct fun j hj => hφ j hj k hk
  rw [Tally.le_one_iff hb.distinct]
  constructor
  · intro h e he
    rw [← Tally.amount_of_mem ha.distinct he, ← hamount (List.mem_map_of_mem he)]
    exact h _
  · intro h k
    by_cases hk : ∃ j ∈ a.keys, φ j = k
    · obtain ⟨j, hj, rfl⟩ := hk
      rw [hamount hj]
      exact (Tally.le_one_iff ha.distinct).1 h j
    · -- nothing was moved to this key
      rw [Tally.amount_eq_integral hb.distinct, hab,
        Tally.integral_congr fun j hj => if_neg fun hjk => hk ⟨j, hj, hjk⟩, Tally.integral_zero]
      exact zero_le_one

/-- Settling looks at nothing but the sums over the masses. -/
theorem settled_carried : Tally.Carried φ (settled t a) (settled t b) := by
  intro k
  rw [integral_settled, integral_settled, hab.total, hab]
  simp only [le_one_iff_carried ha hb hab hφ]

end Carried

end Supported

theorem settled_nil (t : Tolerances ℚ) : settled t [] = [] := by
  unfold settled
  split_ifs <;> rfl

structure Normal (ε : ℚ) (a : Tally Mask ℚ) : Prop where
  in_range : ∀ e ∈ a, 0 < e.2 ∧ e.2 ≤ 1
  near : |a.total - 1| ≤ ε

section Normal

variable {a : Tally Mask ℚ} {ε δ : ℚ}

theorem Normal.settle_eq (h : Normal ε a) (hδ : ε < δ) :
    settle ⟨.finite ε, .finite δ⟩ a = .ok a := by
  have hrefuses : ¬ (⟨.finite ε, .finite δ⟩ : Tolerances ℚ).refuses |a.total - 1| = true := by
    rw [Tolerances.refuses_finite]
    exact not_lt.2 (h.near.trans hδ.le)
  have hleft : settled ⟨.finite ε, .finite δ⟩ a = a :=
    if_pos ⟨decide_eq_true h.near, fun e he => (h.in_range e he).2⟩
  rw [Combination.settle_eq, if_neg hrefuses, hleft]

theorem normal_settled (ha : ∀ e ∈ a, 0 < e.2) (hne : a ≠ []) (h0 : 0 < ε) (δ : Value ℚ) :
    Normal ε (settled ⟨.finite ε, δ⟩ a) where
  in_range e he := by
    refine ⟨?_, settled_le_one ha _ e he⟩
    obtain ⟨c, hc, hscaled⟩ := exists_factor ha ⟨.finite ε, δ⟩ hne
    rw [hscaled] at he
    obtain ⟨d, hd, rfl⟩ := List.mem_map.1 he
    exact mul_pos hc (ha d hd)
  near := total_settled ha _ hne rfl h0

/-- Positive masses are refused just when their total drifts past the hard threshold. All others are
brought to normal masses by one common factor, which leaves normal masses as they are, so that
nothing is left to do the second time. -/
theorem settle_normalizes (hne : a ≠ []) (ha : ∀ e ∈ a, 0 < e.2) (h0 : 0 < ε) (hδ : ε < δ) :
    (settle ⟨.finite ε, .finite δ⟩ a =
        .error (.normalizationDrift (.finite a.total) (.finite δ)) ↔ δ < |a.total - 1|) ∧
      (|a.total - 1| ≤ δ → ∃ b, settle ⟨.finite ε, .finite δ⟩ a = .ok b ∧
        (∃ c, 0 < c ∧ b = a.map fun e => (e.1, c * e.2)) ∧ Normal ε b ∧ (b = a ↔ Normal ε a) ∧
        settle ⟨.finite ε, .finite δ⟩ b = .ok b) := by
  have hsettle := settle_eq ⟨.finite ε, .finite δ⟩ a
  have hnormal := normal_settled ha hne h0 (.finite δ)
  simp only [Tolerances.refuses_finite] at hsettle
  constructor
  · rw [hsettle]
    split_ifs with hdrift
    · exact iff_of_true rfl hdrift
    · exact iff_of_false (fun h => by cases h) hdrift
  · intro hdrift
    rw [if_neg (not_lt.2 hdrift)] at hsettle
    refine ⟨_, hsettle, exists_factor ha _ hne, hnormal, ?_, hnormal.settle_eq hδ⟩
    constructor
    · intro h
      rwa [h] at hnormal
    · intro h
      exact Except.ok.inj (hsettle.symm.trans (h.settle_eq hδ))

/-- The total has hardly drifted, but one mass is above one. -/
theorem settle_normalizes_protruding : ∃ b,
    settle ⟨.finite (1 / 100), .finite (1 / 10)⟩
      [(.finite 1, 1001 / 1000), (.finite 2, 1 / 1000)] = .ok b ∧
    b ≠ [(.finite 1, 1001 / 1000), (.finite 2, 1 / 1000)] ∧ Normal (1 / 100) b ∧
    settle ⟨.finite (1 / 100), .finite (1 / 10)⟩ b = .ok b := by
  obtain ⟨-, hsettled⟩ := settle_normalizes (a := [(.finite 1, 1001 / 1000), (.finite 2, 1 / 1000)])
    (ε := 1 / 100) (δ := 1 / 10) (by simp) (by norm_num) (by norm_num) (by norm_num)
  obtain ⟨b, hb, -, hnormal, hsame, hagain⟩ := hsettled (by
    norm_num [Tally.total_eq_integral])
  refine ⟨b, hb, fun h => ?_, hnormal, hagain⟩
  have hone := ((hsame.1 h).in_range _ (List.mem_cons_self ..)).2
  norm_num at hone

end Normal

end Combination

end Evidence
